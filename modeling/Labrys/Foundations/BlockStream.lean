import Mathlib.Data.List.Basic
import Mathlib.Data.List.Infix

/-! # Streams made of blocks

A generator gives a block of a fixed width from a state and advances the state. A stream of a given
length is cut from enough blocks: a loop appends blocks until the length is reached, and what is too
much is cut off. A cipher that combines a text with a stream symbol by symbol undoes itself if the
combination does.

* `stream_eq_take_fill`: the loop and the cut.
* `length_stream`, `stream_prefix`: a stream has its length and begins every longer one.
* `zipWith_cancel`: a text that is combined twice with one stream. -/

namespace Labrys.Foundations
set_option autoImplicit false

structure BlockStream (σ β : Type) where
  width : ℕ
  positive : 0 < width
  block : σ → List β
  advance : σ → σ
  length_block : ∀ s, (block s).length = width

namespace BlockStream
variable {σ β : Type} (G : BlockStream σ β)

/-- So many blocks, one after the other. -/
def blocks : ℕ → σ → List β
  | 0, _ => []
  | rounds + 1, s => G.block s ++ blocks rounds (G.advance s)

/-- How many blocks cover a length. -/
def rounds (n : ℕ) : ℕ := (n + (G.width - 1)) / G.width

def stream (s : σ) (n : ℕ) : List β := (G.blocks (G.rounds n) s).take n

/-- The loop: blocks are appended as long as the output is too short. -/
def fill (n : ℕ) (out : List β) (s : σ) : List β :=
  if out.length < n then fill n (out ++ G.block s) (G.advance s) else out
termination_by n - out.length
decreasing_by
  have hwidth := G.positive
  rw [List.length_append, G.length_block]
  omega

theorem length_blocks (rounds : ℕ) (s : σ) : (G.blocks rounds s).length = G.width * rounds := by
  induction rounds generalizing s with
  | zero => rfl
  | succ rounds ih =>
    rw [blocks, List.length_append, G.length_block, ih, Nat.mul_succ, Nat.add_comm]

theorem blocks_prefix {rounds rounds' : ℕ} (h : rounds ≤ rounds') (s : σ) :
    G.blocks rounds s <+: G.blocks rounds' s := by
  induction rounds generalizing rounds' s with
  | zero => exact List.nil_prefix
  | succ rounds ih =>
    obtain ⟨more, rfl⟩ := Nat.exists_eq_add_of_le' h
    have hmore : rounds ≤ more + rounds := Nat.le_add_left rounds more
    exact (List.prefix_append_right_inj (G.block s)).mpr (ih hmore (G.advance s))

theorem rounds_zero : G.rounds 0 = 0 := by
  have hwidth := G.positive
  rw [rounds, Nat.zero_add]
  exact Nat.div_eq_of_lt (by omega)

/-- One block covers so much of the length. -/
theorem rounds_of_pos {n : ℕ} (h : 0 < n) : G.rounds n = G.rounds (n - G.width) + 1 := by
  have hwidth := G.positive
  unfold rounds
  obtain hlt | hle := Nat.lt_or_ge G.width n
  · have hsum : n + (G.width - 1) = (n - G.width + (G.width - 1)) + G.width := by omega
    rw [hsum, Nat.add_div_right _ hwidth]
  · have hsum : n + (G.width - 1) = (n - 1) + G.width := by omega
    have hnone : n - G.width + (G.width - 1) = G.width - 1 := by omega
    rw [hsum, hnone, Nat.add_div_right _ hwidth, Nat.div_eq_of_lt (by omega : n - 1 < G.width),
      Nat.div_eq_of_lt (by omega : G.width - 1 < G.width)]

theorem rounds_mono {n m : ℕ} (h : n ≤ m) : G.rounds n ≤ G.rounds m :=
  Nat.div_le_div_right (by omega)

/-- The blocks cover the length. -/
theorem le_length_blocks (n : ℕ) (s : σ) : n ≤ (G.blocks (G.rounds n) s).length := by
  have hwidth := G.positive
  have hdiv := Nat.div_add_mod (n + (G.width - 1)) G.width
  have hmod := Nat.mod_lt (n + (G.width - 1)) hwidth
  rw [length_blocks, rounds]
  omega

/-- The loop appends the blocks that are missing. -/
theorem fill_eq (n : ℕ) (out : List β) (s : σ) :
    G.fill n out s = out ++ G.blocks (G.rounds (n - out.length)) s := by
  fun_induction fill G n out s with
  | case1 out s hshort ih =>
    have hrest : n - (out ++ G.block s).length = n - out.length - G.width := by
      rw [List.length_append, G.length_block, Nat.sub_add_eq]
    rw [ih, hrest, G.rounds_of_pos (Nat.sub_pos_of_lt hshort), blocks, List.append_assoc]
  | case2 out s hlong =>
    rw [Nat.sub_eq_zero_of_le (Nat.le_of_not_lt hlong), rounds_zero, blocks, List.append_nil]

theorem stream_eq_take_fill (s : σ) (n : ℕ) : G.stream s n = (G.fill n [] s).take n := by
  rw [fill_eq, List.nil_append, List.length_nil, Nat.sub_zero, stream]

theorem length_stream (s : σ) (n : ℕ) : (G.stream s n).length = n := by
  rw [stream, List.length_take, Nat.min_eq_left (G.le_length_blocks n s)]

theorem stream_prefix (s : σ) {n m : ℕ} (h : n ≤ m) : G.stream s n <+: G.stream s m := by
  obtain ⟨more, hmore⟩ := G.blocks_prefix (G.rounds_mono h) s
  have hcut : G.stream s n = (G.blocks (G.rounds m) s).take n := by
    rw [← hmore, List.take_append_of_le_length (G.le_length_blocks n s), stream]
  rw [hcut]
  exact List.take_prefix_take_left h

end BlockStream

/-- A symbol that is combined twice with one symbol of the stream is the symbol again. -/
theorem zipWith_cancel {α β : Type} {combine : α → β → α}
    (h : ∀ a b, combine (combine a b) b = a) {text : List α} {stream : List β}
    (hlength : text.length ≤ stream.length) :
    List.zipWith combine (List.zipWith combine text stream) stream = text := by
  induction text generalizing stream with
  | nil => rfl
  | cons a text ih =>
    cases stream with
    | nil => exact absurd hlength (by simp)
    | cons b stream =>
      rw [List.zipWith_cons_cons, List.zipWith_cons_cons, h,
        ih (Nat.le_of_succ_le_succ hlength)]

end Labrys.Foundations
