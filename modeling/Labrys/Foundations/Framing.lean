import Mathlib.Data.List.Basic

/-! # Framing by a separator

Parts go into one stream, each closed by a separator. Parts free of the separator are read back from
the stream, whatever follows them. A text that moves over the separator, from one part to the next,
leaves the stream as it was exactly if it is a run of separators.

* `framed_inj`: the parts and the rest are read back.
* `commutes_run_iff`: a text that commutes with a run of one symbol is a run of it.
* `moved_unseen_iff`: the moves that neither the stream nor the parts put together in reverse show. -/

namespace Labrys.Foundations
set_option autoImplicit false

variable {α : Type} {sep : α}

/-- The parts, each closed by the separator. -/
def framed (sep : α) (parts : List (List α)) : List α := parts.flatMap fun part => part ++ [sep]

@[simp] theorem framed_cons (part : List α) (parts : List (List α)) :
    framed sep (part :: parts) = part ++ sep :: framed sep parts := by
  rw [framed, List.flatMap_cons, List.append_assoc, List.singleton_append, framed]

@[simp] theorem framed_append (parts rest : List (List α)) :
    framed sep (parts ++ rest) = framed sep parts ++ framed sep rest := List.flatMap_append

/-- Two texts agree up to the first separator and after it. -/
theorem eq_of_first_sep {xs ys rest rest' : List α} (hxs : sep ∉ xs) (hys : sep ∉ ys)
    (h : xs ++ sep :: rest = ys ++ sep :: rest') : xs = ys ∧ rest = rest' := by
  induction xs generalizing ys with
  | nil =>
    cases ys with
    | nil => exact ⟨rfl, (List.cons.inj h).2⟩
    | cons y ys => exact absurd ((List.cons.inj h).1 ▸ List.mem_cons_self) hys
  | cons x xs ih =>
    cases ys with
    | nil => exact absurd ((List.cons.inj h).1 ▸ List.mem_cons_self) hxs
    | cons y ys =>
      obtain ⟨hhead, htail⟩ := List.cons.inj h
      obtain ⟨hsame, hrest⟩ := ih (fun hmem => hxs (List.mem_cons_of_mem x hmem))
        (fun hmem => hys (List.mem_cons_of_mem y hmem)) htail
      exact ⟨by rw [hhead, hsame], hrest⟩

/-- Two texts agree up to the last separator and after it. -/
theorem eq_of_last_sep {xs ys rest rest' : List α} (hrest : sep ∉ rest) (hrest' : sep ∉ rest')
    (h : xs ++ sep :: rest = ys ++ sep :: rest') : xs = ys ∧ rest = rest' := by
  have hback : rest.reverse ++ sep :: xs.reverse = rest'.reverse ++ sep :: ys.reverse := by
    simpa using congrArg List.reverse h
  obtain ⟨hlast, hfront⟩ := eq_of_first_sep (fun hmem => hrest (List.mem_reverse.mp hmem))
    (fun hmem => hrest' (List.mem_reverse.mp hmem)) hback
  exact ⟨List.reverse_injective hfront, List.reverse_injective hlast⟩

theorem framed_inj {parts parts' : List (List α)} {rest rest' : List α}
    (hlength : parts.length = parts'.length) (hfree : ∀ part ∈ parts, sep ∉ part)
    (hfree' : ∀ part ∈ parts', sep ∉ part)
    (h : framed sep parts ++ rest = framed sep parts' ++ rest') : parts = parts' ∧ rest = rest' := by
  induction parts generalizing parts' with
  | nil =>
    have hnil : parts' = [] := List.length_eq_zero_iff.mp hlength.symm
    subst hnil
    exact ⟨rfl, h⟩
  | cons part parts ih =>
    obtain ⟨part', parts', rfl⟩ := List.exists_cons_of_length_eq_add_one hlength.symm
    rw [framed_cons, framed_cons, List.append_assoc, List.append_assoc, List.cons_append,
      List.cons_append] at h
    obtain ⟨hpart, hrest⟩ := eq_of_first_sep (hfree part List.mem_cons_self)
      (hfree' part' List.mem_cons_self) h
    have hothers := ih (Nat.succ.inj hlength) (fun p hp => hfree p (List.mem_cons_of_mem _ hp))
      (fun p hp => hfree' p (List.mem_cons_of_mem _ hp)) hrest
    exact ⟨by rw [hpart, hothers.1], hothers.2⟩

/-! ## Moves over the separator -/

theorem commutes_run_iff (a : α) (n : ℕ) (xs : List α) :
    xs ++ List.replicate (n + 1) a = List.replicate (n + 1) a ++ xs ↔ ∀ x ∈ xs, x = a := by
  constructor
  · intro h
    induction xs with
    | nil => simp
    | cons x xs ih =>
      -- The first symbol is the run's, and without it the rest commutes again.
      have hx : x = a := by
        rw [List.replicate_succ, List.cons_append, List.cons_append] at h
        exact (List.cons.inj h).1
      subst hx
      have hshift : List.replicate (n + 1) x ++ x :: xs = x :: (List.replicate (n + 1) x ++ xs) := by
        rw [← List.singleton_append, ← List.append_assoc, ← List.replicate_succ',
          List.replicate_succ, List.cons_append]
      have hrest : xs ++ List.replicate (n + 1) x = List.replicate (n + 1) x ++ xs := by
        rw [hshift, List.cons_append] at h
        exact (List.cons.inj h).2
      intro y hy
      obtain rfl | hy := List.mem_cons.mp hy
      · rfl
      · exact ih hrest y hy
  · intro h
    have hrun : xs = List.replicate xs.length a := List.eq_replicate_of_mem h
    rw [hrun, ← List.replicate_add, ← List.replicate_add, Nat.add_comm]

/-- The text `v` moves from the end of one part to the front of the next. -/
theorem moved_unseen_iff (before after : List (List α)) (u v w : List α) (hv : v ≠ []) :
    (framed sep (before ++ (u ++ v) :: w :: after) = framed sep (before ++ u :: (v ++ w) :: after) ∧
      (before ++ (u ++ v) :: w :: after).reverse.flatten =
        (before ++ u :: (v ++ w) :: after).reverse.flatten) ↔ ∀ x ∈ u ++ v ++ w, x = sep := by
  have hforward : framed sep (before ++ (u ++ v) :: w :: after) =
      framed sep (before ++ u :: (v ++ w) :: after) ↔ ∀ x ∈ v, x = sep := by
    have hleft : ∀ rest, v ++ sep :: rest = (v ++ [sep]) ++ rest := by simp
    have hright : ∀ rest, sep :: (v ++ rest) = ([sep] ++ v) ++ rest := by simp
    rw [← commutes_run_iff sep 0 v]
    simp only [framed_append, framed_cons, List.append_assoc, List.append_cancel_left_eq]
    rw [hleft, hright, List.append_cancel_right_eq]
    rfl
  have hreverse : (before ++ (u ++ v) :: w :: after).reverse.flatten =
      (before ++ u :: (v ++ w) :: after).reverse.flatten ↔ w ++ u ++ v = v ++ (w ++ u) := by
    simp only [List.reverse_append, List.reverse_cons, List.flatten_append, List.flatten_cons,
      List.flatten_nil, List.append_nil, List.append_assoc, List.append_cancel_left_eq]
    simp only [← List.append_assoc, List.append_cancel_right_eq]
  rw [hforward, hreverse]
  constructor
  · rintro ⟨hrun, hcommutes⟩
    have hv' : v = List.replicate (v.length - 1 + 1) sep := by
      rw [Nat.sub_add_cancel (List.length_pos_iff.mpr hv)]
      exact List.eq_replicate_of_mem hrun
    rw [hv', commutes_run_iff] at hcommutes
    intro x hx
    simp only [List.mem_append] at hx hcommutes
    obtain (hx | hx) | hx := hx
    · exact hcommutes x (Or.inr hx)
    · exact hrun x hx
    · exact hcommutes x (Or.inl hx)
  · intro hall
    have hrun : ∀ xs : List α, (∀ x ∈ xs, x ∈ u ++ v ++ w) → xs = List.replicate xs.length sep :=
      fun xs hxs => List.eq_replicate_of_mem fun x hx => hall x (hxs x hx)
    refine ⟨fun x hx => hall x (by simp [hx]), ?_⟩
    rw [hrun (w ++ u) (by simp; tauto), hrun v (by simp; tauto), ← List.replicate_add,
      ← List.replicate_add, Nat.add_comm]

end Labrys.Foundations
