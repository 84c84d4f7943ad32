import Mathlib.Data.List.Induction

/-! # Linked chains of blocks

A block is made of its content, its index and the link of the block before it; the first one takes
the genesis link. A list is sound when every block is what its place makes of some content, and the
sound lists are exactly those grown from nothing by extending. -/

namespace Labrys.Foundations
set_option autoImplicit false

structure Chain (β η ε : Type) where
  genesis : η
  link : β → η
  forge : ℕ → η → ε → β

namespace Chain
variable {β η ε : Type} (C : Chain β η ε)

/-- The link that the next block takes up, when the list itself continues `prev`. -/
def lastLink (prev : η) (blocks : List β) : η := (blocks.getLast?.map C.link).getD prev

def extend (blocks : List β) (content : ε) : List β :=
  blocks ++ [C.forge blocks.length (C.lastLink C.genesis blocks) content]

def grown (contents : List ε) : List β := contents.foldl C.extend []

def Sound : ℕ → η → List β → Prop
  | _, _, [] => True
  | index, prev, block :: rest =>
      (∃ content, block = C.forge index prev content) ∧ Sound (index + 1) (C.link block) rest

theorem lastLink_cons (prev : η) (block : β) (rest : List β) :
    C.lastLink prev (block :: rest) = C.lastLink (C.link block) rest := by
  unfold lastLink
  rw [List.getLast?_cons]
  cases rest.getLast? <;> rfl

theorem grown_concat (contents : List ε) (content : ε) :
    C.grown (contents ++ [content]) = C.extend (C.grown contents) content :=
  List.foldl_append

theorem sound_concat (index : ℕ) (prev : η) (blocks : List β) (block : β) :
    C.Sound index prev (blocks ++ [block]) ↔ C.Sound index prev blocks ∧
      ∃ content, block = C.forge (index + blocks.length) (C.lastLink prev blocks) content := by
  induction blocks generalizing index prev with
  | nil => simp [Sound, lastLink]
  | cons first rest ih =>
    have hindex : index + 1 + rest.length = index + (first :: rest).length := by
      rw [List.length_cons]
      omega
    rw [List.cons_append, Sound, Sound, ih, C.lastLink_cons, hindex, and_assoc]

/-- What soundness says of the block at a position. -/
theorem Sound.getElem? {index : ℕ} {prev : η} {blocks : List β} (h : C.Sound index prev blocks)
    {i : ℕ} {block : β} (hi : blocks[i]? = some block) :
    ∃ content, block = C.forge (index + i) (C.lastLink prev (blocks.take i)) content := by
  induction i generalizing index prev blocks with
  | zero =>
    cases blocks with
    | nil => cases hi
    | cons first rest =>
      obtain rfl : first = block := by simpa using hi
      exact h.1
  | succ i ih =>
    cases blocks with
    | nil => cases hi
    | cons first rest =>
      obtain ⟨content, hcontent⟩ := ih h.2 (by simpa using hi)
      refine ⟨content, ?_⟩
      rw [hcontent, List.take_succ_cons, C.lastLink_cons]
      congr 1
      omega

/-- Extending a list does not change whether it is sound. -/
theorem sound_extend (blocks : List β) (content : ε) :
    C.Sound 0 C.genesis (C.extend blocks content) ↔ C.Sound 0 C.genesis blocks := by
  rw [extend, C.sound_concat, Nat.zero_add]
  exact and_iff_left ⟨content, rfl⟩

/-- **Exactness.** The sound lists are those grown from nothing. -/
theorem sound_iff_grown (blocks : List β) :
    C.Sound 0 C.genesis blocks ↔ ∃ contents, C.grown contents = blocks := by
  constructor
  · induction blocks using List.reverseRecOn with
    | nil => exact fun _ => ⟨[], rfl⟩
    | append_singleton blocks block ih =>
      intro h
      obtain ⟨hblocks, content, rfl⟩ := (C.sound_concat 0 C.genesis blocks block).mp h
      obtain ⟨contents, hgrown⟩ := ih hblocks
      refine ⟨contents ++ [content], ?_⟩
      rw [C.grown_concat, hgrown, extend, Nat.zero_add]
  · rintro ⟨contents, rfl⟩
    induction contents using List.reverseRecOn with
    | nil => exact trivial
    | append_singleton contents content ih =>
      rw [C.grown_concat, C.sound_extend]
      exact ih

end Chain
end Labrys.Foundations
