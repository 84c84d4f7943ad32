import Mathlib.Data.List.Perm.Subperm

/-! # A list dealt out into two

`Parted whole kept removed`: every element of the whole went to one side, each side in the order it
had. A filter parts a list, and partings of consecutive pieces put together are a parting. -/

namespace Labrys.Foundations
set_option autoImplicit false

variable {α : Type}

inductive Parted : List α → List α → List α → Prop
  | nil : Parted [] [] []
  | kept {whole kept removed : List α} (a : α) :
      Parted whole kept removed → Parted (a :: whole) (a :: kept) removed
  | removed {whole kept removed : List α} (a : α) :
      Parted whole kept removed → Parted (a :: whole) kept (a :: removed)

namespace Parted
variable {whole kept removed : List α}

theorem sublist_kept (h : Parted whole kept removed) : kept.Sublist whole := by
  induction h with
  | nil => exact List.Sublist.slnil
  | kept a _ ih => exact ih.cons_cons a
  | removed a _ ih => exact ih.cons a

theorem sublist_removed (h : Parted whole kept removed) : removed.Sublist whole := by
  induction h with
  | nil => exact List.Sublist.slnil
  | kept a _ ih => exact ih.cons a
  | removed a _ ih => exact ih.cons_cons a

/-- Nothing is lost and nothing is added. -/
theorem perm (h : Parted whole kept removed) : whole.Perm (kept ++ removed) := by
  induction h with
  | nil => exact List.Perm.nil
  | kept a _ ih => exact ih.cons a
  | removed a _ ih => exact (ih.cons a).trans List.perm_middle.symm

theorem all_kept (xs : List α) : Parted xs xs [] := by
  induction xs with
  | nil => exact .nil
  | cons x xs ih => exact .kept x ih

theorem filter (goes : α → Bool) (xs : List α) :
    Parted xs (xs.filter fun x => !goes x) (xs.filter goes) := by
  induction xs with
  | nil => exact .nil
  | cons x xs ih =>
    cases hx : goes x with
    | false =>
      rw [List.filter_cons_of_pos (by simp [hx]), List.filter_cons_of_neg (by simp [hx])]
      exact .kept x ih
    | true =>
      rw [List.filter_cons_of_neg (by simp [hx]), List.filter_cons_of_pos hx]
      exact .removed x ih

/-- A test that tells the two sides apart gives them back. -/
theorem filter_eq (h : Parted whole kept removed) {p : α → Bool} (hkept : ∀ a ∈ kept, p a = true)
    (hremoved : ∀ a ∈ removed, p a = false) : whole.filter p = kept := by
  induction h with
  | nil => rfl
  | kept a _ ih =>
    rw [List.forall_mem_cons] at hkept
    rw [List.filter_cons_of_pos hkept.1, ih hkept.2 hremoved]
  | removed a _ ih =>
    rw [List.forall_mem_cons] at hremoved
    rw [List.filter_cons_of_neg (by simp [hremoved.1]), ih hkept hremoved.2]

theorem append (h : Parted whole kept removed) {whole' kept' removed' : List α}
    (h' : Parted whole' kept' removed') :
    Parted (whole ++ whole') (kept ++ kept') (removed ++ removed') := by
  induction h with
  | nil => exact h'
  | kept a _ ih => exact .kept a ih
  | removed a _ ih => exact .removed a ih

end Parted

end Labrys.Foundations
