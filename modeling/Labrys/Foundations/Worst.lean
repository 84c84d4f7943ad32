import Mathlib.Data.List.Perm.Basic
import Mathlib.Order.Lattice

/-! # The worst of a list

Things are ranked by how bad they are, and a list is summed up by the worst thing in it. That does
not depend on the order of the list, and the worst of two lists put together is the worse of their
worst.

* `IsWorst`: it is in the list, and nothing in the list outranks it.
* `worse`: of two things the one of the higher rank. -/

namespace Labrys.Foundations
set_option autoImplicit false

variable {α κ : Type} [LinearOrder κ] (rank : α → κ)

def IsWorst (xs : List α) (a : α) : Prop := a ∈ xs ∧ ∀ b ∈ xs, rank b ≤ rank a

/-- The one of the higher rank, and the first of equals. -/
def worse (a b : α) : α := if rank a < rank b then b else a

variable {rank} {xs ys : List α} {a b : α}

theorem IsWorst.unique (hrank : Function.Injective rank) (ha : IsWorst rank xs a)
    (hb : IsWorst rank xs b) : a = b :=
  hrank (le_antisymm (hb.2 a ha.1) (ha.2 b hb.1))

/-- Only the members of the list count. -/
theorem IsWorst.of_same (h : ∀ x, x ∈ xs ↔ x ∈ ys) (ha : IsWorst rank xs a) :
    IsWorst rank ys a :=
  ⟨(h a).mp ha.1, fun b hb => ha.2 b ((h b).mpr hb)⟩

theorem IsWorst.perm (h : xs.Perm ys) (ha : IsWorst rank xs a) : IsWorst rank ys a :=
  ha.of_same fun _ => h.mem_iff

theorem rank_le_worse_left (a b : α) : rank a ≤ rank (worse rank a b) := by
  unfold worse
  split_ifs with h
  · exact h.le
  · exact le_refl _

theorem rank_le_worse_right (a b : α) : rank b ≤ rank (worse rank a b) := by
  unfold worse
  split_ifs with h
  · exact le_refl _
  · exact not_lt.mp h

/-- **Put together**: the worse of the worst. -/
theorem IsWorst.append (ha : IsWorst rank xs a) (hb : IsWorst rank ys b) :
    IsWorst rank (xs ++ ys) (worse rank a b) := by
  constructor
  · unfold worse
    split_ifs
    · exact List.mem_append_right xs hb.1
    · exact List.mem_append_left ys ha.1
  · intro c hc
    obtain hc | hc := List.mem_append.mp hc
    · exact (ha.2 c hc).trans (rank_le_worse_left a b)
    · exact (hb.2 c hc).trans (rank_le_worse_right a b)

/-- Everything has the lowest rank if the worst does. -/
theorem IsWorst.forall_iff {P : α → Prop} (ha : IsWorst rank xs a)
    (hP : ∀ b, P b ↔ ∀ c, rank b ≤ rank c) : P a ↔ ∀ b ∈ xs, P b := by
  constructor
  · intro h b hb
    exact (hP b).mpr fun c => (ha.2 b hb).trans ((hP a).mp h c)
  · exact fun h => h a ha.1

end Labrys.Foundations
