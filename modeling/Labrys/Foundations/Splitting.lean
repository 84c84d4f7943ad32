import Mathlib.Data.List.TakeWhile
import Labrys.Foundations.Text

/-! # Pieces of a split text

A text is split at every occurrence of one symbol or of a longer separator. The first piece goes up to
the first occurrence, the second from there to the next, the last one from the last occurrence on. A
front in which no separator begins stays in the first piece.

* `upTo`, `afterLast`: what stands before the first occurrence and behind the last.
* `headD_splitOn`, `second_splitOn`, `last_splitOn`: the pieces of a split at a symbol.
* `splitText_append_of_apart`: a front in which no separator begins.
* `second_splitText`: the piece behind the first separator. -/

namespace Labrys.Foundations
set_option autoImplicit false

variable {α : Type} [DecidableEq α] {sep : α}

/-! ## At one symbol -/

/-- What stands before the first occurrence of the symbol. -/
def upTo (sep : α) (text : List α) : List α := text.takeWhile fun c => c ≠ sep

theorem notMem_upTo (text : List α) : sep ∉ upTo sep text := by
  intro hmem
  exact of_decide_eq_true (List.mem_takeWhile_imp (p := fun c => decide (c ≠ sep)) hmem) rfl

theorem upTo_eq_self_iff {text : List α} : upTo sep text = text ↔ sep ∉ text := by
  constructor
  · intro h hmem
    rw [← h] at hmem
    exact notMem_upTo text hmem
  · intro h
    refine List.takeWhile_eq_self_iff.mpr fun c hc => decide_eq_true ?_
    rintro rfl
    exact h hc

/-- A front without the symbol stands before it. -/
theorem upTo_append {a : List α} (ha : sep ∉ a) (b : List α) :
    upTo sep (a ++ b) = a ++ upTo sep b := by
  refine List.takeWhile_append_of_pos fun c hc => decide_eq_true ?_
  rintro rfl
  exact ha hc

theorem upTo_append_cons {a : List α} (ha : sep ∉ a) (b : List α) :
    upTo sep (a ++ sep :: b) = a := by
  have hstop : upTo sep (sep :: b) = [] := List.takeWhile_cons_of_neg (by simp)
  rw [upTo_append ha, hstop, List.append_nil]

/-- What stands behind the last occurrence of the symbol. -/
def afterLast (sep : α) (text : List α) : List α := (upTo sep text.reverse).reverse

theorem afterLast_of_notMem {text : List α} (h : sep ∉ text) : afterLast sep text = text := by
  rw [afterLast, upTo_eq_self_iff.mpr (mt List.mem_reverse.mp h), List.reverse_reverse]

/-- An end without the symbol stands behind it. -/
theorem afterLast_append (a : List α) {b : List α} (hb : sep ∉ b) :
    afterLast sep (a ++ b) = afterLast sep a ++ b := by
  rw [afterLast, afterLast, List.reverse_append, upTo_append (mt List.mem_reverse.mp hb),
    List.reverse_append, List.reverse_reverse]

theorem afterLast_append_cons (a : List α) {b : List α} (hb : sep ∉ b) :
    afterLast sep (a ++ sep :: b) = b := by
  rw [afterLast, List.reverse_append, List.reverse_cons, List.append_assoc, List.singleton_append,
    upTo_append_cons (mt List.mem_reverse.mp hb), List.reverse_reverse]

theorem headD_splitOn (text other : List α) :
    (text.splitOn sep).headD other = upTo sep text := by
  by_cases hmem : sep ∈ text
  · obtain ⟨a, b, rfl, ha⟩ := List.eq_append_cons_of_mem hmem
    rw [List.splitOn_append_cons_self_of_not_mem ha, upTo_append_cons ha, List.headD_cons]
  · rw [List.splitOn_eq_singleton hmem, upTo_eq_self_iff.mpr hmem, List.headD_cons]

theorem second_splitOn_of_notMem {text : List α} (h : sep ∉ text) :
    (text.splitOn sep)[1]? = none := by
  rw [List.splitOn_eq_singleton h]
  rfl

theorem second_splitOn {a : List α} (ha : sep ∉ a) (b : List α) :
    ((a ++ sep :: b).splitOn sep)[1]? = some (upTo sep b) := by
  rw [List.splitOn_append_cons_self_of_not_mem ha, List.getElem?_cons_succ, ← headD_splitOn b []]
  cases hsplit : b.splitOn sep with
  | nil => exact absurd hsplit (List.splitOn_ne_nil sep b)
  | cons piece pieces => rfl

/-- A front without the symbol does not move the second piece. -/
theorem second_splitOn_append {a : List α} (ha : sep ∉ a) (b : List α) :
    ((a ++ b).splitOn sep)[1]? = (b.splitOn sep)[1]? := by
  by_cases hb : sep ∈ b
  · obtain ⟨u, v, rfl, hu⟩ := List.eq_append_cons_of_mem hb
    have hfront : sep ∉ a ++ u := by
      rw [List.mem_append, not_or]
      exact ⟨ha, hu⟩
    rw [← List.append_assoc, second_splitOn hfront, second_splitOn hu]
  · have hnone : sep ∉ a ++ b := by
      rw [List.mem_append, not_or]
      exact ⟨ha, hb⟩
    rw [second_splitOn_of_notMem hnone, second_splitOn_of_notMem hb]

/-- The last piece of a text is that of its end, if that has the symbol. -/
theorem last_splitOn_append (a : List α) {b : List α} (hb : sep ∈ b) :
    ((a ++ b).splitOn sep).getLast? = (b.splitOn sep).getLast? := by
  obtain ⟨u, v, rfl⟩ := List.append_of_mem hb
  have hne : v.splitOn sep ≠ [] := List.splitOn_ne_nil sep v
  rw [← List.append_assoc, List.splitOn_append_cons_self, List.splitOn_append_cons_self,
    List.getLast?_append_of_ne_nil _ hne, List.getLast?_append_of_ne_nil _ hne]

theorem last_splitOn_of_notMem {text : List α} (h : sep ∉ text) :
    (text.splitOn sep).getLast? = some text := by
  rw [List.splitOn_eq_singleton h]
  rfl

theorem last_splitOn (a : List α) {b : List α} (hb : sep ∉ b) :
    ((a ++ sep :: b).splitOn sep).getLast? = some b := by
  have hne : b.splitOn sep ≠ [] := List.splitOn_ne_nil sep b
  rw [List.splitOn_append_cons_self, List.getLast?_append_of_ne_nil _ hne,
    last_splitOn_of_notMem hb]

/-! ## At a separator -/

variable {pat : List α}

theorem splitText_ne_nil (pat text : List α) : splitText pat text ≠ [] := by
  have hall : ∀ skip, splitFrom pat skip text ≠ [] := by
    induction text with
    | nil =>
      intro skip
      cases skip with
      | zero => exact List.cons_ne_nil _ _
      | succ skip => exact List.cons_ne_nil _ _
    | cons c rest ih =>
      intro skip
      cases skip with
      | succ skip => exact ih skip
      | zero =>
        rw [splitFrom]
        split
        · exact List.cons_ne_nil _ _
        · exact fun hnil => ih 0 (List.modifyHead_eq_nil_iff.mp hnil)
  exact hall 0

/-- No separator begins in the front of a text, not even one that would end behind it. -/
def Apart (pat front rest : List α) : Prop :=
  ∀ a c b, front = a ++ c :: b → ¬ pat <+: c :: (b ++ rest)

theorem splitText_append_of_apart {front rest : List α} (h : Apart pat front rest) :
    splitText pat (front ++ rest) = (splitText pat rest).modifyHead (front ++ ·) := by
  induction front with
  | nil =>
    rw [List.nil_append]
    cases splitText pat rest with
    | nil => rfl
    | cons piece pieces => rfl
  | cons c front ih =>
    have hfirst : ¬ pat <+: c :: (front ++ rest) := h [] c front rfl
    have hlater : Apart pat front rest := by
      intro a d b hsplit
      exact h (c :: a) d b (by rw [hsplit, List.cons_append])
    have hstep : splitText pat (c :: (front ++ rest)) =
        (splitText pat (front ++ rest)).modifyHead (c :: ·) := by
      rw [splitText, splitFrom, if_neg hfirst, splitText]
    rw [List.cons_append, hstep, ih hlater, List.modifyHead_modifyHead]
    rfl

theorem splitFrom_append (pat front rest : List α) :
    splitFrom pat front.length (front ++ rest) = splitText pat rest := by
  induction front with
  | nil => rfl
  | cons c front ih => exact ih

theorem splitText_pat_append (hpat : pat ≠ []) (rest : List α) :
    splitText pat (pat ++ rest) = [] :: splitText pat rest := by
  cases pat with
  | nil => exact absurd rfl hpat
  | cons c pat =>
    have hbegins : c :: pat <+: c :: (pat ++ rest) := List.prefix_append (c :: pat) rest
    rw [List.cons_append, splitText, splitFrom, if_pos hbegins]
    exact congrArg (List.cons []) (splitFrom_append (c :: pat) pat rest)

/-- The piece behind the first separator, in which a front stays whole. -/
theorem second_splitText (hpat : pat ≠ []) {first front rest : List α}
    (hfirst : Apart pat first (pat ++ (front ++ rest))) (hfront : Apart pat front rest) :
    (splitText pat (first ++ (pat ++ (front ++ rest))))[1]? =
      some (front ++ (splitText pat rest).headD []) := by
  rw [splitText_append_of_apart hfirst, splitText_pat_append hpat, splitText_append_of_apart hfront]
  cases hsplit : splitText pat rest with
  | nil => exact absurd hsplit (splitText_ne_nil pat rest)
  | cons piece pieces => rfl

end Labrys.Foundations
