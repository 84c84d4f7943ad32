import Mathlib.Data.List.Induction
import Mathlib.Data.List.Sort
import Mathlib.Order.Lattice

/-! # What a query selects from a list of rows

* `SameBut`: two lists that differ only in the rows one owner has; a query that takes none of them
  gives the same on both (`SameBut.filter`).
* `lastMaxBy`: the row with the greatest key, the last one of several (`lastMaxBy_eq_some_iff`).
* `page`: a window of the rows; the windows of one row each tell the rows (`eq_of_page_eq`).
* `IsOnly`: the one row of a kind (`filter_eq_singleton_iff`, `onlyOne_eq_ok_iff`).
* `firstByKey`: the rows whose key no earlier row has; appending the rows of unknown keys one by one
  appends these (`foldl_addNew`).
* `sortByKey`: rows in the order of a key; listed kind by kind and then sorted, they are the sorted
  rows of those kinds (`sortByKey_flatMap`). -/

namespace Labrys.Foundations
set_option autoImplicit false

/-! ## Rows of one owner -/

section Owned
variable {α β : Type}

/-- The two lists differ only in the rows that `mine` selects. -/
def SameBut (mine : α → Bool) (xs ys : List α) : Prop :=
  (xs.filter fun x => !mine x) = ys.filter fun y => !mine y

variable {mine : α → Bool} {xs ys : List α}

theorem SameBut.filter (h : SameBut mine xs ys) {wanted : α → Bool}
    (hwanted : ∀ x, wanted x = true → mine x = false) : xs.filter wanted = ys.filter wanted := by
  have hboth : ∀ zs : List α, (zs.filter fun z => !mine z).filter wanted = zs.filter wanted := by
    intro zs
    rw [List.filter_filter]
    refine List.filter_congr fun z _ => ?_
    cases hz : wanted z with
    | false => rfl
    | true => simp [hwanted z hz]
  rw [← hboth xs, ← hboth ys, h]

end Owned

/-! ## The last greatest row -/

section LastMax
variable {α κ : Type} [LinearOrder κ] (key : α → κ)

/-- Keeps the row at hand unless the next one is at least as great. -/
def keepMax (best : Option α) (x : α) : Option α :=
  match best with
  | none => some x
  | some a => if key a ≤ key x then some x else some a

/-- `max_by_key`: of several rows with the greatest key, the last one. -/
def lastMaxBy (xs : List α) : Option α := xs.foldl (keepMax key) none

/-- `a` is the row of `xs` with the greatest key that no row after it reaches. -/
def IsLastMax (xs : List α) (a : α) : Prop :=
  ∃ before after, xs = before ++ a :: after ∧ (∀ b ∈ before, key b ≤ key a) ∧
    ∀ b ∈ after, key b < key a

variable {key}

theorem IsLastMax.concat_ge {xs : List α} {a x : α} (h : IsLastMax key xs a)
    (hle : key a ≤ key x) : IsLastMax key (xs ++ [x]) x := by
  obtain ⟨before, after, rfl, hbefore, hafter⟩ := h
  refine ⟨before ++ a :: after, [], rfl, fun b hb => ?_, fun b hb => by cases hb⟩
  obtain hb | hb := List.mem_append.mp hb
  · exact (hbefore b hb).trans hle
  · obtain rfl | hb := List.mem_cons.mp hb
    · exact hle
    · exact (hafter b hb).le.trans hle

theorem IsLastMax.concat_lt {xs : List α} {a x : α} (h : IsLastMax key xs a)
    (hlt : key x < key a) : IsLastMax key (xs ++ [x]) a := by
  obtain ⟨before, after, rfl, hbefore, hafter⟩ := h
  refine ⟨before, after ++ [x], by simp, hbefore, fun b hb => ?_⟩
  obtain hb | hb := List.mem_append.mp hb
  · exact hafter b hb
  · rw [List.mem_singleton.mp hb]
    exact hlt

theorem lastMaxBy_concat (xs : List α) (x : α) :
    lastMaxBy key (xs ++ [x]) = keepMax key (lastMaxBy key xs) x := by
  rw [lastMaxBy, List.foldl_append]
  rfl

/-- The scan finds the last greatest row, or there is no row. -/
theorem lastMaxBy_cases (key : α → κ) (xs : List α) :
    (xs = [] ∧ lastMaxBy key xs = none) ∨
      ∃ a, lastMaxBy key xs = some a ∧ IsLastMax key xs a := by
  induction xs using List.reverseRecOn with
  | nil => exact .inl ⟨rfl, rfl⟩
  | append_singleton xs x ih =>
    right
    rw [lastMaxBy_concat]
    obtain ⟨rfl, hnone⟩ | ⟨a, ha, hmax⟩ := ih
    · rw [hnone]
      exact ⟨x, rfl, [], [], rfl, fun b hb => (List.not_mem_nil hb).elim,
        fun b hb => (List.not_mem_nil hb).elim⟩
    · rw [ha]
      change ∃ b, (if key a ≤ key x then some x else some a) = some b ∧ _
      by_cases hle : key a ≤ key x
      · exact ⟨x, if_pos hle, hmax.concat_ge hle⟩
      · exact ⟨a, if_neg hle, hmax.concat_lt (not_le.mp hle)⟩

theorem IsLastMax.mem {xs : List α} {a : α} (h : IsLastMax key xs a) : a ∈ xs := by
  obtain ⟨before, after, rfl, -⟩ := h
  simp

theorem IsLastMax.le {xs : List α} {a : α} (h : IsLastMax key xs a) : ∀ b ∈ xs, key b ≤ key a := by
  obtain ⟨before, after, rfl, hbefore, hafter⟩ := h
  intro b hb
  obtain hb | hb := List.mem_append.mp hb
  · exact hbefore b hb
  · obtain rfl | hb := List.mem_cons.mp hb
    · exact le_rfl
    · exact (hafter b hb).le

/-- There is one last greatest row. -/
theorem IsLastMax.unique {xs : List α} {a b : α} (ha : IsLastMax key xs a)
    (hb : IsLastMax key xs b) : a = b := by
  have hab : key b ≤ key a := ha.le b hb.mem
  have hba : key a ≤ key b := hb.le a ha.mem
  obtain ⟨before, after, rfl, -, hafter⟩ := ha
  obtain ⟨before', after', heq, -, hafter'⟩ := hb
  obtain ⟨between, rfl, hrest⟩ | ⟨between, rfl, hrest⟩ := List.append_eq_append_iff.mp heq
  · cases between with
    | nil => exact (List.cons.inj hrest).1
    | cons c rest =>
      obtain ⟨rfl, rfl⟩ := List.cons.inj hrest
      exact absurd hba (not_le.mpr (hafter b (by simp)))
  · cases between with
    | nil => exact (List.cons.inj hrest).1.symm
    | cons c rest =>
      obtain ⟨rfl, rfl⟩ := List.cons.inj hrest
      exact absurd hab (not_le.mpr (hafter' a (by simp)))

theorem lastMaxBy_eq_some_iff {xs : List α} {a : α} :
    lastMaxBy key xs = some a ↔ IsLastMax key xs a := by
  obtain ⟨rfl, hnone⟩ | ⟨b, hb, hmax⟩ := lastMaxBy_cases key xs
  · rw [hnone]
    exact ⟨fun h => (by cases h), fun h => (List.not_mem_nil h.mem).elim⟩
  · rw [hb]
    exact ⟨fun h => Option.some.inj h ▸ hmax, fun h => congrArg some (hmax.unique h)⟩

/-- In a list sorted by `le`, the last greatest row is the one that every other is below, or level
with and sorted before. -/
theorem isLastMax_iff_of_pairwise {le : α → α → Prop} {xs : List α} {a : α}
    (hsorted : xs.Pairwise le) (hnodup : xs.Nodup)
    (hanti : ∀ b ∈ xs, ∀ c ∈ xs, le b c → le c b → b = c) :
    IsLastMax key xs a ↔
      a ∈ xs ∧ ∀ b ∈ xs, b ≠ a → key b < key a ∨ (key b = key a ∧ le b a) := by
  constructor
  · intro h
    refine ⟨h.mem, fun b hb hne => ?_⟩
    obtain ⟨before, after, rfl, hbefore, hafter⟩ := h
    obtain hb | hb := List.mem_append.mp hb
    · have hle : le b a := (List.pairwise_append.mp hsorted).2.2 b hb a List.mem_cons_self
      exact (hbefore b hb).lt_or_eq.imp_right fun heq => ⟨heq, hle⟩
    · obtain rfl | hb := List.mem_cons.mp hb
      · exact absurd rfl hne
      · exact .inl (hafter b hb)
  · rintro ⟨ha, h⟩
    obtain ⟨before, after, rfl⟩ := List.append_of_mem ha
    obtain ⟨hbeforeNodup, hrestNodup, hapart⟩ := List.nodup_append.mp hnodup
    refine ⟨before, after, rfl, fun b hb => ?_, fun b hb => ?_⟩
    · have hne : b ≠ a := hapart b hb a List.mem_cons_self
      obtain hlt | ⟨heq, -⟩ := h b (List.mem_append_left _ hb) hne
      · exact hlt.le
      · exact heq.le
    · have hne : b ≠ a := by
        rintro rfl
        exact (List.nodup_cons.mp hrestNodup).1 hb
      have hmem : b ∈ before ++ a :: after := by simp [hb]
      obtain hlt | ⟨-, hle⟩ := h b hmem hne
      · exact hlt
      · have hab : le a b :=
          (List.pairwise_cons.mp (List.pairwise_append.mp hsorted).2.1).1 b hb
        exact absurd (hanti b hmem a ha hle hab) hne

end LastMax

/-! ## Pages -/

section Pages
variable {α : Type}

def page (limit offset : ℕ) (xs : List α) : List α := (xs.drop offset).take limit

theorem eq_of_page_eq {xs ys : List α} (h : ∀ offset, page 1 offset xs = page 1 offset ys) :
    xs = ys := by
  refine List.ext_getElem? fun i => ?_
  have hpage := congrArg List.head? (h i)
  simpa [page, List.head?_take, List.head?_drop] using hpage

end Pages

/-! ## The only row of a kind -/

section Only
variable {α ε : Type}

/-- `a` satisfies `p`, and no other row of the list does. -/
def IsOnly (p : α → Bool) (xs : List α) (a : α) : Prop :=
  ∃ before after, xs = before ++ a :: after ∧ p a = true ∧ (∀ b ∈ before, p b = false) ∧
    ∀ b ∈ after, p b = false

theorem filter_eq_singleton_iff {p : α → Bool} {xs : List α} {a : α} :
    xs.filter p = [a] ↔ IsOnly p xs a := by
  constructor
  · intro h
    obtain ⟨before, after, hsplit, hbefore, ha, hafter⟩ := List.filter_eq_cons_iff.mp h
    refine ⟨before, after, hsplit, ha, fun b hb => ?_, fun b hb => ?_⟩
    · exact Bool.eq_false_of_not_eq_true (hbefore b hb)
    · exact Bool.eq_false_of_not_eq_true (List.filter_eq_nil_iff.mp hafter b hb)
  · rintro ⟨before, after, rfl, ha, hbefore, hafter⟩
    have hnone : ∀ ys : List α, (∀ b ∈ ys, p b = false) → ys.filter p = [] := fun ys hys =>
      List.filter_eq_nil_iff.mpr fun b hb => by simp [hys b hb]
    rw [List.filter_append, List.filter_cons_of_pos ha, hnone before hbefore, hnone after hafter,
      List.nil_append]

/-- The only element of a list; without one `missing`, with several `conflict` by their number. -/
def onlyOne (missing : Except ε α) (conflict : ℕ → ε) : List α → Except ε α
  | [] => missing
  | [a] => .ok a
  | a :: b :: rest => .error (conflict (a :: b :: rest).length)

variable {missing : Except ε α} {conflict : ℕ → ε}

theorem onlyOne_eq_ok_iff {xs : List α} {a : α} :
    onlyOne missing conflict xs = .ok a ↔ xs = [a] ∨ (xs = [] ∧ missing = .ok a) := by
  cases xs with
  | nil => simp [onlyOne]
  | cons x rest =>
    cases rest with
    | nil => simp [onlyOne]
    | cons y rest => simp [onlyOne]

theorem onlyOne_perm {missing' : Except ε α} (hmissing : missing = missing') {xs ys : List α}
    (h : xs.Perm ys) : onlyOne missing conflict xs = onlyOne missing' conflict ys := by
  subst hmissing
  cases xs with
  | nil => rw [List.nil_perm.mp h]
  | cons x rest =>
    cases rest with
    | nil => rw [List.singleton_perm.mp h]
    | cons x' rest =>
      obtain ⟨y, ys', rfl⟩ := List.exists_cons_of_length_eq_add_one h.length_eq.symm
      obtain ⟨y', ys', rfl⟩ := List.exists_cons_of_length_eq_add_one
        (Nat.succ.inj h.length_eq.symm)
      rw [onlyOne, onlyOne, h.length_eq]

/-- A key that is different in every row finds the row that has it. -/
theorem find?_key_eq_some_iff {κ : Type} [DecidableEq κ] {key : α → κ} {xs : List α}
    (hkeys : (xs.map key).Nodup) {k : κ} {x : α} :
    xs.find? (fun x => decide (key x = k)) = some x ↔ x ∈ xs ∧ key x = k := by
  constructor
  · intro hfind
    exact ⟨List.mem_of_find?_eq_some hfind, by simpa using List.find?_some hfind⟩
  · rintro ⟨hx, rfl⟩
    have hfound : (xs.find? fun y => decide (key y = key x)).isSome :=
      List.find?_isSome.mpr ⟨x, hx, by simp⟩
    obtain ⟨y, hy⟩ := Option.isSome_iff_exists.mp hfound
    have hkey : key y = key x := by simpa using List.find?_some hy
    rw [hy, List.inj_on_of_nodup_map hkeys (List.mem_of_find?_eq_some hy) hx hkey]

theorem find?_key_perm {κ : Type} [DecidableEq κ] {key : α → κ} {xs ys : List α}
    (hkeys : (xs.map key).Nodup) (h : xs.Perm ys) (k : κ) :
    xs.find? (fun x => decide (key x = k)) = ys.find? fun y => decide (key y = k) := by
  refine Option.ext fun x => ?_
  rw [find?_key_eq_some_iff hkeys, find?_key_eq_some_iff ((h.map key).nodup_iff.mp hkeys),
    h.mem_iff]

/-- The first row of a kind is the same in every order exactly if the kind has one row at most. -/
theorem find?_perm_iff {p : α → Bool} {xs : List α} :
    (∀ ys, xs.Perm ys → ys.find? p = xs.find? p) ↔
      ∀ a ∈ xs, ∀ b ∈ xs, p a = true → p b = true → a = b := by
  constructor
  · intro h a ha b hb hpa hpb
    have hfront : ∀ c ∈ xs, p c = true → xs.find? p = some c := by
      intro c hc hpc
      obtain ⟨before, after, rfl⟩ := List.append_of_mem hc
      rw [← h _ List.perm_middle, List.find?_cons_of_pos hpc]
    exact Option.some.inj ((hfront a ha hpa).symm.trans (hfront b hb hpb))
  · intro h ys hperm
    cases hfind : xs.find? p with
    | none =>
      exact List.find?_eq_none.mpr fun y hy =>
        List.find?_eq_none.mp hfind y (hperm.mem_iff.mpr hy)
    | some a =>
      have ha := List.mem_of_find?_eq_some hfind
      have hpa := List.find?_some hfind
      have hfound : (ys.find? p).isSome := List.find?_isSome.mpr ⟨a, hperm.mem_iff.mp ha, hpa⟩
      obtain ⟨b, hb⟩ := Option.isSome_iff_exists.mp hfound
      have hmem := hperm.mem_iff.mpr (List.mem_of_find?_eq_some hb)
      rw [hb, h a ha b hmem hpa (List.find?_some hb)]

/-- With a fallback to another kind: one row of the first, or none and one of the fallback. -/
theorem find?_orElse_perm_iff {p q : α → Bool} {xs : List α} :
    (∀ ys, xs.Perm ys → (ys.find? p <|> ys.find? q) = (xs.find? p <|> xs.find? q)) ↔
      (∀ a ∈ xs, ∀ b ∈ xs, p a = true → p b = true → a = b) ∧
        ((∀ a ∈ xs, p a = false) →
          ∀ a ∈ xs, ∀ b ∈ xs, q a = true → q b = true → a = b) := by
  by_cases hnone : ∀ a ∈ xs, p a = false
  · have hfallback : ∀ ys, xs.Perm ys → (ys.find? p <|> ys.find? q) = ys.find? q := by
      intro ys hperm
      have hp : ys.find? p = none := List.find?_eq_none.mpr fun y hy => by
        simp [hnone y (hperm.mem_iff.mpr hy)]
      rw [hp]
      rfl
    have hfirst : ∀ a ∈ xs, ∀ b ∈ xs, p a = true → p b = true → a = b := fun a ha _ _ hpa =>
      absurd hpa (by simp [hnone a ha])
    rw [and_iff_right hfirst, imp_iff_right hnone, ← find?_perm_iff]
    refine forall_congr' fun ys => forall_congr' fun hperm => ?_
    rw [hfallback ys hperm, hfallback xs (List.Perm.refl xs)]
  · have hfound : ∀ ys, xs.Perm ys → (ys.find? p <|> ys.find? q) = ys.find? p := by
      intro ys hperm
      obtain ⟨a, ha⟩ := not_forall.mp hnone
      obtain ⟨hmem, hpa⟩ := Classical.not_imp.mp ha
      have hsome : (ys.find? p).isSome :=
        List.find?_isSome.mpr ⟨a, hperm.mem_iff.mp hmem, by simpa using hpa⟩
      obtain ⟨b, hb⟩ := Option.isSome_iff_exists.mp hsome
      rw [hb]
      rfl
    rw [and_iff_left fun h => absurd h hnone, ← find?_perm_iff]
    refine forall_congr' fun ys => forall_congr' fun hperm => ?_
    rw [hfound ys hperm, hfound xs (List.Perm.refl xs)]

end Only

/-! ## The first row of each key -/

section First
variable {α β κ : Type} [DecidableEq κ] (key : α → κ)

/-- The rows whose key is neither among the known ones nor that of an earlier row. -/
def firstByKey (known : List κ) : List α → List α
  | [] => []
  | a :: rest =>
      if key a ∈ known then firstByKey known rest
      else a :: firstByKey (known ++ [key a]) rest

variable {key}

/-- What is appended if its key is unknown, row by row. `made` is what becomes of a row. -/
theorem foldl_addNew {known : List β → List κ} {made : α → β} {add : List β → α → List β}
    (hknown : ∀ bs a, known (bs ++ [made a]) = known bs ++ [key a])
    (hadd : ∀ bs a, add bs a = if key a ∈ known bs then bs else bs ++ [made a]) (rows : List α)
    (bs : List β) :
    rows.foldl add bs = bs ++ (firstByKey key (known bs) rows).map made := by
  induction rows generalizing bs with
  | nil => simp [firstByKey]
  | cons a rest ih =>
    rw [List.foldl_cons, ih, hadd, firstByKey]
    by_cases ha : key a ∈ known bs
    · rw [if_pos ha, if_pos ha]
    · rw [if_neg ha, if_neg ha, hknown, List.append_assoc]
      rfl

theorem firstByKey_map (f : β → α) (known : List κ) (rows : List β) :
    firstByKey key known (rows.map f) =
      (firstByKey (fun b => key (f b)) known rows).map f := by
  induction rows generalizing known with
  | nil => rfl
  | cons b rest ih =>
    rw [List.map_cons, firstByKey, firstByKey]
    split_ifs
    · exact ih known
    · rw [ih, List.map_cons]

theorem firstByKey_sublist (known : List κ) (rows : List α) :
    (firstByKey key known rows).Sublist rows := by
  induction rows generalizing known with
  | nil => exact .slnil
  | cons a rest ih =>
    unfold firstByKey
    split_ifs
    · exact (ih known).cons a
    · exact (ih (known ++ [key a])).cons_cons a

/-- No row is left out exactly if no key is known and none comes twice. -/
theorem firstByKey_eq_self_iff {known : List κ} {rows : List α} :
    firstByKey key known rows = rows ↔
      (∀ a ∈ rows, key a ∉ known) ∧ (rows.map key).Nodup := by
  induction rows generalizing known with
  | nil => simp [firstByKey]
  | cons a rest ih =>
    unfold firstByKey
    split_ifs with ha
    · have hshort : firstByKey key known rest ≠ a :: rest := by
        intro heq
        have hle : (firstByKey key known rest).length ≤ rest.length :=
          (firstByKey_sublist known rest).length_le
        rw [heq, List.length_cons] at hle
        omega
      exact iff_of_false hshort fun h => h.1 a List.mem_cons_self ha
    · simp only [List.cons.injEq, true_and, ih, List.forall_mem_cons, List.map_cons,
        List.nodup_cons, List.mem_append, List.mem_singleton, List.mem_map]
      constructor
      · rintro ⟨hrest, hnodup⟩
        refine ⟨⟨ha, fun b hb hknown => hrest b hb (.inl hknown)⟩, ?_, hnodup⟩
        rintro ⟨b, hb, hsame⟩
        exact hrest b hb (.inr hsame)
      · rintro ⟨⟨-, hrest⟩, hfirst, hnodup⟩
        refine ⟨fun b hb hor => ?_, hnodup⟩
        obtain hknown | hsame := hor
        · exact hrest b hb hknown
        · exact hfirst ⟨b, hb, hsame⟩

end First

/-! ## Rows in the order of their keys -/

section Sorted
variable {α β κ : Type} [LinearOrder κ] (key : α → κ)

/-- `ORDER BY` a key: rows that share it stay in the order they were in. -/
def sortByKey (rows : List α) : List α := rows.insertionSort fun a b => key a ≤ key b

theorem sortByKey_perm (rows : List α) : (sortByKey key rows).Perm rows :=
  List.perm_insertionSort _ rows

theorem sortByKey_pairwise (rows : List α) :
    (sortByKey key rows).Pairwise fun a b => key a ≤ key b := by
  have : Std.Total fun a b : α => key a ≤ key b := ⟨fun a b => le_total (key a) (key b)⟩
  have : IsTrans α fun a b : α => key a ≤ key b := ⟨fun a b c => le_trans⟩
  exact List.pairwise_insertionSort _ rows

variable {key}

/-- The first of the sorted rows is the one with the least key, when no two different rows share
theirs. -/
theorem head?_sortByKey_eq_some_iff {rows : List α}
    (hinj : ∀ a ∈ rows, ∀ b ∈ rows, key a = key b → a = b) {a : α} :
    (sortByKey key rows).head? = some a ↔ a ∈ rows ∧ ∀ b ∈ rows, key a ≤ key b := by
  have hmem : ∀ b, b ∈ sortByKey key rows ↔ b ∈ rows := fun b => (sortByKey_perm key rows).mem_iff
  have hsorted := sortByKey_pairwise key rows
  cases hrows : sortByKey key rows with
  | nil =>
    refine iff_of_false (by simp) fun h => ?_
    have hnone := (hmem a).mpr h.1
    rw [hrows] at hnone
    cases hnone
  | cons c rest =>
    rw [hrows] at hmem hsorted
    have hleast : ∀ b ∈ rows, key c ≤ key b := by
      intro b hb
      obtain rfl | hrest := List.mem_cons.mp ((hmem b).mpr hb)
      · exact le_rfl
      · exact (List.pairwise_cons.mp hsorted).1 b hrest
    have hc : c ∈ rows := (hmem c).mp List.mem_cons_self
    rw [List.head?_cons, Option.some.injEq]
    constructor
    · rintro rfl
      exact ⟨hc, hleast⟩
    · rintro ⟨ha, hfirst⟩
      exact hinj c hc a ha (le_antisymm (hleast a ha) (hfirst c hc))

/-- Sorted lists of the same rows are the same when no two rows share their key. -/
theorem eq_of_sorted_perm {xs ys : List α} (hperm : xs.Perm ys) (hnodup : (xs.map key).Nodup)
    (hxs : xs.Pairwise fun a b => key a ≤ key b) (hys : ys.Pairwise fun a b => key a ≤ key b) :
    xs = ys := by
  refine List.Perm.eq_of_pairwise (fun a b ha hb hab hba => ?_) hxs hys hperm
  have hinj := List.inj_on_of_nodup_map hnodup
  exact hinj ha (hperm.mem_iff.mpr hb) (le_antisymm hab hba)

/-- Sorting, and then looking only at some, is sorting those. -/
theorem sortByKey_filter {rows : List α} (hnodup : (rows.map key).Nodup) (p : α → Bool) :
    sortByKey key (rows.filter p) = (sortByKey key rows).filter p := by
  have hperm := (sortByKey_perm key (rows.filter p)).trans
    ((sortByKey_perm key rows).filter p).symm
  refine eq_of_sorted_perm hperm ?_ (sortByKey_pairwise key _)
    ((sortByKey_pairwise key rows).filter p)
  have hrows : ((rows.filter p).map key).Nodup := hnodup.sublist (List.filter_sublist.map key)
  exact ((sortByKey_perm key (rows.filter p)).map key).nodup_iff.mpr hrows

theorem sortByKey_map {γ : Type} {key' : γ → κ} {f : γ → α} (h : ∀ c, key (f c) = key' c)
    (rows : List γ) : sortByKey key (rows.map f) = (sortByKey key' rows).map f := by
  have hsorted := List.map_insertionSort (fun a b => key' a ≤ key' b) (s := fun a b => key a ≤ key b)
    f rows fun a _ b _ => by rw [h, h]
  exact hsorted.symm

variable [DecidableEq β] (kind : α → β)

theorem flatMap_filter_perm (key : α → κ) (rows : List α) {kinds : List β} (hkinds : kinds.Nodup) :
    (kinds.flatMap fun k => sortByKey key (rows.filter fun row => decide (kind row = k))).Perm
      (rows.filter fun row => decide (kind row ∈ kinds)) := by
  induction kinds with
  | nil => simp
  | cons k rest ih =>
    obtain ⟨hk, hrest⟩ := List.nodup_cons.mp hkinds
    rw [List.flatMap_cons]
    have hsplit := List.filter_append_perm (fun row => decide (kind row = k))
      (rows.filter fun row => decide (kind row ∈ k :: rest))
    rw [List.filter_filter, List.filter_filter] at hsplit
    have hfirst : (rows.filter fun row => decide (kind row = k) && decide (kind row ∈ k :: rest)) =
        rows.filter fun row => decide (kind row = k) := by
      refine List.filter_congr fun row _ => ?_
      by_cases hrow : kind row = k <;> simp [hrow]
    have hothers : (rows.filter fun row =>
          !decide (kind row = k) && decide (kind row ∈ k :: rest)) =
        rows.filter fun row => decide (kind row ∈ rest) := by
      refine List.filter_congr fun row _ => ?_
      by_cases hrow : kind row = k
      · simp [hrow, hk]
      · simp [hrow]
    rw [hfirst, hothers] at hsplit
    exact ((sortByKey_perm key _).append (ih hrest)).trans hsplit

/-- Rows listed kind by kind and then sorted are the rows of those kinds among the sorted ones. -/
theorem sortByKey_flatMap {rows : List α} (hnodup : (rows.map key).Nodup) {kinds : List β}
    (hkinds : kinds.Nodup) :
    sortByKey key
        (kinds.flatMap fun k => sortByKey key (rows.filter fun row => decide (kind row = k))) =
      (sortByKey key rows).filter fun row => decide (kind row ∈ kinds) := by
  have hlisted := flatMap_filter_perm kind key rows hkinds
  have hsorted := (sortByKey_perm key rows).filter fun row => decide (kind row ∈ kinds)
  have hperm := ((sortByKey_perm key _).trans hlisted).trans hsorted.symm
  refine eq_of_sorted_perm hperm ?_ (sortByKey_pairwise key _)
    ((sortByKey_pairwise key rows).filter _)
  have hrows : ((rows.filter fun row => decide (kind row ∈ kinds)).map key).Nodup :=
    hnodup.sublist (List.filter_sublist.map key)
  exact (((sortByKey_perm key _).trans hlisted).map key).nodup_iff.mpr hrows

end Sorted

end Labrys.Foundations
