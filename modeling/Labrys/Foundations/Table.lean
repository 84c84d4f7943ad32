import Mathlib.Data.List.Basic
import Mathlib.Data.List.Nodup

/-! # Tables with a primary key

A table is a list of rows no two of which share their key. `UPDATE .. SET f WHERE p` is
`updateWhere`, which may not touch the key; `INSERT` of a fresh key is `insert`. Every result is
about `get`, the row a key selects, and one lemma per operation says what it does there; the same
for ordered maps and their lookup. -/

namespace Labrys.Foundations
set_option autoImplicit false

/-- Rows with pairwise different keys. -/
structure Table {ρ κ : Type} (key : ρ → κ) where
  rows : List ρ
  nodup : (rows.map key).Nodup

namespace Table
variable {ρ κ : Type} {key : ρ → κ}

def empty : Table key := ⟨[], List.nodup_nil⟩

/-- `UPDATE .. SET f WHERE p`, for an `f` that keeps the key. -/
def updateWhere (t : Table key) (p : ρ → Bool) (f : ρ → ρ) (hf : ∀ r, key (f r) = key r) :
    Table key where
  rows := t.rows.map fun r => if p r then f r else r
  nodup := by
    have hkeys : (t.rows.map fun r => if p r then f r else r).map key = t.rows.map key := by
      rw [List.map_map]
      refine List.map_congr_left fun r _ => ?_
      simp only [Function.comp_apply]
      split
      · exact hf r
      · rfl
    rw [hkeys]
    exact t.nodup

def affected (t : Table key) (p : ρ → Bool) : ℕ := t.rows.countP p

theorem updateWhere_eq_self (t : Table key) (p : ρ → Bool) (f : ρ → ρ)
    (hf : ∀ r, key (f r) = key r) (h : t.affected p = 0) : t.updateWhere p f hf = t := by
  obtain ⟨rows, nodup⟩ := t
  simp only [affected, List.countP_eq_zero, Bool.not_eq_true] at h
  have hrows : (rows.map fun r => if p r then f r else r) = rows := by
    conv_rhs => rw [← List.map_id rows]
    refine List.map_congr_left fun r hr => ?_
    rw [h r hr]
    rfl
  simp only [updateWhere, hrows]

/-- `DELETE .. WHERE NOT p`. -/
def retain (t : Table key) (p : ρ → Bool) : Table key :=
  ⟨t.rows.filter p, t.nodup.sublist (List.filter_sublist.map key)⟩

variable [DecidableEq κ]

def get (t : Table key) (k : κ) : Option ρ := t.rows.find? fun r => key r = k

def insert (t : Table key) (r : ρ) (h : t.get (key r) = none) : Table key where
  rows := t.rows ++ [r]
  nodup := by
    have hfree : key r ∉ t.rows.map key := by
      intro hmem
      obtain ⟨a, ha, hk⟩ := List.mem_map.mp hmem
      exact List.find?_eq_none.mp h a ha (by simpa using hk)
    rw [List.map_append, List.nodup_append]
    refine ⟨t.nodup, List.nodup_singleton _, ?_⟩
    intro a ha b hb hab
    rw [List.map_singleton, List.mem_singleton] at hb
    exact hfree (hb ▸ hab ▸ ha)

/-- `INSERT .. ON CONFLICT DO UPDATE SET f`, for an `f` that keeps the key. -/
def upsert (t : Table key) (r : ρ) (f : ρ → ρ) (hf : ∀ r, key (f r) = key r) : Table key :=
  match h : t.get (key r) with
  | some _ => t.updateWhere (fun row => decide (key row = key r)) f hf
  | none => t.insert r h

/-- `INSERT .. ON CONFLICT DO NOTHING`. -/
def insertNew (t : Table key) (r : ρ) : Table key :=
  match h : t.get (key r) with
  | some _ => t
  | none => t.insert r h

@[simp] theorem get_empty (k : κ) : (empty : Table key).get k = none := rfl

theorem key_of_get {t : Table key} {k : κ} {r : ρ} (h : t.get k = some r) : key r = k := by
  simpa using List.find?_some h

theorem mem_of_get {t : Table key} {k : κ} {r : ρ} (h : t.get k = some r) : r ∈ t.rows :=
  List.mem_of_find?_eq_some h

theorem get_of_mem {t : Table key} {r : ρ} (h : r ∈ t.rows) : t.get (key r) = some r := by
  have hsome : (t.get (key r)).isSome := by
    rw [get, List.find?_isSome]
    exact ⟨r, h, by simp⟩
  obtain ⟨a, ha⟩ := Option.isSome_iff_exists.mp hsome
  rw [ha, List.inj_on_of_nodup_map t.nodup (mem_of_get ha) h (key_of_get ha)]

theorem mem_rows_iff {t : Table key} {r : ρ} : r ∈ t.rows ↔ t.get (key r) = some r :=
  ⟨get_of_mem, mem_of_get⟩

theorem get_retain (t : Table key) (p : ρ → Bool) (k : κ) :
    (t.retain p).get k = (t.get k).filter p := by
  cases hget : t.get k with
  | none =>
    rw [Option.filter_none, get, List.find?_eq_none]
    exact fun r hr => List.find?_eq_none.mp hget r (List.mem_of_mem_filter hr)
  | some r =>
    have hmem : r ∈ t.rows := mem_of_get hget
    by_cases hp : p r = true
    · rw [Option.filter_some_pos hp, ← key_of_get hget]
      exact get_of_mem (t := t.retain p) (List.mem_filter.mpr ⟨hmem, hp⟩)
    · rw [Option.filter_some_neg (by simpa using hp), get, List.find?_eq_none]
      intro other hother hkey
      obtain ⟨hin, hkept⟩ := List.mem_filter.mp hother
      have hsame : other = r := List.inj_on_of_nodup_map t.nodup hin hmem
        ((of_decide_eq_true hkey).trans (key_of_get hget).symm)
      exact hp (hsame ▸ hkept)

theorem get_updateWhere (t : Table key) (p : ρ → Bool) (f : ρ → ρ) (hf : ∀ r, key (f r) = key r)
    (k : κ) :
    (t.updateWhere p f hf).get k = (t.get k).map fun r => if p r then f r else r := by
  unfold get updateWhere
  rw [List.find?_map]
  congr 2
  funext r
  simp only [Function.comp_apply]
  split
  · rw [hf r]
  · rfl

theorem get_insert (t : Table key) (r : ρ) (h : t.get (key r) = none) (k : κ) :
    (t.insert r h).get k = if key r = k then some r else t.get k := by
  unfold get insert
  rw [List.find?_append]
  by_cases hk : key r = k
  · subst hk
    rw [show t.rows.find? (fun a => decide (key a = key r)) = none from h]
    simp
  · simp [hk]

/-- An update of at most the row of key `k` touches a row iff that row satisfies the filter. -/
theorem affected_eq_zero_iff (t : Table key) (k : κ) (p : ρ → Bool)
    (hp : ∀ r ∈ t.rows, p r = true → key r = k) :
    t.affected p = 0 ↔ ∀ r, t.get k = some r → p r = false := by
  unfold affected
  rw [List.countP_eq_zero]
  constructor
  · intro h r hr
    simpa using h r (mem_of_get hr)
  · intro h r hr hpr
    have hk : t.get k = some r := by
      rw [← hp r hr hpr]
      exact get_of_mem hr
    simp [h r hk] at hpr

theorem get_updateWhere_key (t : Table key) (k : κ) (f : ρ → ρ) (hf : ∀ r, key (f r) = key r)
    (j : κ) :
    (t.updateWhere (fun r => decide (key r = k)) f hf).get j =
      if j = k then (t.get k).map f else t.get j := by
  rw [get_updateWhere]
  cases hget : t.get j with
  | none =>
    split
    · next hjk =>
      rw [← hjk, hget]
      rfl
    · rfl
  | some r =>
    rw [Option.map_some, key_of_get hget]
    by_cases hjk : j = k
    · rw [if_pos hjk, ← hjk, hget, Option.map_some]
      simp
    · rw [if_neg hjk]
      simp [hjk]

theorem affected_key_eq_zero_iff (t : Table key) (k : κ) :
    t.affected (fun r => decide (key r = k)) = 0 ↔ t.get k = none := by
  rw [t.affected_eq_zero_iff k _ fun r _ hr => by simpa using hr]
  cases hget : t.get k with
  | none => simp
  | some r => simp [key_of_get hget]

/-- The row of the key after an upsert: the new one, or the old one rewritten. -/
theorem get_upsert_self (t : Table key) (r : ρ) (f : ρ → ρ) (hf : ∀ r, key (f r) = key r) :
    (t.upsert r f hf).get (key r) = some (((t.get (key r)).map f).getD r) := by
  unfold upsert
  split
  · next found hfound => rw [get_updateWhere_key, if_pos rfl, hfound, Option.map_some, Option.getD_some]
  · next hfree => rw [get_insert, if_pos rfl, hfree, Option.map_none, Option.getD_none]

theorem get_upsert_of_ne (t : Table key) (r : ρ) (f : ρ → ρ) (hf : ∀ r, key (f r) = key r) {k : κ}
    (h : k ≠ key r) : (t.upsert r f hf).get k = t.get k := by
  unfold upsert
  split
  · rw [get_updateWhere_key, if_neg h]
  · rw [get_insert, if_neg h.symm]

theorem length_upsert (t : Table key) (r : ρ) (f : ρ → ρ) (hf : ∀ r, key (f r) = key r) :
    (t.upsert r f hf).rows.length =
      t.rows.length + if (t.get (key r)).isSome then 0 else 1 := by
  unfold upsert
  split
  · next found hfound => simp [updateWhere, hfound]
  · next hfree => simp [insert, hfree]

theorem get_insertNew (t : Table key) (r : ρ) (k : κ) :
    (t.insertNew r).get k = (t.get k).or (if key r = k then some r else none) := by
  unfold insertNew
  split
  · next found hfound =>
    by_cases hk : key r = k
    · rw [← hk, hfound, Option.some_or]
    · rw [if_neg hk, Option.or_none]
  · next hfree =>
    rw [get_insert]
    by_cases hk : key r = k
    · rw [if_pos hk, ← hk, hfree, if_pos rfl, Option.none_or]
    · rw [if_neg hk, if_neg hk, Option.or_none]

end Table

/-! ## Ordered maps -/

section OrderedMap
variable {κ β : Type} [Ord κ] [Std.TransOrd κ] [Std.LawfulEqOrd κ] [DecidableEq κ]

theorem treeMap_getElem?_insert (m : Std.TreeMap κ β) (key k : κ) (v : β) :
    (m.insert key v)[k]? = if key = k then some v else m[k]? := by
  rw [Std.TreeMap.getElem?_insert]
  by_cases h : key = k
  · rw [if_pos (Std.LawfulEqOrd.compare_eq_iff_eq.mpr h), if_pos h]
  · rw [if_neg fun heq => h (Std.LawfulEqOrd.eq_of_compare heq), if_neg h]

theorem treeMap_getElem?_erase (m : Std.TreeMap κ β) (key k : κ) :
    (m.erase key)[k]? = if key = k then none else m[k]? := by
  rw [Std.TreeMap.getElem?_erase]
  by_cases h : key = k
  · rw [if_pos (Std.LawfulEqOrd.compare_eq_iff_eq.mpr h), if_pos h]
  · rw [if_neg fun heq => h (Std.LawfulEqOrd.eq_of_compare heq), if_neg h]

omit [DecidableEq κ] in
theorem mem_treeMap_values {m : Std.TreeMap κ β} {v : β} :
    v ∈ m.toList.map Prod.snd ↔ ∃ k : κ, m[k]? = some v := by
  rw [List.mem_map]
  constructor
  · rintro ⟨⟨k, w⟩, hmem, rfl⟩
    exact ⟨k, Std.TreeMap.mem_toList_iff_getElem?_eq_some.mp hmem⟩
  · rintro ⟨k, hget⟩
    exact ⟨(k, v), Std.TreeMap.mem_toList_iff_getElem?_eq_some.mpr hget, rfl⟩

/-- The values that satisfy `q` all sit under one key. -/
def OneKey (m : Std.TreeMap κ β) (q : β → Bool) : Prop :=
  ∀ (k j : κ) (v w : β), m[k]? = some v → m[j]? = some w → q v = true → q w = true → k = j

variable {m : Std.TreeMap κ β} {q : β → Bool}

omit [DecidableEq κ] in
theorem OneKey.length_filter_le (h : OneKey m q) :
    ((m.toList.map Prod.snd).filter q).length ≤ 1 := by
  have hkeys : (m.toList.filter fun entry => q entry.2).Pairwise fun _ _ => False := by
    refine List.Pairwise.imp_of_mem ?_ (Std.TreeMap.distinct_keys_toList.filter _)
    intro entry other hentry hother hdistinct
    obtain ⟨hin, hq⟩ := List.mem_filter.mp hentry
    obtain ⟨hin', hq'⟩ := List.mem_filter.mp hother
    refine hdistinct (Std.LawfulEqOrd.compare_eq_iff_eq.mpr ?_)
    exact h entry.1 other.1 entry.2 other.2
      (Std.TreeMap.mem_toList_iff_getElem?_eq_some.mp hin)
      (Std.TreeMap.mem_toList_iff_getElem?_eq_some.mp hin') hq hq'
  rw [List.filter_map, List.length_map]
  match hlist : m.toList.filter (q ∘ Prod.snd) with
  | [] => exact Nat.zero_le 1
  | [_] => exact Nat.le_refl 1
  | entry :: other :: rest =>
    have hpair := hlist ▸ hkeys
    exact (List.pairwise_cons.mp hpair).1 other List.mem_cons_self |>.elim

omit [DecidableEq κ] in
theorem OneKey.find?_values (h : OneKey m q) {k : κ} {v : β} (hget : m[k]? = some v)
    (hv : q v = true) : (m.toList.map Prod.snd).find? q = some v := by
  cases hfind : (m.toList.map Prod.snd).find? q with
  | none => exact absurd hv (List.find?_eq_none.mp hfind v (mem_treeMap_values.mpr ⟨k, hget⟩))
  | some w =>
    obtain ⟨j, hj⟩ := mem_treeMap_values.mp (List.mem_of_find?_eq_some hfind)
    have hkey : k = j := h k j v w hget hj hv (List.find?_some hfind)
    rw [← hkey, hget] at hj
    exact congrArg some (Option.some_inj.mp hj).symm

end OrderedMap

/-! ## Lists searched from the front -/

section ReplaceFirst
variable {α : Type} (p : α → Bool) (x : α)

/-- The list with `x` in the place of the first element that satisfies `p`. -/
def replaceFirst : List α → List α
  | [] => []
  | a :: as => if p a then x :: as else a :: replaceFirst as

variable {p x}

theorem replaceFirst_eq_self {as : List α} (h : ∀ a ∈ as, p a = false) :
    replaceFirst p x as = as := by
  induction as with
  | nil => rfl
  | cons a as ih =>
    obtain ⟨hhead, htail⟩ := List.forall_mem_cons.mp h
    rw [replaceFirst, if_neg (by simp [hhead]), ih htail]

theorem mem_replaceFirst {as : List α} {b : α} (h : b ∈ replaceFirst p x as) : b = x ∨ b ∈ as := by
  induction as with
  | nil => exact .inr h
  | cons a as ih =>
    rw [replaceFirst] at h
    split at h
    · exact (List.mem_cons.mp h).imp id (List.mem_cons_of_mem a)
    · obtain rfl | h := List.mem_cons.mp h
      · exact .inr List.mem_cons_self
      · exact (ih h).imp id (List.mem_cons_of_mem a)

theorem find?_replaceFirst (hx : p x = true) (as : List α) :
    (replaceFirst p x as).find? p = (as.find? p).map fun _ => x := by
  induction as with
  | nil => rfl
  | cons a as ih =>
    rw [replaceFirst]
    split
    · next ha => rw [List.find?_cons_of_pos hx, List.find?_cons_of_pos ha, Option.map_some]
    · next ha => rw [List.find?_cons_of_neg ha, List.find?_cons_of_neg ha, ih]

theorem find?_replaceFirst_of_disjoint {q : α → Bool} (hx : q x = false)
    (hq : ∀ a, p a = true → q a = false) (as : List α) :
    (replaceFirst p x as).find? q = as.find? q := by
  induction as with
  | nil => rfl
  | cons a as ih =>
    rw [replaceFirst]
    split
    · next ha =>
      rw [List.find?_cons_of_neg (by simp [hx]), List.find?_cons_of_neg (by simp [hq a ha])]
    · rw [List.find?_cons, List.find?_cons, ih]

theorem map_replaceFirst {β : Type} {f : α → β} {as : List α}
    (h : ∀ a ∈ as, p a = true → f x = f a) : (replaceFirst p x as).map f = as.map f := by
  induction as with
  | nil => rfl
  | cons a as ih =>
    obtain ⟨hhead, htail⟩ := List.forall_mem_cons.mp h
    rw [replaceFirst]
    split
    · next ha => rw [List.map_cons, List.map_cons, hhead ha]
    · rw [List.map_cons, List.map_cons, ih htail]

theorem pairwise_replaceFirst {R : α → α → Prop} (hleft : ∀ a b, p a = true → R a b → R x b)
    (hright : ∀ a, p a = false → R a x) {as : List α} (h : as.Pairwise R) :
    (replaceFirst p x as).Pairwise R := by
  induction as with
  | nil => exact h
  | cons a as ih =>
    obtain ⟨hhead, htail⟩ := List.pairwise_cons.mp h
    rw [replaceFirst]
    split
    · next ha => exact List.pairwise_cons.mpr ⟨fun b hb => hleft a b ha (hhead b hb), htail⟩
    · next ha =>
      refine List.pairwise_cons.mpr ⟨fun b hb => ?_, ih htail⟩
      obtain rfl | hb := mem_replaceFirst hb
      · exact hright a (by simpa using ha)
      · exact hhead b hb

end ReplaceFirst

/-! ## Lists with one place set anew -/

theorem exists_mem_set {α : Type} {as : List α} {k : ℕ} {a b : α} {Q : α → Prop}
    (h : as[k]? = some a) (hQ : Q a → Q b) :
    (∃ c ∈ as.set k b, Q c) ↔ Q b ∨ ∃ c ∈ as, Q c := by
  obtain ⟨hk, rfl⟩ := List.getElem?_eq_some_iff.mp h
  have hnew : b ∈ as.set k b := List.mem_set hk b
  constructor
  · rintro ⟨c, hc, hQc⟩
    obtain hc | rfl := List.mem_or_eq_of_mem_set hc
    · exact .inr ⟨c, hc, hQc⟩
    · exact .inl hQc
  · rintro (hQb | ⟨c, hc, hQc⟩)
    · exact ⟨b, hnew, hQb⟩
    · obtain ⟨j, hj, rfl⟩ := List.mem_iff_getElem.mp hc
      by_cases hjk : k = j
      · subst hjk
        exact ⟨b, hnew, hQ hQc⟩
      · refine ⟨as[j], List.mem_iff_getElem?.mpr ⟨j, ?_⟩, hQc⟩
        rw [List.getElem?_set_ne hjk, List.getElem?_eq_getElem hj]

/-! ## Lists searched from the back -/

section LastWith
variable {α : Type}

/-- `a` satisfies `p` and nothing after it in the list does. -/
def LastWith (p : α → Prop) (as : List α) (a : α) : Prop :=
  ∃ front back, as = front ++ a :: back ∧ p a ∧ ∀ b ∈ back, ¬ p b

theorem find?_reverse_eq_some_iff {p : α → Bool} {as : List α} {a : α} :
    as.reverse.find? p = some a ↔ LastWith (fun b => p b = true) as a := by
  rw [List.find?_eq_some_iff_append]
  constructor
  · rintro ⟨ha, back, front, hsplit, hback⟩
    refine ⟨front.reverse, back.reverse, ?_, ha, fun b hb => ?_⟩
    · rw [← List.reverse_reverse as, hsplit]
      simp
    · simpa using hback b (List.mem_reverse.mp hb)
  · rintro ⟨front, back, rfl, ha, hback⟩
    refine ⟨ha, back.reverse, front.reverse, by simp, fun b hb => ?_⟩
    simpa using hback b (List.mem_reverse.mp hb)

theorem LastWith.mem {p : α → Prop} {as : List α} {a : α} (h : LastWith p as a) : a ∈ as := by
  obtain ⟨front, back, rfl, -, -⟩ := h
  simp

theorem LastWith.holds {p : α → Prop} {as : List α} {a : α} (h : LastWith p as a) : p a := by
  obtain ⟨front, back, -, ha, -⟩ := h
  exact ha

theorem LastWith.congr {p q : α → Prop} {as : List α} {a : α} (h : LastWith p as a)
    (hpq : ∀ b ∈ as, p b ↔ q b) : LastWith q as a := by
  obtain ⟨front, back, rfl, ha, hback⟩ := h
  refine ⟨front, back, rfl, (hpq a (by simp)).mp ha, fun b hb hq => hback b hb ?_⟩
  exact (hpq b (by simp [hb])).mpr hq

/-- A search from the back for `p`, where `p` decides `q` on the list. -/
theorem map_find?_reverse_eq_some_iff {β : Type} {p : α → Bool} {q : α → Prop} {as : List α}
    (hpq : ∀ a ∈ as, p a = true ↔ q a) (f : α → β) (b : β) :
    (as.reverse.find? p).map f = some b ↔ ∃ a, LastWith q as a ∧ f a = b := by
  rw [Option.map_eq_some_iff]
  refine exists_congr fun a => and_congr_left fun _ => ?_
  rw [find?_reverse_eq_some_iff]
  exact ⟨fun h => h.congr hpq, fun h => h.congr fun a ha => (hpq a ha).symm⟩

end LastWith
end Labrys.Foundations
