import Labrys.Core.Redact
import Labrys.Foundations.Replacement

/-! # The order of the secrets

Redaction replaces one secret after the other, in the order of the list, so what a shorter secret
takes out of a longer one leaves the rest of the longer one standing.

* `redactReason_eq`: redaction as replacements of the nonempty secrets that are not the marker.
* `redaction_order`: the lists that redact the same way in every order. -/

namespace Labrys.Core
open Foundations
set_option autoImplicit false

/-- The nonempty secrets other than the marker, which is replaced by itself. -/
def effective (secrets : List String) : List (List Char) :=
  (secrets.filter fun s => s ≠ "" ∧ s ≠ redactionMarker).map String.toList

theorem mem_effective {secrets : List String} {pat : List Char} :
    pat ∈ effective secrets ↔
      ∃ secret ∈ secrets, secret ≠ "" ∧ secret ≠ redactionMarker ∧ secret.toList = pat := by
  simp [effective, and_assoc]

theorem ne_nil_of_mem_effective {secrets : List String} {pat : List Char}
    (h : pat ∈ effective secrets) : pat ≠ [] := by
  obtain ⟨secret, -, hne, -, rfl⟩ := mem_effective.mp h
  rwa [Ne, String.toList_eq_nil_iff]

theorem redactReason_eq (text : String) (secrets : List String) : redactReason text secrets =
    String.ofList (replaceEach redactionMarker.toList (effective secrets) text.toList) := by
  unfold redactReason effective
  induction secrets generalizing text with
  | nil => simp
  | cons secret rest ih =>
    by_cases hempty : secret = ""
    · rw [List.filter_cons_of_neg (by simp [hempty]), List.filter_cons_of_neg (by simp [hempty]), ih]
    · rw [List.filter_cons_of_pos (by simp [hempty]), List.foldl_cons, ih, replaceText,
        String.toList_ofList]
      by_cases hmarker : secret = redactionMarker
      · rw [List.filter_cons_of_neg (by simp [hmarker]), hmarker, replaceAll_self (by decide)]
      · rw [List.filter_cons_of_pos (by simp [hempty, hmarker]), List.map_cons, replaceEach_cons]

/-- Redaction gives the same for the secrets in any order. -/
def OrderFree (secrets : List String) : Prop :=
  ∀ secrets', secrets.Perm secrets' → ∀ text, redactReason text secrets' = redactReason text secrets

/-- The secrets that redaction passes over or replaces by themselves do not count. -/
theorem orderFree_iff (secrets : List String) : OrderFree secrets ↔
    ∀ pats', (effective secrets).Perm pats' → ∀ text,
      replaceEach redactionMarker.toList pats' text =
        replaceEach redactionMarker.toList (effective secrets) text := by
  constructor
  · intro horder pats' hperm text
    -- The same list of secrets with the ones that count in the given order.
    let counts := fun s : String => decide (s ≠ "" ∧ s ≠ redactionMarker)
    let secrets' := pats'.map String.ofList ++ secrets.filter fun s => !counts s
    have hfront : (effective secrets).map String.ofList = secrets.filter counts := by
      simp [effective, counts, Function.comp_def]
    have hsecrets : secrets.Perm secrets' := by
      have hsplit := (List.filter_append_perm counts secrets).symm
      rw [← hfront] at hsplit
      exact hsplit.trans ((hperm.map String.ofList).append_right _)
    have hnone : effective (secrets.filter fun s => !counts s) = [] := by
      simp [effective, counts, List.filter_filter]
    have hall : effective (pats'.map String.ofList) = pats' := by
      have hkept : (pats'.map String.ofList).filter counts = pats'.map String.ofList := by
        refine List.filter_eq_self.mpr fun s hs => ?_
        obtain ⟨pat, hpat, rfl⟩ := List.mem_map.mp hs
        obtain ⟨secret, -, hne, hmarker, rfl⟩ := mem_effective.mp (hperm.mem_iff.mpr hpat)
        rw [String.ofList_toList]
        exact decide_eq_true ⟨hne, hmarker⟩
      have heffective : effective (pats'.map String.ofList) =
          ((pats'.map String.ofList).filter counts).map String.toList := rfl
      rw [heffective, hkept, List.map_map]
      simp [Function.comp_def]
    have hsecrets' : effective secrets' = pats' := by
      have happend : effective secrets' = effective (pats'.map String.ofList) ++
          effective (secrets.filter fun s => !counts s) := by
        simp [effective, secrets']
      rw [happend, hall, hnone, List.append_nil]
    have hsame := horder secrets' hsecrets (String.ofList text)
    rw [redactReason_eq, redactReason_eq, hsecrets', String.toList_ofList] at hsame
    exact String.ofList_injective hsame
  · intro hpats secrets' hperm text
    rw [redactReason_eq, redactReason_eq, hpats (effective secrets') ((hperm.filter _).map _)]

/-- No two different secrets that count overlap each other, nor the marker. -/
def ApartFromEachOther (secrets : List String) : Prop :=
  ∀ p ∈ secrets, ∀ q ∈ secrets, p ≠ "" → q ≠ "" → p ≠ redactionMarker → q ≠ redactionMarker →
    p ≠ q → overlaps p.toList q.toList = false ∧
      overlaps p.toList redactionMarker.toList = false ∧
      overlaps q.toList redactionMarker.toList = false

theorem orderFree_of_apart {secrets : List String} (h : ApartFromEachOther secrets) :
    OrderFree secrets := by
  refine (orderFree_iff secrets).mpr fun pats' hperm text => ?_
  refine replaceEach_perm (fun p => ne_nil_of_mem_effective) (fun p hp q hq hpq => ?_) hperm text
  obtain ⟨s, hs, hne, hmarker, rfl⟩ := mem_effective.mp hp
  obtain ⟨t, ht, hne', hmarker', rfl⟩ := mem_effective.mp hq
  exact h s hs t ht hne hne' hmarker hmarker' fun heq => hpq (congrArg String.toList heq)

/-- **The order of the secrets.** Secrets redact alike in every order if no two different ones overlap
each other or the marker. For secrets that do not overlap the marker that is when they do. -/
theorem redaction_order (secrets : List String) :
    (ApartFromEachOther secrets → OrderFree secrets) ∧
    (ApartFromMarker secrets → (OrderFree secrets ↔ ∀ p ∈ secrets, ∀ q ∈ secrets, p ≠ "" → q ≠ "" →
      p ≠ q → overlaps p.toList q.toList = false)) := by
  refine ⟨orderFree_of_apart, fun hapart => ?_⟩
  have hmarker : ∀ secret ∈ secrets, secret ≠ "" → secret ≠ redactionMarker := by
    rintro secret hsecret hne rfl
    exact absurd (hapart _ hsecret hne) (by simp [overlaps_self])
  have hunbordered : ∀ u, u <+: redactionMarker.toList → u <:+ redactionMarker.toList → u ≠ [] →
      u = redactionMarker.toList := by
    intro u hbegin hend hne
    have hall : ∀ v ∈ redactionMarker.toList.inits, v <:+ redactionMarker.toList → v ≠ [] →
        v = redactionMarker.toList := by decide
    exact hall u ((List.mem_inits u _).mpr hbegin) hend hne
  rw [orderFree_iff, replaceEach_order_iff (by decide) hunbordered
    (fun p => ne_nil_of_mem_effective) fun p hp => ?_]
  · constructor
    · intro hpairs p hp q hq hpne hqne hpq
      exact hpairs _ (mem_effective.mpr ⟨p, hp, hpne, hmarker p hp hpne, rfl⟩) _
        (mem_effective.mpr ⟨q, hq, hqne, hmarker q hq hqne, rfl⟩)
        fun heq => hpq (String.toList_inj.mp heq)
    · intro hpairs p hp q hq hpq
      obtain ⟨s, hs, hne, -, rfl⟩ := mem_effective.mp hp
      obtain ⟨t, ht, hne', -, rfl⟩ := mem_effective.mp hq
      exact hpairs s hs t ht hne hne' fun heq => hpq (congrArg String.toList heq)
  · obtain ⟨s, hs, hne, -, rfl⟩ := mem_effective.mp hp
    exact hapart s hs hne

/-- The shorter secret first leaves the end of the longer one. -/
theorem redaction_order_matters : ¬ ∀ secrets, OrderFree secrets := by
  intro h
  have hsame := h ["ab", "abc"] ["abc", "ab"] (List.Perm.swap _ _ _) "abc"
  exact absurd hsame (by decide)

end Labrys.Core
