import Labrys.ControlPlane.Providers
import Labrys.Foundations.Selection

/-! # Which adapter takes a job

`adapter_for` takes the first adapter, in the order the map happens to iterate, whose key occurs
anywhere in the target, and else the first generic one. Keys that occur together, or several generic
adapters, leave the choice to that order.

* `adapterFor_perm_iff`: when the order does not matter.
* `adapter_choice`: when the choice is the one the target names. -/

namespace Labrys.ControlPlane
open Foundations Labrys.Core
set_option autoImplicit false

namespace ProviderJobDispatcher
variable (d : ProviderJobDispatcher) (job : Job)

/-- The adapter's key occurs in the target. -/
def occurs (adapter : ProviderAdapter) : Bool :=
  containsText (d.toLowercase job.target) (d.toLowercase adapter.key)

/-- One of the segments of the target is the adapter's key. -/
def Names (target : String) (adapter : ProviderAdapter) : Prop :=
  adapter.key.toList ∈ splitText [':'] target.toList

theorem adapterFor_eq : d.adapterFor job = (d.adapters.find? (d.occurs job) <|>
    d.adapters.find? fun adapter => decide (adapter.kind = .generic)) := rfl

/-- The same adapters in another order of iteration. -/
theorem adapterFor_perm_iff : (∀ adapters', d.adapters.Perm adapters' →
      { d with adapters := adapters' }.adapterFor job = d.adapterFor job) ↔
    (∀ a ∈ d.adapters, ∀ b ∈ d.adapters, d.occurs job a = true → d.occurs job b = true → a = b) ∧
      ((∀ a ∈ d.adapters, d.occurs job a = false) → ∀ a ∈ d.adapters, ∀ b ∈ d.adapters,
        a.kind = .generic → b.kind = .generic → a = b) := by
  have hiff := @find?_orElse_perm_iff ProviderAdapter (d.occurs job)
    (fun adapter => decide (adapter.kind = .generic)) d.adapters
  simp only [decide_eq_true_iff] at hiff
  exact hiff

/-- Where the order does not matter, an adapter is taken exactly if its key occurs, or if none does and
it is generic. -/
theorem adapterFor_eq_some_iff {adapter : ProviderAdapter} (hmem : adapter ∈ d.adapters)
    (hfirst : ∀ a ∈ d.adapters, ∀ b ∈ d.adapters, d.occurs job a = true → d.occurs job b = true →
      a = b)
    (hgeneric : (∀ a ∈ d.adapters, d.occurs job a = false) → ∀ a ∈ d.adapters, ∀ b ∈ d.adapters,
      a.kind = .generic → b.kind = .generic → a = b) :
    d.adapterFor job = some adapter ↔ d.occurs job adapter = true ∨
      (adapter.kind = .generic ∧ ∀ b ∈ d.adapters, d.occurs job b = false) := by
  rw [adapterFor_eq]
  cases hfind : d.adapters.find? (d.occurs job) with
  | some other =>
    have hother := List.mem_of_find?_eq_some hfind
    have hoccurs := List.find?_some hfind
    have hnot : ¬ ∀ b ∈ d.adapters, d.occurs job b = false := fun h => by
      rw [h other hother] at hoccurs
      cases hoccurs
    rw [or_iff_left fun h => hnot h.2]
    constructor
    · rintro ⟨⟩
      exact hoccurs
    · intro h
      rw [hfirst other hother adapter hmem hoccurs h]
      rfl
  | none =>
    have hnone : ∀ b ∈ d.adapters, d.occurs job b = false := fun b hb =>
      Bool.eq_false_of_not_eq_true (List.find?_eq_none.mp hfind b hb)
    rw [hnone adapter hmem, and_iff_left hnone, or_iff_right Bool.false_ne_true]
    constructor
    · intro h
      exact of_decide_eq_true (List.find?_some (p := fun a : ProviderAdapter =>
        decide (a.kind = .generic)) h)
    · intro h
      have hfound : (d.adapters.find? fun a => decide (a.kind = .generic)).isSome :=
        List.find?_isSome.mpr ⟨adapter, hmem, decide_eq_true h⟩
      obtain ⟨other, hother⟩ := Option.isSome_iff_exists.mp hfound
      have hkind : other.kind = .generic := of_decide_eq_true (List.find?_some
        (p := fun a : ProviderAdapter => decide (a.kind = .generic)) hother)
      rw [hother, hgeneric hnone other (List.mem_of_find?_eq_some hother) adapter hmem hkind h]
      rfl

end ProviderJobDispatcher

/-- **Choice of the adapter**, for every map of adapters and every target. In every order of iteration
the same adapter is taken, and it is the one that a segment of the target names, exactly if at most
one registered key occurs in the target, at most one adapter is generic where none does, and an
adapter that is named occurs, or is the fallback. -/
theorem adapter_choice (d : ProviderJobDispatcher) (hkeys : (d.adapters.map (·.key)).Nodup)
    (job : Job) :
    ((∀ adapters', d.adapters.Perm adapters' →
        { d with adapters := adapters' }.adapterFor job = d.adapterFor job) ∧
      ∀ adapter ∈ d.adapters, ProviderJobDispatcher.Names job.target adapter →
        d.adapterFor job = some adapter) ↔
    (∀ a ∈ d.adapters, ∀ b ∈ d.adapters, d.occurs job a = true → d.occurs job b = true →
        a.key = b.key) ∧
      ((∀ a ∈ d.adapters, d.occurs job a = false) → ∀ a ∈ d.adapters, ∀ b ∈ d.adapters,
        a.kind = .generic → b.kind = .generic → a.key = b.key) ∧
      ∀ adapter ∈ d.adapters, ProviderJobDispatcher.Names job.target adapter →
        d.occurs job adapter = true ∨
          (adapter.kind = .generic ∧ ∀ b ∈ d.adapters, d.occurs job b = false) := by
  have hkey : ∀ a ∈ d.adapters, ∀ b ∈ d.adapters, a = b ↔ a.key = b.key := fun a ha b hb =>
    ⟨fun h => congrArg _ h, List.inj_on_of_nodup_map hkeys ha hb⟩
  rw [d.adapterFor_perm_iff job, and_assoc]
  constructor
  · rintro ⟨hfirst, hgeneric, hnamed⟩
    refine ⟨fun a ha b hb hoa hob => (hkey a ha b hb).mp (hfirst a ha b hb hoa hob),
      fun hnone a ha b hb hga hgb => (hkey a ha b hb).mp (hgeneric hnone a ha b hb hga hgb),
      fun adapter hmem hnames => ?_⟩
    exact (d.adapterFor_eq_some_iff job hmem hfirst hgeneric).mp (hnamed adapter hmem hnames)
  · rintro ⟨hfirst, hgeneric, hnamed⟩
    have hfirst' : ∀ a ∈ d.adapters, ∀ b ∈ d.adapters, d.occurs job a = true →
        d.occurs job b = true → a = b := fun a ha b hb hoa hob =>
      (hkey a ha b hb).mpr (hfirst a ha b hb hoa hob)
    have hgeneric' : (∀ a ∈ d.adapters, d.occurs job a = false) → ∀ a ∈ d.adapters,
        ∀ b ∈ d.adapters, a.kind = .generic → b.kind = .generic → a = b :=
      fun hnone a ha b hb hga hgb => (hkey a ha b hb).mpr (hgeneric hnone a ha b hb hga hgb)
    refine ⟨hfirst', hgeneric', fun adapter hmem hnames => ?_⟩
    exact (d.adapterFor_eq_some_iff job hmem hfirst' hgeneric').mpr (hnamed adapter hmem hnames)

/-! ## Keys that occur in one another -/

/-- Lower-casing of ASCII text. -/
def asciiLowercase (text : String) : String := String.ofList (text.toList.map Char.toLower)

def acceptingAdapter (key : String) (kind : ProviderKind) : ProviderAdapter :=
  ⟨key, kind, fun _ => .ok (.accepted s!"{key} accepted")⟩

def dispatcherOf (adapters : List ProviderAdapter) : ProviderJobDispatcher :=
  ⟨⟨[]⟩, adapters, asciiLowercase⟩

def databaseJob : Job := Job.fresh ⟨7⟩ "shop:postgres.managed" .provision 1 .default 0

/-- One key occurs in the target, and the fallback is not asked. -/
theorem adapter_choice_postgres :
    (dispatcherOf [acceptingAdapter "generic.local-test" .generic,
      acceptingAdapter "postgres.managed" .postgres]).adapterFor databaseJob =
    (dispatcherOf [acceptingAdapter "postgres.managed" .postgres,
      acceptingAdapter "generic.local-test" .generic]).adapterFor databaseJob := by
  refine ((adapter_choice (dispatcherOf [acceptingAdapter "postgres.managed" .postgres,
    acceptingAdapter "generic.local-test" .generic]) (by decide) databaseJob).mpr ⟨?_, ?_, ?_⟩).1 _
      (List.Perm.swap _ _ _)
  · decide
  · decide
  · simp only [ProviderJobDispatcher.Names]
    decide

/-- The target names a provider whose key begins with another one's. -/
theorem adapter_choice_by_order : ¬ ∀ (d : ProviderJobDispatcher) (job : Job),
    (d.adapters.map (·.key)).Nodup →
      (∀ adapters', d.adapters.Perm adapters' →
          { d with adapters := adapters' }.adapterFor job = d.adapterFor job) ∧
        ∀ adapter ∈ d.adapters, ProviderJobDispatcher.Names job.target adapter →
          d.adapterFor job = some adapter := by
  intro h
  have horder := (h (dispatcherOf [acceptingAdapter "postgres" .postgres,
    acceptingAdapter "postgres.managed" .postgres]) databaseJob (by decide)).1
      [acceptingAdapter "postgres.managed" .postgres, acceptingAdapter "postgres" .postgres]
      (List.Perm.swap _ _ _)
  have hkey := congrArg (Option.map (·.key)) horder
  exact absurd hkey (by decide)

end Labrys.ControlPlane
