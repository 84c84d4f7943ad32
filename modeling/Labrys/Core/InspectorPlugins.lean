import Labrys.Core.InspectorProfiles

/-! # What plugins can do to a profile

A plugin's finding leaves a field as it is or takes its value away, and which of the two does not
depend on the findings before it: the confidence of the deterministic value stays with the field. So
what a list of plugins does to a field is what a filter does, in any order.

* `Contradicts`: a finding that takes a value away.
* `value_plugins`: the value of a field after every finding of a list of plugins.
* `plugins_only_demote`: the profiles with and without plugins. -/

namespace Labrys.Core
open Foundations
set_option autoImplicit false

/-- **Clearing folds.** If a step keeps what a view shows or clears it, by what is shown and by its
own argument alone, then a fold clears it exactly if one of its arguments does. -/
theorem view_foldl_of_clears {σ α β : Type} {view : σ → Option β} {f : σ → α → σ}
    (clears : β → α → Bool) (h : ∀ s a, view (f s a) = (view s).filter fun x => !clears x a)
    (as : List α) (s : σ) :
    view (as.foldl f s) = (view s).filter fun x => !as.any (clears x) := by
  induction as generalizing s with
  | nil => cases hview : view s <;> simp [hview, Option.filter]
  | cons a as ih =>
    rw [List.foldl_cons, ih, h]
    cases view s with
    | none => rfl
    | some x => cases hx : clears x a <;> simp [Option.filter, hx]

variable {κ : Type} (C : Confidences κ)

/-! ## One finding -/

/-- The finding names another value for the field, ignoring the case of letters, and is at least as
confident. -/
def contradicts (field : ProfileField) (known : String × κ) (finding : PluginFinding κ) : Bool :=
  decide (finding.field = field.canonicalName) && !eqIgnoreAsciiCase known.1 finding.value &&
    C.ge (C.clamp finding.confidence) known.2

/-- The value of a field with its confidence. -/
def ProfileBuilder.known (field : ProfileField) (b : ProfileBuilder κ) : Option (String × κ) :=
  (b.get field).value.map fun value => (value, (b.get field).confidence)

theorem known_of_same {b b' : ProfileBuilder κ} {field : ProfileField}
    (hvalue : (b'.get field).value = (b.get field).value)
    (hconfidence : (b'.get field).confidence = (b.get field).confidence) :
    b'.known field = b.known field := by
  rw [ProfileBuilder.known, hvalue, hconfidence]
  rfl

theorem ofName_canonicalName (field : ProfileField) :
    ProfileField.ofName field.canonicalName = some field := by
  cases field <;> decide

theorem ofName_eq_some {name : String} {field : ProfileField}
    (h : ProfileField.ofName name = some field) : name = field.canonicalName := by
  unfold ProfileField.ofName at h
  split_ifs at h with hlanguage hframework <;> cases h
  · exact hlanguage
  · exact hframework

/-- A finding for one field does nothing to the other. -/
theorem known_applyFieldFinding_of_ne (pluginName : String) {field other : ProfileField}
    (hne : other ≠ field) (value : String) (evidence : Evidence κ) (confidence : κ)
    (b : ProfileBuilder κ) :
    (applyFieldFinding C pluginName field value evidence confidence b).known other =
      b.known other := by
  unfold applyFieldFinding
  dsimp only
  split
  · obtain ⟨hvalue, hconfidence, -⟩ := b.get_pushCandidate field value evidence confidence other
    exact known_of_same hvalue hconfidence
  · split_ifs
    · exact known_of_same (by simp) (by simp)
    · refine known_of_same ?_ ?_ <;> simp [ProfileBuilder.clearValue, hne]
    · exact known_of_same (by simp) (by simp)

/-- A finding for a field clears it if it contradicts what is known. -/
theorem known_applyFieldFinding (pluginName : String) (field : ProfileField) (value : String)
    (evidence : Evidence κ) (confidence : κ) (b : ProfileBuilder κ) :
    (applyFieldFinding C pluginName field value evidence confidence b).known field =
      (b.known field).filter fun known =>
        eqIgnoreAsciiCase known.1 value || !C.ge confidence known.2 := by
  unfold applyFieldFinding
  dsimp only
  split
  · next hnone =>
    obtain ⟨hvalue, hconfidence, -⟩ := b.get_pushCandidate field value evidence confidence field
    rw [known_of_same hvalue hconfidence, ProfileBuilder.known, hnone]
    rfl
  · next current hcurrent =>
    have hknown : b.known field = some (current, (b.get field).confidence) := by
      rw [ProfileBuilder.known, hcurrent]
      rfl
    rw [hknown]
    split_ifs with hsame hconfident
    · have hpushed : (b.pushEvidence evidence).known field = b.known field :=
        known_of_same (by simp) (by simp)
      rw [hpushed, hknown]
      simp [Option.filter, hsame]
    · simp [Option.filter, hsame, hconfident, ProfileBuilder.known, ProfileBuilder.clearValue]
    · have hpushed : (b.pushFact s!"candidate_{field.canonicalName}" value evidence).known field =
          b.known field := known_of_same (by simp) (by simp)
      rw [hpushed, hknown]
      simp [Option.filter, hconfident]

/-- **One finding** keeps what is known of a field or clears it. -/
theorem known_applyFinding (field : ProfileField) (pluginName : String) (b : ProfileBuilder κ)
    (finding : PluginFinding κ) :
    (applyFinding C pluginName b finding).known field =
      (b.known field).filter fun known => !contradicts C field known finding := by
  unfold applyFinding
  dsimp only
  split
  · next target htarget =>
    have hname := ofName_eq_some htarget
    by_cases hfield : field = target
    · subst hfield
      rw [known_applyFieldFinding]
      congr 1
      funext known
      simp [contradicts, hname]
    · rw [known_applyFieldFinding_of_ne C pluginName hfield]
      have hother : ¬ target.canonicalName = field.canonicalName := fun heq =>
        hfield (ProfileField.canonicalName_injective heq).symm
      cases b.known field <;> simp [contradicts, hname, hother, Option.filter]
  · next hnone =>
    have hother : ¬ finding.field = field.canonicalName := fun heq => by
      rw [heq, ofName_canonicalName] at hnone
      cases hnone
    rw [known_of_same (b := b) (by simp) (by simp)]
    cases b.known field <;> simp [contradicts, hother, Option.filter]

/-! ## All plugins -/

theorem known_plugins (field : ProfileField) (snapshot : ProjectSnapshot)
    (plugins : List (InspectorPlugin κ)) (b : ProfileBuilder κ) :
    (plugins.foldl (applyPlugin C snapshot) b).known field =
      (b.known field).filter fun known => !plugins.any fun plugin =>
        (plugin.detect snapshot).any (contradicts C field known) :=
  view_foldl_of_clears
    (fun known plugin => (plugin.detect snapshot).any (contradicts C field known))
    (fun b plugin => view_foldl_of_clears (contradicts C field)
      (known_applyFinding C field plugin.name) (plugin.detect snapshot) b) plugins b

/-- A finding of one of the plugins takes the value away. -/
def Contradicted (field : ProfileField) (snapshot : ProjectSnapshot)
    (plugins : List (InspectorPlugin κ)) (value : String) : Prop :=
  ∃ plugin ∈ plugins, ∃ finding ∈ plugin.detect snapshot,
    finding.field = field.canonicalName ∧ eqIgnoreAsciiCase value finding.value = false ∧
      C.ge (C.clamp finding.confidence)
        ((inspectDeterministic C snapshot).get field).confidence = true

theorem contradicted_iff (field : ProfileField) (snapshot : ProjectSnapshot)
    (plugins : List (InspectorPlugin κ)) (value : String) :
    Contradicted C field snapshot plugins value ↔
      (plugins.any fun plugin => (plugin.detect snapshot).any (contradicts C field
        (value, ((inspectDeterministic C snapshot).get field).confidence))) = true := by
  simp [Contradicted, contradicts, and_assoc]

theorem resolved_deterministic (snapshot : ProjectSnapshot) :
    Resolved (inspectDeterministic C snapshot) :=
  (settled_deterministic C snapshot).resolved

/-- The value of a field in the profile: the deterministic one, unless it is contradicted. -/
theorem value_inspect_eq_some_iff (field : ProfileField) (snapshot : ProjectSnapshot)
    (plugins : List (InspectorPlugin κ)) (value : String) :
    (inspect C plugins snapshot).value field = some value ↔
      (inspect C [] snapshot).value field = some value ∧
        ¬ Contradicted C field snapshot plugins value := by
  have hplugins := (build_builds (settled_plugins (C := C) snapshot plugins).resolved).value field
  have hnone := (build_builds (resolved_deterministic C snapshot)).value field
  have hknown := known_plugins C field snapshot plugins (inspectDeterministic C snapshot)
  have hvalue (b : ProfileBuilder κ) : (b.get field).value = (b.known field).map Prod.fst := by
    cases h : (b.get field).value <;> simp [ProfileBuilder.known, h]
  rw [inspect, hplugins, inspect, List.foldl_nil, hnone, hvalue, hknown]
  cases hfield : ((inspectDeterministic C snapshot).get field).value with
  | none => simp [ProfileBuilder.known, hfield]
  | some current =>
    have hcurrent : (inspectDeterministic C snapshot).known field =
        some (current, ((inspectDeterministic C snapshot).get field).confidence) := by
      rw [ProfileBuilder.known, hfield]
      rfl
    rw [hcurrent, contradicted_iff, Option.map_eq_some_iff]
    simp only [Option.filter_eq_some_iff, Option.some.injEq]
    constructor
    · rintro ⟨known, ⟨rfl, hkept⟩, rfl⟩
      exact ⟨rfl, by simpa using hkept⟩
    · rintro ⟨rfl, hkept⟩
      exact ⟨_, ⟨rfl, by simpa using hkept⟩, rfl⟩

/-- The plugins in another order, each with its findings in another order. -/
def Reordered (snapshot : ProjectSnapshot) (plugins plugins' : List (InspectorPlugin κ)) : Prop :=
  ∃ shuffled, List.Forall₂ (fun plugin plugin' =>
      plugin.name = plugin'.name ∧ (plugin.detect snapshot).Perm (plugin'.detect snapshot))
    plugins shuffled ∧ shuffled.Perm plugins'

theorem Reordered.contradicted {field : ProfileField} {snapshot : ProjectSnapshot}
    {plugins plugins' : List (InspectorPlugin κ)} (h : Reordered snapshot plugins plugins')
    (value : String) :
    Contradicted C field snapshot plugins value ↔ Contradicted C field snapshot plugins' value := by
  obtain ⟨shuffled, hfindings, hplugins⟩ := h
  rw [contradicted_iff, contradicted_iff, ← hplugins.any_eq]
  clear hplugins
  induction hfindings with
  | nil => rfl
  | cons hsame _ ih =>
    rw [List.any_cons, List.any_cons, hsame.2.any_eq, Bool.or_eq_true, Bool.or_eq_true]
    exact or_congr_right ih

/-- What the plugins make of one field, beside the profile without them. -/
structure OnlyDemoted (snapshot : ProjectSnapshot) (plugins : List (InspectorPlugin κ))
    (field : ProfileField) : Prop where
  kept : (inspect C plugins snapshot).value field = (inspect C [] snapshot).value field ∨
    (inspect C plugins snapshot).value field = none
  demoted : (inspect C plugins snapshot).value field = none ↔
    (inspect C [] snapshot).value field = none ∨
      ∃ value, (inspect C [] snapshot).value field = some value ∧
        Contradicted C field snapshot plugins value
  ordered : ∀ plugins', Reordered snapshot plugins plugins' →
    (inspect C plugins' snapshot).value field = (inspect C plugins snapshot).value field

/-- **Plugins can only demote**: for every snapshot, every list of plugins and both fields, whatever
the comparison of the confidences, a total order among them. -/
theorem plugins_only_demote (snapshot : ProjectSnapshot) (plugins : List (InspectorPlugin κ))
    (field : ProfileField) : OnlyDemoted C snapshot plugins field := by
  have hvalue := value_inspect_eq_some_iff C field snapshot plugins
  refine ⟨?_, ?_, fun plugins' h => ?_⟩
  · cases hinformed : (inspect C plugins snapshot).value field with
    | none => exact .inr rfl
    | some value => exact .inl ((hvalue value).mp hinformed).1.symm
  · cases hplain : (inspect C [] snapshot).value field with
    | none =>
      refine iff_of_true ?_ (.inl rfl)
      refine Option.eq_none_iff_forall_ne_some.mpr fun value hinformed => ?_
      have hsome := ((hvalue value).mp hinformed).1
      rw [hplain] at hsome
      cases hsome
    | some plain =>
      rw [Option.eq_none_iff_forall_ne_some]
      constructor
      · intro hnone
        refine .inr ⟨plain, rfl, by_contra fun hnot => hnone plain ?_⟩
        exact (hvalue plain).mpr ⟨hplain, hnot⟩
      · rintro (hnone | ⟨value, hsame, hcontradicted⟩) informed hinformed
        · cases hnone
        · obtain ⟨hkept, hnot⟩ := (hvalue informed).mp hinformed
          obtain rfl := Option.some_inj.mp (hsame.symm.trans (hplain.symm.trans hkept))
          exact hnot hcontradicted
  · refine Option.ext fun value => ?_
    rw [hvalue, value_inspect_eq_some_iff, h.contradicted]

end Labrys.Core
