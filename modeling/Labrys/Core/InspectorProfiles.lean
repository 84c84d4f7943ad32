import Labrys.Core.InspectorStages

/-! # Profiles that the inspector builds

Settling a conflict and a plugin's finding can take a value away from a field, and record why it is
unknown as they do; nothing gives a value after the detectors. So a field has a value or one entry
among the unknowns, and what plugins infer comes after what the detectors have seen.

* `Infers`: what one finding does to the builder.
* `Settled`: what holds of the builder from the end of the detectors on.
* `inspect_well_formed`: the profiles of every snapshot and every list of plugins. -/

namespace Labrys.Core
open Foundations Relation
set_option autoImplicit false

variable {κ : Type} {C : Confidences κ}

/-! ## Demotions -/

/-- The entries that explain why a field is unknown. -/
def unknownsOf (field : ProfileField) (unknowns : List Unknown) : List Unknown :=
  unknowns.filter fun unknown => decide (unknown.field = field.canonicalName)

/-- A field with a value is not among the unknowns, and none is there twice. -/
def Resolved (b : ProfileBuilder κ) : Prop :=
  ∀ field, (unknownsOf field b.unknowns).length ≤ 1 ∧
    ((b.get field).value.isSome = true → unknownsOf field b.unknowns = [])

theorem Resolved.of_same {b b' : ProfileBuilder κ} (h : Resolved b)
    (hvalue : ∀ field, (b'.get field).value = (b.get field).value)
    (hunknowns : b'.unknowns = b.unknowns) : Resolved b' := by
  intro field
  rw [hvalue, hunknowns]
  exact h field

theorem unknownsOf_concat (field : ProfileField) (unknowns : List Unknown) (unknown : Unknown) :
    unknownsOf field (unknowns ++ [unknown]) =
      if unknown.field = field.canonicalName then unknownsOf field unknowns ++ [unknown]
      else unknownsOf field unknowns := by
  rw [unknownsOf, List.filter_append]
  split_ifs with h <;> simp [h, unknownsOf]

theorem ProfileField.canonicalName_injective : Function.Injective canonicalName := by
  intro a b h
  cases a <;> cases b <;> first | rfl | simp [canonicalName] at h

/-- The field loses its value and is recorded as unknown. -/
def ProfileBuilder.demote (b : ProfileBuilder κ) (field : ProfileField) (unknown : Unknown) :
    ProfileBuilder κ :=
  (b.pushUnknown unknown).clearValue field

section Demotion
variable (b : ProfileBuilder κ) (field : ProfileField) (unknown : Unknown)

theorem value_demote (other : ProfileField) :
    ((b.demote field unknown).get other).value =
      if other = field then none else (b.get other).value := by
  rw [ProfileBuilder.demote, ProfileBuilder.clearValue, ProfileBuilder.get_put]
  split_ifs
  · rfl
  · rw [ProfileBuilder.get_pushUnknown]

theorem rest_demote (other : ProfileField) :
    ((b.demote field unknown).get other).confidence = (b.get other).confidence ∧
      ((b.demote field unknown).get other).evidence = (b.get other).evidence := by
  rw [ProfileBuilder.demote, ProfileBuilder.clearValue, ProfileBuilder.get_put]
  split_ifs with h
  · subst h
    simp
  · simp

theorem evidence_demote : (b.demote field unknown).evidence = b.evidence := by
  rw [ProfileBuilder.demote, ProfileBuilder.clearValue, ProfileBuilder.evidence_put]
  rfl

theorem unknowns_demote : (b.demote field unknown).unknowns = b.unknowns ++ [unknown] := by
  rw [ProfileBuilder.demote, ProfileBuilder.clearValue, ProfileBuilder.unknowns_put]
  rfl

variable {b field unknown}

theorem Resolved.demote (h : Resolved b) (hunknown : unknown.field = field.canonicalName)
    (hvalue : (b.get field).value.isSome = true) : Resolved (b.demote field unknown) := by
  intro other
  rw [value_demote, unknowns_demote, unknownsOf_concat, hunknown]
  by_cases hother : other = field
  · subst hother
    rw [if_pos rfl, if_pos rfl, (h other).2 hvalue]
    exact ⟨le_rfl, nofun⟩
  · have hname : ¬ field.canonicalName = other.canonicalName := fun heq =>
      hother (ProfileField.canonicalName_injective heq).symm
    rw [if_neg hname, if_neg hother]
    exact h other

end Demotion

/-! ## Settling the conflicts -/

theorem finishField_cases (b : ProfileBuilder κ) (field : ProfileField) :
    b.finishField C field = b ∨
      ∃ unknown, unknown.field = field.canonicalName ∧ (b.get field).value.isSome = true ∧
        b.finishField C field = b.demote field unknown := by
  unfold ProfileBuilder.finishField
  dsimp only
  split
  · exact .inl rfl
  · next current hvalue =>
    split
    · exact .inl rfl
    · exact .inr ⟨_, rfl, by rw [hvalue]; rfl, rfl⟩

/-- What is left of a builder whose values may have been taken away. -/
structure Settled (start b : ProfileBuilder κ) : Prop where
  inferred : ∃ inferred, b.evidence = start.evidence ++ inferred ∧
    ∀ evidence ∈ inferred, evidence.stage = "plugin"
  values : ∀ field value, (b.get field).value = some value → (start.get field).value = some value
  evidence : ∀ field, (b.get field).evidence = (start.get field).evidence
  resolved : Resolved b

theorem Settled.demote {start b : ProfileBuilder κ} {field : ProfileField} {unknown : Unknown}
    (h : Settled start b) (hunknown : unknown.field = field.canonicalName)
    (hvalue : (b.get field).value.isSome = true) : Settled start (b.demote field unknown) where
  inferred := by
    rw [evidence_demote]
    exact h.inferred
  values := by
    intro other value hother
    rw [value_demote] at hother
    split_ifs at hother
    exact h.values other value hother
  evidence := fun other => (rest_demote b field unknown other).2.trans (h.evidence other)
  resolved := h.resolved.demote hunknown hvalue

theorem Settled.finishField {start b : ProfileBuilder κ} (h : Settled start b)
    (field : ProfileField) : Settled start (b.finishField C field) := by
  obtain heq | ⟨unknown, hunknown, hvalue, heq⟩ := finishField_cases (C := C) b field <;> rw [heq]
  · exact h
  · exact h.demote hunknown hvalue

theorem settled_detected (C : Confidences κ) (snapshot : ProjectSnapshot) :
    Settled (detected C snapshot) (detected C snapshot) where
  inferred := ⟨[], (List.append_nil _).symm, by simp⟩
  values := fun _ _ h => h
  evidence := fun _ => rfl
  resolved := by
    intro field
    have hnone : unknownsOf field (detected C snapshot).unknowns = [] :=
      List.filter_eq_nil_iff.mpr fun unknown hmem => by
        simpa using (observed_detected C snapshot).unknowns unknown hmem field
    rw [hnone]
    exact ⟨Nat.zero_le 1, fun _ => rfl⟩

theorem settled_deterministic (C : Confidences κ) (snapshot : ProjectSnapshot) :
    Settled (detected C snapshot) (inspectDeterministic C snapshot) :=
  ((settled_detected C snapshot).finishField .language).finishField .framework

/-! ## What a finding does -/

/-- What one finding of a plugin does to the builder. -/
inductive Infers : ProfileBuilder κ → ProfileBuilder κ → Prop
  | candidate (b : ProfileBuilder κ) (field : ProfileField) (value : String)
      (evidence : Evidence κ) (confidence : κ) (h : evidence.stage = "plugin") :
      Infers b (b.pushCandidate field value evidence confidence)
  | evidence (b : ProfileBuilder κ) (evidence : Evidence κ) (h : evidence.stage = "plugin") :
      Infers b (b.pushEvidence evidence)
  | fact (b : ProfileBuilder κ) (name value : String) (evidence : Evidence κ)
      (h : evidence.stage = "plugin") : Infers b (b.pushFact name value evidence)
  | demoted (b : ProfileBuilder κ) (field : ProfileField) (unknown : Unknown)
      (evidence : Evidence κ) (h : evidence.stage = "plugin")
      (hunknown : unknown.field = field.canonicalName)
      (hvalue : (b.get field).value.isSome = true) :
      Infers b ((b.demote field unknown).pushEvidence evidence)

theorem applyFieldFinding_infers (pluginName : String) (field : ProfileField) (value : String)
    {evidence : Evidence κ} (h : evidence.stage = "plugin") (confidence : κ)
    (b : ProfileBuilder κ) :
    Infers b (applyFieldFinding C pluginName field value evidence confidence b) := by
  unfold applyFieldFinding
  dsimp only
  split
  · exact .candidate b field value evidence confidence h
  · next current hvalue =>
    split_ifs
    · exact .evidence b evidence h
    · exact .demoted b field _ _ rfl rfl (by rw [hvalue]; rfl)
    · exact .fact b _ value evidence h

theorem applyFinding_infers (pluginName : String) (b : ProfileBuilder κ)
    (finding : PluginFinding κ) : Infers b (applyFinding C pluginName b finding) := by
  unfold applyFinding
  dsimp only
  split
  · exact applyFieldFinding_infers pluginName _ finding.value rfl _ b
  · exact .fact b _ finding.value _ rfl

theorem plugin_infers (snapshot : ProjectSnapshot) (plugin : InspectorPlugin κ)
    (b : ProfileBuilder κ) : ReflTransGen Infers b (applyPlugin C snapshot b plugin) := by
  unfold applyPlugin
  exact reflTransGen_foldl (fun b finding => .single (applyFinding_infers plugin.name b finding)) b

theorem plugins_infer (snapshot : ProjectSnapshot) (plugins : List (InspectorPlugin κ))
    (b : ProfileBuilder κ) :
    ReflTransGen Infers b (plugins.foldl (applyPlugin C snapshot) b) :=
  reflTransGen_foldl (fun b plugin => plugin_infers snapshot plugin b) b

/-- Evidence of a plugin is added and every field stays as it is. -/
theorem Settled.pushed {start b b' : ProfileBuilder κ} (h : Settled start b)
    {evidence : Evidence κ} (hstage : evidence.stage = "plugin")
    (hevidence : b'.evidence = b.evidence ++ [evidence]) (hunknowns : b'.unknowns = b.unknowns)
    (hvalue : ∀ field, (b'.get field).value = (b.get field).value)
    (hrest : ∀ field, (b'.get field).evidence = (b.get field).evidence) : Settled start b' where
  inferred := by
    obtain ⟨inferred, heq, hplugin⟩ := h.inferred
    refine ⟨inferred ++ [evidence], by rw [hevidence, heq, List.append_assoc], ?_⟩
    rw [List.forall_mem_append]
    exact ⟨hplugin, fun other hother => by rw [List.mem_singleton.mp hother, hstage]⟩
  values := by
    intro field value hfield
    rw [hvalue] at hfield
    exact h.values field value hfield
  evidence := fun field => (hrest field).trans (h.evidence field)
  resolved := h.resolved.of_same hvalue hunknowns

/-- **One finding** leaves a settled builder settled. -/
theorem Settled.infers {start b b' : ProfileBuilder κ} (hb : Settled start b) (h : Infers b b') :
    Settled start b' := by
  cases h with
  | candidate field value evidence confidence hstage =>
    refine hb.pushed hstage (by simp) (by simp) (fun other => ?_) fun other => ?_
    · exact (b.get_pushCandidate field value evidence confidence other).1
    · exact (b.get_pushCandidate field value evidence confidence other).2.2
  | evidence evidence hstage => exact hb.pushed hstage rfl rfl (by simp) (by simp)
  | fact name value evidence hstage => exact hb.pushed hstage rfl rfl (by simp) (by simp)
  | demoted field unknown evidence hstage hunknown hvalue =>
    exact (hb.demote hunknown hvalue).pushed hstage rfl rfl (by simp) (by simp)

theorem settled_plugins (snapshot : ProjectSnapshot) (plugins : List (InspectorPlugin κ)) :
    Settled (detected C snapshot)
      (plugins.foldl (applyPlugin C snapshot) (inspectDeterministic C snapshot)) := by
  have hrun : ∀ b, ReflTransGen Infers (inspectDeterministic C snapshot) b →
      Settled (detected C snapshot) b := by
    intro b hinfers
    induction hinfers with
    | refl => exact settled_deterministic C snapshot
    | tail _ hfinding ih => exact ih.infers hfinding
  exact hrun _ (plugins_infer snapshot plugins _)

/-! ## The profile -/

def ApplicationProfile.value (profile : ApplicationProfile κ) : ProfileField → Option String
  | .language => profile.language
  | .framework => profile.framework

def ApplicationProfile.isUnknown (profile : ApplicationProfile κ) (field : String) : Bool :=
  profile.unknowns.any fun unknown => decide (unknown.field = field)

/-- The profile that a builder ends in. -/
structure Builds (b : ProfileBuilder κ) (profile : ApplicationProfile κ) : Prop where
  value : ∀ field, profile.value field = (b.get field).value
  evidence : profile.evidence = b.evidence
  unknowns : ∀ field, (unknownsOf field profile.unknowns).length =
    if (b.get field).value.isSome then 0 else 1

theorem recordUnobserved_cases (b : ProfileBuilder κ) (field : ProfileField) :
    (b.recordUnobserved field = b ∧
      ((b.get field).value.isSome = true ∨ unknownsOf field b.unknowns ≠ [])) ∨
    ∃ unknown, unknown.field = field.canonicalName ∧ (b.get field).value = none ∧
      unknownsOf field b.unknowns = [] ∧ b.recordUnobserved field = b.pushUnknown unknown := by
  have hany : b.unknowns.any (fun unknown => decide (unknown.field = field.canonicalName)) = false ↔
      unknownsOf field b.unknowns = [] := by
    rw [List.any_eq_false, unknownsOf, List.filter_eq_nil_iff]
  unfold ProfileBuilder.recordUnobserved
  dsimp only
  split
  · next hunobserved =>
    rw [Bool.and_eq_true, Option.isNone_iff_eq_none, Bool.not_eq_true'] at hunobserved
    exact .inr ⟨_, rfl, hunobserved.1, hany.mp hunobserved.2, rfl⟩
  · next hobserved =>
    refine .inl ⟨rfl, ?_⟩
    by_contra hneither
    rw [not_or, not_not, ← hany, Option.not_isSome_iff_eq_none] at hneither
    exact hobserved (by rw [hneither.1, hneither.2]; rfl)

theorem recordUnobserved_same (b : ProfileBuilder κ) (field : ProfileField) :
    (∀ other, (b.recordUnobserved field).get other = b.get other) ∧
      (b.recordUnobserved field).evidence = b.evidence := by
  obtain ⟨heq, -⟩ | ⟨unknown, -, -, -, heq⟩ := recordUnobserved_cases b field <;> rw [heq]
  · exact ⟨fun _ => rfl, rfl⟩
  · exact ⟨b.get_pushUnknown unknown, rfl⟩

/-- The field has a value or one entry then, and the entries of the other field are as they were. -/
theorem recordUnobserved_unknowns {b : ProfileBuilder κ} (h : Resolved b)
    (field other : ProfileField) :
    (unknownsOf other (b.recordUnobserved field).unknowns).length =
      if other = field then if (b.get other).value.isSome then 0 else 1
      else (unknownsOf other b.unknowns).length := by
  obtain ⟨heq, hobserved⟩ | ⟨unknown, hunknown, hvalue, hnone, heq⟩ :=
    recordUnobserved_cases b field <;> rw [heq]
  · by_cases hother : other = field
    · subst hother
      rw [if_pos rfl]
      split_ifs with hsome
      · rw [(h other).2 hsome, List.length_nil]
      · have hpos := List.length_pos_iff.mpr (hobserved.resolve_left hsome)
        have hle := (h other).1
        omega
    · rw [if_neg hother]
  · have hpushed : (b.pushUnknown unknown).unknowns = b.unknowns ++ [unknown] := rfl
    rw [hpushed, unknownsOf_concat, hunknown]
    by_cases hother : other = field
    · subst hother
      rw [if_pos rfl, if_pos rfl, hnone, hvalue]
      rfl
    · have hname : ¬ field.canonicalName = other.canonicalName := fun heq =>
        hother (ProfileField.canonicalName_injective heq).symm
      rw [if_neg hname, if_neg hother]

theorem Resolved.recordUnobserved {b : ProfileBuilder κ} (h : Resolved b) (field : ProfileField) :
    Resolved (b.recordUnobserved field) := by
  intro other
  have hlength := recordUnobserved_unknowns h field other
  rw [(recordUnobserved_same b field).1, ← List.length_eq_zero_iff, hlength]
  split_ifs with hother hsome
  · exact ⟨Nat.zero_le 1, fun _ => rfl⟩
  · exact ⟨le_rfl, fun hvalue => absurd hvalue hsome⟩
  · rw [List.length_eq_zero_iff]
    exact h other

theorem build_builds {b : ProfileBuilder κ} (h : Resolved b) : Builds b b.build := by
  obtain ⟨hfirst, hevidence⟩ := recordUnobserved_same b .language
  obtain ⟨hsecond, hevidence'⟩ := recordUnobserved_same (b.recordUnobserved .language) .framework
  have hget : ∀ field, ((b.recordUnobserved .language).recordUnobserved .framework).get field =
      b.get field := fun field => (hsecond field).trans (hfirst field)
  refine ⟨?_, hevidence'.trans hevidence, fun field => ?_⟩
  · rintro (_ | _)
    · exact congrArg FieldState.value (hget .language)
    · exact congrArg FieldState.value (hget .framework)
  · refine (recordUnobserved_unknowns (h.recordUnobserved .language) .framework field).trans ?_
    rw [recordUnobserved_unknowns h, hfirst]
    cases field <;> rfl

/-- What is asked of the profile of a snapshot. -/
structure WellFormedProfile (C : Confidences κ) (snapshot : ProjectSnapshot)
    (profile : ApplicationProfile κ) : Prop where
  known : ∀ field, (profile.value field).isSome = true ↔
    profile.isUnknown field.canonicalName = false
  unknownOnce : ∀ field, profile.value field = none →
    (unknownsOf field profile.unknowns).length = 1
  contributed : ∀ field value, profile.value field = some value →
    ∃ evidence ∈ profile.evidence, evidence.stage ∈ inspectionOrder ∧
      ((detected C snapshot).get field).value = some value ∧
      ((detected C snapshot).get field).evidence = some evidence
  sorted : profile.evidence.Pairwise fun x y => stageOrder x.stage ≤ stageOrder y.stage
  pluginsLast : ∃ observed inferred, profile.evidence = observed ++ inferred ∧
    (∀ evidence ∈ observed, evidence.stage ∈ inspectionOrder) ∧
    ∀ evidence ∈ inferred, evidence.stage = "plugin"

/-- **Inspector output is well-formed**: for every snapshot, every list of plugins and every
comparison of the confidences. -/
theorem inspect_well_formed (C : Confidences κ) (plugins : List (InspectorPlugin κ))
    (snapshot : ProjectSnapshot) :
    WellFormedProfile C snapshot (inspect C plugins snapshot) := by
  have hobserved := observed_detected C snapshot
  have hsettled := settled_plugins (C := C) snapshot plugins
  have hbuilds := build_builds hsettled.resolved
  obtain ⟨inferred, hevidence, hplugin⟩ := hsettled.inferred
  have hvalues := hbuilds.value
  have hunknowns := hbuilds.unknowns
  have hlist : (inspect C plugins snapshot).evidence = (detected C snapshot).evidence ++ inferred :=
    hbuilds.evidence.trans hevidence
  refine {
    known := fun field => ?_
    unknownOnce := fun field hnone => ?_
    contributed := fun field value hvalue => ?_
    sorted := ?_
    pluginsLast := ⟨_, inferred, hlist, fun e he => (hobserved.stages e he).1, hplugin⟩ }
  · have hnone : (inspect C plugins snapshot).isUnknown field.canonicalName = false ↔
        (unknownsOf field (inspect C plugins snapshot).unknowns).length = 0 := by
      rw [ApplicationProfile.isUnknown, List.any_eq_false, ← List.filter_eq_nil_iff,
        ← List.length_eq_zero_iff]
      rfl
    rw [hnone, inspect, hvalues, hunknowns]
    split_ifs with hsome <;> simp [hsome]
  · rw [inspect, hvalues] at hnone
    rw [inspect, hunknowns, hnone]
    rfl
  · rw [inspect, hvalues] at hvalue
    have hdetected := hsettled.values field value hvalue
    obtain ⟨evidence, hmem, hstage, hsame⟩ := hobserved.contributed field value hdetected
    exact ⟨evidence, hlist ▸ List.mem_append_left _ hmem, hstage, hdetected, hsame⟩
  · rw [hlist, List.pairwise_append]
    have hplugins : ∀ e ∈ inferred, stageOrder e.stage = 7 := fun e he => by
      rw [hplugin e he]
      decide
    refine ⟨hobserved.sorted, List.pairwise_of_forall_mem_list fun x hx y hy => ?_,
      fun x hx y hy => ?_⟩
    · rw [hplugins x hx, hplugins y hy]
    · rw [hplugins y hy]
      exact ((hobserved.stages x hx).2).trans (by decide)

end Labrys.Core
