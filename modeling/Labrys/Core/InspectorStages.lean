import Mathlib.Logic.Relation
import Labrys.Core.Inspector

/-! # What the detectors write

Every detector writes to the builder in six ways, with evidence of its own stage only
(`Observes`). What holds of the builder after any number of such writes, stage after stage, is
`Observed`: the evidence is in the order of the stages, no field is unknown yet, and a value has its
evidence in the list.

* `Detects`: a function that makes writes of one stage only; the detectors are such.
* `Observed.detects`: a later stage keeps what the earlier ones have established.
* `observed_detected`: what holds after the eight detectors, before conflicts are settled. -/

namespace Labrys.Core
open Foundations Relation
set_option autoImplicit false

variable {κ : Type} {C : Confidences κ}

/-! ## Reading the builder after a write -/

namespace ProfileBuilder
variable (b : ProfileBuilder κ)

@[simp] theorem get_put (field : ProfileField) (state : FieldState κ) (other : ProfileField) :
    (b.put field state).get other = if other = field then state else b.get other := by
  cases field <;> cases other <;> rfl

@[simp] theorem get_pushEvidence (evidence : Evidence κ) (field : ProfileField) :
    (b.pushEvidence evidence).get field = b.get field := by
  cases field <;> rfl

@[simp] theorem get_pushUnknown (unknown : Unknown) (field : ProfileField) :
    (b.pushUnknown unknown).get field = b.get field := by
  cases field <;> rfl

@[simp] theorem get_pushFact (name value : String) (evidence : Evidence κ) (field : ProfileField) :
    (b.pushFact name value evidence).get field = b.get field := by
  cases field <;> rfl

@[simp] theorem evidence_put (field : ProfileField) (state : FieldState κ) :
    (b.put field state).evidence = b.evidence := by
  cases field <;> rfl

@[simp] theorem unknowns_put (field : ProfileField) (state : FieldState κ) :
    (b.put field state).unknowns = b.unknowns := by
  cases field <;> rfl

@[simp] theorem evidence_pushCandidate (field : ProfileField) (value : String)
    (evidence : Evidence κ) (confidence : κ) :
    (b.pushCandidate field value evidence confidence).evidence = b.evidence ++ [evidence] := by
  cases field <;> rfl

@[simp] theorem unknowns_pushCandidate (field : ProfileField) (value : String)
    (evidence : Evidence κ) (confidence : κ) :
    (b.pushCandidate field value evidence confidence).unknowns = b.unknowns := by
  cases field <;> rfl

/-- A candidate changes no value, and not what a value rests on. -/
theorem get_pushCandidate (field : ProfileField) (value : String) (evidence : Evidence κ)
    (confidence : κ) (other : ProfileField) :
    ((b.pushCandidate field value evidence confidence).get other).value = (b.get other).value ∧
      ((b.pushCandidate field value evidence confidence).get other).confidence =
        (b.get other).confidence ∧
      ((b.pushCandidate field value evidence confidence).get other).evidence =
        (b.get other).evidence := by
  cases field <;> cases other <;> exact ⟨rfl, rfl, rfl⟩

end ProfileBuilder

/-! ## The writes of a stage -/

/-- One write to the builder, with evidence of the stage. -/
inductive Observes (stage : String) : ProfileBuilder κ → ProfileBuilder κ → Prop
  | compatible (b : ProfileBuilder κ) : Observes stage b { b with containerCompatible := true }
  | evidence (b : ProfileBuilder κ) (evidence : Evidence κ) (h : evidence.stage = stage) :
      Observes stage b (b.pushEvidence evidence)
  | fact (b : ProfileBuilder κ) (name value : String) (evidence : Evidence κ)
      (h : evidence.stage = stage) : Observes stage b (b.pushFact name value evidence)
  | candidate (b : ProfileBuilder κ) (field : ProfileField) (value : String)
      (evidence : Evidence κ) (confidence : κ) (h : evidence.stage = stage) :
      Observes stage b (b.pushCandidate field value evidence confidence)
  | value (b : ProfileBuilder κ) (field : ProfileField) (value : String) (evidence : Evidence κ)
      (confidence : κ) (h : evidence.stage = stage) (hnone : (b.get field).value = none) :
      Observes stage b ((b.put field { b.get field with
        value := some value, confidence, evidence := some evidence }).pushEvidence evidence)
  | unknown (b : ProfileBuilder κ) (unknown : Unknown)
      (h : ∀ field : ProfileField, unknown.field ≠ field.canonicalName) :
      Observes stage b (b.pushUnknown unknown)

/-- A fold takes steps if each of its own does. -/
theorem reflTransGen_foldl {σ α : Type} {r : σ → σ → Prop} {f : σ → α → σ}
    (h : ∀ s a, ReflTransGen r s (f s a)) {as : List α} (s : σ) :
    ReflTransGen r s (as.foldl f s) := by
  induction as generalizing s with
  | nil => exact .refl
  | cons a as ih => exact (h s a).trans (ih (f s a))

/-- The function makes writes of the stage and nothing else. -/
structure Detects (stage : String) (detect : ProfileBuilder κ → ProfileBuilder κ) : Prop where
  writes : ∀ b, ReflTransGen (Observes stage) b (detect b)

namespace Detects
variable {stage : String}

theorem comp {f g : ProfileBuilder κ → ProfileBuilder κ} (hf : Detects stage f)
    (hg : Detects stage g) : Detects stage fun b => g (f b) :=
  ⟨fun b => (hf.writes b).trans (hg.writes (f b))⟩

theorem skip : Detects (κ := κ) stage fun b => b := ⟨fun _ => .refl⟩

theorem foldl {α : Type} {f : ProfileBuilder κ → α → ProfileBuilder κ}
    (hf : ∀ a, Detects stage fun b => f b a) (as : List α) :
    Detects stage fun b => as.foldl f b :=
  ⟨reflTransGen_foldl fun b a => (hf a).writes b⟩

theorem compatible :
    Detects stage fun b : ProfileBuilder κ => { b with containerCompatible := true } :=
  ⟨fun b => .single (.compatible b)⟩

theorem pushUnknown {unknown : Unknown}
    (h : ∀ field : ProfileField, unknown.field ≠ field.canonicalName) :
    Detects stage fun b : ProfileBuilder κ => b.pushUnknown unknown :=
  ⟨fun b => .single (.unknown b unknown h)⟩

variable {evidence : Evidence κ} (h : evidence.stage = stage)
include h

theorem pushEvidence : Detects stage fun b => b.pushEvidence evidence :=
  ⟨fun b => .single (.evidence b evidence h)⟩

theorem pushFact (name value : String) : Detects stage fun b => b.pushFact name value evidence :=
  ⟨fun b => .single (.fact b name value evidence h)⟩

theorem factIf (condition : Bool) (name value : String) :
    Detects stage (factIf condition name value evidence) := by
  cases condition with
  | false => exact skip
  | true => exact pushFact h name value

theorem pushCandidate (field : ProfileField) (value : String) (confidence : κ) :
    Detects stage fun b => b.pushCandidate field value evidence confidence :=
  ⟨fun b => .single (.candidate b field value evidence confidence h)⟩

theorem setField (field : ProfileField) (value : String) (confidence : κ) :
    Detects stage fun b => b.setField field value evidence confidence := by
  refine ⟨fun b => ?_⟩
  unfold ProfileBuilder.setField
  dsimp only
  split
  · next hnone =>
    exact .single (.value b field value evidence confidence h (Option.isNone_iff_eq_none.mp hnone))
  · exact .single (.candidate b field value evidence confidence h)

end Detects

/-! ## The detectors -/

section Detectors
variable (C) (snapshot : ProjectSnapshot)

theorem detects_docker : Detects "dockerfile" (detectDocker C snapshot) := by
  refine ⟨fun b => ?_⟩
  unfold detectDocker
  split
  · exact .refl
  · dsimp only
    split
    · exact ((Detects.compatible.comp (.pushEvidence (by rfl))).comp
        (.setField (by rfl) ..)).writes b
    · refine ((Detects.compatible.comp (.pushEvidence (by rfl))).comp (.pushUnknown ?_)).writes b
      rintro (_ | _) <;> simp [ProfileField.canonicalName]

theorem detects_compose : Detects "compose" (detectCompose C snapshot) := by
  unfold detectCompose
  split
  · exact .skip
  · exact .pushFact (by rfl) ..

theorem detects_manifestHit (hit : ManifestHit κ) (stage : String) :
    Detects stage (applyManifestHit C hit stage) := by
  refine ⟨fun b => ?_⟩
  unfold applyManifestHit
  dsimp only
  split
  · exact (Detects.setField (by rfl) ..).writes b
  · exact ((Detects.setField (by rfl) ..).comp (.setField (by rfl) ..)).writes b

theorem detects_manifest (language : String) (files : List ProjectFile) (detail : String → String)
    (framework : String → Option (String × κ × String)) :
    Detects "manifest" (detectManifest C language files detail framework) := by
  unfold detectManifest
  split
  · exact .skip
  · exact detects_manifestHit C _ "manifest"

theorem detects_manifests : Detects "manifest" (detectManifests C snapshot) := by
  have hnode : Detects "manifest" (detectNode C snapshot) := detects_manifest C ..
  have hdotnet : Detects "manifest" (detectDotnet C snapshot) := detects_manifest C ..
  have hpython : Detects "manifest" (detectPython C snapshot) := detects_manifest C ..
  have hrust : Detects "manifest" (detectRust C snapshot) := detects_manifest C ..
  exact (((hnode.comp hdotnet).comp hpython).comp hrust).comp (.factIf (by rfl) ..)

theorem detects_convention (convention : Convention) :
    Detects "framework_convention" fun b => applyConvention C snapshot b convention := by
  unfold applyConvention
  split
  · exact .skip
  · refine ⟨fun b => ?_⟩
    dsimp only
    split
    · exact (Detects.setField (by rfl) ..).writes b
    · exact (Detects.pushEvidence (by rfl)).writes b

theorem detects_frameworkConventions :
    Detects "framework_convention" (detectFrameworkConventions C snapshot) :=
  Detects.foldl (detects_convention C snapshot) conventions

theorem detects_frameworkAt (path : Option String) (framework detail : String) (confidence : ℕ) :
    Detects "framework_convention" (frameworkAt C path framework detail confidence) := by
  unfold frameworkAt
  split
  · exact .skip
  · exact .setField (by rfl) ..

theorem detects_django : Detects "framework_convention" (detectDjango C snapshot) :=
  (((detects_frameworkAt C ..).comp (detects_frameworkAt C ..)).comp (.factIf (by rfl) ..)).comp
    (.factIf (by rfl) ..)

theorem detects_fastapi : Detects "framework_convention" (detectFastapi C snapshot) :=
  ((detects_frameworkAt C ..).comp (.factIf (by rfl) ..)).comp (.factIf (by rfl) ..)

theorem stage_cargoMigrationRunner {cargo runner : String} {evidence : Evidence κ}
    (h : cargoMigrationRunner C snapshot cargo = some (runner, evidence)) :
    evidence.stage = "framework_convention" := by
  unfold cargoMigrationRunner at h
  split_ifs at h <;> cases h <;> rfl

theorem detects_cargoMigrationRunner (cargo : String) :
    Detects "framework_convention" fun b => match cargoMigrationRunner C snapshot cargo with
      | none => b
      | some (runner, evidence) => b.pushFact "migration_runner" runner evidence := by
  split
  · exact .skip
  · next runner evidence h => exact .pushFact (stage_cargoMigrationRunner C snapshot h) ..

theorem detects_axum : Detects "framework_convention" (detectAxum C snapshot) :=
  ((detects_frameworkAt C ..).comp (detects_cargoMigrationRunner C snapshot _)).comp
    (.factIf (by rfl) ..)

theorem detects_expo : Detects "framework_convention" (detectExpo C snapshot) :=
  (Detects.factIf (by rfl) ..).comp (detects_frameworkAt C ..)

theorem detects_deepFrameworkConventions :
    Detects "framework_convention" (detectDeepFrameworkConventions C snapshot) :=
  (((detects_django C snapshot).comp (detects_fastapi C snapshot)).comp
    (detects_axum C snapshot)).comp (detects_expo C snapshot)

theorem detects_authProviderAt (file : Option ProjectFile) (provider detail : String)
    (confidence : ℕ) :
    Detects "configuration" (authProviderAt C file provider detail confidence) := by
  unfold authProviderAt
  split
  · exact .skip
  · exact .pushFact (by rfl) ..

theorem detects_google : Detects "configuration" (detectGoogle C snapshot) := by
  unfold detectGoogle
  split
  · exact detects_authProviderAt C ..
  · exact detects_authProviderAt C ..

theorem detects_configurationName (name : String) :
    Detects "configuration" fun b => applyConfiguration C snapshot b name := by
  unfold applyConfiguration
  split
  · exact .skip
  · exact .pushFact (by rfl) ..

theorem detects_configuration : Detects "configuration" (detectConfiguration C snapshot) :=
  ((detects_google C snapshot).comp (detects_authProviderAt C ..)).comp
    (.foldl (detects_configurationName C snapshot) _)

theorem detects_ci : Detects "ci" (detectCi C snapshot) :=
  .foldl (fun _ => .pushFact (by rfl) ..) (ciFiles snapshot)

theorem detects_sourceHint (hint : String × String) :
    Detects "source" fun b => applySourceHint C snapshot b hint := by
  unfold applySourceHint
  split
  · exact .skip
  · exact .pushCandidate (by rfl) ..

theorem detects_sourceFallback : Detects "source" (detectSourceFallback C snapshot) := by
  refine ⟨fun b => ?_⟩
  unfold detectSourceFallback
  split
  · exact .refl
  · exact (Detects.foldl (detects_sourceHint C snapshot) sourceHints).writes b

end Detectors
/-! ## What holds from stage to stage -/

/-- A value rests on evidence that is in the list, of a stage of the inspection. -/
def Contributed (b : ProfileBuilder κ) : Prop :=
  ∀ field value, (b.get field).value = some value →
    ∃ evidence ∈ b.evidence, evidence.stage ∈ inspectionOrder ∧
      (b.get field).evidence = some evidence

/-- The builder after the stages up to an index. -/
structure Observed (last : ℕ) (b : ProfileBuilder κ) : Prop where
  sorted : b.evidence.Pairwise fun x y => stageOrder x.stage ≤ stageOrder y.stage
  stages : ∀ evidence ∈ b.evidence,
    evidence.stage ∈ inspectionOrder ∧ stageOrder evidence.stage ≤ last
  unknowns : ∀ unknown ∈ b.unknowns, ∀ field : ProfileField, unknown.field ≠ field.canonicalName
  contributed : Contributed b

theorem Contributed.of_same {b b' : ProfileBuilder κ} (h : Contributed b)
    (hvalue : ∀ field, (b'.get field).value = (b.get field).value)
    (hrest : ∀ field, (b'.get field).evidence = (b.get field).evidence)
    (hevidence : b.evidence ⊆ b'.evidence) : Contributed b' := by
  intro field value hfield
  rw [hvalue] at hfield
  obtain ⟨evidence, hmem, hstage, hsame⟩ := h field value hfield
  exact ⟨evidence, hevidence hmem, hstage, by rw [hrest, hsame]⟩

theorem Observed.next {b : ProfileBuilder κ} {last : ℕ} {stage : String} (h : Observed last b)
    (hle : last ≤ stageOrder stage) : Observed (stageOrder stage) b where
  sorted := h.sorted
  stages := fun evidence hmem =>
    ⟨(h.stages evidence hmem).1, (h.stages evidence hmem).2.trans hle⟩
  unknowns := h.unknowns
  contributed := h.contributed

section Evidence
variable {stage : String} (hstage : stage ∈ inspectionOrder) {evidence : Evidence κ}
  (h : evidence.stage = stage)
include hstage h

theorem Observed.pushed {b b' : ProfileBuilder κ} (hb : Observed (stageOrder stage) b)
    (hevidence : b'.evidence = b.evidence ++ [evidence]) (hunknowns : b'.unknowns = b.unknowns)
    (hcontributed : Contributed b') : Observed (stageOrder stage) b' where
  sorted := by
    rw [hevidence, List.pairwise_append]
    refine ⟨hb.sorted, List.pairwise_singleton _ _, fun x hx y hy => ?_⟩
    rw [List.mem_singleton.mp hy, h]
    exact (hb.stages x hx).2
  stages := by
    rw [hevidence, List.forall_mem_append]
    refine ⟨hb.stages, fun y hy => ?_⟩
    rw [List.mem_singleton.mp hy, h]
    exact ⟨hstage, le_rfl⟩
  unknowns := by
    rw [hunknowns]
    exact hb.unknowns
  contributed := hcontributed

end Evidence

/-- **One write of a stage** keeps what holds. -/
theorem Observed.observes {b b' : ProfileBuilder κ} {stage : String}
    (hstage : stage ∈ inspectionOrder) (hb : Observed (stageOrder stage) b)
    (h : Observes stage b b') : Observed (stageOrder stage) b' := by
  cases h with
  | compatible =>
    have hcontributed : Contributed { b with containerCompatible := true } := hb.contributed.of_same
      (by rintro (_ | _) <;> rfl) (by rintro (_ | _) <;> rfl) (List.Subset.refl _)
    exact ⟨hb.sorted, hb.stages, hb.unknowns, hcontributed⟩
  | evidence evidence hevidence =>
    exact hb.pushed hstage hevidence rfl rfl (hb.contributed.of_same (by simp) (by simp)
      (List.subset_append_left _ _))
  | fact name value evidence hevidence =>
    exact hb.pushed hstage hevidence rfl rfl (hb.contributed.of_same (by simp) (by simp)
      (List.subset_append_left _ _))
  | candidate field value evidence confidence hevidence =>
    refine hb.pushed hstage hevidence (by simp) (by simp) (hb.contributed.of_same
      (fun other => (b.get_pushCandidate field value evidence confidence other).1)
      (fun other => (b.get_pushCandidate field value evidence confidence other).2.2) ?_)
    rw [ProfileBuilder.evidence_pushCandidate]
    exact List.subset_append_left _ _
  | value field value evidence confidence hevidence hnone =>
    refine hb.pushed hstage hevidence ?_ ?_ ?_
    · rw [ProfileBuilder.pushEvidence, ProfileBuilder.evidence_put]
    · rw [ProfileBuilder.pushEvidence, ProfileBuilder.unknowns_put]
    · intro other found hfound
      simp only [ProfileBuilder.get_pushEvidence, ProfileBuilder.get_put] at hfound ⊢
      have hlist : ((b.put field { b.get field with
          value := some value, confidence, evidence := some evidence }).pushEvidence
            evidence).evidence = b.evidence ++ [evidence] := by
        rw [ProfileBuilder.pushEvidence, ProfileBuilder.evidence_put]
      rw [hlist]
      split_ifs at hfound ⊢
      · exact ⟨evidence, List.mem_append_right _ (List.mem_singleton_self _), hevidence ▸ hstage,
          rfl⟩
      · obtain ⟨earlier, hmem, hearlier, hsame⟩ := hb.contributed other found hfound
        exact ⟨earlier, List.mem_append_left _ hmem, hearlier, hsame⟩
  | unknown unknown hunknown =>
    refine ⟨hb.sorted, hb.stages, ?_, hb.contributed.of_same (by simp) (by simp)
      (List.Subset.refl _)⟩
    intro other hother
    obtain hother | hother := List.mem_append.mp hother
    · exact hb.unknowns other hother
    · rw [List.mem_singleton.mp hother]
      exact hunknown

/-- **A detector** keeps what the earlier stages have established. -/
theorem Observed.detects {b : ProfileBuilder κ} {last : ℕ} {stage : String}
    {detect : ProfileBuilder κ → ProfileBuilder κ} (hb : Observed last b)
    (h : Detects stage detect) (hstage : stage ∈ inspectionOrder) (hle : last ≤ stageOrder stage) :
    Observed (stageOrder stage) (detect b) := by
  have hrun : ∀ b', ReflTransGen (Observes stage) b b' → Observed (stageOrder stage) b' := by
    intro b' hwrites
    induction hwrites with
    | refl => exact hb.next hle
    | tail _ hwrite ih => exact ih.observes hstage hwrite
  exact hrun (detect b) (h.writes b)

theorem observed_default (C : Confidences κ) : Observed 0 (.default C) where
  sorted := .nil
  stages := fun _ h => by cases h
  unknowns := fun _ h => by cases h
  contributed := by
    rintro (_ | _) value h <;> cases h

/-- The builder before the conflicts are settled. -/
def detected (C : Confidences κ) (snapshot : ProjectSnapshot) : ProfileBuilder κ :=
  detectSourceFallback C snapshot <| detectCi C snapshot <| detectConfiguration C snapshot <|
    detectDeepFrameworkConventions C snapshot <| detectFrameworkConventions C snapshot <|
    detectManifests C snapshot <| detectCompose C snapshot <| detectDocker C snapshot <|
    .default C

/-- **After the eight detectors**, for every snapshot. -/
theorem observed_detected (C : Confidences κ) (snapshot : ProjectSnapshot) :
    Observed (stageOrder "source") (detected C snapshot) := by
  have hdocker := (observed_default C).detects (detects_docker C snapshot) (by decide) (by decide)
  have hcompose := hdocker.detects (detects_compose C snapshot) (by decide) (by decide)
  have hmanifests := hcompose.detects (detects_manifests C snapshot) (by decide) (by decide)
  have hconventions := hmanifests.detects (detects_frameworkConventions C snapshot) (by decide)
    (by decide)
  have hdeep := hconventions.detects (detects_deepFrameworkConventions C snapshot) (by decide)
    le_rfl
  have hconfiguration := hdeep.detects (detects_configuration C snapshot) (by decide) (by decide)
  have hci := hconfiguration.detects (detects_ci C snapshot) (by decide) (by decide)
  exact hci.detects (detects_sourceFallback C snapshot) (by decide) (by decide)

end Labrys.Core
