import Mathlib.Data.String.Basic
import Labrys.Core.InspectorProfiles
import Labrys.Core.RuntimeDetection
import Labrys.Foundations.Selection

/-! # Files that two readers look for

The inspector and the runtime adapters search the same snapshot, each in its own way.

* `containerCompatible_inspect`: a file of the name `Dockerfile` makes a profile
  container-compatible, whatever is in it, and nothing else does.
* `containers_agree_iff`: when the inspector and the generic adapter agree on the container.
* `configurationFacts_inspect`: the configuration facts of a profile, one for each name that has a
  file.
* `environment_found_iff`: when the first environment file is the one that is found. -/

namespace Labrys.Core
open Foundations Relation
set_option autoImplicit false

/-! ## The first file of a search -/

namespace ProjectSnapshot
variable {snapshot : ProjectSnapshot}

/-- A path has one content. -/
theorem eq_of_mem_entries {file other : ProjectFile} (hfile : file ∈ snapshot.entries)
    (hother : other ∈ snapshot.entries) (hpath : file.1 = other.1) : file = other := by
  have hget := Std.TreeMap.mem_toList_iff_getElem?_eq_some.mp hfile
  have hsame := Std.TreeMap.mem_toList_iff_getElem?_eq_some.mp hother
  rw [hpath, hsame] at hget
  exact Prod.ext hpath (Option.some.inj hget).symm

end ProjectSnapshot

theorem sortedByPath_eq (files : List ProjectFile) : sortedByPath files = sortByKey Prod.fst files :=
  rfl

/-- The first file of a search is the found one with the least path. -/
theorem head?_sortedByPath_eq_some_iff {snapshot : ProjectSnapshot} {files : List ProjectFile}
    (hfiles : files ⊆ snapshot.entries) {file : ProjectFile} :
    (sortedByPath files).head? = some file ↔
      file ∈ files ∧ ∀ other ∈ files, file.1 ≤ other.1 := by
  rw [sortedByPath_eq]
  exact head?_sortByKey_eq_some_iff fun a ha b hb =>
    ProjectSnapshot.eq_of_mem_entries (hfiles ha) (hfiles hb)

theorem head?_sortedByPath_eq_none_iff {files : List ProjectFile} :
    (sortedByPath files).head? = none ↔ files = [] := by
  have hlength : (sortedByPath files).length = files.length :=
    (sortByKey_perm Prod.fst files).length_eq
  rw [List.head?_eq_none_iff, ← List.length_eq_zero_iff, hlength, List.length_eq_zero_iff]

/-- Removing repetitions keeps the first file. -/
theorem head?_destutter {α : Type} (r : α → α → Prop) [DecidableRel r] (xs : List α) :
    (xs.destutter r).head? = xs.head? := by
  cases xs with
  | nil => rfl
  | cons a xs =>
    rw [List.destutter_cons', List.head?_cons]
    induction xs with
    | nil => rfl
    | cons b xs ih =>
      rw [List.destutter'_cons]
      split_ifs
      · rfl
      · exact ih

/-! ## The container flag -/

variable {κ : Type} {C : Confidences κ}

namespace ProfileBuilder
variable (b : ProfileBuilder κ)

@[simp] theorem containerCompatible_put (field : ProfileField) (state : FieldState κ) :
    (b.put field state).containerCompatible = b.containerCompatible := by
  cases field <;> rfl

theorem containerCompatible_pushEvidence (evidence : Evidence κ) :
    (b.pushEvidence evidence).containerCompatible = b.containerCompatible := rfl

theorem containerCompatible_pushUnknown (unknown : Unknown) :
    (b.pushUnknown unknown).containerCompatible = b.containerCompatible := rfl

@[simp] theorem containerCompatible_pushFact (name value : String) (evidence : Evidence κ) :
    (b.pushFact name value evidence).containerCompatible = b.containerCompatible := rfl

@[simp] theorem containerCompatible_pushCandidate (field : ProfileField) (value : String)
    (evidence : Evidence κ) (confidence : κ) :
    (b.pushCandidate field value evidence confidence).containerCompatible =
      b.containerCompatible := by
  cases field <;> rfl

@[simp] theorem containerCompatible_setField (field : ProfileField) (value : String)
    (evidence : Evidence κ) (confidence : κ) :
    (b.setField field value evidence confidence).containerCompatible = b.containerCompatible := by
  unfold setField
  dsimp only
  split
  · rw [containerCompatible_pushEvidence, containerCompatible_put]
  · exact containerCompatible_pushCandidate b field value evidence confidence

@[simp] theorem containerCompatible_finishField (field : ProfileField) :
    (b.finishField C field).containerCompatible = b.containerCompatible := by
  obtain heq | ⟨unknown, -, -, heq⟩ := finishField_cases (C := C) b field <;> rw [heq]
  simp [demote, clearValue, containerCompatible_pushUnknown]

@[simp] theorem containerCompatible_recordUnobserved (field : ProfileField) :
    (b.recordUnobserved field).containerCompatible = b.containerCompatible := by
  obtain ⟨heq, -⟩ | ⟨unknown, -, -, -, heq⟩ := recordUnobserved_cases b field <;> rw [heq]
  exact containerCompatible_pushUnknown b unknown

end ProfileBuilder

/-- What no step of a fold changes. -/
theorem view_foldl {σ α β : Type} {view : σ → β} {f : σ → α → σ}
    (h : ∀ s a, view (f s a) = view s) (as : List α) (s : σ) : view (as.foldl f s) = view s := by
  induction as generalizing s with
  | nil => rfl
  | cons a as ih =>
    rw [List.foldl_cons, ih, h]

/-- What no step of a run changes. -/
theorem view_reflTransGen {σ β : Type} (view : σ → β) {r : σ → σ → Prop}
    (h : ∀ s t, r s t → view t = view s) {s t : σ} (hrun : ReflTransGen r s t) :
    view t = view s := by
  induction hrun with
  | refl => rfl
  | tail _ hstep ih => rw [h _ _ hstep, ih]

section Detectors
variable (C) (snapshot : ProjectSnapshot) (b : ProfileBuilder κ)

@[simp] theorem containerCompatible_factIf (condition : Bool) (name value : String)
    (evidence : Evidence κ) :
    (factIf condition name value evidence b).containerCompatible = b.containerCompatible := by
  cases condition <;> rfl

@[simp] theorem containerCompatible_frameworkAt (path : Option String) (framework detail : String)
    (confidence : ℕ) :
    (frameworkAt C path framework detail confidence b).containerCompatible =
      b.containerCompatible := by
  cases path with
  | none => rfl
  | some path => simp [frameworkAt]

@[simp] theorem containerCompatible_authProviderAt (file : Option ProjectFile)
    (provider detail : String) (confidence : ℕ) :
    (authProviderAt C file provider detail confidence b).containerCompatible =
      b.containerCompatible := by
  cases file <;> rfl

@[simp] theorem containerCompatible_detectManifest (language : String) (files : List ProjectFile)
    (detail : String → String) (framework : String → Option (String × κ × String)) :
    (detectManifest C language files detail framework b).containerCompatible =
      b.containerCompatible := by
  unfold detectManifest
  split
  · rfl
  · unfold applyManifestHit
    dsimp only
    split
    · simp
    · simp

theorem containerCompatible_detectCompose :
    (detectCompose C snapshot b).containerCompatible = b.containerCompatible := by
  unfold detectCompose
  split
  · rfl
  · rfl

theorem containerCompatible_detectManifests :
    (detectManifests C snapshot b).containerCompatible = b.containerCompatible := by
  simp [detectManifests, detectNode, detectDotnet, detectPython, detectRust]

theorem containerCompatible_detectFrameworkConventions :
    (detectFrameworkConventions C snapshot b).containerCompatible = b.containerCompatible := by
  refine view_foldl (fun b convention => ?_) conventions b
  unfold applyConvention
  split
  · rfl
  · dsimp only
    split
    · rw [ProfileBuilder.containerCompatible_setField]
    · rw [ProfileBuilder.containerCompatible_pushEvidence]

theorem containerCompatible_detectDeepFrameworkConventions :
    (detectDeepFrameworkConventions C snapshot b).containerCompatible = b.containerCompatible := by
  have haxum (b : ProfileBuilder κ) :
      (detectAxum C snapshot b).containerCompatible = b.containerCompatible := by
    unfold detectAxum
    dsimp only
    split
    · simp
    · simp
  simp [detectDeepFrameworkConventions, detectDjango, detectFastapi, detectExpo, haxum]

theorem containerCompatible_detectConfiguration :
    (detectConfiguration C snapshot b).containerCompatible = b.containerCompatible := by
  have hname (b : ProfileBuilder κ) (name : String) :
      (applyConfiguration C snapshot b name).containerCompatible = b.containerCompatible := by
    unfold applyConfiguration
    split
    · rfl
    · rfl
  have hgoogle (b : ProfileBuilder κ) :
      (detectGoogle C snapshot b).containerCompatible = b.containerCompatible := by
    unfold detectGoogle
    split
    · simp
    · simp
  unfold detectConfiguration
  dsimp only
  rw [view_foldl hname, containerCompatible_authProviderAt, hgoogle]

theorem containerCompatible_detectCi :
    (detectCi C snapshot b).containerCompatible = b.containerCompatible := by
  unfold detectCi
  exact view_foldl (fun b _ => b.containerCompatible_pushFact ..) (ciFiles snapshot) b

theorem containerCompatible_detectSourceFallback :
    (detectSourceFallback C snapshot b).containerCompatible = b.containerCompatible := by
  unfold detectSourceFallback
  split
  · rfl
  · refine view_foldl (fun b hint => ?_) sourceHints b
    unfold applySourceHint
    split
    · rfl
    · simp

theorem containerCompatible_detectDocker :
    (detectDocker C snapshot (.default C)).containerCompatible = true ↔
      snapshot.filesWithName "Dockerfile" ≠ [] := by
  unfold detectDocker
  split
  next hnone =>
    rw [head?_sortedByPath_eq_none_iff] at hnone
    simp [hnone, ProfileBuilder.default]
  next path content hfirst =>
    have hfound : snapshot.filesWithName "Dockerfile" ≠ [] := by
      intro hnone
      rw [head?_sortedByPath_eq_none_iff.mpr hnone] at hfirst
      cases hfirst
    refine iff_of_true ?_ hfound
    dsimp only
    split
    · simp [ProfileBuilder.containerCompatible_pushEvidence]
    · simp [ProfileBuilder.containerCompatible_pushEvidence,
        ProfileBuilder.containerCompatible_pushUnknown]

theorem containerCompatible_detected :
    (detected C snapshot).containerCompatible = true ↔
      snapshot.filesWithName "Dockerfile" ≠ [] := by
  rw [← containerCompatible_detectDocker C snapshot]
  unfold detected
  rw [containerCompatible_detectSourceFallback, containerCompatible_detectCi,
    containerCompatible_detectConfiguration, containerCompatible_detectDeepFrameworkConventions,
    containerCompatible_detectFrameworkConventions, containerCompatible_detectManifests,
    containerCompatible_detectCompose]

end Detectors

theorem Infers.containerCompatible {b b' : ProfileBuilder κ} (h : Infers b b') :
    b'.containerCompatible = b.containerCompatible := by
  cases h with
  | candidate field value evidence confidence => simp
  | evidence => rfl
  | fact => rfl
  | demoted field unknown evidence =>
    simp [ProfileBuilder.demote, ProfileBuilder.clearValue,
      ProfileBuilder.containerCompatible_pushUnknown,
      ProfileBuilder.containerCompatible_pushEvidence]

/-- A profile is container-compatible exactly if some file has the name. -/
theorem containerCompatible_inspect (C : Confidences κ) (plugins : List (InspectorPlugin κ))
    (snapshot : ProjectSnapshot) :
    (inspect C plugins snapshot).containerCompatible = true ↔
      snapshot.filesWithName "Dockerfile" ≠ [] := by
  have hplugins : (plugins.foldl (applyPlugin C snapshot)
      (inspectDeterministic C snapshot)).containerCompatible =
        (inspectDeterministic C snapshot).containerCompatible :=
    view_reflTransGen ProfileBuilder.containerCompatible
      (fun _ _ hstep => hstep.containerCompatible) (plugins_infer snapshot plugins _)
  have hdeterministic : (inspectDeterministic C snapshot).containerCompatible =
      (detected C snapshot).containerCompatible := by
    have hfinish : inspectDeterministic C snapshot =
        (detected C snapshot).finishDeterministic C := rfl
    rw [hfinish]
    simp [ProfileBuilder.finishDeterministic]
  rw [← containerCompatible_detected C snapshot, ← hdeterministic,
    ← hplugins]
  simp [inspect, ProfileBuilder.build]

/-! ## Agreement on the container -/

/-- The files that may hold the instructions of a container. -/
def dockerfiles (snapshot : ProjectSnapshot) : List ProjectFile :=
  snapshot.filesNamedAnywhere ["Dockerfile", "dockerfile"]

/-- The profile and the generic adapter say the same of the container, and the Dockerfile that the
adapter names has a `FROM` instruction. -/
def ContainersAgree (C : Confidences κ) (plugins : List (InspectorPlugin κ))
    (snapshot : ProjectSnapshot) : Prop :=
  ((inspect C plugins snapshot).containerCompatible = true ↔
      (GenericAdapter.detect snapshot).isSome = true) ∧
    ∀ detected, GenericAdapter.detect snapshot = some detected →
      ∃ file ∈ snapshot.entries, detected.evidence.head? = some file.1 ∧
        GenericAdapter.hasFrom file.2 = true

theorem GenericAdapter.detect_eq_some_iff {snapshot : ProjectSnapshot} {found : DetectedRuntime} :
    GenericAdapter.detect snapshot = some found ↔
      (∃ file ∈ dockerfiles snapshot, GenericAdapter.hasFrom file.2 = true) ∧
        ∃ file, (sortedByPath (dockerfiles snapshot)).head? = some file ∧
          found = .new .generic .tier0 [file.1] := by
  have hany : GenericAdapter.hasDockerfile snapshot = true ↔
      ∃ file ∈ dockerfiles snapshot, GenericAdapter.hasFrom file.2 = true := List.any_eq_true
  unfold GenericAdapter.detect
  rw [← hany]
  cases hfirst : (sortedByPath (dockerfiles snapshot)).head? with
  | none =>
    have hpath : GenericAdapter.dockerfilePath snapshot = none := congrArg _ hfirst
    simp [hpath]
  | some file =>
    have hpath : GenericAdapter.dockerfilePath snapshot = some file.1 := congrArg _ hfirst
    cases hhas : GenericAdapter.hasDockerfile snapshot with
    | false => simp [hpath]
    | true => simp [hpath, eq_comm]

theorem GenericAdapter.isSome_detect_iff (snapshot : ProjectSnapshot) :
    (GenericAdapter.detect snapshot).isSome = true ↔
      ∃ file ∈ dockerfiles snapshot, GenericAdapter.hasFrom file.2 = true := by
  rw [Option.isSome_iff_exists]
  constructor
  · rintro ⟨found, hfound⟩
    exact (GenericAdapter.detect_eq_some_iff.mp hfound).1
  · intro hfrom
    have hsome : dockerfiles snapshot ≠ [] := by
      obtain ⟨file, hfile, -⟩ := hfrom
      exact List.ne_nil_of_mem hfile
    cases hfirst : (sortedByPath (dockerfiles snapshot)).head? with
    | none => exact absurd (head?_sortedByPath_eq_none_iff.mp hfirst) hsome
    | some file => exact ⟨_, GenericAdapter.detect_eq_some_iff.mpr ⟨hfrom, file, hfirst, rfl⟩⟩

/-- Without a file of the exact name no container file may have the instruction; with one, the first
container file by its path must have it. -/
def DockerfilesClear (snapshot : ProjectSnapshot) : Prop :=
  (snapshot.filesWithName "Dockerfile" = [] ∧
      ∀ file ∈ dockerfiles snapshot, GenericAdapter.hasFrom file.2 = false) ∨
    (snapshot.filesWithName "Dockerfile" ≠ [] ∧
      ∃ file, (sortedByPath (dockerfiles snapshot)).head? = some file ∧
        GenericAdapter.hasFrom file.2 = true)

theorem dockerfiles_subset (snapshot : ProjectSnapshot) : dockerfiles snapshot ⊆ snapshot.entries :=
  fun _ h => (List.mem_filter.mp h).1

/-- The three searches agree exactly if the files leave no choice among them. -/
theorem containers_agree_iff (C : Confidences κ) (plugins : List (InspectorPlugin κ))
    (snapshot : ProjectSnapshot) :
    ContainersAgree C plugins snapshot ↔ DockerfilesClear snapshot := by
  unfold ContainersAgree DockerfilesClear
  rw [containerCompatible_inspect, GenericAdapter.isSome_detect_iff]
  have hmem {file : ProjectFile} (h : (sortedByPath (dockerfiles snapshot)).head? = some file) :
      file ∈ dockerfiles snapshot :=
    ((head?_sortedByPath_eq_some_iff (dockerfiles_subset snapshot)).mp h).1
  constructor
  · rintro ⟨hsame, hevidence⟩
    by_cases hnamed : snapshot.filesWithName "Dockerfile" = []
    · refine .inl ⟨hnamed, fun file hfile => ?_⟩
      by_contra hfrom
      exact hsame.mpr ⟨file, hfile, Bool.eq_true_of_not_eq_false hfrom⟩ hnamed
    · obtain ⟨found, hfound⟩ := Option.isSome_iff_exists.mp
        ((GenericAdapter.isSome_detect_iff snapshot).mpr (hsame.mp hnamed))
      obtain ⟨-, first, hfirst, rfl⟩ := GenericAdapter.detect_eq_some_iff.mp hfound
      obtain ⟨file, hfile, hpath, hfrom⟩ := hevidence _ hfound
      have hsamePath : first.1 = file.1 := Option.some.inj hpath
      have heq : first = file := ProjectSnapshot.eq_of_mem_entries
        (dockerfiles_subset snapshot (hmem hfirst)) hfile hsamePath
      exact .inr ⟨hnamed, first, hfirst, heq ▸ hfrom⟩
  · rintro (⟨hnone, hplain⟩ | ⟨hnamed, first, hfirst, hfrom⟩)
    · have hnot : ¬ ∃ file ∈ dockerfiles snapshot, GenericAdapter.hasFrom file.2 = true := by
        rintro ⟨file, hfile, hfrom⟩
        rw [hplain file hfile] at hfrom
        cases hfrom
      refine ⟨iff_of_false (fun h => h hnone) hnot, fun found hfound => ?_⟩
      exact absurd (GenericAdapter.detect_eq_some_iff.mp hfound).1 hnot
    · refine ⟨iff_of_true hnamed ⟨first, hmem hfirst, hfrom⟩, fun found hfound => ?_⟩
      obtain ⟨-, other, hother, rfl⟩ := GenericAdapter.detect_eq_some_iff.mp hfound
      obtain rfl := Option.some.inj (hfirst.symm.trans hother)
      exact ⟨first, dockerfiles_subset snapshot (hmem hfirst), rfl, hfrom⟩

/-- A Dockerfile without instructions: the profile is container-compatible, the adapter detects
nothing. -/
theorem containers_disagree :
    ¬ ContainersAgree (κ := ℕ) ⟨id, fun a b => decide (a < b), fun a b => decide (b ≤ a), id⟩ []
      (.new [("Dockerfile", "# to be written")]) := by
  rintro ⟨hsame, -⟩
  have hprofile := (containerCompatible_inspect
    ⟨id, fun a b => decide (a < b), fun a b => decide (b ≤ a), id⟩ []
    (.new [("Dockerfile", "# to be written")])).mpr (by decide +kernel)
  have hnone : (GenericAdapter.detect (.new [("Dockerfile", "# to be written")])).isSome = false := by
    decide +kernel
  rw [hsame.mp hprofile] at hnone
  cases hnone

/-! ## Configuration facts -/

/-- The facts that the configuration stage has recorded of configuration files. -/
def configurationFacts (facts : List (Fact κ)) : List (Fact κ) :=
  facts.filter fun fact =>
    decide (fact.name = "configuration" ∧ fact.evidence.stage = "configuration")

theorem configurationFacts_concat (facts : List (Fact κ)) {fact : Fact κ}
    (h : ¬ (fact.name = "configuration" ∧ fact.evidence.stage = "configuration")) :
    configurationFacts (facts ++ [fact]) = configurationFacts facts := by
  simp [configurationFacts, h]

@[simp] theorem ProfileBuilder.facts_put (b : ProfileBuilder κ) (field : ProfileField)
    (state : FieldState κ) : (b.put field state).facts = b.facts := by
  cases field <;> rfl

/-- A write of another stage. -/
theorem Observes.configurationFacts {b b' : ProfileBuilder κ} {stage : String}
    (h : Observes stage b b') (hstage : stage ≠ "configuration") :
    configurationFacts b'.facts = configurationFacts b.facts := by
  cases h with
  | compatible => rfl
  | evidence => rfl
  | fact name value evidence hevidence =>
    refine configurationFacts_concat b.facts fun hconfiguration => hstage ?_
    rw [← hevidence]
    exact hconfiguration.2
  | candidate field => cases field <;> rfl
  | value field => cases field <;> rfl
  | unknown => rfl

theorem Detects.configurationFacts {stage : String} {detect : ProfileBuilder κ → ProfileBuilder κ}
    (h : Detects stage detect) (hstage : stage ≠ "configuration") (b : ProfileBuilder κ) :
    configurationFacts (detect b).facts = configurationFacts b.facts :=
  view_reflTransGen (fun b => Core.configurationFacts b.facts)
    (fun _ _ hwrite => hwrite.configurationFacts hstage) (h.writes b)

/-- A finding of a plugin. -/
theorem Infers.configurationFacts {b b' : ProfileBuilder κ} (h : Infers b b') :
    configurationFacts b'.facts = configurationFacts b.facts := by
  have hplugin {fact : Fact κ} (hstage : fact.evidence.stage = "plugin") :
      ¬ (fact.name = "configuration" ∧ fact.evidence.stage = "configuration") := by
    rintro ⟨-, hconfiguration⟩
    rw [hstage] at hconfiguration
    exact absurd hconfiguration (by decide)
  cases h with
  | candidate field => cases field <;> rfl
  | evidence => rfl
  | fact name value evidence hstage => exact configurationFacts_concat b.facts (hplugin hstage)
  | demoted field => cases field <;> rfl

theorem ProfileBuilder.facts_finishField (b : ProfileBuilder κ) (field : ProfileField) :
    (b.finishField C field).facts = b.facts := by
  obtain heq | ⟨unknown, -, -, heq⟩ := finishField_cases (C := C) b field <;> rw [heq]
  simp [demote, clearValue, pushUnknown]

theorem ProfileBuilder.facts_recordUnobserved (b : ProfileBuilder κ) (field : ProfileField) :
    (b.recordUnobserved field).facts = b.facts := by
  obtain ⟨heq, -⟩ | ⟨unknown, -, -, -, heq⟩ := recordUnobserved_cases b field <;> rw [heq]
  rfl

def configurationNames : List String :=
  [".env", "appsettings.json", "application.yml", "application.yaml", "config.yaml"]

/-- The fact of a configuration file. -/
def configurationFact (C : Confidences κ) (path : String) : Fact κ where
  name := "configuration"
  value := fileName path
  evidence := .new C path "configuration" s!"{fileName path} configuration present"
    (C.hundredths 80)

/-- The first file of a configuration name, as a fact. -/
def factsOfName (C : Confidences κ) (snapshot : ProjectSnapshot) (name : String) : List (Fact κ) :=
  ((configurationFiles snapshot name).head?.map fun file => configurationFact C file.1).toList

theorem configurationFacts_applyConfiguration (snapshot : ProjectSnapshot) (b : ProfileBuilder κ)
    (name : String) :
    configurationFacts (applyConfiguration C snapshot b name).facts =
      configurationFacts b.facts ++ factsOfName C snapshot name := by
  unfold applyConfiguration factsOfName
  cases (configurationFiles snapshot name).head? with
  | none => simp
  | some file =>
    have hpushed : (b.pushFact "configuration" (fileName file.1) (.new C file.1 "configuration"
        s!"{fileName file.1} configuration present" (C.hundredths 80))).facts =
          b.facts ++ [configurationFact C file.1] := rfl
    dsimp only
    rw [hpushed, configurationFacts, List.filter_append]
    rfl

theorem configurationFacts_authProviderAt (file : Option ProjectFile) (provider detail : String)
    (confidence : ℕ) (b : ProfileBuilder κ) :
    configurationFacts (authProviderAt C file provider detail confidence b).facts =
      configurationFacts b.facts := by
  cases file with
  | none => rfl
  | some file =>
    have hname : "auth_provider" ≠ "configuration" := by decide
    exact configurationFacts_concat b.facts fun h => hname h.1

theorem configurationFacts_detectGoogle (snapshot : ProjectSnapshot) (b : ProfileBuilder κ) :
    configurationFacts (detectGoogle C snapshot b).facts = configurationFacts b.facts := by
  unfold detectGoogle
  split
  · exact configurationFacts_authProviderAt ..
  · exact configurationFacts_authProviderAt ..

theorem configurationFacts_foldl (snapshot : ProjectSnapshot) (names : List String)
    (b : ProfileBuilder κ) :
    configurationFacts (names.foldl (applyConfiguration C snapshot) b).facts =
      configurationFacts b.facts ++ names.flatMap (factsOfName C snapshot) := by
  induction names generalizing b with
  | nil => simp
  | cons name names ih =>
    rw [List.foldl_cons, ih, configurationFacts_applyConfiguration, List.flatMap_cons,
      List.append_assoc]

theorem configurationFacts_detected (C : Confidences κ) (snapshot : ProjectSnapshot) :
    configurationFacts (detected C snapshot).facts =
      configurationNames.flatMap (factsOfName C snapshot) := by
  unfold detected
  rw [(detects_sourceFallback C snapshot).configurationFacts (by decide),
    (detects_ci C snapshot).configurationFacts (by decide)]
  unfold detectConfiguration
  dsimp only
  rw [configurationFacts_foldl, configurationFacts_authProviderAt, configurationFacts_detectGoogle,
    (detects_deepFrameworkConventions C snapshot).configurationFacts (by decide),
    (detects_frameworkConventions C snapshot).configurationFacts (by decide),
    (detects_manifests C snapshot).configurationFacts (by decide),
    (detects_compose C snapshot).configurationFacts (by decide),
    (detects_docker C snapshot).configurationFacts (by decide)]
  rfl

/-- The configuration facts of a profile: one for each name that has a file. -/
theorem configurationFacts_inspect (C : Confidences κ) (plugins : List (InspectorPlugin κ))
    (snapshot : ProjectSnapshot) :
    configurationFacts (inspect C plugins snapshot).facts =
      configurationNames.flatMap (factsOfName C snapshot) := by
  have hplugins : configurationFacts (plugins.foldl (applyPlugin C snapshot)
      (inspectDeterministic C snapshot)).facts =
        configurationFacts (inspectDeterministic C snapshot).facts :=
    view_reflTransGen (fun b => configurationFacts b.facts)
      (fun _ _ hstep => hstep.configurationFacts) (plugins_infer snapshot plugins _)
  have hfinish : (inspectDeterministic C snapshot).facts = (detected C snapshot).facts :=
    (((detected C snapshot).finishField C .language).facts_finishField .framework).trans
      ((detected C snapshot).facts_finishField .language)
  have hbuild : (inspect C plugins snapshot).facts =
      (plugins.foldl (applyPlugin C snapshot) (inspectDeterministic C snapshot)).facts := by
    unfold inspect ProfileBuilder.build
    dsimp only
    rw [ProfileBuilder.facts_recordUnobserved, ProfileBuilder.facts_recordUnobserved]
  rw [hbuild, hplugins, hfinish, configurationFacts_detected]

/-! ## Environment files -/

/-- `.env`, what ends so, and the variants of it. -/
def isEnvironmentFile (file : ProjectFile) : Bool :=
  decide (fileName file.1 = ".env") || textEndsWith (fileName file.1) ".env" ||
    textStartsWith (fileName file.1) ".env."

/-- The environment files at any depth, by their paths. -/
def environmentFiles (snapshot : ProjectSnapshot) : List ProjectFile :=
  sortedByPath (snapshot.entries.filter isEnvironmentFile)

/-- The environment files that the configuration facts of a profile name. -/
def environmentSources (snapshot : ProjectSnapshot) (profile : ApplicationProfile κ) :
    List String :=
  ((configurationFacts profile.facts).map fun fact => fact.evidence.source).filter fun source =>
    decide (source ∈ (environmentFiles snapshot).map Prod.fst)

/-- One configuration fact names an environment file, and it is the first of them; without one no
fact does. -/
def EnvironmentFound (C : Confidences κ) (plugins : List (InspectorPlugin κ))
    (snapshot : ProjectSnapshot) : Prop :=
  environmentSources snapshot (inspect C plugins snapshot) =
    ((environmentFiles snapshot).head?.map Prod.fst).toList

theorem mem_environmentFiles {snapshot : ProjectSnapshot} {file : ProjectFile} :
    file ∈ environmentFiles snapshot ↔
      file ∈ snapshot.entries ∧ isEnvironmentFile file = true := by
  rw [environmentFiles, sortedByPath_eq, (sortByKey_perm Prod.fst _).mem_iff, List.mem_filter]

/-- The files that the search of the name `.env` finds. -/
theorem mem_configurationFiles_env {snapshot : ProjectSnapshot} {file : ProjectFile} :
    file ∈ snapshot.filesWithName ".env" ++ (snapshot.filesWithExtension ".env" ++
        (snapshot.filesNamedAnywhere []).filter fun file =>
          textStartsWith (fileName file.1) ".env.") ↔
      file ∈ snapshot.entries ∧ textEndsWith file.1 ".env" = true := by
  have hnone : (snapshot.filesNamedAnywhere []) = [] := by
    simp [ProjectSnapshot.filesNamedAnywhere]
  have hnamed (h : fileName file.1 = ".env") : textEndsWith file.1 ".env" = true := by
    rw [← textEndsWith_fileName (by decide), h]
    decide
  rw [hnone, List.filter_nil, List.append_nil, List.mem_append, ProjectSnapshot.filesWithName,
    ProjectSnapshot.filesWithExtension, List.mem_filter, List.mem_filter]
  constructor
  · rintro (⟨hmem, hname⟩ | h)
    · exact ⟨hmem, hnamed (of_decide_eq_true hname)⟩
    · exact h
  · exact .inr

/-- The first of a search that is known by what it finds. -/
theorem head?_sortedByPath_of_mem_iff {snapshot : ProjectSnapshot} {files : List ProjectFile}
    {wanted : ProjectFile → Prop}
    (h : ∀ file, file ∈ files ↔ file ∈ snapshot.entries ∧ wanted file) {file : ProjectFile} :
    (sortedByPath files).head? = some file ↔
      file ∈ snapshot.entries ∧ wanted file ∧
        ∀ other ∈ snapshot.entries, wanted other → file.1 ≤ other.1 := by
  rw [head?_sortedByPath_eq_some_iff fun file hfile => ((h file).mp hfile).1, h file, and_assoc]
  refine and_congr_right fun _ => and_congr_right fun _ => ?_
  constructor
  · exact fun hleast other hmem hother => hleast other ((h other).mpr ⟨hmem, hother⟩)
  · exact fun hleast other hother => hleast other ((h other).mp hother).1 ((h other).mp hother).2

theorem head?_environmentFiles_eq_some_iff {snapshot : ProjectSnapshot} {file : ProjectFile} :
    (environmentFiles snapshot).head? = some file ↔
      file ∈ snapshot.entries ∧ isEnvironmentFile file = true ∧
        ∀ other ∈ snapshot.entries, isEnvironmentFile other = true → file.1 ≤ other.1 :=
  head?_sortedByPath_of_mem_iff fun _ => List.mem_filter

theorem head?_configurationFiles_env_eq_some_iff {snapshot : ProjectSnapshot}
    {file : ProjectFile} :
    (configurationFiles snapshot ".env").head? = some file ↔
      file ∈ snapshot.entries ∧ textEndsWith file.1 ".env" = true ∧
        ∀ other ∈ snapshot.entries, textEndsWith other.1 ".env" = true → file.1 ≤ other.1 := by
  unfold configurationFiles
  dsimp only
  rw [head?_destutter, if_pos rfl]
  exact head?_sortedByPath_of_mem_iff fun _ => mem_configurationFiles_env

theorem isEnvironmentFile_of_textEndsWith {file : ProjectFile}
    (h : textEndsWith file.1 ".env" = true) : isEnvironmentFile file = true := by
  have hname : textEndsWith (fileName file.1) ".env" = true := by
    rw [textEndsWith_fileName (by decide), h]
  simp [isEnvironmentFile, hname]

theorem mem_map_environmentFiles {snapshot : ProjectSnapshot} {file : ProjectFile}
    (hfile : file ∈ snapshot.entries) :
    file.1 ∈ (environmentFiles snapshot).map Prod.fst ↔ isEnvironmentFile file = true := by
  rw [List.mem_map]
  constructor
  · rintro ⟨other, hother, hpath⟩
    obtain ⟨hmem, henvironment⟩ := mem_environmentFiles.mp hother
    rw [← ProjectSnapshot.eq_of_mem_entries hmem hfile hpath]
    exact henvironment
  · intro henvironment
    exact ⟨file, mem_environmentFiles.mpr ⟨hfile, henvironment⟩, rfl⟩

/-- A file of another configuration name is no environment file. -/
theorem not_environment_of_name {snapshot : ProjectSnapshot} {name : String} {file : ProjectFile}
    (hname : name ∈ configurationNames.tail)
    (hfirst : (configurationFiles snapshot name).head? = some file) :
    file ∈ snapshot.entries ∧ isEnvironmentFile file = false := by
  have hnot : name ≠ ".env" := by
    rintro rfl
    exact absurd hname (by decide)
  unfold configurationFiles at hfirst
  dsimp only at hfirst
  rw [head?_destutter, if_neg hnot, List.append_nil] at hfirst
  have hnamed : snapshot.filesWithName name ⊆ snapshot.entries :=
    fun file hfile => (List.mem_filter.mp hfile).1
  obtain ⟨hmem, hfile⟩ :=
    List.mem_filter.mp ((head?_sortedByPath_eq_some_iff hnamed).mp hfirst).1
  refine ⟨hmem, ?_⟩
  unfold isEnvironmentFile
  rw [of_decide_eq_true hfile]
  have hplain : ∀ name ∈ configurationNames.tail,
      (decide (name = ".env") || textEndsWith name ".env" || textStartsWith name ".env.") =
        false := by decide
  exact hplain name hname

/-- The one environment file that the facts name is the first that ends so. -/
theorem environmentSources_inspect (C : Confidences κ) (plugins : List (InspectorPlugin κ))
    (snapshot : ProjectSnapshot) :
    environmentSources snapshot (inspect C plugins snapshot) =
      ((configurationFiles snapshot ".env").head?.map Prod.fst).toList := by
  have hname (name : String) : ((factsOfName C snapshot name).map fun fact =>
      fact.evidence.source) = ((configurationFiles snapshot name).head?.map Prod.fst).toList := by
    unfold factsOfName
    cases (configurationFiles snapshot name).head? with
    | none => rfl
    | some file => rfl
  have hothers : ((configurationNames.tail.flatMap (factsOfName C snapshot)).map fun fact =>
      fact.evidence.source).filter
        (fun source => decide (source ∈ (environmentFiles snapshot).map Prod.fst)) = [] := by
    rw [List.filter_eq_nil_iff]
    intro source hsource
    rw [List.map_flatMap, List.mem_flatMap] at hsource
    obtain ⟨name, hmem, hsource⟩ := hsource
    rw [hname, Option.mem_toList, Option.map_eq_some_iff] at hsource
    obtain ⟨file, hfirst, rfl⟩ := hsource
    obtain ⟨hfile, hplain⟩ := not_environment_of_name hmem hfirst
    rw [decide_eq_true_eq, mem_map_environmentFiles hfile, hplain]
    exact Bool.false_ne_true
  have hsplit : configurationNames = ".env" :: configurationNames.tail := rfl
  unfold environmentSources
  rw [configurationFacts_inspect, hsplit, List.flatMap_cons, List.map_append, List.filter_append,
    hothers, List.append_nil, hname]
  cases hfirst : (configurationFiles snapshot ".env").head? with
  | none => rfl
  | some file =>
    obtain ⟨hfile, hending, -⟩ := head?_configurationFiles_env_eq_some_iff.mp hfirst
    have hfound := (mem_map_environmentFiles hfile).mpr (isEnvironmentFile_of_textEndsWith hending)
    exact List.filter_cons_of_pos (decide_eq_true hfound)

/-- The variants `.env.*` are looked for among no files: the first environment file is found exactly
if it does not owe its place to its start alone. -/
theorem environment_found_iff (C : Confidences κ) (plugins : List (InspectorPlugin κ))
    (snapshot : ProjectSnapshot) :
    EnvironmentFound C plugins snapshot ↔
      ∀ file ∈ (environmentFiles snapshot).head?, textEndsWith file.1 ".env" = true := by
  unfold EnvironmentFound
  rw [environmentSources_inspect]
  constructor
  · intro hsame file hfirst
    rw [Option.mem_def] at hfirst
    rw [hfirst] at hsame
    cases hfound : (configurationFiles snapshot ".env").head? with
    | none =>
      rw [hfound] at hsame
      cases hsame
    | some other =>
      rw [hfound] at hsame
      have hpath : other.1 = file.1 := (List.cons.inj hsame).1
      rw [← hpath]
      exact (head?_configurationFiles_env_eq_some_iff.mp hfound).2.1
  · intro hending
    suffices hsame : (configurationFiles snapshot ".env").head? =
        (environmentFiles snapshot).head? by rw [hsame]
    cases hfirst : (environmentFiles snapshot).head? with
    | none =>
      refine Option.eq_none_iff_forall_ne_some.mpr fun file hfound => ?_
      obtain ⟨hfile, hends, -⟩ := head?_configurationFiles_env_eq_some_iff.mp hfound
      have hmem := mem_environmentFiles.mpr ⟨hfile, isEnvironmentFile_of_textEndsWith hends⟩
      rw [List.head?_eq_none_iff.mp hfirst] at hmem
      cases hmem
    | some file =>
      obtain ⟨hfile, -, hleast⟩ := head?_environmentFiles_eq_some_iff.mp hfirst
      refine head?_configurationFiles_env_eq_some_iff.mpr ⟨hfile, hending file hfirst, ?_⟩
      exact fun other hother hends =>
        hleast other hother (isEnvironmentFile_of_textEndsWith hends)

/-- A project whose only environment file is `.env.local`: no fact tells of it. -/
theorem environment_variant_lost :
    ¬ EnvironmentFound (κ := ℕ) ⟨id, fun a b => decide (a < b), fun a b => decide (b ≤ a), id⟩ []
      (.new [(".env.local", "TOKEN=x")]) := by
  unfold EnvironmentFound
  rw [environmentSources_inspect]
  decide +kernel

end Labrys.Core
