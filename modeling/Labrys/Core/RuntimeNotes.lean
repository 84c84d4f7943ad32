import Labrys.Core.RuntimeDetection
import Labrys.Foundations.Trimming

/-! # Runtime notes of a manifest

A manifest carries what was detected and proposed, so that another checkout comes to the same plan.
The notes and the plan are worked out apart.

* `RuntimeNotes.fromDetection`: the notes.
* `Detectable`: what the detectors leave.
* `notes_reproduce_iff`: which notes say what the plan does. -/

namespace Labrys.Core
open Foundations
set_option autoImplicit false

structure RuntimeNotes where
  kind : RuntimeKind
  tier : SupportTier
  framework : Option String
  devCommand : List String
  prodCommand : List String
  healthPath : Option String
deriving DecidableEq

/-- The commands and the health path of the notes. -/
structure NotedCommands where
  devCommand : List String
  prodCommand : List String
  healthPath : Option String

namespace RuntimeNotes

/-- The commands of the conventions, or else of the adapter; the health path of the conventions
alone. -/
def resolved (conventions : Option FrameworkConventions) (adapter : RuntimeAdapter)
    (healthPath : Option String) : NotedCommands where
  devCommand := (conventions.map FrameworkConventions.devCommand).getD adapter.devCommand
  prodCommand := (conventions.map FrameworkConventions.prodCommand).getD adapter.prodCommand
  healthPath := healthPath

def commands (detected : DetectedRuntime) : NotedCommands :=
  let conventions := detected.conventions
  match detected.kind with
  | .generic => ⟨genericAdapter.devCommand, genericAdapter.prodCommand, none⟩
  | .node => ⟨nodeAdapter.devCommand, nodeAdapter.prodCommand, nodeAdapter.healthPath⟩
  | .dotNet => ⟨dotNetAdapter.devCommand, dotNetAdapter.prodCommand, dotNetAdapter.healthPath⟩
  | .python => resolved conventions pythonAdapter
      (conventions.bind FrameworkConventions.healthPath)
  | .rust => resolved conventions rustAdapter (conventions.bind FrameworkConventions.healthPath)
  | .expo => resolved conventions expoAdapter none

def fromDetection (detected : DetectedRuntime) : RuntimeNotes :=
  let commands := commands detected
  { kind := detected.kind
    tier := detected.tier
    framework := detected.framework
    devCommand := commands.devCommand
    prodCommand := commands.prodCommand
    healthPath := commands.healthPath }

end RuntimeNotes

/-! ## What the detectors leave -/

/-- A container is of the lowest tier, and the frameworks of Python and Rust are of the table. -/
structure Detectable (detected : DetectedRuntime) : Prop where
  generic : detected.kind = .generic → detected.tier = .tier0
  python : detected.kind = .python → detected.framework = none ∨
    detected.framework = some "django" ∨
    detected.framework = some "fastapi" ∧
      ∃ entry, detected.prodEntry = some entry ∧ trim entry.toList ≠ []
  rust : detected.kind = .rust → detected.framework = none ∨ detected.framework = some "axum" ∨
    detected.framework = some "rust"

theorem Detectable.of_kind {detected : DetectedRuntime} (hgeneric : detected.kind ≠ .generic)
    (hpython : detected.kind ≠ .python) (hrust : detected.kind ≠ .rust) : Detectable detected :=
  ⟨fun h => absurd h hgeneric, fun h => absurd h hpython, fun h => absurd h hrust⟩

theorem detectable_expo {snapshot : ProjectSnapshot} {detected : DetectedRuntime}
    (h : expoAdapter.detect snapshot = some detected) : Detectable detected := by
  change ExpoAdapter.detect snapshot = some detected at h
  unfold ExpoAdapter.detect at h
  split at h
  · cases h
  split at h
  · cases h
  dsimp only at h
  split at h
  · obtain rfl := Option.some.inj h
    exact .of_kind (fun hkind => by cases hkind) (fun hkind => by cases hkind)
      (fun hkind => by cases hkind)
  · obtain rfl := Option.some.inj h
    exact .of_kind (by decide) (by decide) (by decide)

theorem detectable_node {snapshot : ProjectSnapshot} {detected : DetectedRuntime}
    (h : nodeAdapter.detect snapshot = some detected) : Detectable detected := by
  change NodeAdapter.detect snapshot = some detected at h
  unfold NodeAdapter.detect at h
  split_ifs at h
  · obtain rfl := Option.some.inj h
    exact .of_kind (by decide) (by decide) (by decide)
  · obtain rfl := Option.some.inj h
    exact .of_kind (by decide) (by decide) (by decide)

theorem detectable_dotNet {snapshot : ProjectSnapshot} {detected : DetectedRuntime}
    (h : dotNetAdapter.detect snapshot = some detected) : Detectable detected := by
  change DotNetAdapter.detect snapshot = some detected at h
  unfold DotNetAdapter.detect at h
  split_ifs at h
  · obtain rfl := Option.some.inj h
    exact .of_kind (by decide) (by decide) (by decide)
  · obtain rfl := Option.some.inj h
    exact .of_kind (by decide) (by decide) (by decide)

theorem detectable_generic {snapshot : ProjectSnapshot} {detected : DetectedRuntime}
    (h : genericAdapter.detect snapshot = some detected) : Detectable detected := by
  change GenericAdapter.detect snapshot = some detected at h
  unfold GenericAdapter.detect at h
  split at h
  · cases h
  · split_ifs at h
    obtain rfl := Option.some.inj h
    exact ⟨fun _ => rfl, (fun hkind => by cases hkind), (fun hkind => by cases hkind)⟩

theorem Detectable.of_rust {detected : DetectedRuntime} (hkind : detected.kind = .rust)
    (h : detected.framework = none ∨ detected.framework = some "axum" ∨
      detected.framework = some "rust") : Detectable detected := by
  refine ⟨fun hother => ?_, fun hother => ?_, fun _ => h⟩
  · rw [hkind] at hother
    cases hother
  · rw [hkind] at hother
    cases hother

theorem detectable_rust {snapshot : ProjectSnapshot} {detected : DetectedRuntime}
    (h : rustAdapter.detect snapshot = some detected) : Detectable detected := by
  change RustAdapter.detect snapshot = some detected at h
  unfold RustAdapter.detect at h
  split at h
  · cases h
  next manifest _ =>
  rw [Option.or_eq_some_iff, Option.or_eq_some_iff] at h
  obtain (haxum | ⟨-, hworkspace⟩) | ⟨-, hlanguage⟩ := h
  · unfold RustAdapter.detectAxum at haxum
    dsimp only at haxum
    split_ifs at haxum
    all_goals
      obtain rfl := Option.some.inj haxum
      exact .of_rust rfl (.inr (.inl rfl))
  · unfold RustAdapter.detectWorkspace at hworkspace
    split at hworkspace
    · obtain rfl := Option.some.inj hworkspace
      exact .of_rust rfl (.inr (.inr rfl))
    · cases hworkspace
  · obtain rfl := Option.some.inj hlanguage
    unfold RustAdapter.detectLanguage
    split_ifs
    · exact .of_rust rfl (.inl rfl)
    · exact .of_rust rfl (.inl rfl)

theorem Detectable.of_python {detected : DetectedRuntime} (hkind : detected.kind = .python)
    (h : detected.framework = none ∨ detected.framework = some "django" ∨
      detected.framework = some "fastapi" ∧
        ∃ entry, detected.prodEntry = some entry ∧ trim entry.toList ≠ []) :
    Detectable detected := by
  refine ⟨fun hother => ?_, fun _ => h, fun hother => ?_⟩
  · rw [hkind] at hother
    cases hother
  · rw [hkind] at hother
    cases hother

/-! ## The entry of a FastAPI project -/

theorem PythonAdapter.mem_dotted {path : List Char} {c : Char} (h : c ∈ path) (hc : c ≠ '/') :
    c ∈ (PythonAdapter.dotted path).toList := by
  unfold PythonAdapter.dotted
  rw [String.toList_ofList]
  exact List.mem_map.mpr ⟨c, h, if_neg hc⟩

/-- The name of the file stays in the module, so that the module is not blank. -/
theorem PythonAdapter.trim_moduleOf_ne_nil {path : String}
    (h : fileName path ∈ ["main.py", "app.py"]) :
    trim (PythonAdapter.moduleOf path).toList ≠ [] := by
  obtain ⟨before, hbefore⟩ := fileName_suffix path
  obtain ⟨stem, hstem, hmem⟩ : ∃ stem : List Char,
      (fileName path).toList = stem ++ ".py".toList ∧ 'a' ∈ stem := by
    obtain hname | hname : fileName path = "main.py" ∨ fileName path = "app.py" := by
      simpa using h
    · exact ⟨"main".toList, by rw [hname]; decide, by decide⟩
    · exact ⟨"app".toList, by rw [hname]; decide, by decide⟩
  have hpath : path.toList = (before ++ stem) ++ ".py".toList := by
    rw [← hbefore, hstem, List.append_assoc]
  have hstays : 'a' ∈ before ++ stem := List.mem_append_right before hmem
  have hmodule : 'a' ∈ (PythonAdapter.moduleOf path).toList := by
    unfold PythonAdapter.moduleOf
    refine PythonAdapter.mem_dotted ?_ (by decide)
    split_ifs
    · have hlength : path.toList.length - 3 = (before ++ stem).length := by
        rw [hpath, List.length_append]
        have hdot : ".py".toList.length = 3 := by decide
        omega
      rw [hlength, hpath, List.take_left]
      exact hstays
    · rw [hpath]
      exact List.mem_append_left _ hstays
  exact trim_ne_nil_of_mem hmodule (by decide)

theorem sortedByPath_mem {files : List ProjectFile} {file : ProjectFile}
    (h : file ∈ sortedByPath files) : file ∈ files :=
  (List.mem_insertionSort _).mp h

theorem PythonAdapter.detectDjango_framework {snapshot : ProjectSnapshot}
    {detected : DetectedRuntime} (h : PythonAdapter.detectDjango snapshot = some detected) :
    Detectable detected := by
  unfold PythonAdapter.detectDjango at h
  split at h
  · cases h
  · split at h
    · cases h
    · split_ifs at h
      obtain rfl := Option.some.inj h
      exact .of_python rfl (.inr (.inl rfl))

theorem PythonAdapter.detectFastapi_framework {snapshot : ProjectSnapshot}
    {detected : DetectedRuntime} (h : PythonAdapter.detectFastapi snapshot = some detected) :
    Detectable detected := by
  unfold PythonAdapter.detectFastapi at h
  split at h
  · cases h
  next entryPath content hfound =>
  dsimp only at h
  split at h
  · cases h
  have hmem : (entryPath, content) ∈ snapshot.filesNamedAnywhere ["main.py", "app.py"] :=
    sortedByPath_mem (List.mem_of_find?_eq_some hfound)
  have hname : fileName entryPath ∈ ["main.py", "app.py"] :=
    of_decide_eq_true (List.mem_filter.mp hmem).2
  obtain rfl := Option.some.inj h
  exact .of_python rfl (.inr (.inr ⟨rfl, _, rfl, PythonAdapter.trim_moduleOf_ne_nil hname⟩))

theorem detectable_python {snapshot : ProjectSnapshot} {detected : DetectedRuntime}
    (h : pythonAdapter.detect snapshot = some detected) : Detectable detected := by
  change PythonAdapter.detect snapshot = some detected at h
  unfold PythonAdapter.detect at h
  split at h
  · cases h
  dsimp only at h
  rw [Option.or_eq_some_iff, Option.or_eq_some_iff] at h
  obtain (hdjango | ⟨-, hfastapi⟩) | ⟨-, hlanguage⟩ := h
  · split_ifs at hdjango
    exact PythonAdapter.detectDjango_framework hdjango
  · split_ifs at hfastapi
    exact PythonAdapter.detectFastapi_framework hfastapi
  · obtain rfl := Option.some.inj hlanguage
    unfold PythonAdapter.detectLanguage
    split_ifs
    · exact .of_python rfl (.inl rfl)
    · exact .of_python rfl (.inl rfl)

theorem detectable_of_detectRuntime {snapshot : ProjectSnapshot} {detected : DetectedRuntime}
    (h : detectRuntime snapshot = .ok detected) : Detectable detected := by
  unfold detectRuntime at h
  split at h
  next found hfound =>
    obtain rfl := Except.ok.inj h
    obtain ⟨adapter, hmem, hdetect⟩ := List.exists_of_findSome?_eq_some hfound
    simp only [List.mem_cons, List.not_mem_nil, or_false] at hmem
    obtain rfl | rfl | rfl | rfl | rfl | rfl := hmem
    · exact detectable_expo hdetect
    · exact detectable_node hdetect
    · exact detectable_dotNet hdetect
    · exact detectable_python hdetect
    · exact detectable_rust hdetect
    · exact detectable_generic hdetect
  next => cases h

/-! ## The notes beside the plan -/

/-- The plans of both profiles, made with the defaults, say what the notes say. -/
def RuntimeNotes.Reproduces (notes : RuntimeNotes) (detected : DetectedRuntime) (port : UInt16)
    (dockerfile : Option String) (limits : SandboxLimits) : Prop :=
  ∃ dev prod : RuntimePlan,
    prepare detected .development port none dockerfile limits = .ok dev ∧
    prepare detected .production port none dockerfile limits = .ok prod ∧
    notes.devCommand = dev.runCommand ∧ notes.prodCommand = prod.runCommand ∧
    notes.tier = dev.tier ∧ notes.tier = prod.tier ∧
    notes.healthPath = dev.healthcheckPath ∧ notes.healthPath = prod.healthcheckPath

/-- A plan with the defaults, past the checks. -/
theorem prepare_ok {port : UInt16} {limits : SandboxLimits} (hport : port ≠ 0)
    (hlimits : limits.validate = .ok ()) (detected : DetectedRuntime) (profile : RuntimeProfile)
    (dockerfile : Option String) :
    ∃ plan, prepare detected profile port none dockerfile limits = .ok plan ∧
      plan.tier = (planBase detected).tier ∧
      plan.healthcheckPath = (planBase detected).healthPath ∧
      plan.runCommand = if profile = .development then (planBase detected).runCommand
        else productionCommand detected := by
  unfold prepare
  rw [if_neg hport, hlimits]
  refine ⟨_, rfl, rfl, rfl, ?_⟩
  cases profile with
  | development => rfl
  | production => rfl

theorem RuntimeNotes.reproduces_iff_base {detected : DetectedRuntime} {port : UInt16}
    {limits : SandboxLimits} (hport : port ≠ 0) (hlimits : limits.validate = .ok ())
    (notes : RuntimeNotes) (dockerfile : Option String) :
    notes.Reproduces detected port dockerfile limits ↔
      notes.devCommand = (planBase detected).runCommand ∧
        notes.prodCommand = productionCommand detected ∧
        notes.tier = (planBase detected).tier ∧
        notes.healthPath = (planBase detected).healthPath := by
  obtain ⟨dev, hdev, hdevTier, hdevHealth, hdevRun⟩ :=
    prepare_ok hport hlimits detected .development dockerfile
  obtain ⟨prod, hprod, hprodTier, hprodHealth, hprodRun⟩ :=
    prepare_ok hport hlimits detected .production dockerfile
  have hproduction : prod.runCommand = productionCommand detected := hprodRun
  constructor
  · rintro ⟨dev', prod', hdev', hprod', hrun, hproduced, htier, -, hhealth, -⟩
    obtain rfl := Except.ok.inj (hdev.symm.trans hdev')
    obtain rfl := Except.ok.inj (hprod.symm.trans hprod')
    exact ⟨hrun.trans hdevRun, hproduced.trans hproduction, htier.trans hdevTier,
      hhealth.trans hdevHealth⟩
  · rintro ⟨hrun, hproduced, htier, hhealth⟩
    exact ⟨dev, prod, hdev, hprod, hrun.trans hdevRun.symm, hproduced.trans hproduction.symm,
      htier.trans hdevTier.symm, htier.trans hprodTier.symm, hhealth.trans hdevHealth.symm,
      hhealth.trans hprodHealth.symm⟩

theorem RuntimeNotes.fromDetection_commands (detected : DetectedRuntime) :
    (RuntimeNotes.fromDetection detected).devCommand = (planBase detected).runCommand ∧
      (RuntimeNotes.fromDetection detected).prodCommand = productionCommand detected := by
  unfold RuntimeNotes.fromDetection RuntimeNotes.commands planBase productionCommand
  cases detected.kind with
  | generic => exact ⟨rfl, rfl⟩
  | node => exact ⟨rfl, rfl⟩
  | dotNet => exact ⟨rfl, rfl⟩
  | python => exact ⟨rfl, rfl⟩
  | rust => exact ⟨rfl, rfl⟩
  | expo => exact ⟨rfl, rfl⟩

theorem RuntimeNotes.fromDetection_tier {detected : DetectedRuntime} (h : Detectable detected) :
    (RuntimeNotes.fromDetection detected).tier = (planBase detected).tier := by
  have hnotes : (RuntimeNotes.fromDetection detected).tier = detected.tier := rfl
  rw [hnotes]
  unfold planBase
  cases hkind : detected.kind with
  | generic => exact h.generic hkind
  | node => rfl
  | dotNet => rfl
  | python => rfl
  | rust => rfl
  | expo => rfl

/-- What the health path of the conventions is, by the framework. -/
theorem DetectedRuntime.conventionHealth (detected : DetectedRuntime) :
    detected.conventions.bind FrameworkConventions.healthPath =
      detected.framework.bind fun framework =>
        (FrameworkConventions.lookup detected.kind framework
          (detected.prodEntry.getD "")).bind FrameworkConventions.healthPath := by
  unfold DetectedRuntime.conventions
  cases detected.framework with
  | none => rfl
  | some framework =>
    simp only [Option.bind_some, Option.bind_map]
    rfl

theorem FrameworkConventions.django_health (entry : String) :
    (FrameworkConventions.lookup .python "django" entry).bind FrameworkConventions.healthPath =
      none := by
  by_cases hentry : String.ofList (trim entry.toList) = ""
  · simp [FrameworkConventions.lookup, hentry]
  · simp [FrameworkConventions.lookup, hentry]

theorem FrameworkConventions.fastapi_health {entry : String} (h : trim entry.toList ≠ []) :
    (FrameworkConventions.lookup .python "fastapi" entry).bind FrameworkConventions.healthPath =
      some "/health" := by
  have hentry : String.ofList (trim entry.toList) ≠ "" := by
    intro hblank
    exact h (String.ofList_eq_empty_iff.mp hblank)
  simp [FrameworkConventions.lookup, hentry]

/-- Where the notes ask the conventions, they ask nothing else. -/
theorem RuntimeNotes.health_of_conventions {detected : DetectedRuntime}
    (hkind : detected.kind = .python ∨ detected.kind = .rust) :
    (RuntimeNotes.fromDetection detected).healthPath =
      detected.conventions.bind FrameworkConventions.healthPath := by
  unfold RuntimeNotes.fromDetection RuntimeNotes.commands
  obtain hpython | hrust := hkind
  · rw [hpython]
    rfl
  · rw [hrust]
    rfl

theorem RuntimeNotes.python_health_iff {detected : DetectedRuntime}
    (hkind : detected.kind = .python) (h : Detectable detected) :
    (RuntimeNotes.fromDetection detected).healthPath = (planBase detected).healthPath ↔
      detected.framework ≠ none := by
  have hplan : (planBase detected).healthPath =
      (detected.conventions.bind FrameworkConventions.healthPath).or
        (if detected.framework = some "django" then none else pythonAdapter.healthPath) := by
    unfold planBase
    rw [hkind]
  rw [RuntimeNotes.health_of_conventions (.inl hkind), hplan, detected.conventionHealth, hkind]
  obtain hnone | hdjango | ⟨hfastapi, entry, hentry, hdark⟩ := h.python hkind
  · simp [hnone, pythonAdapter]
  · simp [hdjango, FrameworkConventions.django_health]
  · simp [hfastapi, hentry, FrameworkConventions.fastapi_health hdark]

theorem RuntimeNotes.rust_health_iff {detected : DetectedRuntime}
    (hkind : detected.kind = .rust) (h : Detectable detected) :
    (RuntimeNotes.fromDetection detected).healthPath = (planBase detected).healthPath ↔
      detected.framework = some "axum" := by
  have hplan : (planBase detected).healthPath =
      (detected.conventions.bind FrameworkConventions.healthPath).or rustAdapter.healthPath := by
    unfold planBase
    rw [hkind]
  rw [RuntimeNotes.health_of_conventions (.inr hkind), hplan, detected.conventionHealth, hkind]
  obtain hnone | haxum | hrust := h.rust hkind
  · simp [hnone, rustAdapter]
  · simp [haxum, FrameworkConventions.lookup, FrameworkConventions.cargoConventions]
  · simp [hrust, FrameworkConventions.lookup, FrameworkConventions.cargoConventions, rustAdapter]

/-- A kind whose health path is read of its adapter on both sides. -/
theorem RuntimeNotes.health_of_kind {detected : DetectedRuntime} (hpython : detected.kind ≠ .python)
    (hrust : detected.kind ≠ .rust) :
    (RuntimeNotes.fromDetection detected).healthPath = (planBase detected).healthPath := by
  unfold RuntimeNotes.fromDetection RuntimeNotes.commands planBase
  cases hkind : detected.kind with
  | generic => rfl
  | node => rfl
  | dotNet => rfl
  | python => exact absurd hkind hpython
  | rust => exact absurd hkind hrust
  | expo => rfl

/-- The notes lose the health path that the plan falls back to: that of a language without a known
framework, and of a workspace. -/
theorem notes_reproduce_iff {snapshot : ProjectSnapshot} {detected : DetectedRuntime}
    {port : UInt16} {limits : SandboxLimits} (hdetected : detectRuntime snapshot = .ok detected)
    (hport : port ≠ 0) (hlimits : limits.validate = .ok ()) (dockerfile : Option String) :
    (RuntimeNotes.fromDetection detected).Reproduces detected port dockerfile limits ↔
      ¬ (detected.kind = .python ∧ detected.framework = none) ∧
        (detected.kind = .rust → detected.framework = some "axum") := by
  have hdetectable : Detectable detected := detectable_of_detectRuntime hdetected
  have hbase : (RuntimeNotes.fromDetection detected).Reproduces detected port dockerfile limits ↔
      (RuntimeNotes.fromDetection detected).healthPath = (planBase detected).healthPath := by
    rw [RuntimeNotes.reproduces_iff_base hport hlimits]
    obtain ⟨hdev, hprod⟩ := RuntimeNotes.fromDetection_commands detected
    have htier := RuntimeNotes.fromDetection_tier hdetectable
    exact ⟨fun h => h.2.2.2, fun h => ⟨hdev, hprod, htier, h⟩⟩
  rw [hbase]
  by_cases hpython : detected.kind = .python
  · rw [RuntimeNotes.python_health_iff hpython hdetectable, hpython]
    simp
  by_cases hrust : detected.kind = .rust
  · rw [RuntimeNotes.rust_health_iff hrust hdetectable, hrust]
    simp
  · have hsame := RuntimeNotes.health_of_kind hpython hrust
    exact ⟨fun _ => ⟨fun h => hpython h.1, fun h => absurd h hrust⟩, fun _ => hsame⟩

/-- A project of Node: both say the root path. -/
theorem notes_reproduce_iff_node :
    (RuntimeNotes.fromDetection (.new .node .tier1 ["package.json"])).Reproduces
      (.new .node .tier1 ["package.json"]) 3000 none .dockerDefault := by
  have hdetected : detectRuntime (.new [("package.json", "\x7b\x7d")]) =
      .ok (.new .node .tier1 ["package.json"]) := by decide +kernel
  refine (notes_reproduce_iff hdetected (by decide) (by decide) none).mpr ⟨?_, ?_⟩
  · rintro ⟨hpython, -⟩
    cases hpython
  · intro hrust
    cases hrust

/-- A project of Python without a framework: the plan asks `/healthz`, the notes ask nothing. -/
theorem notes_lose_health :
    detectRuntime (.new [("requirements.txt", "flask")]) =
        .ok (.new .python .tier1 ["requirements.txt|pyproject.toml|setup.py"]) ∧
      ¬ (RuntimeNotes.fromDetection
          (.new .python .tier1 ["requirements.txt|pyproject.toml|setup.py"])).Reproduces
        (.new .python .tier1 ["requirements.txt|pyproject.toml|setup.py"]) 8000 none
        .dockerDefault := by
  refine ⟨by decide +kernel, ?_⟩
  rw [RuntimeNotes.reproduces_iff_base (by decide) (by decide)]
  rintro ⟨-, -, -, hhealth⟩
  cases hhealth

end Labrys.Core
