import Labrys.ControlPlane.ContainerExecutor
import Labrys.Foundations.CommandLine

/-! # The arguments of docker

The executor hands docker a list of words, one for each argument. Docker reads options with their
values up to the first word that starts with no dash, the image or the context. Which options take a
value is docker's and a parameter here (`DocumentedOptions`); so is the text of the CPU share, a
formatted float.

* `dockerRunArgs`, `dockerBuildArgs`: the words.
* `runOptions`: the options that are meant; `dockerRunArgs_ok` spells them.
* `container_arguments_read_iff`: when docker reads what was meant. -/

namespace Labrys.ControlPlane
open Foundations Labrys.Core
set_option autoImplicit false

/-! ## Texts that are accepted -/

/-- What a plain reference may not have, apart from white space. -/
def tagDenied : List Char := ";|&$\x60\"'".toList

def pathArg (path : String) : Except ControlPlaneError String :=
  if trim path.toList = [] then .error (.execution "execution requires a non-empty path")
  else .ok path

def validateTag (tag : String) : Except ControlPlaneError Unit :=
  if trim tag.toList = [] then .error (.execution "container image tag must not be empty")
  else if (tag.toList.any fun c => isWhiteSpace c || decide (c ∈ tagDenied)) = true then
    .error (.execution s!"container image tag is not a plain reference: {tag}")
  else .ok ()

def validateContainerName (name : String) : Except ControlPlaneError Unit :=
  if trim name.toList = [] then .error (.execution "container name must not be empty")
  else if (name.toList.head?.filter Char.isAlphanum).isNone then
    .error (.execution s!"container name must start with an alphanumeric: {name}")
  else if (name.toList.all fun c => c.isAlphanum || decide (c ∈ ['_', '.', '-'])) = false then
    .error (.execution s!"container name contains an unsupported character: {name}")
  else .ok ()

/-! ## The words -/

def dockerBuildArgs (dockerfile context tag : String) : Except ControlPlaneError (List String) := do
  validateTag tag
  let dockerfile ← pathArg dockerfile
  let context ← pathArg context
  return ["build", "-f", dockerfile, "-t", tag, context]

/-- A capability is dropped under its trimmed name; a blank one is skipped. -/
def pushCapability (args : List String) (cap : String) : List String :=
  let cap := String.ofList (trim cap.toList)
  if cap = "" then args else args ++ ["--cap-drop", cap]

def networkArgs (config : RuntimePlan) : List String :=
  match config.limits.network with
  | .disabled => ["--network", "none"]
  | .isolated | .bridged => ["--network", "bridge", "-p", s!"127.0.0.1::{config.port}"]

def dockerRunArgs (cpus : UInt32 → String) (config : RuntimePlan) (containerName image : String) :
    Except ControlPlaneError (List String) := do
  enforceLimitsBeforeSchedule config
  validateContainerName containerName
  validateTag image
  let args := ["run", "-d", "--name", containerName]
  let args := args ++ ["--cpus", cpus config.limits.cpuMillicpus]
  let args := args ++ ["--memory", s!"{config.limits.memoryMb}m"]
  let args := args ++ ["--pids-limit", toString config.limits.maxProcesses]
  let args := if config.limits.readonlyRoot then args ++ ["--read-only"] else args
  let args := config.limits.dropCapabilities.foldl pushCapability args
  let args := args ++ networkArgs config
  return args ++ [image]

/-! ## How docker reads them -/

def startsWithDash (word : String) : Bool := decide (word.toList.head? = some '-')

/-- An option starts with a dash. `takesValue` tells which take a value. -/
def dockerGrammar (takesValue : String → Bool) : OptionGrammar String where
  isOption := startsWithDash
  takesValue := takesValue

/-- What the documentation says of the options that the executor uses. -/
structure DocumentedOptions (takesValue : String → String → Bool) : Prop where
  runFlags : ∀ word ∈ ["-d", "--read-only"], takesValue "run" word = false
  runValues : ∀ word ∈ ["--name", "--cpus", "--memory", "--pids-limit", "--cap-drop", "--network",
    "-p"], takesValue "run" word = true
  buildValues : ∀ word ∈ ["-f", "-t"], takesValue "build" word = true

/-- The command, and its options and positional words. -/
def dockerReads (takesValue : String → String → Bool) :
    List String → Option (String × CommandWords String)
  | [] => none
  | command :: words =>
      ((dockerGrammar (takesValue command)).read words).map fun read => (command, read)

/-! ## What is meant -/

/-- The capabilities to drop, by their trimmed names. -/
def droppedCapabilities (limits : SandboxLimits) : List String :=
  (limits.dropCapabilities.map fun cap => String.ofList (trim cap.toList)).filter fun cap => cap ≠ ""

/-- The options that the executor uses. -/
def runOptionNames : List String :=
  ["-d", "--name", "--cpus", "--memory", "--pids-limit", "--read-only", "--cap-drop", "--network",
    "-p"]

/-- The options say of the container what its configuration says, and nothing else. -/
structure RunsAs (config : RuntimePlan) (containerName : String)
    (options : List (OptionUse String)) : Prop where
  name : valuesOf "--name" options = [containerName]
  memory : valuesOf "--memory" options = [s!"{config.limits.memoryMb}m"]
  processes : valuesOf "--pids-limit" options = [toString config.limits.maxProcesses]
  readOnly : ("--read-only", none) ∈ options ↔ config.limits.readonlyRoot = true
  capabilities : valuesOf "--cap-drop" options = droppedCapabilities config.limits
  network : valuesOf "--network" options =
    [if config.limits.network = .disabled then "none" else "bridge"]
  published : valuesOf "-p" options =
    if config.limits.allowsPortExposure then [s!"127.0.0.1::{config.port}"] else []
  known : ∀ option ∈ options, option.1 ∈ runOptionNames

structure BuildsAs (dockerfile tag : String) (options : List (OptionUse String)) : Prop where
  dockerfile : valuesOf "-f" options = [dockerfile]
  tag : valuesOf "-t" options = [tag]
  known : ∀ option ∈ options, option.1 ∈ ["-f", "-t"]

/-! ## The options that are spelled -/

def limitOptions (cpus : UInt32 → String) (config : RuntimePlan) (containerName : String) :
    List (OptionUse String) :=
  [("-d", none), ("--name", some containerName), ("--cpus", some (cpus config.limits.cpuMillicpus)),
    ("--memory", some s!"{config.limits.memoryMb}m"),
    ("--pids-limit", some (toString config.limits.maxProcesses))]

def readOnlyOptions (limits : SandboxLimits) : List (OptionUse String) :=
  if limits.readonlyRoot then [("--read-only", none)] else []

def capabilityOptions (limits : SandboxLimits) : List (OptionUse String) :=
  (droppedCapabilities limits).map fun cap => ("--cap-drop", some cap)

def networkOptions (config : RuntimePlan) : List (OptionUse String) :=
  match config.limits.network with
  | .disabled => [("--network", some "none")]
  | .isolated | .bridged =>
      [("--network", some "bridge"), ("-p", some s!"127.0.0.1::{config.port}")]

def runOptions (cpus : UInt32 → String) (config : RuntimePlan) (containerName : String) :
    List (OptionUse String) :=
  limitOptions cpus config containerName ++ readOnlyOptions config.limits ++
    capabilityOptions config.limits ++ networkOptions config

theorem spell_networkOptions (config : RuntimePlan) :
    (networkOptions config).flatMap OptionUse.spell = networkArgs config := by
  unfold networkOptions networkArgs
  cases config.limits.network with
  | disabled => rfl
  | isolated => rfl
  | bridged => rfl

theorem foldl_pushCapability (caps : List String) (args : List String) :
    caps.foldl pushCapability args = args ++
      ((((caps.map fun cap => String.ofList (trim cap.toList)).filter fun cap => cap ≠ "").map
        fun cap => ("--cap-drop", some cap)).flatMap OptionUse.spell) := by
  induction caps generalizing args with
  | nil => simp
  | cons cap caps ih =>
    rw [List.foldl_cons, ih]
    unfold pushCapability
    by_cases hblank : String.ofList (trim cap.toList) = ""
    · simp [hblank]
    · simp [hblank, OptionUse.spell]

/-- The words that `docker run` is given: the options that are meant, and the image. -/
theorem dockerRunArgs_ok {cpus : UInt32 → String} {config : RuntimePlan}
    {containerName image : String} {args : List String}
    (h : dockerRunArgs cpus config containerName image = .ok args) :
    args = "run" :: ((runOptions cpus config containerName).flatMap OptionUse.spell ++ [image]) := by
  unfold dockerRunArgs at h
  obtain ⟨_, -, h⟩ := except_bind_eq_ok h
  obtain ⟨_, -, h⟩ := except_bind_eq_ok h
  obtain ⟨_, -, h⟩ := except_bind_eq_ok h
  obtain rfl := Except.ok.inj h
  unfold runOptions capabilityOptions droppedCapabilities
  rw [foldl_pushCapability, List.flatMap_append, List.flatMap_append, List.flatMap_append,
    spell_networkOptions]
  unfold readOnlyOptions limitOptions
  cases config.limits.readonlyRoot with
  | false => simp [OptionUse.spell]
  | true => simp [OptionUse.spell]

/-- The words that `docker build` is given. -/
theorem dockerBuildArgs_ok {dockerfile context tag : String} {args : List String}
    (h : dockerBuildArgs dockerfile context tag = .ok args) :
    args = "build" :: ([("-f", some dockerfile), ("-t", some tag)].flatMap OptionUse.spell ++
      [context]) := by
  have hpath {path path' : String} (hok : pathArg path = .ok path') : path' = path := by
    unfold pathArg at hok
    split_ifs at hok
    exact (Except.ok.inj hok).symm
  unfold dockerBuildArgs at h
  obtain ⟨_, -, h⟩ := except_bind_eq_ok h
  obtain ⟨dockerfile', hdockerfile, h⟩ := except_bind_eq_ok h
  obtain ⟨context', hcontext, h⟩ := except_bind_eq_ok h
  obtain rfl := Except.ok.inj h
  rw [hpath hdockerfile, hpath hcontext]
  rfl

/-! ## What the options say -/

section Run
variable (cpus : UInt32 → String) (config : RuntimePlan) (containerName : String)

theorem valuesOf_capabilityOptions_of_ne {name : String} (h : "--cap-drop" ≠ name)
    (limits : SandboxLimits) : valuesOf name (capabilityOptions limits) = [] :=
  valuesOf_map_of_ne h _

/-- An option that is only among those of the limits and of the network. -/
theorem valuesOf_runOptions {name : String} (hcap : "--cap-drop" ≠ name) :
    valuesOf name (runOptions cpus config containerName) =
      valuesOf name (limitOptions cpus config containerName) ++
        valuesOf name (networkOptions config) := by
  have hreadOnly : valuesOf name (readOnlyOptions config.limits) = [] := by
    unfold readOnlyOptions
    split_ifs
    · simp [valuesOf]
    · rfl
  unfold runOptions
  rw [valuesOf_append, valuesOf_append, valuesOf_append, hreadOnly,
    valuesOf_capabilityOptions_of_ne hcap, List.append_nil, List.append_nil]

theorem valuesOf_networkOptions_of_ne {name : String} (hnetwork : "--network" ≠ name)
    (hport : "-p" ≠ name) : valuesOf name (networkOptions config) = [] := by
  unfold networkOptions
  cases config.limits.network with
  | disabled => simp [valuesOf, hnetwork]
  | isolated => simp [valuesOf, hnetwork, hport]
  | bridged => simp [valuesOf, hnetwork, hport]

/-- The values of an option that only the limits have. -/
theorem valuesOf_limit {name : String} (hcap : "--cap-drop" ≠ name) (hnetwork : "--network" ≠ name)
    (hport : "-p" ≠ name) :
    valuesOf name (runOptions cpus config containerName) =
      valuesOf name (limitOptions cpus config containerName) := by
  rw [valuesOf_runOptions cpus config containerName hcap,
    valuesOf_networkOptions_of_ne config hnetwork hport, List.append_nil]

theorem valuesOf_capabilities :
    valuesOf "--cap-drop" (runOptions cpus config containerName) =
      droppedCapabilities config.limits := by
  have hlimits : valuesOf "--cap-drop" (limitOptions cpus config containerName) = [] := by
    simp [limitOptions, valuesOf]
  have hreadOnly : valuesOf "--cap-drop" (readOnlyOptions config.limits) = [] := by
    unfold readOnlyOptions
    split_ifs
    · simp [valuesOf]
    · rfl
  have hcaps : valuesOf "--cap-drop" (capabilityOptions config.limits) =
      droppedCapabilities config.limits := valuesOf_map_self "--cap-drop" _
  unfold runOptions
  rw [valuesOf_append, valuesOf_append, valuesOf_append, hlimits, hreadOnly, hcaps,
    valuesOf_networkOptions_of_ne config (by decide) (by decide)]
  simp

theorem mem_readOnly_iff :
    ("--read-only", none) ∈ runOptions cpus config containerName ↔
      config.limits.readonlyRoot = true := by
  have hnetwork : ("--read-only", none) ∉ networkOptions config := by
    unfold networkOptions
    cases config.limits.network <;> simp
  have hcaps : ("--read-only", none) ∉ capabilityOptions config.limits := by
    simp [capabilityOptions]
  have hlimits : ("--read-only", none) ∉ limitOptions cpus config containerName := by
    simp [limitOptions]
  unfold runOptions
  rw [List.mem_append, List.mem_append, List.mem_append, or_iff_left hnetwork, or_iff_left hcaps,
    or_iff_right hlimits]
  unfold readOnlyOptions
  cases config.limits.readonlyRoot with
  | false => simp
  | true => simp

/-- Each of the options is a known one, and has a value unless it is a flag. -/
theorem runOptions_known : ∀ option ∈ runOptions cpus config containerName,
    option.1 ∈ runOptionNames ∧
      option.2.isSome = decide (option.1 ∉ ["-d", "--read-only"]) := by
  have hlimits : ∀ option ∈ limitOptions cpus config containerName,
      option.1 ∈ runOptionNames ∧
        option.2.isSome = decide (option.1 ∉ ["-d", "--read-only"]) := by
    simp [limitOptions, runOptionNames]
  have hreadOnly : ∀ option ∈ readOnlyOptions config.limits,
      option.1 ∈ runOptionNames ∧
        option.2.isSome = decide (option.1 ∉ ["-d", "--read-only"]) := by
    unfold readOnlyOptions
    split_ifs
    · simp [runOptionNames]
    · simp
  have hcaps : ∀ option ∈ capabilityOptions config.limits,
      option.1 ∈ runOptionNames ∧
        option.2.isSome = decide (option.1 ∉ ["-d", "--read-only"]) := by
    intro option hmem
    obtain ⟨cap, -, rfl⟩ := List.mem_map.mp hmem
    simp [runOptionNames]
  have hnetwork : ∀ option ∈ networkOptions config,
      option.1 ∈ runOptionNames ∧
        option.2.isSome = decide (option.1 ∉ ["-d", "--read-only"]) := by
    unfold networkOptions
    cases config.limits.network with
    | disabled => simp [runOptionNames]
    | isolated => simp [runOptionNames]
    | bridged => simp [runOptionNames]
  unfold runOptions
  rw [List.forall_mem_append, List.forall_mem_append, List.forall_mem_append]
  exact ⟨⟨⟨hlimits, hreadOnly⟩, hcaps⟩, hnetwork⟩

theorem runsAs_runOptions : RunsAs config containerName (runOptions cpus config containerName) where
  name := by
    rw [valuesOf_limit cpus config containerName (by decide) (by decide) (by decide)]
    simp [limitOptions, valuesOf]
  memory := by
    rw [valuesOf_limit cpus config containerName (by decide) (by decide) (by decide)]
    simp [limitOptions, valuesOf]
  processes := by
    rw [valuesOf_limit cpus config containerName (by decide) (by decide) (by decide)]
    simp [limitOptions, valuesOf]
  readOnly := mem_readOnly_iff cpus config containerName
  capabilities := valuesOf_capabilities cpus config containerName
  network := by
    rw [valuesOf_runOptions cpus config containerName (by decide)]
    unfold networkOptions
    cases config.limits.network with
    | disabled => simp [limitOptions, valuesOf]
    | isolated => simp [limitOptions, valuesOf]
    | bridged => simp [limitOptions, valuesOf]
  published := by
    rw [valuesOf_runOptions cpus config containerName (by decide)]
    unfold networkOptions SandboxLimits.allowsPortExposure
    cases config.limits.network with
    | disabled => simp [limitOptions, valuesOf]
    | isolated => simp [limitOptions, valuesOf]
    | bridged => simp [limitOptions, valuesOf]
  known := fun option hmem => (runOptions_known cpus config containerName option hmem).1

end Run

/-! ## Reading what was spelled -/

/-- The options that are meant are spelled as docker reads them. -/
theorem fits_runOptions {takesValue : String → String → Bool} (h : DocumentedOptions takesValue)
    (cpus : UInt32 → String) (config : RuntimePlan) (containerName : String) :
    ∀ option ∈ runOptions cpus config containerName,
      (dockerGrammar (takesValue "run")).Fits option := by
  intro option hmem
  obtain ⟨hknown, hvalued⟩ := runOptions_known cpus config containerName option hmem
  have hdash : ∀ word ∈ runOptionNames, startsWithDash word = true := by decide
  have harity : ∀ word ∈ runOptionNames, word ∈ ["-d", "--read-only"] ∨
      word ∈ ["--name", "--cpus", "--memory", "--pids-limit", "--cap-drop", "--network", "-p"] := by
    decide
  refine ⟨hdash option.1 hknown, ?_⟩
  rw [hvalued]
  obtain hflag | hvalue := harity option.1 hknown
  · have htakes := h.runFlags option.1 hflag
    simpa [dockerGrammar, hflag] using htakes
  · have hnot : ∀ word ∈ ["--name", "--cpus", "--memory", "--pids-limit", "--cap-drop",
        "--network", "-p"], word ∉ ["-d", "--read-only"] := by decide
    rw [decide_eq_true (hnot option.1 hvalue)]
    exact h.runValues option.1 hvalue

/-- What docker reads of spelled options and a last word. -/
theorem dockerReads_iff {takesValue : String → String → Bool} {command : String}
    {options : List (OptionUse String)}
    (h : ∀ option ∈ options, (dockerGrammar (takesValue command)).Fits option) (last : String)
    {P : List (OptionUse String) → Prop} (hP : P options) :
    (∃ words, dockerReads takesValue
          (command :: (options.flatMap OptionUse.spell ++ [last])) = some (command, words) ∧
        P words.options ∧ words.positional = [last]) ↔
      startsWithDash last = false := by
  have hreads (words : CommandWords String) : dockerReads takesValue
      (command :: (options.flatMap OptionUse.spell ++ [last])) = some (command, words) ↔
        (dockerGrammar (takesValue command)).read
          (options.flatMap OptionUse.spell ++ [last]) = some words := by
    simp [dockerReads]
  constructor
  · rintro ⟨words, hwords, -, hlast⟩
    exact ((OptionGrammar.read_spelled_singleton_iff h).mp ⟨(hreads words).mp hwords, hlast⟩).2
  · intro hdash
    obtain ⟨hwords, hlast⟩ := (OptionGrammar.read_spelled_singleton_iff h).mpr ⟨rfl, hdash⟩
    exact ⟨_, (hreads _).mpr hwords, hP, hlast⟩

/-- Docker reads what was meant exactly if the image, or the context, starts with no dash; every
other text stands where a value is read. -/
theorem container_arguments_read_iff {takesValue : String → String → Bool}
    (h : DocumentedOptions takesValue) (cpus : UInt32 → String) :
    (∀ config containerName image args,
      dockerRunArgs cpus config containerName image = .ok args →
        ((∃ words, dockerReads takesValue args = some ("run", words) ∧
            RunsAs config containerName words.options ∧ words.positional = [image]) ↔
          startsWithDash image = false)) ∧
    ∀ dockerfile context tag args, dockerBuildArgs dockerfile context tag = .ok args →
      ((∃ words, dockerReads takesValue args = some ("build", words) ∧
          BuildsAs dockerfile tag words.options ∧ words.positional = [context]) ↔
        startsWithDash context = false) := by
  constructor
  · intro config containerName image args hargs
    rw [dockerRunArgs_ok hargs]
    exact dockerReads_iff (fits_runOptions h cpus config containerName) image
      (runsAs_runOptions cpus config containerName)
  · intro dockerfile context tag args hargs
    rw [dockerBuildArgs_ok hargs]
    have hfits : ∀ option ∈ [("-f", some dockerfile), ("-t", some tag)],
        (dockerGrammar (takesValue "build")).Fits option := by
      have hdash : ∀ word ∈ ["-f", "-t"], startsWithDash word = true := by decide
      intro option hmem
      have hknown : option.1 ∈ ["-f", "-t"] ∧ option.2.isSome = true := by
        simp only [List.mem_cons, List.not_mem_nil, or_false] at hmem
        obtain rfl | rfl := hmem
        · simp
        · simp
      refine ⟨hdash option.1 hknown.1, ?_⟩
      rw [hknown.2]
      exact h.buildValues option.1 hknown.1
    have hbuilds : BuildsAs dockerfile tag [("-f", some dockerfile), ("-t", some tag)] := by
      refine ⟨?_, ?_, ?_⟩
      · simp [valuesOf]
      · simp [valuesOf]
      · simp
    exact dockerReads_iff hfits context hbuilds

/-! ### A container of the default limits -/

/-- The options of docker that take a value, as far as they are used here. -/
def documentedValues (command word : String) : Bool :=
  if command = "run" then
    decide (word ∈ ["--name", "--cpus", "--memory", "--pids-limit", "--cap-drop", "--network", "-p",
      "--volume", "-v"])
  else decide (word ∈ ["-f", "-t", "--build-arg"])

theorem documentedOptions : DocumentedOptions documentedValues where
  runFlags := by decide
  runValues := by decide
  buildValues := by decide

def smallPlan : RuntimePlan where
  kind := .generic
  profile := .development
  ociImage := none
  tier := .tier0
  port := 8080
  healthcheckPath := none
  dockerfile := some "Dockerfile"
  runCommand := ["docker"]
  limits := .dockerDefault

/-- A plain image: docker reads the container that is meant. -/
theorem container_arguments_read :
    ∃ args words, dockerRunArgs (fun _ => "1.00") smallPlan "labrys-abc" "img:latest" = .ok args ∧
      dockerReads documentedValues args = some ("run", words) ∧
      RunsAs smallPlan "labrys-abc" words.options ∧ words.positional = ["img:latest"] := by
  have hargs : ∃ args, dockerRunArgs (fun _ => "1.00") smallPlan "labrys-abc" "img:latest" =
      .ok args := ⟨_, rfl⟩
  obtain ⟨args, hargs⟩ := hargs
  obtain ⟨words, hwords, hruns, hpositional⟩ := ((container_arguments_read_iff documentedOptions
    fun _ => "1.00").1 smallPlan "labrys-abc" "img:latest" args hargs).mpr (by decide)
  exact ⟨args, words, hargs, hwords, hruns, hpositional⟩

/-- The words for an image that is called as an option. -/
def optionImageArgs : List String :=
  ["run", "-d", "--name", "labrys-abc", "--cpus", "1.00", "--memory", "512m", "--pids-limit", "128",
    "--read-only", "--cap-drop", "ALL", "--network", "bridge", "-p", "127.0.0.1::8080",
    "--privileged"]

/-- Docker is given no image then, and a privileged container. -/
theorem image_read_as_option :
    dockerRunArgs (fun _ => "1.00") smallPlan "labrys-abc" "--privileged" = .ok optionImageArgs ∧
      ¬ ∃ words, dockerReads documentedValues optionImageArgs = some ("run", words) ∧
        RunsAs smallPlan "labrys-abc" words.options ∧ words.positional = ["--privileged"] := by
  refine ⟨by decide +kernel, ?_⟩
  rintro ⟨words, hwords, -, hpositional⟩
  have hnone : (dockerReads documentedValues optionImageArgs).map (fun read => read.2.positional) =
      some [] := by decide +kernel
  rw [hwords] at hnone
  have hempty : words.positional = [] := Option.some.inj hnone
  rw [hempty] at hpositional
  cases hpositional

end Labrys.ControlPlane
