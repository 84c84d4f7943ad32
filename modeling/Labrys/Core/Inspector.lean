import Mathlib.Data.List.Destutter
import Labrys.Core.ProjectSnapshot

/-! # Deterministic project inspection

`Inspector::inspect` runs eight detectors over a snapshot, in the order of the stages, settles the
conflicts among what they found, and lets the plugins add what they infer. A confidence is an `f32`;
its literals, its comparisons and its clamp are parameters here, so that nothing is assumed of them
where nothing is said (a plugin may return a NaN). -/

namespace Labrys.Core
open Foundations
set_option autoImplicit false

def inspectionOrder : List String :=
  ["dockerfile", "compose", "manifest", "framework_convention", "configuration", "ci", "source"]

/-- The index of a stage; unknown stages sort last. -/
def stageOrder (stage : String) : ℕ := inspectionOrder.idxOf stage

/-- The confidences: the literal of so many hundredths, `<`, `>=` and `clamp(0.0, 1.0)`. -/
structure Confidences (κ : Type) where
  hundredths : ℕ → κ
  lt : κ → κ → Bool
  ge : κ → κ → Bool
  clamp : κ → κ

/-! ## Profiles -/

structure Evidence (κ : Type) where
  source : String
  stage : String
  detail : String
  confidence : κ

structure Unknown where
  field : String
  reason : String
  evidenceConsidered : List String

structure Fact (κ : Type) where
  name : String
  value : String
  evidence : Evidence κ

structure ApplicationProfile (κ : Type) where
  containerCompatible : Bool
  language : Option String
  framework : Option String
  facts : List (Fact κ)
  unknowns : List Unknown
  evidence : List (Evidence κ)

structure PluginFinding (κ : Type) where
  field : String
  value : String
  evidence : Evidence κ
  confidence : κ

structure InspectorPlugin (κ : Type) where
  name : String
  detect : ProjectSnapshot → List (PluginFinding κ)

/-- The two fields that evidence competes for. -/
inductive ProfileField
  | language | framework
deriving DecidableEq

def ProfileField.canonicalName : ProfileField → String
  | language => "language"
  | framework => "framework"

/-! ## The builder -/

structure FieldState (κ : Type) where
  value : Option String
  confidence : κ
  evidence : Option (Evidence κ)
  candidates : List (String × Evidence κ × κ)

structure ProfileBuilder (κ : Type) where
  containerCompatible : Bool
  language : FieldState κ
  framework : FieldState κ
  facts : List (Fact κ)
  unknowns : List Unknown
  evidence : List (Evidence κ)

variable {κ : Type} (C : Confidences κ)

def Evidence.new (source stage detail : String) (confidence : κ) : Evidence κ :=
  ⟨source, stage, detail, C.clamp confidence⟩

def FieldState.default : FieldState κ := ⟨none, C.hundredths 0, none, []⟩

namespace ProfileBuilder

def default : ProfileBuilder κ := ⟨false, .default C, .default C, [], [], []⟩

variable (builder : ProfileBuilder κ)

def get : ProfileField → FieldState κ
  | .language => builder.language
  | .framework => builder.framework

def put (field : ProfileField) (state : FieldState κ) : ProfileBuilder κ :=
  match field with
  | .language => { builder with language := state }
  | .framework => { builder with framework := state }

def pushEvidence (evidence : Evidence κ) : ProfileBuilder κ :=
  { builder with evidence := builder.evidence ++ [evidence] }

def pushUnknown (unknown : Unknown) : ProfileBuilder κ :=
  { builder with unknowns := builder.unknowns ++ [unknown] }

def pushFact (name value : String) (evidence : Evidence κ) : ProfileBuilder κ :=
  let builder := builder.pushEvidence evidence
  { builder with facts := builder.facts ++ [⟨name, value, evidence⟩] }

def pushCandidate (field : ProfileField) (value : String) (evidence : Evidence κ) (confidence : κ) :
    ProfileBuilder κ :=
  let state := builder.get field
  let state := { state with candidates := state.candidates ++ [(value, evidence, confidence)] }
  (builder.put field state).pushEvidence evidence

/-- The first value of a field is taken, the others are candidates. -/
def setField (field : ProfileField) (value : String) (evidence : Evidence κ) (confidence : κ) :
    ProfileBuilder κ :=
  let state := builder.get field
  if state.value.isNone then
    let state := { state with value := some value, confidence, evidence := some evidence }
    (builder.put field state).pushEvidence evidence
  else builder.pushCandidate field value evidence confidence

def clearValue (field : ProfileField) : ProfileBuilder κ :=
  builder.put field { builder.get field with value := none }

/-- The first candidate that names another value with no less confidence. -/
def conflict (state : FieldState κ) (current : String) : Option (String × Evidence κ × κ) :=
  state.candidates.find? fun (value, _, confidence) =>
    !eqIgnoreAsciiCase value current && C.ge confidence state.confidence

def finishField (field : ProfileField) : ProfileBuilder κ :=
  let state := builder.get field
  match state.value with
  | none => builder
  | some current =>
      match conflict C state current with
      | none => builder
      | some (other, _) =>
          (builder.pushUnknown
            { field := field.canonicalName
              reason := s!"conflicting evidence: '{current}' vs '{other}'; recorded as unknown " ++
                "rather than inventing a value"
              evidenceConsidered := (state.evidence.map (·.source)).getD "" ::
                state.candidates.map fun (_, evidence, _) => evidence.source }).clearValue field

/-- A conflict at equal or higher confidence turns a field into an explicit unknown. -/
def finishDeterministic : ProfileBuilder κ :=
  (builder.finishField C .language).finishField C .framework

/-- A field that was never observed becomes an explicit unknown. -/
def recordUnobserved (field : ProfileField) : ProfileBuilder κ :=
  let state := builder.get field
  if state.value.isNone &&
      !builder.unknowns.any fun unknown => decide (unknown.field = field.canonicalName) then
    builder.pushUnknown
      { field := field.canonicalName
        reason := "no recognized evidence; recorded as unknown rather than inventing a value"
        evidenceConsidered := state.candidates.map fun (_, evidence, _) => evidence.source }
  else builder

def build : ApplicationProfile κ :=
  let builder := (builder.recordUnobserved .language).recordUnobserved .framework
  { containerCompatible := builder.containerCompatible
    language := builder.language.value
    framework := builder.framework.value
    facts := builder.facts
    unknowns := builder.unknowns
    evidence := builder.evidence }

end ProfileBuilder

/-! ## Docker and compose -/

/-- The images of the `FROM` lines. -/
def fromImages (content : String) : List String :=
  (textLines content).filterMap fun line =>
    let text := String.ofList (trim line.toList)
    if textStartsWith text.toUpper "FROM " then (textWords text)[1]? else none

/-- The language that a base image suggests, and how it is called in the evidence. -/
def baseLanguage (lower : String) : Option (String × String) :=
  if containsText lower "node:" || lower = "node" || textStartsWith lower "node-" ||
      containsText lower "/node" then
    some ("node", "Node")
  else if containsText lower "dotnet" || containsText lower "mcr.microsoft.com" then
    some ("dotnet", ".NET")
  else if containsText lower "python" then some ("python", "Python")
  else if containsText lower "rust" then some ("rust", "Rust")
  else none

def detectDocker (snapshot : ProjectSnapshot) (builder : ProfileBuilder κ) : ProfileBuilder κ :=
  match (sortedByPath (snapshot.filesWithName "Dockerfile")).head? with
  | none => builder
  | some (path, content) =>
      let image := (fromImages content).headD ""
      let builder := { builder with containerCompatible := true }
      let builder := builder.pushEvidence (.new C path "dockerfile"
        s!"Dockerfile present (base: {image})" (C.hundredths 100))
      match baseLanguage image.toLower with
      | some (language, name) =>
          builder.setField .language language (.new C path "dockerfile"
            s!"base image suggests {name} ({image})" (C.hundredths 90)) (C.hundredths 90)
      | none => builder.pushUnknown
          { field := "docker_base_language"
            reason := s!"unrecognized base image '{image}'; language stays to later stages"
            evidenceConsidered := [path] }

def detectCompose (snapshot : ProjectSnapshot) (builder : ProfileBuilder κ) : ProfileBuilder κ :=
  match (sortedByPath (snapshot.filesNamedAnywhere
      ["docker-compose.yml", "docker-compose.yaml", "compose.yml", "compose.yaml"])).head? with
  | none => builder
  | some (path, _) => builder.pushFact "compose" "present"
      (.new C path "compose" "compose file present" (C.hundredths 100))

/-! ## Manifests -/

structure ManifestHit (κ : Type) where
  language : String
  confidence : κ
  detail : String
  source : String
  framework : Option (String × κ × String)

def applyManifestHit (hit : ManifestHit κ) (stage : String) (builder : ProfileBuilder κ) :
    ProfileBuilder κ :=
  let builder := builder.setField .language hit.language
    (.new C hit.source stage hit.detail hit.confidence) hit.confidence
  match hit.framework with
  | none => builder
  | some (framework, confidence, detail) =>
      builder.setField .framework framework (.new C hit.source stage detail confidence) confidence

/-- The first name of a table that the text contains, with its confidence and detail. -/
def firstMentioned (table : List (List String × String × ℕ × String)) (text : String) :
    Option (String × κ × String) :=
  (table.find? fun (needles, _) => needles.any fun needle => containsText text needle).map
    fun (_, framework, confidence, detail) => (framework, C.hundredths confidence, detail)

def detectNodeFramework (content : String) : Option (String × κ × String) :=
  firstMentioned C
    [(["\"next\"", "'next'"], "next.js", 90, "next dependency in package.json"),
      (["@nestjs/core"], "nestjs", 90, "nestjs dependency in package.json"),
      (["\"expo\""], "expo", 90, "expo dependency in package.json"),
      (["\"express\""], "express", 90, "express dependency in package.json"),
      (["\"react\""], "react", 70, "react dependency in package.json")] content

/-- A manifest of the language at the first of the files, if there is one. -/
def detectManifest (language : String) (files : List ProjectFile) (detail : String → String)
    (framework : String → Option (String × κ × String)) (builder : ProfileBuilder κ) :
    ProfileBuilder κ :=
  match files.head? with
  | none => builder
  | some (path, content) => applyManifestHit C
      { language := language
        confidence := C.hundredths 100
        detail := detail path
        source := path
        framework := framework content } "manifest" builder

def detectNode (snapshot : ProjectSnapshot) : ProfileBuilder κ → ProfileBuilder κ :=
  detectManifest C "node" (sortedByPath (snapshot.filesWithName "package.json"))
    (fun _ => "package.json manifest present") (detectNodeFramework C)

/-- Only the project files are sorted; a solution file anywhere stands for the SDK layout. -/
def detectDotnet (snapshot : ProjectSnapshot) : ProfileBuilder κ → ProfileBuilder κ :=
  let solutions := snapshot.filesWithExtension ".sln"
  let files := sortedByPath (snapshot.filesWithExtension ".csproj") ++ solutions ++
    snapshot.filesWithName "global.json"
  detectManifest C "dotnet" files (fun path => s!"{fileName path} manifest present") fun content =>
    if containsText content "Microsoft.NET.Sdk.Web" then
      some ("aspnetcore", C.hundredths 90, "Web SDK in project file")
    else if containsText content "Microsoft.NET.Sdk" || !solutions.isEmpty then
      some ("dotnet-sdk", C.hundredths 70, ".NET SDK project layout")
    else none

def detectPython (snapshot : ProjectSnapshot) : ProfileBuilder κ → ProfileBuilder κ :=
  let files := ["requirements.txt", "pyproject.toml", "setup.py", "setup.cfg", "Pipfile",
    "poetry.lock"].flatMap snapshot.filesWithName
  detectManifest C "python" (sortedByPath files) (fun path => s!"{fileName path} manifest present")
    fun content => firstMentioned C
      [(["django"], "django", 90, "django dependency declared"),
        (["fastapi"], "fastapi", 90, "fastapi dependency declared"),
        (["flask"], "flask", 90, "flask dependency declared")] content.toLower

def detectRust (snapshot : ProjectSnapshot) : ProfileBuilder κ → ProfileBuilder κ :=
  detectManifest C "rust" (sortedByPath (snapshot.filesWithName "Cargo.toml"))
    (fun _ => "Cargo.toml manifest present") fun content => firstMentioned C
      [(["axum"], "axum", 90, "axum dependency declared"),
        (["actix-web"], "actix-web", 90, "actix-web dependency declared"),
        (["rocket"], "rocket", 90, "rocket dependency declared")] content.toLower

/-- A fact that is recorded when its condition holds. -/
def factIf (condition : Bool) (name value : String) (evidence : Evidence κ)
    (builder : ProfileBuilder κ) : ProfileBuilder κ :=
  if condition then builder.pushFact name value evidence else builder

def detectManifests (snapshot : ProjectSnapshot) (builder : ProfileBuilder κ) : ProfileBuilder κ :=
  let builder := detectNode C snapshot builder
  let builder := detectDotnet C snapshot builder
  let builder := detectPython C snapshot builder
  let builder := detectRust C snapshot builder
  factIf (snapshot.hasDir ".git" || snapshot.hasFile ".git/config" || snapshot.hasFile ".git/HEAD")
    "git" "present" (.new C ".git" "manifest" "git metadata present" (C.hundredths 100)) builder

/-! ## Framework conventions -/

structure Convention where
  names : List String
  field : ProfileField
  value : String
  confidence : ℕ
  detail : String

def conventions : List Convention :=
  [⟨["next.config.js", "next.config.mjs", "next.config.ts"], .framework, "next.js", 80,
      "Next.js config convention"⟩,
    ⟨["manage.py"], .framework, "django", 80, "Django manage.py convention"⟩,
    ⟨["Program.cs", "Startup.cs"], .framework, "aspnetcore", 60,
      "ASP.NET Core entrypoint convention"⟩,
    ⟨["main.py", "app.py"], .framework, "fastapi", 50, "Python app entrypoint convention"⟩,
    ⟨["src/main.rs"], .language, "rust", 60, "Rust binary entrypoint convention"⟩]

/-- A convention sets its field over a weaker finding, and else only adds to the evidence. The names
are compared with the last segment of a path, so that no file is called `src/main.rs`. -/
def applyConvention (snapshot : ProjectSnapshot) (builder : ProfileBuilder κ)
    (convention : Convention) : ProfileBuilder κ :=
  match (sortedByPath (snapshot.filesNamedAnywhere convention.names)).head? with
  | none => builder
  | some (path, _) =>
      let confidence := C.hundredths convention.confidence
      let evidence := Evidence.new C path "framework_convention" convention.detail confidence
      if C.lt (builder.get convention.field).confidence confidence then
        builder.setField convention.field convention.value evidence confidence
      else builder.pushEvidence evidence

def detectFrameworkConventions (snapshot : ProjectSnapshot) (builder : ProfileBuilder κ) :
    ProfileBuilder κ :=
  conventions.foldl (applyConvention C snapshot) builder

/-- The evidence of a convention, at so many hundredths. -/
def conventionEvidence (source detail : String) (confidence : ℕ) : Evidence κ :=
  .new C source "framework_convention" detail (C.hundredths confidence)

/-- The framework found at one of the paths. -/
def frameworkAt (path : Option String) (framework detail : String) (confidence : ℕ)
    (builder : ProfileBuilder κ) : ProfileBuilder κ :=
  match path with
  | none => builder
  | some path => builder.setField .framework framework
      (conventionEvidence C path detail confidence) (C.hundredths confidence)

def detectDjango (snapshot : ProjectSnapshot) (builder : ProfileBuilder κ) : ProfileBuilder κ :=
  let settings := sortedByPath (snapshot.filesNamedAnywhere ["settings.py"])
  let managed := snapshot.hasFile "manage.py"
  let resolved := managed && !settings.isEmpty && snapshot.hasDirAnywhere "migrations"
  let builder := frameworkAt C (settings.head?.map Prod.fst) "django"
    "Django settings module discovered" 85 builder
  let builder := frameworkAt C (if resolved then some "manage.py" else none) "django"
    "Django layout fully resolved (manage.py, settings, migrations)" 95 builder
  let builder := factIf managed "migration_runner" "manage.py migrate"
    (conventionEvidence C "manage.py" "Django migration runner convention" 90) builder
  factIf managed "test_runner" "manage.py test"
    (conventionEvidence C "manage.py" "Django test runner convention" 80) builder

def detectFastapi (snapshot : ProjectSnapshot) (builder : ProfileBuilder κ) : ProfileBuilder κ :=
  let entries := sortedByPath (snapshot.filesNamedAnywhere ["main.py", "app.py"])
  let builder := frameworkAt C
    ((entries.find? fun file => containsText file.2 "FastAPI").map Prod.fst) "fastapi"
    "FastAPI application entry discovered" 85 builder
  let builder := factIf (snapshot.hasFile "alembic.ini" || snapshot.hasDirAnywhere "alembic")
    "migration_runner" "alembic upgrade head"
    (conventionEvidence C "alembic.ini" "Alembic migration runner convention" 90) builder
  factIf (snapshot.hasFile "pytest.ini" || snapshot.hasDirAnywhere "tests" ||
      (snapshot.anyContentContainsInsensitive "pytest").isSome)
    "test_runner" "pytest"
    (conventionEvidence C "pytest" "pytest test runner convention" 80) builder

/-- The tool that runs the migrations of a cargo project, with its evidence. -/
def cargoMigrationRunner (snapshot : ProjectSnapshot) (cargo : String) :
    Option (String × Evidence κ) :=
  if containsText cargo "sqlx" then
    some ("sqlx migrate run", conventionEvidence C "Cargo.toml" "sqlx migration runner convention" 90)
  else if containsText cargo "diesel" || snapshot.hasFile "diesel.toml" then
    some ("diesel migration run",
      conventionEvidence C "Cargo.toml" "diesel migration runner convention" 90)
  else if snapshot.hasDirAnywhere "migrations" && snapshot.hasFile "Cargo.toml" then
    some ("cargo migration runner (unresolved tool)",
      conventionEvidence C "migrations/" "migrations layout without a resolved tool" 60)
  else none

def detectAxum (snapshot : ProjectSnapshot) (builder : ProfileBuilder κ) : ProfileBuilder κ :=
  let mains := sortedByPath (snapshot.filesWithName "main.rs")
  let cargo := (snapshot.get "Cargo.toml").getD ""
  let builder := frameworkAt C
    ((mains.find? fun file => containsText file.2 "axum").map Prod.fst) "axum"
    "Axum application entry discovered" 85 builder
  let builder := match cargoMigrationRunner C snapshot cargo with
    | none => builder
    | some (runner, evidence) => builder.pushFact "migration_runner" runner evidence
  factIf (snapshot.hasFile "Cargo.toml" && containsText cargo "[workspace]")
    "workspace" "cargo workspace"
    (conventionEvidence C "Cargo.toml" "Cargo workspace layout" 90) builder

def detectExpo (snapshot : ProjectSnapshot) (builder : ProfileBuilder κ) : ProfileBuilder κ :=
  let builder := factIf (snapshot.hasFile "eas.json") "build_profile" "eas"
    (conventionEvidence C "eas.json" "Expo Application Services build profiles" 90) builder
  let routed := snapshot.hasDirAnywhere "app" && snapshot.hasFile "app.json"
  frameworkAt C (if routed then some "app/" else none) "expo" "Expo file-based routing discovered" 85
    builder

def detectDeepFrameworkConventions (snapshot : ProjectSnapshot) (builder : ProfileBuilder κ) :
    ProfileBuilder κ :=
  let builder := detectDjango C snapshot builder
  let builder := detectFastapi C snapshot builder
  let builder := detectAxum C snapshot builder
  detectExpo C snapshot builder

/-! ## Configuration, CI and source -/

/-- The fact of an authentication provider, at the file that shows it. -/
def authProviderAt (file : Option ProjectFile) (provider detail : String) (confidence : ℕ)
    (builder : ProfileBuilder κ) : ProfileBuilder κ :=
  match file with
  | none => builder
  | some (path, _) => builder.pushFact "auth_provider" provider
      (.new C path "configuration" detail (C.hundredths confidence))

def detectGoogle (snapshot : ProjectSnapshot) (builder : ProfileBuilder κ) : ProfileBuilder κ :=
  match snapshot.anyContentContains "GOOGLE_CLIENT_ID" with
  | some file => authProviderAt C (some file) "google-oauth"
      "Google OAuth client reference configured" 90 builder
  | none => authProviderAt C
      ((snapshot.anyContentContainsInsensitive "accounts.google.com").filter fun _ =>
        (snapshot.anyContentContainsInsensitive "oauth").isSome)
      "google-oauth" "Google OAuth endpoint configured" 80 builder

/-- The files of a configuration name. The dotted names are looked for among no files. -/
def configurationFiles (snapshot : ProjectSnapshot) (name : String) : List ProjectFile :=
  let dotted := (snapshot.filesNamedAnywhere []).filter fun file =>
    textStartsWith (fileName file.1) ".env."
  let found := snapshot.filesWithName name ++
    if name = ".env" then snapshot.filesWithExtension ".env" ++ dotted else []
  (sortedByPath found).destutter fun a b => a.1 ≠ b.1

def applyConfiguration (snapshot : ProjectSnapshot) (builder : ProfileBuilder κ) (name : String) :
    ProfileBuilder κ :=
  match (configurationFiles snapshot name).head? with
  | none => builder
  | some (path, _) => builder.pushFact "configuration" (fileName path)
      (.new C path "configuration" s!"{fileName path} configuration present" (C.hundredths 80))

def detectConfiguration (snapshot : ProjectSnapshot) (builder : ProfileBuilder κ) :
    ProfileBuilder κ :=
  let builder := detectGoogle C snapshot builder
  let builder := authProviderAt C (snapshot.anyContentContains "GITHUB_CLIENT_ID") "github-oauth"
    "GitHub OAuth client reference configured" 90 builder
  [".env", "appsettings.json", "application.yml", "application.yaml", "config.yaml"].foldl
    (applyConfiguration C snapshot) builder

/-- The path, the name and the detail of each CI that is configured. -/
def ciFiles (snapshot : ProjectSnapshot) : List (String × String × String) :=
  let workflow := (sortedByPath (snapshot.entries.filter fun file =>
    textStartsWith file.1 ".github/workflows/")).head?
  let github := if snapshot.hasDir ".github/workflows" then
      workflow.toList.map fun file =>
        (file.1, "github-actions", "GitHub Actions workflow present")
    else []
  github ++ [(".gitlab-ci.yml", "gitlab-ci", "GitLab CI configuration present"),
    ("azure-pipelines.yml", "azure-pipelines", "Azure Pipelines configuration present"),
    ("Jenkinsfile", "jenkins", "Jenkinsfile present"),
    (".circleci/config.yml", "circleci", "CircleCI configuration present")].filter
      fun (name, _) => snapshot.hasFile name

def detectCi (snapshot : ProjectSnapshot) (builder : ProfileBuilder κ) : ProfileBuilder κ :=
  (ciFiles snapshot).foldl (fun builder (path, value, detail) =>
    builder.pushFact "ci" value (.new C path "ci" detail (C.hundredths 90))) builder

def sourceHints : List (String × String) :=
  [(".ts", "node"), (".tsx", "node"), (".js", "node"), (".jsx", "node"), (".cs", "dotnet"),
    (".py", "python"), (".rs", "rust")]

/-- A hint of a source file is a candidate and sets nothing. -/
def applySourceHint (snapshot : ProjectSnapshot) (builder : ProfileBuilder κ)
    (hint : String × String) : ProfileBuilder κ :=
  match (sortedByPath (snapshot.filesWithExtension hint.1)).head? with
  | none => builder
  | some (path, _) => builder.pushCandidate .language hint.2
      (.new C path "source" s!"{hint.1} source file without a recognized manifest"
        (C.hundredths 30)) (C.hundredths 30)

def detectSourceFallback (snapshot : ProjectSnapshot) (builder : ProfileBuilder κ) :
    ProfileBuilder κ :=
  if builder.language.value.isSome then builder
  else sourceHints.foldl (applySourceHint C snapshot) builder

/-! ## Plugins -/

/-- The field of a finding, if it is one that evidence competes for. -/
def ProfileField.ofName (name : String) : Option ProfileField :=
  if name = "language" then some .language
  else if name = "framework" then some .framework
  else none

def factName (name : String) : String :=
  if textStartsWith name "fact:" then String.ofList (name.toList.drop 5) else name

/-- A finding for a field: a candidate where there is no value, evidence where it agrees; else it
turns the field into an unknown, if it is at least as confident, or is recorded as a fact. -/
def applyFieldFinding (pluginName : String) (field : ProfileField) (value : String)
    (evidence : Evidence κ) (confidence : κ) (builder : ProfileBuilder κ) : ProfileBuilder κ :=
  let state := builder.get field
  match state.value with
  | none => builder.pushCandidate field value evidence confidence
  | some current =>
      if eqIgnoreAsciiCase current value then builder.pushEvidence evidence
      else if C.ge confidence state.confidence then
        let builder := builder.pushUnknown
          { field := field.canonicalName
            reason := s!"conflicting evidence: '{current}' vs plugin '{pluginName}' " ++
              s!"hypothesis '{value}'; recorded as unknown"
            evidenceConsidered := [evidence.source] }
        (builder.clearValue field).pushEvidence (.new C s!"plugin:{pluginName}" "plugin"
          s!"conflicting hypothesis '{value}' recorded" confidence)
      else builder.pushFact s!"candidate_{field.canonicalName}" value evidence

def applyFinding (pluginName : String) (builder : ProfileBuilder κ) (finding : PluginFinding κ) :
    ProfileBuilder κ :=
  let evidence := { finding.evidence with
    stage := "plugin"
    source := s!"plugin:{pluginName}:{finding.evidence.source}" }
  match ProfileField.ofName finding.field with
  | some field => applyFieldFinding C pluginName field finding.value evidence
      (C.clamp finding.confidence) builder
  | none => builder.pushFact (factName finding.field) finding.value evidence

def applyPlugin (snapshot : ProjectSnapshot) (builder : ProfileBuilder κ)
    (plugin : InspectorPlugin κ) : ProfileBuilder κ :=
  (plugin.detect snapshot).foldl (applyFinding C plugin.name) builder

/-! ## Inspecting -/

/-- What the eight detectors leave, with the conflicts among them settled. -/
def inspectDeterministic (snapshot : ProjectSnapshot) : ProfileBuilder κ :=
  let builder := detectDocker C snapshot (.default C)
  let builder := detectCompose C snapshot builder
  let builder := detectManifests C snapshot builder
  let builder := detectFrameworkConventions C snapshot builder
  let builder := detectDeepFrameworkConventions C snapshot builder
  let builder := detectConfiguration C snapshot builder
  let builder := detectCi C snapshot builder
  let builder := detectSourceFallback C snapshot builder
  builder.finishDeterministic C

/-- `Inspector::inspect`. -/
def inspect (plugins : List (InspectorPlugin κ)) (snapshot : ProjectSnapshot) :
    ApplicationProfile κ :=
  (plugins.foldl (applyPlugin C snapshot) (inspectDeterministic C snapshot)).build

end Labrys.Core
