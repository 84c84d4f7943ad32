import Labrys.Core.ProjectSnapshot
import Labrys.Core.Runtime

/-! # Detecting and planning a runtime

Six adapters look at the files of a project, one after the other, and the first that knows them
names the runtime. `prepare` plans a profile of it. Where the layout tells the framework, its
conventions give the commands. -/

namespace Labrys.Core
open Foundations
set_option autoImplicit false

structure DetectedRuntime where
  kind : RuntimeKind
  tier : SupportTier
  framework : Option String
  prodEntry : Option String
  migrateCommand : List String
  testCommand : List String
  evidence : List String
deriving DecidableEq

/-! ## Framework conventions -/

structure FrameworkConventions where
  framework : String
  migrateCommand : List String
  testCommand : List String
  devCommand : List String
  prodCommand : List String
  healthPath : Option String
  evidence : List String
deriving DecidableEq

namespace FrameworkConventions

def cargoConventions (framework : String) (healthPath : Option String) : FrameworkConventions where
  framework := framework
  migrateCommand := []
  testCommand := ["cargo", "test"]
  devCommand := ["cargo", "run"]
  prodCommand := ["cargo", "build", "--release"]
  healthPath := healthPath
  evidence := []

/-- The table of the deep conventions. A Python framework has some only with an entry point. -/
def lookup (kind : RuntimeKind) (framework prodEntry : String) : Option FrameworkConventions :=
  let entry := String.ofList (trim prodEntry.toList)
  if kind = .python ∧ framework = "django" ∧ entry ≠ "" then
    some
      { framework := "django"
        migrateCommand := ["python", "manage.py", "migrate"]
        testCommand := ["python", "manage.py", "test"]
        devCommand := ["python", "manage.py", "runserver"]
        prodCommand := ["gunicorn", s!"{entry}.wsgi:application"]
        healthPath := none
        evidence := [] }
  else if kind = .python ∧ framework = "fastapi" ∧ entry ≠ "" then
    some
      { framework := "fastapi"
        migrateCommand := []
        testCommand := []
        devCommand := ["python", "-m", "uvicorn", s!"{entry}:app", "--reload"]
        prodCommand := ["python", "-m", "uvicorn", s!"{entry}:app"]
        healthPath := some "/health"
        evidence := [] }
  else if kind = .rust ∧ framework = "axum" then some (cargoConventions "axum" (some "/health"))
  else if kind = .rust ∧ framework = "rust" then some (cargoConventions "rust" none)
  else if kind = .expo ∧ framework = "expo" then
    some
      { framework := "expo"
        migrateCommand := []
        testCommand := []
        devCommand := ["expo", "start"]
        prodCommand := ["expo", "export"]
        healthPath := none
        evidence := [] }
  else none

end FrameworkConventions

namespace DetectedRuntime

/-- A detection of the language alone. -/
def new (kind : RuntimeKind) (tier : SupportTier) (evidence : List String) : DetectedRuntime :=
  ⟨kind, tier, none, none, [], [], evidence⟩

def withFramework (kind : RuntimeKind) (framework : String) (evidence : List String) :
    DetectedRuntime :=
  ⟨kind, .tier3, some framework, none, [], [], evidence⟩

def conventions (detected : DetectedRuntime) : Option FrameworkConventions :=
  detected.framework.bind fun framework =>
    (FrameworkConventions.lookup detected.kind framework (detected.prodEntry.getD "")).map
      fun conventions => { conventions with
        migrateCommand := detected.migrateCommand, testCommand := detected.testCommand }

end DetectedRuntime

/-! ## The adapters -/

structure RuntimeAdapter where
  detect : ProjectSnapshot → Option DetectedRuntime
  devCommand : List String
  prodCommand : List String
  prodOciImage : Option String
  healthPath : Option String

namespace GenericAdapter

def hasFrom (content : String) : Bool :=
  (textLines content).any fun line =>
    textStartsWith (String.ofList (line.toList.dropWhile isWhiteSpace)).toUpper "FROM "

def hasDockerfile (snapshot : ProjectSnapshot) : Bool :=
  (snapshot.filesNamedAnywhere ["Dockerfile", "dockerfile"]).any fun file => hasFrom file.2

/-- The first of the files by its path, whatever is in it. -/
def dockerfilePath (snapshot : ProjectSnapshot) : Option String :=
  (sortedByPath (snapshot.filesNamedAnywhere ["Dockerfile", "dockerfile"])).head?.map Prod.fst

def detect (snapshot : ProjectSnapshot) : Option DetectedRuntime :=
  match dockerfilePath snapshot with
  | none => none
  | some path =>
      if hasDockerfile snapshot = false then none
      else some (.new .generic .tier0 [path])

end GenericAdapter

def genericAdapter : RuntimeAdapter where
  detect := GenericAdapter.detect
  devCommand := ["docker", "build", "."]
  prodCommand := ["docker", "build", "."]
  prodOciImage := some "oci://app:prod"
  healthPath := none

namespace NodeAdapter

def detect (snapshot : ProjectSnapshot) : Option DetectedRuntime :=
  if snapshot.hasFile "package.json" = false then none
  else if (snapshot.filesNamedAnywhere
      ["next.config.js", "next.config.mjs", "next.config.ts"]).isEmpty then
    some (.new .node .tier1 ["package.json"])
  else some (.new .node .tier2 ["package.json", "next.config.*"])

end NodeAdapter

def nodeAdapter : RuntimeAdapter where
  detect := NodeAdapter.detect
  devCommand := ["npm", "run", "dev"]
  prodCommand := ["npm", "run", "build", "&&", "npm", "start"]
  prodOciImage := some "oci://node-app:prod"
  healthPath := some "/"

namespace DotNetAdapter

def hasProject (snapshot : ProjectSnapshot) : Bool :=
  !(snapshot.filesWithExtension ".csproj").isEmpty || !(snapshot.filesWithExtension ".sln").isEmpty

def detect (snapshot : ProjectSnapshot) : Option DetectedRuntime :=
  if hasProject snapshot = false then none
  else if snapshot.hasFile "appsettings.json" ||
      (snapshot.anyContentContainsInsensitive "Microsoft.AspNetCore").isSome then
    some (.new .dotNet .tier2 ["*.csproj", "appsettings.json|Microsoft.AspNetCore"])
  else some (.new .dotNet .tier1 ["*.csproj"])

end DotNetAdapter

def dotNetAdapter : RuntimeAdapter where
  detect := DotNetAdapter.detect
  devCommand := ["dotnet", "watch"]
  prodCommand := ["dotnet", "publish", "-c", "Release"]
  prodOciImage := some "oci://dotnet-app:prod"
  healthPath := some "/healthz"

namespace PythonAdapter

/-- `replace('/', ".")`: the module path of a file path. -/
def dotted (path : List Char) : String :=
  String.ofList (path.map fun c => if c = '/' then '.' else c)

/-- What stands before the last slash. -/
def directory (path : String) : Option (List Char) :=
  if '/' ∈ path.toList then
    some (path.toList.take (path.toList.length - ((fileName path).toList.length + 1)))
  else none

/-- `detect_django`: the settings module gives the package of the WSGI entry. -/
def detectDjango (snapshot : ProjectSnapshot) : Option DetectedRuntime :=
  match (sortedByPath (snapshot.filesNamedAnywhere ["settings.py"])).head? with
  | none => none
  | some (settingsPath, _) =>
      match ((directory settingsPath).map dotted).filter fun package => package ≠ "" with
      | none => none
      | some package =>
          if snapshot.hasDirAnywhere "migrations" = false then none
          else some { DetectedRuntime.withFramework .python "django"
              ["manage.py", settingsPath, "migrations/"] with
            prodEntry := some package
            migrateCommand := ["python", "manage.py", "migrate"]
            testCommand := ["python", "manage.py", "test"] }

/-- The module of an entry file, as uvicorn is told it. -/
def moduleOf (entryPath : String) : String :=
  dotted (if textEndsWith entryPath ".py" then
      entryPath.toList.take (entryPath.toList.length - 3)
    else entryPath.toList)

/-- `detect_fastapi`: an entry that makes an application, and a tool that runs it. -/
def detectFastapi (snapshot : ProjectSnapshot) : Option DetectedRuntime :=
  match (sortedByPath (snapshot.filesNamedAnywhere ["main.py", "app.py"])).find? fun file =>
      containsText file.2 "FastAPI" with
  | none => none
  | some (entryPath, _) =>
      let hasUvicorn := (snapshot.anyContentContainsInsensitive "uvicorn").isSome
      let hasAlembic := snapshot.hasFile "alembic.ini" || snapshot.hasDirAnywhere "alembic"
      let hasPytest := (snapshot.anyContentContainsInsensitive "pytest").isSome ||
        snapshot.hasDirAnywhere "tests"
      if (hasUvicorn || hasAlembic || hasPytest) = false then none
      else some { DetectedRuntime.withFramework .python "fastapi"
          (["requirements.txt|pyproject.toml|setup.py", entryPath] ++
            if hasAlembic then ["alembic.ini|alembic/"] else []) with
        prodEntry := some (moduleOf entryPath)
        migrateCommand := if hasAlembic then ["alembic", "upgrade", "head"] else []
        testCommand := if hasPytest then ["pytest"] else [] }

/-- A detection of the language, where no layout tells the framework. -/
def detectLanguage (snapshot : ProjectSnapshot) : DetectedRuntime :=
  if snapshot.hasFile "manage.py" || (snapshot.anyContentContainsInsensitive "fastapi").isSome ||
      (snapshot.anyContentContainsInsensitive "django").isSome then
    .new .python .tier2 ["requirements.txt|pyproject.toml|setup.py", "manage.py|fastapi|django"]
  else .new .python .tier1 ["requirements.txt|pyproject.toml|setup.py"]

def detect (snapshot : ProjectSnapshot) : Option DetectedRuntime :=
  if (snapshot.hasFile "requirements.txt" || snapshot.hasFile "pyproject.toml" ||
      snapshot.hasFile "setup.py") = false then none
  else
    let django := if snapshot.hasFile "manage.py" then detectDjango snapshot else none
    let fastapi := if (snapshot.anyContentContainsInsensitive "fastapi").isSome then
        detectFastapi snapshot
      else none
    (django.or fastapi).or (some (detectLanguage snapshot))

end PythonAdapter

def pythonAdapter : RuntimeAdapter where
  detect := PythonAdapter.detect
  devCommand := ["python", "-m", "uvicorn", "app:app", "--reload"]
  prodCommand := ["python", "-m", "gunicorn", "app:app"]
  prodOciImage := some "oci://python-app:prod"
  healthPath := some "/healthz"

namespace RustAdapter

def sqlxMigrate : List String := ["sqlx", "migrate", "run"]

def dieselMigrate : List String := ["diesel", "migration", "run"]

/-- Axum: the dependency, a binary and a tool for migrations. -/
def detectAxum (snapshot : ProjectSnapshot) (manifest : String) : Option DetectedRuntime :=
  let sqlx := containsText manifest "sqlx"
  let diesel := containsText manifest "diesel"
  if containsText manifest "axum" && snapshot.hasFile "src/main.rs" &&
      (sqlx || diesel || snapshot.hasDirAnywhere "migrations" ||
        snapshot.hasFile "diesel.toml") then
    let base := ["Cargo.toml:axum", "src/main.rs"]
    let tool : List String × String :=
      if sqlx then (sqlxMigrate, "Cargo.toml:sqlx")
      else if diesel || snapshot.hasFile "diesel.toml" then
        (dieselMigrate, "Cargo.toml:diesel|diesel.toml")
      else ([], "migrations/")
    some { DetectedRuntime.withFramework .rust "axum" (base ++ [tool.2]) with
      migrateCommand := tool.1
      testCommand := ["cargo", "test"] }
  else none

/-- A workspace with a tool for migrations and a place for them. -/
def detectWorkspace (snapshot : ProjectSnapshot) (manifest : String) : Option DetectedRuntime :=
  if containsText manifest "[workspace]" &&
      (containsText manifest "sqlx" || containsText manifest "diesel") &&
      snapshot.hasDirAnywhere "migrations" then
    some { DetectedRuntime.withFramework .rust "rust" ["Cargo.toml:[workspace]", "migrations/"] with
      migrateCommand := if containsText manifest "diesel" then dieselMigrate else sqlxMigrate
      testCommand := ["cargo", "test"] }
  else none

def detectLanguage (manifest : String) : DetectedRuntime :=
  if containsText manifest "axum" || containsText manifest "actix-web" ||
      containsText manifest "rocket" then
    .new .rust .tier2 ["Cargo.toml", "Cargo.toml:axum|actix-web|rocket"]
  else .new .rust .tier1 ["Cargo.toml"]

def detect (snapshot : ProjectSnapshot) : Option DetectedRuntime :=
  match snapshot.get "Cargo.toml" with
  | none => none
  | some manifest =>
      ((detectAxum snapshot manifest).or (detectWorkspace snapshot manifest)).or
        (some (detectLanguage manifest))

end RustAdapter

def rustAdapter : RuntimeAdapter where
  detect := RustAdapter.detect
  devCommand := ["cargo", "run"]
  prodCommand := ["cargo", "build", "--release"]
  prodOciImage := some "oci://rust-app:prod"
  healthPath := some "/healthz"

namespace ExpoAdapter

def detect (snapshot : ProjectSnapshot) : Option DetectedRuntime :=
  match snapshot.get "package.json" with
  | none => none
  | some package =>
      if !containsText package "expo" || !snapshot.hasFile "app.json" then none
      else
        let routed := snapshot.hasDirAnywhere "app"
        let built := snapshot.hasFile "eas.json"
        if routed || built then
          some { DetectedRuntime.withFramework .expo "expo"
              (["package.json:expo", "app.json"] ++ (if routed then ["app/"] else []) ++
                if built then ["eas.json"] else []) with
            testCommand := if containsText package "jest" then ["jest"] else [] }
        else some (.new .expo .tier1 ["package.json:expo", "app.json"])

end ExpoAdapter

def expoAdapter : RuntimeAdapter where
  detect := ExpoAdapter.detect
  devCommand := ["expo", "start"]
  prodCommand := ["expo", "export"]
  prodOciImage := none
  healthPath := none

/-- `detect_runtime`: the native adapters before the container. -/
def detectRuntime (snapshot : ProjectSnapshot) : Except CoreError DetectedRuntime :=
  match [expoAdapter, nodeAdapter, dotNetAdapter, pythonAdapter, rustAdapter,
      genericAdapter].findSome? fun adapter => adapter.detect snapshot with
  | some found => .ok found
  | none => .error (.unsupportedRuntime "no recognized manifest or Dockerfile; runtime unsupported")

/-! ## Planning -/

/-- What the kind of a runtime decides of its plan, before the profile does. -/
structure RuntimePlanBase where
  runCommand : List String
  ociImage : Option String
  healthPath : Option String
  tier : SupportTier

def planBase (detected : DetectedRuntime) : RuntimePlanBase :=
  let conventions := detected.conventions
  let developed (adapter : RuntimeAdapter) : List String :=
    (conventions.map FrameworkConventions.devCommand).getD adapter.devCommand
  match detected.kind with
  | .generic => ⟨genericAdapter.devCommand, genericAdapter.prodOciImage, none, .tier0⟩
  | .node => ⟨nodeAdapter.devCommand, nodeAdapter.prodOciImage, nodeAdapter.healthPath,
      detected.tier⟩
  | .dotNet => ⟨dotNetAdapter.devCommand, dotNetAdapter.prodOciImage, dotNetAdapter.healthPath,
      detected.tier⟩
  | .python => ⟨developed pythonAdapter, pythonAdapter.prodOciImage,
      -- Django has no health endpoint of its own.
      (conventions.bind FrameworkConventions.healthPath).or
        (if detected.framework = some "django" then none else pythonAdapter.healthPath),
      detected.tier⟩
  | .rust => ⟨developed rustAdapter, rustAdapter.prodOciImage,
      (conventions.bind FrameworkConventions.healthPath).or rustAdapter.healthPath, detected.tier⟩
  | .expo => ⟨developed expoAdapter, none, expoAdapter.healthPath, detected.tier⟩

def productionCommand (detected : DetectedRuntime) : List String :=
  let produced (adapter : RuntimeAdapter) : List String :=
    (detected.conventions.map FrameworkConventions.prodCommand).getD adapter.prodCommand
  match detected.kind with
  | .generic => genericAdapter.prodCommand
  | .node => nodeAdapter.prodCommand
  | .dotNet => dotNetAdapter.prodCommand
  | .python => produced pythonAdapter
  | .rust => produced rustAdapter
  | .expo => produced expoAdapter

def prepare (detected : DetectedRuntime) (profile : RuntimeProfile) (port : UInt16)
    (healthcheckPath dockerfile : Option String) (limits : SandboxLimits) :
    Except CoreError RuntimePlan :=
  if port = 0 then .error (.invalidRuntime "port must be in 1..=65535")
  else do
    limits.validate
    let base := planBase detected
    return {
      kind := detected.kind
      tier := base.tier
      profile := profile
      port := port
      healthcheckPath := healthcheckPath.or base.healthPath
      dockerfile := dockerfile.or
        (if detected.kind = .generic then detected.evidence.head? else none)
      runCommand := match profile with
        | .development => base.runCommand
        | .production => productionCommand detected
      ociImage := match profile with
        | .development => none
        | .production => base.ociImage
      limits := limits }

end Labrys.Core
