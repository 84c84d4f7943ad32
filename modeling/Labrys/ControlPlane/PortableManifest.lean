import Labrys.ControlPlane.ApplicationStates
import Labrys.Core.RuntimeNotes
import Labrys.Foundations.Runs
import Labrys.Foundations.Selection

/-! # Portable manifests

An application is exported to a manifest and imported from one. The import starts from an
application with its two default environments and adds those of the manifest whose name it does not
have yet. The YAML codec is a parameter (`ManifestYaml`).

* `Portable.Application`: the aggregate, with its environments as the core crate has them.
* `Exported`: what a manifest tells of an application.
* `foldl_importEnvironment`: the environments that an import adds.
* `import_export`: what comes back of an application, after any run of its operations. -/

namespace Labrys.ControlPlane.Portable
open Foundations Labrys.Core
set_option autoImplicit false

/-! ## Applications -/

inductive EnvironmentKind
  | development
  | preview (name : String)
  | production
deriving DecidableEq

structure Environment where
  id : EnvironmentId
  applicationId : ApplicationId
  kind : EnvironmentKind
  name : String
deriving DecidableEq

namespace Environment

def new (id : EnvironmentId) (applicationId : ApplicationId) (kind : EnvironmentKind)
    (name : String) : Environment :=
  ⟨id, applicationId, kind, name⟩

def development (id : EnvironmentId) (applicationId : ApplicationId) : Environment :=
  new id applicationId .development "development"

def production (id : EnvironmentId) (applicationId : ApplicationId) : Environment :=
  new id applicationId .production "production"

def preview (id : EnvironmentId) (applicationId : ApplicationId) (name : String) : Environment :=
  new id applicationId (.preview name) name

/-- What a manifest tells of an environment. -/
def pair (environment : Environment) : String × EnvironmentKind :=
  (environment.name, environment.kind)

end Environment

def DesiredState.initial : DesiredState := ⟨1, [], .null⟩

def ObservedState.unknown (desiredVersion : ℕ) (now : DateTime) : ObservedState :=
  ⟨desiredVersion, .unknown, now, none⟩

structure Application where
  id : ApplicationId
  name : String
  origin : Origin
  status : ApplicationStatus
  createdAt : DateTime
  updatedAt : DateTime
  createdBy : String
  updatedBy : Option String
  environments : List Environment
  desiredState : DesiredState
  observedState : ObservedState
deriving DecidableEq

/-- What a creation draws: the identifiers of the application and of its environments, by their
places, and the time. -/
structure Draws where
  id : ApplicationId
  environmentId : ℕ → EnvironmentId
  now : DateTime

namespace Application

def new (draws : Draws) (name : String) (origin : Origin) (createdBy : String) : Application where
  id := draws.id
  name := name
  origin := origin
  status := .draft
  createdAt := draws.now
  updatedAt := draws.now
  createdBy := createdBy
  updatedBy := none
  environments := [.development (draws.environmentId 0) draws.id,
    .production (draws.environmentId 1) draws.id]
  desiredState := DesiredState.initial
  observedState := ObservedState.unknown DesiredState.initial.version draws.now

variable (app : Application)

def updateDesiredState (next : DesiredState) (updatedBy : String) (now : DateTime) : Application :=
  { app with desiredState := next, updatedAt := now, updatedBy := some updatedBy }

def addPreviewEnvironment (id : EnvironmentId) (name : String) (now : DateTime) : Application :=
  { app with
    environments := app.environments ++ [.preview id app.id name]
    updatedAt := now }

def environmentByName (name : String) : Option Environment :=
  app.environments.find? fun environment => decide (environment.name = name)

def names : List String := app.environments.map Environment.name

def pairs : List (String × EnvironmentKind) := app.environments.map Environment.pair

end Application

/-- The operations on an application that is at hand. -/
inductive ApplicationOp
  | addPreviewEnvironment (id : EnvironmentId) (name : String) (now : DateTime)
  | updateDesiredState (next : DesiredState) (updatedBy : String) (now : DateTime)

def portableMachine : Machine Application ApplicationOp Unit where
  step app op := match op with
    | .addPreviewEnvironment id name now => (app.addPreviewEnvironment id name now, ())
    | .updateDesiredState next updatedBy now => (app.updateDesiredState next updatedBy now, ())

/-! ## Manifests -/

structure ManifestEnvironment where
  name : String
  kind : String
deriving DecidableEq

structure Manifest where
  manifestVersion : ℕ
  name : String
  origin : Origin
  environments : List ManifestEnvironment
  desiredState : Option DesiredState
  runtimeNotes : Option RuntimeNotes
deriving DecidableEq

def manifestVersion : ℕ := 1

def EnvironmentKind.manifestName : EnvironmentKind → String
  | development => "development"
  | preview _ => "preview"
  | production => "production"

/-- What the kind of an entry is read as: a preview is told apart by the name of the entry. -/
def ManifestEnvironment.environmentKind (entry : ManifestEnvironment) : EnvironmentKind :=
  if entry.kind = "production" then .production
  else if entry.kind = "preview" then .preview entry.name
  else .development

namespace Manifest

def fromApplication (app : Application) : Manifest where
  manifestVersion := Portable.manifestVersion
  name := app.name
  origin := app.origin
  environments := app.environments.map fun environment =>
    ⟨environment.name, environment.kind.manifestName⟩
  desiredState := some app.desiredState
  runtimeNotes := none

/-- An entry of a name that the application does not have becomes an environment. -/
def importEnvironment (draws : Draws) (app : Application) (entry : ManifestEnvironment) :
    Application :=
  if (app.environmentByName entry.name).isNone then
    { app with environments := app.environments ++
        [.new (draws.environmentId app.environments.length) app.id entry.environmentKind
          entry.name] }
  else app

/-- Without a manifest the application is a new one of the fallback's name. -/
def importApplication (manifest : Option Manifest) (draws : Draws) (fallbackName : String)
    (fallbackOrigin : Origin) (createdBy : String) : Application :=
  match manifest with
  | none => .new draws fallbackName fallbackOrigin createdBy
  | some manifest =>
      let app := Application.new draws manifest.name manifest.origin createdBy
      let app := match manifest.desiredState with
        | none => app
        | some desired =>
            { app with
              desiredState := desired
              observedState := ObservedState.unknown desired.version draws.now }
      manifest.environments.foldl (importEnvironment draws) app

end Manifest

def Manifest.checked (manifest : Manifest) : Except CoreError Manifest :=
  if manifest.manifestVersion ≠ Portable.manifestVersion then
    .error (.unsupportedVersion manifest.manifestVersion Portable.manifestVersion)
  else if trim manifest.name.toList = [] then
    .error (.invalidManifest "manifest name must not be empty")
  else .ok manifest

/-- The YAML text of a manifest, and what is read of a text. -/
structure ManifestYaml where
  toYaml : Manifest → Except CoreError String
  parse : String → Except CoreError Manifest

namespace ManifestYaml
variable (yaml : ManifestYaml)

/-- The version and the name are checked, and the schema with the parsing. -/
def fromYaml (text : String) : Except CoreError Manifest := do
  let manifest ← yaml.parse text
  manifest.checked

def exportManifestYaml (app : Application) : Except CoreError String :=
  yaml.toYaml (.fromApplication app)

def importManifestYaml (text : Option String) (draws : Draws) (fallbackName : String)
    (fallbackOrigin : Origin) (createdBy : String) : Except CoreError Application :=
  match text with
  | none => .ok (Manifest.importApplication none draws fallbackName fallbackOrigin createdBy)
  | some text => do
      let manifest ← yaml.fromYaml text
      return Manifest.importApplication (some manifest) draws fallbackName fallbackOrigin createdBy

end ManifestYaml

/-! ## The environments of an application -/

/-- After the two default environments come previews, each of its own name as a kind. -/
def Defaulted (app : Application) : Prop :=
  ∃ previews : List String, app.pairs =
    ("development", .development) :: ("production", .production) ::
      previews.map fun name => (name, .preview name)

theorem defaulted_new (draws : Draws) (name : String) (origin : Origin) (createdBy : String) :
    Defaulted (.new draws name origin createdBy) :=
  ⟨[], rfl⟩

theorem Defaulted.next {app : Application} (h : Defaulted app) (op : ApplicationOp) :
    Defaulted (portableMachine.next app op) := by
  obtain ⟨previews, hpairs⟩ := h
  cases op with
  | addPreviewEnvironment id name now =>
    refine ⟨previews ++ [name], ?_⟩
    have hadded : (portableMachine.next app (.addPreviewEnvironment id name now)).pairs =
        app.pairs ++ [(name, .preview name)] := List.map_append
    rw [hadded, hpairs, List.map_append]
    rfl
  | updateDesiredState next updatedBy now => exact ⟨previews, hpairs⟩

theorem Application.names_eq (app : Application) : app.names = app.pairs.map Prod.fst := by
  unfold names pairs
  rw [List.map_map]
  rfl

theorem Application.isNone_environmentByName_iff (app : Application) (name : String) :
    (app.environmentByName name).isNone = true ↔ name ∉ app.names := by
  unfold environmentByName names
  rw [Option.isNone_iff_eq_none, List.find?_eq_none, List.mem_map]
  simp

/-! ## Importing the environments -/

/-- An entry as the environment that it becomes. -/
def ManifestEnvironment.pair (entry : ManifestEnvironment) : String × EnvironmentKind :=
  (entry.name, entry.environmentKind)

theorem pairs_importEnvironment (draws : Draws) (app : Application) (entry : ManifestEnvironment) :
    (Manifest.importEnvironment draws app entry).pairs =
      if entry.name ∈ app.names then app.pairs else app.pairs ++ [entry.pair] := by
  unfold Manifest.importEnvironment
  by_cases hknown : entry.name ∈ app.names
  · have hfound : ¬ (app.environmentByName entry.name).isNone = true := fun h =>
      (app.isNone_environmentByName_iff entry.name).mp h hknown
    rw [if_neg hfound, if_pos hknown]
  · have hnone := (app.isNone_environmentByName_iff entry.name).mpr hknown
    rw [if_pos hnone, if_neg hknown]
    exact List.map_append

/-- The import of a list of entries adds those of the names that are not there yet. -/
theorem pairs_foldl_importEnvironment (draws : Draws) (entries : List ManifestEnvironment)
    (app : Application) :
    (entries.foldl (Manifest.importEnvironment draws) app).pairs =
      app.pairs ++ firstByKey Prod.fst app.names (entries.map ManifestEnvironment.pair) := by
  have hpairs : (entries.foldl (Manifest.importEnvironment draws) app).pairs =
      entries.foldl (fun pairs entry => if entry.name ∈ pairs.map Prod.fst then pairs
        else pairs ++ [entry.pair]) app.pairs := by
    refine (List.foldl_hom Application.pairs fun app entry => ?_).symm
    rw [pairs_importEnvironment, app.names_eq]
  rw [hpairs, firstByKey_map, app.names_eq]
  have hname (entry : ManifestEnvironment) : entry.pair.1 = entry.name := rfl
  refine foldl_addNew (fun pairs entry => ?_) (fun pairs entry => ?_) entries app.pairs
  · exact List.map_append
  · simp only [hname]

/-- The entries of an exported application are read as its environments. -/
theorem Defaulted.pairs_entries {app : Application} (h : Defaulted app) :
    (Manifest.fromApplication app).environments.map ManifestEnvironment.pair = app.pairs := by
  obtain ⟨previews, hpairs⟩ := h
  have hread : ∀ pair ∈ app.pairs,
      ManifestEnvironment.pair ⟨pair.1, pair.2.manifestName⟩ = pair := by
    intro pair hmem
    rw [hpairs] at hmem
    simp only [List.mem_cons, List.mem_map] at hmem
    obtain rfl | rfl | ⟨name, -, rfl⟩ := hmem
    · rfl
    · rfl
    · rfl
  have hentries : (Manifest.fromApplication app).environments.map ManifestEnvironment.pair =
      app.pairs.map fun pair => ManifestEnvironment.pair ⟨pair.1, pair.2.manifestName⟩ := by
    unfold Manifest.fromApplication Application.pairs
    rw [List.map_map, List.map_map]
    rfl
  rw [hentries, List.map_congr_left hread, List.map_id']

/-- The default environments are known from the start, and so an import leaves the first environment
of each name. -/
theorem Defaulted.pairs_importApplication {app : Application} (h : Defaulted app) (draws : Draws)
    (fallbackName : String) (fallbackOrigin : Origin) (createdBy : String) :
    (Manifest.importApplication (some (.fromApplication app)) draws fallbackName fallbackOrigin
      createdBy).pairs = firstByKey Prod.fst [] app.pairs := by
  have himported : (Manifest.importApplication (some (.fromApplication app)) draws fallbackName
      fallbackOrigin createdBy).pairs =
        [("development", .development), ("production", .production)] ++
          firstByKey Prod.fst ["development", "production"]
            ((Manifest.fromApplication app).environments.map ManifestEnvironment.pair) :=
    pairs_foldl_importEnvironment draws _ _
  rw [himported, h.pairs_entries]
  obtain ⟨previews, hpairs⟩ := h
  rw [hpairs]
  simp [firstByKey]

theorem fields_foldl_importEnvironment (draws : Draws) (entries : List ManifestEnvironment)
    (app : Application) :
    (entries.foldl (Manifest.importEnvironment draws) app).name = app.name ∧
      (entries.foldl (Manifest.importEnvironment draws) app).origin = app.origin ∧
      (entries.foldl (Manifest.importEnvironment draws) app).desiredState = app.desiredState := by
  induction entries generalizing app with
  | nil => exact ⟨rfl, rfl, rfl⟩
  | cons entry entries ih =>
    have hentry : (Manifest.importEnvironment draws app entry).name = app.name ∧
        (Manifest.importEnvironment draws app entry).origin = app.origin ∧
        (Manifest.importEnvironment draws app entry).desiredState = app.desiredState := by
      unfold Manifest.importEnvironment
      split_ifs
      · exact ⟨rfl, rfl, rfl⟩
      · exact ⟨rfl, rfl, rfl⟩
    obtain ⟨hname, horigin, hdesired⟩ := ih (Manifest.importEnvironment draws app entry)
    exact ⟨hname.trans hentry.1, horigin.trans hentry.2.1, hdesired.trans hentry.2.2⟩

/-! ## Export and import -/

/-- An application after some run of its operations. -/
def Reachable (app : Application) : Prop :=
  ∃ (draws : Draws) (name : String) (origin : Origin) (createdBy : String)
    (ops : List ApplicationOp),
    app = portableMachine.run (.new draws name origin createdBy) ops

theorem Reachable.defaulted {app : Application} (h : Reachable app) : Defaulted app := by
  obtain ⟨draws, name, origin, createdBy, ops, rfl⟩ := h
  exact portableMachine.run_invariant_all (P := Defaulted) (fun _ op h => h.next op) _ ops
    (defaulted_new draws name origin createdBy)

/-- What an import restores: all of the application, and of several environments of a name the
first. -/
structure Restored (app imported : Application) : Prop where
  name : imported.name = app.name
  origin : imported.origin = app.origin
  desiredState : imported.desiredState = app.desiredState
  environments : imported.pairs = firstByKey Prod.fst [] app.pairs
  allEnvironments : imported.pairs = app.pairs ↔ app.names.Nodup

theorem Defaulted.restored {app : Application} (h : Defaulted app) (draws : Draws)
    (fallbackName : String) (fallbackOrigin : Origin) (createdBy : String) :
    Restored app (Manifest.importApplication (some (.fromApplication app)) draws fallbackName
      fallbackOrigin createdBy) := by
  have hpairs := h.pairs_importApplication draws fallbackName fallbackOrigin createdBy
  obtain ⟨hname, horigin, hdesired⟩ := fields_foldl_importEnvironment draws
    (Manifest.fromApplication app).environments
    { Application.new draws app.name app.origin createdBy with
      desiredState := app.desiredState
      observedState := ObservedState.unknown app.desiredState.version draws.now }
  refine ⟨hname, horigin, hdesired, hpairs, ?_⟩
  rw [hpairs, firstByKey_eq_self_iff, app.names_eq]
  simp

/-- The codec has a text for the manifest and reads it as the manifest. -/
def ManifestYaml.RoundTrips (yaml : ManifestYaml) (manifest : Manifest) : Prop :=
  ∃ text, yaml.toYaml manifest = .ok text ∧ yaml.parse text = .ok manifest

theorem ManifestYaml.fromYaml_of_parse {yaml : ManifestYaml} {text : String} {app : Application}
    (h : yaml.parse text = .ok (.fromApplication app)) :
    yaml.fromYaml text =
      if trim app.name.toList = [] then .error (.invalidManifest "manifest name must not be empty")
      else .ok (.fromApplication app) := by
  have hchecked : yaml.fromYaml text = (Manifest.fromApplication app).checked := by
    unfold ManifestYaml.fromYaml
    rw [h]
    rfl
  have hversion : (Manifest.fromApplication app).manifestVersion = Portable.manifestVersion := rfl
  rw [hchecked, Manifest.checked, if_neg (not_not.mpr hversion)]
  rfl

section Import
variable {yaml : ManifestYaml} {text : String} {app : Application}
  (h : yaml.parse text = .ok (.fromApplication app)) (draws : Draws) (fallbackName : String)
  (fallbackOrigin : Origin) (createdBy : String)
include h

theorem ManifestYaml.importManifestYaml_of_blank (hblank : trim app.name.toList = []) :
    yaml.importManifestYaml (some text) draws fallbackName fallbackOrigin createdBy =
      .error (.invalidManifest "manifest name must not be empty") := by
  have hread := ManifestYaml.fromYaml_of_parse h
  rw [if_pos hblank] at hread
  unfold ManifestYaml.importManifestYaml
  simp only [hread]
  rfl

theorem ManifestYaml.importManifestYaml_of_named (hnamed : trim app.name.toList ≠ []) :
    yaml.importManifestYaml (some text) draws fallbackName fallbackOrigin createdBy =
      .ok (Manifest.importApplication (some (.fromApplication app)) draws fallbackName
        fallbackOrigin createdBy) := by
  have hread := ManifestYaml.fromYaml_of_parse h
  rw [if_neg hnamed] at hread
  unfold ManifestYaml.importManifestYaml
  simp only [hread]
  rfl

end Import

/-- A manifest brings its application back, unless the name of that is blank; of environments that
share a name, the first comes back. -/
theorem import_export {yaml : ManifestYaml} {app : Application} (happ : Reachable app)
    (hyaml : yaml.RoundTrips (.fromApplication app)) (draws : Draws) (fallbackName : String)
    (fallbackOrigin : Origin) (createdBy : String) :
    ∃ text, yaml.exportManifestYaml app = .ok text ∧
      ((trim app.name.toList = [] ∧
          yaml.importManifestYaml (some text) draws fallbackName fallbackOrigin createdBy =
            .error (.invalidManifest "manifest name must not be empty")) ∨
        (trim app.name.toList ≠ [] ∧ ∃ imported,
          yaml.importManifestYaml (some text) draws fallbackName fallbackOrigin createdBy =
            .ok imported ∧ Restored app imported)) := by
  obtain ⟨text, htext, hparse⟩ := hyaml
  refine ⟨text, htext, ?_⟩
  by_cases hblank : trim app.name.toList = []
  · exact .inl ⟨hblank, ManifestYaml.importManifestYaml_of_blank hparse draws fallbackName
      fallbackOrigin createdBy hblank⟩
  · have himported := ManifestYaml.importManifestYaml_of_named hparse draws fallbackName
      fallbackOrigin createdBy hblank
    have hrestored := happ.defaulted.restored draws fallbackName fallbackOrigin createdBy
    exact .inr ⟨hblank, _, himported, hrestored⟩

/-! ### A shop with a preview -/

def shopDraws : Draws := ⟨⟨1⟩, fun place => ⟨BitVec.ofNat 128 (place + 1)⟩, 0⟩

def newShop : Application := .new shopDraws "shop" (.importedLocal ".") "human"

/-- The shop with a preview of the name. -/
def shop (preview : String) : Application :=
  portableMachine.run newShop [.addPreviewEnvironment ⟨3⟩ preview 1]

theorem reachable_shop (preview : String) : Reachable (shop preview) :=
  ⟨shopDraws, "shop", .importedLocal ".", "human", _, rfl⟩

def shopText (preview : String) : String :=
  "manifest_version: 1\nname: shop\norigin:\n  type: imported_local\n  path: .\n" ++
    "environments:\n- name: development\n  kind: development\n- name: production\n" ++
    s!"  kind: production\n- name: {preview}\n  kind: preview\n" ++
    "desired_state:\n  version: 1\n  profiles: \x7b\x7d\n  config: null\n"

/-- YAML, as far as the manifest of that shop goes. -/
def shopYaml (preview : String) : ManifestYaml where
  toYaml := fun manifest =>
    if manifest = .fromApplication (shop preview) then .ok (shopText preview)
    else .error (.serialization "another manifest")
  parse := fun text =>
    if text = shopText preview then .ok (.fromApplication (shop preview))
    else .error (.serialization "another text")

theorem toYaml_shopYaml (preview : String) :
    (shopYaml preview).toYaml (.fromApplication (shop preview)) = .ok (shopText preview) := by
  simp [shopYaml]

theorem parse_shopYaml (preview : String) :
    (shopYaml preview).parse (shopText preview) = .ok (.fromApplication (shop preview)) := by
  simp [shopYaml]

theorem roundTrips_shopYaml (preview : String) :
    (shopYaml preview).RoundTrips (.fromApplication (shop preview)) :=
  ⟨shopText preview, toYaml_shopYaml preview, parse_shopYaml preview⟩

/-- All three environments come back. -/
theorem import_export_shop :
    ∃ text imported, (shopYaml "pr-42").exportManifestYaml (shop "pr-42") = .ok text ∧
      (shopYaml "pr-42").importManifestYaml (some text) shopDraws "web" (.importedLocal "..")
        "human" = .ok imported ∧ imported.pairs = (shop "pr-42").pairs := by
  obtain ⟨text, htext, ⟨hblank, -⟩ | ⟨-, imported, himported, hrestored⟩⟩ :=
    import_export (reachable_shop "pr-42") (roundTrips_shopYaml "pr-42") shopDraws "web"
      (.importedLocal "..") "human"
  · exact absurd hblank (by decide)
  · exact ⟨text, imported, htext, himported, hrestored.allEnvironments.mpr (by decide)⟩

/-- A preview that is called `production` does not come back. -/
theorem preview_lost :
    Reachable (shop "production") ∧
      (shopYaml "production").RoundTrips (.fromApplication (shop "production")) ∧
      ∃ text imported, (shopYaml "production").exportManifestYaml (shop "production") = .ok text ∧
        (shopYaml "production").importManifestYaml (some text) shopDraws "web"
          (.importedLocal "..") "human" = .ok imported ∧
        imported.pairs ≠ (shop "production").pairs := by
  have himported := ManifestYaml.importManifestYaml_of_named (parse_shopYaml "production")
    shopDraws "web" (.importedLocal "..") "human" (by decide)
  exact ⟨reachable_shop "production", roundTrips_shopYaml "production", _, _,
    toYaml_shopYaml "production", himported, by decide⟩

end Labrys.ControlPlane.Portable
