import Labrys.Core.Controllers
import Labrys.Core.Observability
import Labrys.Core.Verifier
import Labrys.Foundations.Json
import Labrys.Foundations.Runs
import Std.Data.TreeMap.Lemmas

/-! # The CLI over platform state

`Cli::execute` runs one request: the permission boundary, the idempotency key, the targets, and then
the command itself. Responses are kept under their key and replayed. The texts of an instant and of
a quoted string (`to_rfc3339`, `{:?}`) belong to other crates and are parameters. -/

namespace Labrys.Core
open Foundations
set_option autoImplicit false

inductive CliCommand
  | init | «import» | inspect | dev | agent | preview | capability | resources | build | deploy
  | deployments | logs | health | rollback | doctor
deriving DecidableEq

namespace CliCommand

def canonicalName : CliCommand → String
  | init => "init"
  | «import» => "import"
  | inspect => "inspect"
  | dev => "dev"
  | agent => "agent"
  | preview => "preview"
  | capability => "capability"
  | resources => "resources"
  | build => "build"
  | deploy => "deploy"
  | deployments => "deployments"
  | logs => "logs"
  | health => "health"
  | rollback => "rollback"
  | doctor => "doctor"

def isMutating : CliCommand → Bool
  | init | «import» | build | deploy | rollback | capability | preview | agent => true
  | _ => false

def requiresEnvironment : CliCommand → Bool
  | deploy | rollback | health | preview => true
  | _ => false

def requiresApplication : CliCommand → Bool
  | init | «import» => false
  | _ => true

end CliCommand

inductive CliActor
  | human (name : String)
  | agent (sessionId name : String)
  | platform (name : String)
deriving DecidableEq

inductive ActorKind
  | human | agent | platform
deriving DecidableEq

namespace CliActor

def kind : CliActor → ActorKind
  | human _ => .human
  | agent .. => .agent
  | platform _ => .platform

def kindLabel : CliActor → String
  | human _ => "human"
  | agent .. => "agent"
  | platform _ => "platform"

def isHuman : CliActor → Bool
  | human _ => true
  | _ => false

end CliActor

inductive Severity
  | info | warning | error
deriving DecidableEq

def Severity.lowercase : Severity → String
  | info => "info"
  | warning => "warning"
  | error => "error"

structure Finding where
  code : String
  severity : Severity
  message : String
  recovery : Option String
  resource : Option EventResource
deriving DecidableEq

namespace Finding

def info (code message : String) : Finding := ⟨code, .info, message, none, none⟩

def warning (code message : String) : Finding := ⟨code, .warning, message, none, none⟩

def error (code message : String) : Finding := ⟨code, .error, message, none, none⟩

def withRecovery (finding : Finding) (recovery : String) : Finding :=
  { finding with recovery := some recovery }

def toJsonValue (finding : Finding) : Json :=
  .object [("code", .string finding.code), ("severity", .string finding.severity.lowercase),
    ("message", .string finding.message), ("recovery", .ofOption .string finding.recovery),
    ("resource", .ofOption (fun resource => .object
      [("kind", .string resource.kind), ("id", .string resource.id)]) finding.resource)]

end Finding

structure CliRequest where
  command : CliCommand
  actor : CliActor
  applicationId : Option ApplicationId
  environment : Option String
  arguments : Std.TreeMap String String
  idempotencyKey : Option String
  approval : Option ExplicitApproval

structure CliResponse where
  command : String
  ok : Bool
  replayed : Bool
  applicationId : Option ApplicationId
  environment : Option String
  findings : List Finding
  data : Option Json
  idempotencyKey : Option String
  time : DateTime

/-! ## What the CLI reads -/

def HealthState.debug : HealthState → String
  | unknown => "Unknown"
  | provisioning => "Provisioning"
  | healthy => "Healthy"
  | degraded => "Degraded"
  | failed => "Failed"
  | paused => "Paused"

structure HealthSnapshot where
  target : String
  state : HealthState
  observedAt : DateTime
  ttl : Duration
  detail : Option String

namespace HealthSnapshot

def isStale (snapshot : HealthSnapshot) (now : DateTime) : Bool :=
  decide (now - snapshot.observedAt > snapshot.ttl)

/-- The state a consumer may act on: stale evidence is unknown. -/
def effectiveState (snapshot : HealthSnapshot) (now : DateTime) : HealthState :=
  if snapshot.isStale now then .unknown else snapshot.state

end HealthSnapshot

inductive PluginFamily
  | agentProvider | capabilityProvider | bindingProvider | runtimeProvider | inspectorProvider
  | deployProvider
deriving DecidableEq

def PluginFamily.canonicalName : PluginFamily → String
  | agentProvider => "agent_provider"
  | capabilityProvider => "capability_provider"
  | bindingProvider => "binding_provider"
  | runtimeProvider => "runtime_provider"
  | inspectorProvider => "inspector_provider"
  | deployProvider => "deploy_provider"

inductive PluginState
  | active | refused | unavailable | stopped
deriving DecidableEq

def PluginState.debug : PluginState → String
  | active => "Active"
  | refused => "Refused"
  | unavailable => "Unavailable"
  | stopped => "Stopped"

/-- What `doctor` and the dashboard read of a plugin's report. -/
structure PluginReport where
  id : String
  name : String
  family : PluginFamily
  state : PluginState
  detail : String

def LogSource.canonicalName : LogSource → String
  | agent => "agent"
  | build => "build"
  | runtime => "runtime"
  | deployment => "deployment"
  | capability => "capability"
  | resource => "resource"

def LogSource.all : List LogSource := [agent, build, runtime, deployment, capability, resource]

def LogLevel.debug : LogLevel → String
  | info => "Info"
  | warn => "Warn"
  | error => "Error"

def VerificationEvidence.toEventDetail (evidence : VerificationEvidence) : String :=
  s!"evidence {evidence.id} [{evidence.stage.canonicalName}] " ++
    (if evidence.passed then "PASS" else "FAIL") ++ s!" {evidence.check}: {evidence.summary}"

/-- `PlatformState`, with the plugins as their registry reports them. -/
structure PlatformState where
  applications : List ApplicationId
  environments : Std.TreeMap ApplicationId (List String)
  capabilities : Std.TreeMap ApplicationId (List String)
  resources : Std.TreeMap ApplicationId (List String)
  deployments : Std.TreeMap ApplicationId (List String)
  health : Std.TreeMap ApplicationId HealthSnapshot
  logs : LogStore
  events : EventLog
  audit : AuditLog
  plugins : List PluginReport
  evidence : Option (List VerificationEvidence)

namespace PlatformState

def new : PlatformState := ⟨[], ∅, ∅, ∅, ∅, ∅, .new, .new, .new, [], none⟩

def addApplication (state : PlatformState) (id : ApplicationId) (environments : List String) :
    PlatformState :=
  { state with
    applications := if id ∈ state.applications then state.applications
      else state.applications ++ [id]
    environments := state.environments.insert id environments }

def knows (state : PlatformState) (id : ApplicationId) : Bool := decide (id ∈ state.applications)

end PlatformState

/-- The texts that belong to other crates. -/
structure Formats where
  rfc3339 : DateTime → String
  quoted : String → String

/-! ## The command arms -/

/-- What an arm comes to; a finding that ends the request early is the error. -/
structure Performed where
  ok : Bool
  data : Option Json
  findings : List Finding

abbrev Arm := PlatformState → Outcome Finding (PlatformState × Performed)

/-- `expect("validated above")`. -/
def expected {α : Type} : Option α → Outcome Finding α
  | some a => .ok a
  | none => .error (.panic "validated above")

namespace Cli
variable (formats : Formats) (secrets : List String)

def audited (state : PlatformState) (now : DateTime) (actor action target detail : String) :
    PlatformState :=
  { state with
    audit := (state.audit.append formats.rfc3339 now actor action target detail secrets).1 }

/-- `init` and `import`, with the id drawn for a request that names none. -/
def register (request : CliRequest) (fresh : ApplicationId) (now : DateTime) : Arm := fun state =>
  let id := request.applicationId.getD fresh
  let path := (request.arguments["path"]?).getD "."
  let state := state.addApplication id ["development", "production"]
  .ok (audited formats secrets state now request.actor.kindLabel request.command.canonicalName
      (toString id) s!"registered from {path}",
    { ok := true
      data := some (.object [("application_id", .string (toString id)), ("path", .string path),
        ("environments", .strings ["development", "production"])])
      findings := [.info "cli.registered" s!"application {id} registered from {path}"] })

def inspect (request : CliRequest) : Arm := fun state => do
  let id ← expected request.applicationId
  let capabilities := (state.capabilities[id]?).getD []
  let resources := (state.resources[id]?).getD []
  return (state,
    { ok := true
      data := some (.object [("application_id", .string (toString id)),
        ("environments", .strings ((state.environments[id]?).getD [])),
        ("capabilities", .strings capabilities), ("resources", .strings resources),
        ("deployments", .strings ((state.deployments[id]?).getD []))])
      findings := [.info "cli.inspected"
        s!"{capabilities.length} capabilities, {resources.length} resources"] })

def healthCheck (now : DateTime) : Option HealthSnapshot → Finding
  | none =>
      (Finding.warning "doctor.no_health_evidence" "no platform health observation recorded")
        |>.withRecovery "run a health probe or wait for the controller"
  | some snapshot =>
      if snapshot.isStale now then
        (Finding.warning "doctor.stale_health" s!"health evidence for '{snapshot.target}' is stale")
          |>.withRecovery "re-probe before trusting this result"
      else
        .info "doctor.health" s!"{snapshot.target} is {(snapshot.effectiveState now).debug}"

def pluginCheck (report : PluginReport) : Finding :=
  if report.state = .active then
    .info "doctor.plugin" s!"{report.name} ({report.family.canonicalName}) active"
  else
    (Finding.error "doctor.plugin_unavailable"
        s!"{report.name} ({report.family.canonicalName}) is {report.state.debug}")
      |>.withRecovery report.detail

def evidenceCheck (evidence : VerificationEvidence) : Finding :=
  (Finding.error "doctor.failed_evidence" evidence.toEventDetail)
    |>.withRecovery (evidence.recovery.getD "inspect the failing check and re-run verification")

def doctor (request : CliRequest) (now : DateTime) : Arm := fun state => do
  let id ← expected request.applicationId
  let failed := (state.evidence.getD []).filter fun evidence => !evidence.passed
  let checks := healthCheck now (state.health[id]?) :: state.plugins.map pluginCheck ++
    failed.map evidenceCheck
  return (state,
    { ok := !checks.any fun finding => decide (finding.severity = .error)
      data := some (.object [("application_id", .string (toString id)),
        ("checks", .array (checks.map Finding.toJsonValue))])
      findings := checks })

def renderEntry (entry : LogEntry) : Json :=
  .object [("sequence", .number entry.sequence.toNat),
    ("source", .string entry.source.canonicalName), ("level", .string entry.level.debug),
    ("message", .string entry.message), ("trace", .string entry.correlation.traceId)]

/-- `logs`: an unknown source name selects every source. -/
def logs (request : CliRequest) : Arm := fun state => do
  let id ← expected request.applicationId
  let source := (request.arguments["source"]?).bind fun name =>
    LogSource.all.find? fun source => decide (source.canonicalName = name)
  let entries := match source with
    | some source => state.logs.entries.filter fun entry : LogEntry => decide (entry.source = source)
    | none => state.logs.entries
  return (state,
    { ok := true
      data := some (.object [("application_id", .string (toString id)),
        ("entries", .array (entries.map renderEntry))])
      findings := [.info "cli.logs" s!"{entries.length} entries"] })

def health (request : CliRequest) (now : DateTime) : Arm := fun state => do
  let id ← expected request.applicationId
  match state.health[id]? with
  | none => return (state,
      { ok := false
        data := none
        findings := [(Finding.error "cli.no_health"
            "no platform health evidence for this application")
          |>.withRecovery "run `labrys doctor` to see which probe is missing"] })
  | some snapshot =>
      let effective := snapshot.effectiveState now
      let stale := snapshot.isStale now
      let reading : Finding :=
        { code := "cli.health"
          severity := if stale || effective ≠ .healthy then .warning else .info
          message := s!"{snapshot.target} is {effective.debug}"
          recovery := if stale then some "re-probe; this observation is older than its ttl" else none
          resource := none }
      return (state,
        { ok := decide (effective = .healthy) && !stale
          data := some (.object [("state", .string effective.debug), ("stale", .bool stale),
            ("observed_at", .string (formats.rfc3339 snapshot.observedAt))])
          findings := reading :: snapshot.detail.toList.map (.info "cli.health_detail") })

def rollback (request : CliRequest) (now : DateTime) : Arm := fun state => do
  let id ← expected request.applicationId
  match request.approval.filter ExplicitApproval.isNamedGrant with
  | none => .error (.err ((Finding.error "cli.approval_required"
        "rollback requires a granted, named human approval")
      |>.withRecovery "re-run with --approve-by <name> --target <id>"))
  | some approval =>
      let target := (request.arguments["target"]?).getD "previous"
      return (audited formats secrets state now approval.approver "rollback" (toString id)
          "traffic moved; database data not restored",
        { ok := true
          data := some (.object [("application_id", .string (toString id)),
            ("target", .string target), ("approved_by", .string approval.approver),
            ("database_data_restored", .bool false), ("warning", .string databaseDataWarning)])
          findings := [.info "cli.rolled_back" s!"rolled back to {target}"] })

/-- `deploy` and `build`; only the first has had its environment checked. -/
def deploy (request : CliRequest) (now : DateTime) : Arm := fun state => do
  let id ← expected request.applicationId
  let environment ← expected request.environment
  if environment = "production" ∧ request.actor.isHuman = false then
    .error (.err ((Finding.error "cli.permission_denied"
        "production deployment requires a human actor")
      |>.withRecovery "a human must run `labrys deploy --environment production`"))
  else
    let digest := (request.arguments["artifact"]?).getD "sha256:unspecified"
    let pushed := (state.deployments[id]?).getD [] ++ [s!"{environment}:{digest}"]
    let state := { state with deployments := state.deployments.insert id pushed }
    return (audited formats secrets state now request.actor.kindLabel request.command.canonicalName
        (toString id) s!"{environment} -> {digest}",
      { ok := true
        data := some (.object [("application_id", .string (toString id)),
          ("environment", .string environment), ("artifact", .string digest),
          ("health_gate", .bool true)])
        findings := [.info "cli.converging"
          s!"{request.command.canonicalName} {digest} requested; promotion waits for health"] })

/-- The commands that list, or record that something was asked for. -/
def list (request : CliRequest) (now : DateTime) : Arm := fun state => do
  let id ← expected request.applicationId
  let name := request.command.canonicalName
  let listed : String × List String := match request.command with
    | .capability => ("capabilities", (state.capabilities[id]?).getD [])
    | .resources => ("resources", (state.resources[id]?).getD [])
    | .deployments => ("deployments", (state.deployments[id]?).getD [])
    | _ => (name, [])
  let state := if request.command.isMutating then
      audited formats secrets state now request.actor.kindLabel name (toString id) "requested"
    else state
  return (state,
    { ok := true
      data := some (.object [("application_id", .string (toString id)),
        (listed.1, .strings listed.2)])
      findings := [.info s!"cli.{name}" s!"{listed.2.length} entries"] })

def perform (request : CliRequest) (fresh : ApplicationId) (now : DateTime) : Arm :=
  match request.command with
  | .init | .import => register formats secrets request fresh now
  | .inspect => inspect request
  | .doctor => doctor request now
  | .logs => logs request
  | .health => health formats request now
  | .rollback => rollback formats secrets request now
  | .deploy | .build => deploy formats secrets request now
  | .capability | .resources | .deployments | .preview | .dev | .agent =>
      list formats secrets request now

end Cli

/-! ## The boundary before the arms -/

structure Cli where
  executed : Std.TreeMap String CliResponse

namespace Cli

def new : Cli := ⟨∅⟩

/-- The permission boundary: the finding that denies a request. -/
def authorize (request : CliRequest) : Option Finding :=
  if request.actor.kind = .agent ∧
      request.command ∈ [.init, .import, .deploy, .rollback, .build] then
    some ((Finding.error "cli.permission_denied"
        s!"an agent session may not run '{request.command.canonicalName}'")
      |>.withRecovery "a human operator must run this command")
  else if request.command = .rollback ∧ request.actor.isHuman = false then
    some ((Finding.error "cli.permission_denied" "rollback is a human-only operation")
      |>.withRecovery "a named human must issue the rollback")
  else if request.actor.kind = .platform ∧ request.command ∈ [.deploy, .rollback] then
    some ((Finding.error "cli.permission_denied"
        s!"platform automation may not issue '{request.command.canonicalName}'")
      |>.withRecovery "route this through a human approval flow")
  else none

def failure (request : CliRequest) (now : DateTime) (findings : List Finding) : CliResponse where
  command := request.command.canonicalName
  ok := false
  replayed := false
  applicationId := request.applicationId
  environment := request.environment
  findings := findings
  data := none
  idempotencyKey := request.idempotencyKey
  time := now

def applicationFindings (state : PlatformState) (request : CliRequest) : List Finding :=
  if request.command.requiresApplication = false then []
  else
    match request.applicationId with
    | none => [(Finding.error "cli.application_required"
          s!"'{request.command.canonicalName}' needs an application")
        |>.withRecovery "pass --application <id> or run `labrys import .` first"]
    | some id =>
        if state.knows id then []
        else [(Finding.error "cli.application_unknown" s!"application {id} is not registered")
          |>.withRecovery "run `labrys import .` to register this project"]

def environmentFindings (formats : Formats) (state : PlatformState) (request : CliRequest) :
    List Finding :=
  if request.command.requiresEnvironment = false then []
  else
    let known := ((request.applicationId.bind fun id => state.environments[id]?).getD []).any
      fun environment => decide (some environment = request.environment)
    if request.environment.isNone || !known then
      let wanted := match request.environment with
        | none => "None"
        | some environment => "Some(" ++ formats.quoted environment ++ ")"
      [(Finding.error "cli.environment_unknown"
          s!"'{request.command.canonicalName}' needs a known environment, got {wanted}")
        |>.withRecovery "list environments with `labrys inspect`"]
    else []

def idempotencyRequired (request : CliRequest) : Finding :=
  (Finding.error "cli.idempotency_required"
      s!"'{request.command.canonicalName}' changes platform state and needs an idempotency key")
    |>.withRecovery "re-run with --idempotency-key <key> so a retry is safe"

/-- The application a response is tied to: the one a registration minted, else the request's. -/
def resolvedApplication (request : CliRequest) (performed : Performed) : Option ApplicationId :=
  let minted := if performed.ok = true ∧ request.command ∈ [.init, .import] then
      ((performed.data.bind (·.get "application_id")).bind (·.asStr)).bind (TaggedId.parse "app")
    else none
  minted.or request.applicationId

def respond (request : CliRequest) (now : DateTime) (performed : Performed) : CliResponse where
  command := request.command.canonicalName
  ok := performed.ok
  replayed := false
  applicationId := resolvedApplication request performed
  environment := request.environment
  findings := performed.findings
  data := performed.data
  idempotencyKey := request.idempotencyKey
  time := now

/-- A response under its key, if the request has one. -/
def recorded (cli : Cli) (request : CliRequest) (response : CliResponse) : Cli :=
  match request.idempotencyKey with
  | none => cli
  | some key => ⟨cli.executed.insert key response⟩

/-- The recorded response that a request's key brings back. -/
def replay (cli : Cli) (request : CliRequest) : Option CliResponse :=
  request.idempotencyKey.bind fun key => cli.executed[key]?

end Cli

/-- A request with the id drawn for it and the time it runs. -/
structure CliInput where
  request : CliRequest
  fresh : ApplicationId
  now : DateTime

/-- The CLI and the state it runs against. -/
structure CliWorld where
  cli : Cli
  state : PlatformState

/-- `Cli::execute`. -/
def Cli.execute (formats : Formats) (secrets : List String) (world : CliWorld) (input : CliInput) :
    CliWorld × Outcome CoreError CliResponse :=
  let request := input.request
  match authorize request with
  | some denied => (world, .ok (failure request input.now [denied]))
  | none =>
  if request.command.isMutating = true ∧ request.idempotencyKey = none then
    (world, .ok (failure request input.now [idempotencyRequired request]))
  else
  match world.cli.replay request with
  | some recorded => (world, .ok { recorded with replayed := true })
  | none =>
  match applicationFindings world.state request ++
      environmentFindings formats world.state request with
  | finding :: rest => (world, .ok (failure request input.now (finding :: rest)))
  | [] =>
  match perform formats secrets request input.fresh input.now world.state with
  | .error (.panic message) => (world, .error (.panic message))
  | .error (.err finding) => (world, .ok (failure request input.now [finding]))
  | .ok (state, performed) =>
      let response := respond request input.now performed
      (⟨world.cli.recorded request response, state⟩, .ok response)

end Labrys.Core
