import Labrys.Core.Events
import Labrys.Core.Redact
import Labrys.Core.Runtime
import Labrys.Foundations.Table

/-! # Deployments and rollouts

A deployment is built, waits for the platform's health observation, serves, and is superseded or
rolled back; it keeps the evidence of every transition, and its first entry is there by
construction. A rollout is the history of one environment with the deployment that is current. An
operation that takes `&mut` gives back what it left behind, also when it fails. -/

namespace Labrys.Core
open Foundations
set_option autoImplicit false

/-! ## Revisions, images and logs -/

structure Revision where
  sourceSha : String
  configHash : String
  capabilityHash : Option String
  introducesMigration : Bool
deriving DecidableEq

def Revision.new (sourceSha configHash : String) (capabilityHash : Option String) : Revision :=
  ⟨sourceSha, configHash, capabilityHash, false⟩

def Revision.withMigration (revision : Revision) (introduces : Bool) : Revision :=
  { revision with introducesMigration := introduces }

inductive ImageSource
  | generic | native
deriving DecidableEq

def ImageSource.label : ImageSource → String
  | generic => "generic container runtime"
  | native => "native runtime adapter"

structure Image where
  reference : String
  digest : String
  source : ImageSource
  runtimeKind : RuntimeKind
  revisionSha : String
deriving DecidableEq

inductive LogLevel
  | info | warn | error
deriving DecidableEq

structure DeploymentLog where
  level : LogLevel
  message : String
  time : DateTime
deriving DecidableEq

def fnv1a (bytes : List UInt8) (start : UInt64) : UInt64 :=
  bytes.foldl (fun hash byte => (hash ^^^ byte.toUInt64) * 0x100000001b3) start

def digestOf (base revisionSha : String) : String :=
  let forward := base.toUTF8.toList ++ revisionSha.toUTF8.toList
  let backward := revisionSha.toUTF8.toList ++ base.toUTF8.toList
  let hash := fnv1a forward 0xcbf29ce484222325
  let second := fnv1a backward hash
  hexDigits 16 hash.toNat ++ hexDigits 16 second.toNat

def buildImage (config : RuntimeConfig) (build : BuildResult) (revision : Revision)
    (secrets : List String) : Except CoreError Image :=
  if config.profile ≠ .production then
    .error (.deployment "development profiles never mint an OCI image")
  else if build.status ≠ .succeeded then
    .error (.deployment (s!"cannot build image from {build.status.debug} build: " ++
      redactReason build.detail secrets))
  else
    match config.ociImage with
    | none =>
        .error (.deployment
          s!"runtime '{config.kind.canonicalName}' produces no OCI artifact")
    | some base =>
        let digest := "sha256:" ++ digestOf base revision.sourceSha
        .ok
          { reference := base ++ "@" ++ digest
            digest := digest
            source := if config.kind = .generic then .generic else .native
            runtimeKind := config.kind
            revisionSha := revision.sourceSha }

/-! ## The lifecycle of a deployment -/

inductive DeploymentPhase
  | pending | building | deploying | healthy | degraded | failed | superseded | rolledBack
deriving DecidableEq, Repr

namespace DeploymentPhase

def servesTraffic (phase : DeploymentPhase) : Bool := phase = healthy

def canTransitionTo : DeploymentPhase → DeploymentPhase → Bool
  | pending, next => next = building || next = failed
  | building, next => next = deploying || next = failed
  | deploying, next => next = healthy || next = degraded || next = failed
  | healthy, next => next = degraded || next = superseded || next = rolledBack
  | degraded, next => next = healthy || next = failed || next = rolledBack
  | failed, next => next = rolledBack
  | superseded, next => next = rolledBack
  | rolledBack, _ => false

def debug : DeploymentPhase → String
  | pending => "Pending"
  | building => "Building"
  | deploying => "Deploying"
  | healthy => "Healthy"
  | degraded => "Degraded"
  | failed => "Failed"
  | superseded => "Superseded"
  | rolledBack => "RolledBack"

end DeploymentPhase

structure DeploymentTransition where
  source : DeploymentPhase
  target : DeploymentPhase
  time : DateTime
  reason : Option String
deriving DecidableEq

structure Deployment where
  id : DeploymentId
  applicationId : ApplicationId
  environmentId : EnvironmentId
  revision : Revision
  build : Option BuildResult
  image : Option Image
  runtime : RuntimeConfig
  resources : List ResourceId
  health : HealthStatus
  phase : DeploymentPhase
  logs : List DeploymentLog
  rollbackTarget : Option DeploymentId
  transitions : List DeploymentTransition
  evidence : transitions ≠ []
deriving DecidableEq

namespace Deployment
variable (d : Deployment)

/-- `Deployment::new`, with the id it draws. -/
def new (id : DeploymentId) (applicationId : ApplicationId) (environmentId : EnvironmentId)
    (revision : Revision) (runtime : RuntimeConfig) (resources : List ResourceId)
    (rollbackTarget : Option DeploymentId) (time : DateTime) : Except CoreError Deployment :=
  if runtime.profile ≠ .production then
    .error (.deployment "deployments require a production runtime profile")
  else
    .ok
      { id, applicationId, environmentId, revision, runtime, resources, rollbackTarget
        build := none
        image := none
        health := .starting
        phase := .pending
        logs := []
        transitions := [⟨.pending, .pending, time, none⟩]
        evidence := by simp }

def lastTransition : DeploymentTransition := d.transitions.getLast d.evidence

/-- The deployment in a phase, with the evidence of how it got there. -/
def entered (source next : DeploymentPhase) (reason : Option String) (time : DateTime) :
    Deployment :=
  { d with
    phase := next
    transitions := d.transitions ++ [⟨source, next, time, reason⟩]
    evidence := by simp }

def moveTo (next : DeploymentPhase) (reason : Option String) (time : DateTime) :
    Deployment × Except CoreError Unit :=
  if d.phase.canTransitionTo next = false then
    (d, .error (.deployment
      s!"illegal deployment transition {d.phase.debug} -> {next.debug} for {d.id}"))
  else if next = d.phase then
    (d, .error (.deployment s!"deployment {d.id} is already {next.debug}"))
  else (d.entered d.lastTransition.target next reason time, .ok ())

def pushLog (level : LogLevel) (message : String) (time : DateTime) : Deployment :=
  { d with logs := d.logs ++ [⟨level, message, time⟩] }

def startBuild (time : DateTime) : Deployment × Except CoreError Unit :=
  d.moveTo .building none time

/-- `record_build`: a failed build fails the deployment, a successful one mints the artifact. -/
def recordBuild (build : BuildResult) (secrets : List String) (time : DateTime) :
    Deployment × Except CoreError Unit :=
  if d.phase ≠ .building then
    (d, .error (.deployment
      s!"deployment {d.id} cannot record a build while {d.phase.debug}"))
  else
    let recorded := { d with build := some build }
    if build.isSuccess = false then
      let detail := redactReason build.detail secrets
      (recorded.pushLog .error detail time).moveTo .failed (some detail) time
    else
      match buildImage d.runtime build d.revision secrets with
      | .error e => (recorded, .error e)
      | .ok image =>
          let logged := recorded.pushLog .info
            s!"image {image.digest} built from {image.source.label}" time
          { logged with image := some image }.moveTo .deploying none time

/-- `record_health`, the promotion gate. The status is stored before the move is tried. -/
def recordHealth (health : HealthStatus) (secrets : List String) (time : DateTime) :
    Deployment × Except CoreError Unit :=
  match health with
  | .healthy => { d with health := .healthy }.moveTo .healthy none time
  | .unhealthy reason =>
      let target := if d.phase = .deploying then .failed else .degraded
      let redacted := redactReason reason secrets
      { d with health := .unhealthy redacted }.moveTo target (some redacted) time
  | .starting => ({ d with health := .starting }, .ok ())
  | .unknown reason => ({ d with health := .unknown reason }, .ok ())

def markSuperseded (time : DateTime) : Deployment × Except CoreError Unit :=
  d.moveTo .superseded (some "newer revision promoted") time

def markRolledBack (reason : String) (time : DateTime) : Deployment × Except CoreError Unit :=
  d.moveTo .rolledBack (some reason) time

def isPromoted : Bool := d.phase.servesTraffic

end Deployment

/-! ## Rollouts -/

/-- The history of one environment, oldest first, and the deployment that serves. -/
structure Rollout where
  deployments : List Deployment
  current : Option DeploymentId
deriving DecidableEq

namespace Rollout

def new : Rollout := ⟨[], none⟩

variable (r : Rollout)

def get (id : DeploymentId) : Option Deployment := r.deployments.find? fun d => decide (d.id = id)

/-- What a change through `get_mut` leaves: the deployment in the place of the one of its id. -/
def replace (d : Deployment) : Rollout :=
  { r with deployments := replaceFirst (fun e => decide (e.id = d.id)) d r.deployments }

def rollbackTarget : Option DeploymentId :=
  (r.deployments.reverse.find? fun d =>
    (d.phase = .healthy || d.phase = .superseded) && d.image.isSome).map (·.id)

/-- `begin`, with the id the new deployment draws. -/
def begin (id : DeploymentId) (applicationId : ApplicationId) (environmentId : EnvironmentId)
    (revision : Revision) (runtime : RuntimeConfig) (resources : List ResourceId)
    (time : DateTime) : Rollout × Except CoreError DeploymentId :=
  match Deployment.new id applicationId environmentId revision runtime resources r.rollbackTarget
      time with
  | .error e => (r, .error e)
  | .ok deployment => ({ r with deployments := r.deployments ++ [deployment] }, .ok deployment.id)

/-- The step of `promote` that supersedes the deployment that was current. -/
def supersede (previous : DeploymentId) (time : DateTime) : Rollout × Except CoreError Unit :=
  match r.get previous with
  | none => (r, .ok ())
  | some old =>
      if old.phase = .healthy then
        (r.replace (old.markSuperseded time).1, (old.markSuperseded time).2)
      else (r, .ok ())

def promote (id : DeploymentId) (time : DateTime) : Rollout × Except CoreError Unit :=
  match r.get id with
  | none => (r, .error (.notFound s!"deployment {id}"))
  | some deployment =>
      if deployment.phase ≠ .healthy then
        (r, .error (.deployment
          s!"only a healthy deployment can be promoted, {id} is {deployment.phase.debug}"))
      else
        match r.current with
        | none => ({ r with current := some id }, .ok ())
        | some previous =>
            if previous = id then ({ r with current := some id }, .ok ())
            else
              match r.supersede previous time with
              | (left, .error e) => (left, .error e)
              | (left, .ok ()) => ({ left with current := some id }, .ok ())

def currentDigest : Option String :=
  ((r.current.bind r.get).bind (·.image)).map (·.digest)

end Rollout

/-! ## Rollback -/

structure Domain where
  id : DomainId
  environmentId : EnvironmentId
  hostname : String
  tls : Bool
  deployment : Option DeploymentId
deriving DecidableEq

inductive RollbackKind
  | source | deployment | configuration
deriving DecidableEq

def RollbackKind.debug : RollbackKind → String
  | source => "Source"
  | deployment => "Deployment"
  | configuration => "Configuration"

/-- A planned rollback: from the deployment `source` to the deployment `target`. -/
structure RollbackPlan where
  kind : RollbackKind
  source : DeploymentId
  target : DeploymentId
  warnings : List String
  migrationInDelta : Bool
  requiresApproval : Bool
deriving DecidableEq

structure RollbackOutcome where
  kind : RollbackKind
  source : DeploymentId
  target : DeploymentId
  trafficMoved : Bool
  detail : String
deriving DecidableEq

def databaseDataWarning : String :=
  "deployment rollback restores the application image only; database data is not " ++
    "automatically rolled back. Review migrations applied since the target revision " ++
    "and restore data through an explicit, approved data operation."

def configurationDataWarning : String :=
  "configuration rollback changes platform configuration only; it does not revert " ++
    "the running image or database data."

def sourceRollbackWarning : String :=
  "source rollback rebuilds from an earlier revision; it does not revert the " ++
    "currently running image until the rebuild is promoted"

def migrationWarning : String :=
  "the delta includes a database migration; schema and data may be ahead of the " ++
    "rollback target"

def RollbackKind.warning : RollbackKind → String
  | source => sourceRollbackWarning
  | deployment => databaseDataWarning
  | configuration => configurationDataWarning

def planRollback (kind : RollbackKind) (source target : Deployment) :
    Except CoreError RollbackPlan :=
  if source.id = target.id then
    .error (.deployment "rollback target must differ from the current deployment")
  else if target.image = none then
    .error (.deployment s!"rollback target {target.id} has no built image")
  else
    let migrationInDelta := source.revision.introducesMigration
    .ok
      { kind
        source := source.id
        target := target.id
        warnings := kind.warning ::
          if migrationInDelta && kind ≠ .configuration then [migrationWarning] else []
        migrationInDelta
        requiresApproval := true }

def selectRollbackTarget (r : Rollout) (current : DeploymentId) : Option DeploymentId :=
  (r.deployments.reverse.find? fun d =>
    d.id ≠ current && d.image.isSome && d.phase ≠ .failed).map (·.id)

def DeploymentPhase.isSafeTarget (phase : DeploymentPhase) : Bool :=
  phase = superseded || phase = rolledBack || phase = healthy

namespace Rollout
variable (r : Rollout)

/-- The step of `execute_rollback` that takes the traffic from the source. -/
def retire (plan : RollbackPlan) (approver : String) (time : DateTime) :
    Rollout × Except CoreError Unit :=
  match r.get plan.source with
  | none => (r, .ok ())
  | some source =>
      if source.phase = .healthy ∨ source.phase = .degraded then
        let moved := source.markRolledBack s!"rolled back to {plan.target} by {approver}" time
        (r.replace moved.1, moved.2)
      else (r, .ok ())

/-- The step that makes the target healthy, which writes the phase without `move_to`. -/
def restore (id : DeploymentId) (targetPhase : DeploymentPhase) (time : DateTime) : Rollout :=
  match r.get id with
  | none => r
  | some target =>
      if target.phase ≠ .healthy then
        r.replace (target.entered targetPhase .healthy (some "restored by rollback") time)
      else r

def repoint (id : DeploymentId) : Rollout := { r with current := some id }

end Rollout

def repointDomains (source target : DeploymentId) (domains : List Domain) : List Domain :=
  domains.map fun domain =>
    if domain.deployment = some source then { domain with deployment := some target } else domain

def executeRollback (r : Rollout) (plan : RollbackPlan) (approval : ExplicitApproval)
    (domains : List Domain) (time : DateTime) :
    (Rollout × List Domain) × Except CoreError RollbackOutcome :=
  if approval.isNamedGrant = false then
    ((r, domains), .error (.approvalRequired
      (s!"rollback {plan.kind.debug} {plan.source} -> {plan.target} requires a granted, " ++
        "named human approval")))
  else if plan.kind ≠ .deployment then
    ((r, domains), .ok
      ⟨plan.kind, plan.source, plan.target, false, " | ".intercalate plan.warnings⟩)
  else
    match r.get plan.target with
    | none => ((r, domains), .error (.notFound s!"deployment {plan.target}"))
    | some target =>
        if target.phase.isSafeTarget = false then
          ((r, domains), .error (.deployment
            s!"rollback target {plan.target} is {target.phase.debug}, not a safe target"))
        else
          match r.retire plan approval.approver time with
          | (left, .error e) => ((left, domains), .error e)
          | (left, .ok ()) =>
              (((left.restore plan.target target.phase time).repoint plan.target,
                  repointDomains plan.source plan.target domains),
                .ok ⟨plan.kind, plan.source, plan.target, true, databaseDataWarning⟩)

def attachDomain (domain : Domain) (deployment : Deployment) (approval : ExplicitApproval) :
    Domain × Except CoreError Unit :=
  if approval.isNamedGrant = false then
    (domain, .error (.approvalRequired
      s!"domain change for '{domain.hostname}' requires explicit approval"))
  else if isBlank domain.hostname.toList || domain.hostname.toList.any isWhiteSpace then
    (domain, .error (.deployment s!"domain '{domain.hostname}' is not routable"))
  else if deployment.isPromoted = false then
    (domain, .error (.deployment
      (s!"cannot route '{domain.hostname}' to unpromoted deployment {deployment.id} " ++
        s!"({deployment.phase.debug})")))
  else ({ domain with deployment := some deployment.id }, .ok ())

end Labrys.Core
