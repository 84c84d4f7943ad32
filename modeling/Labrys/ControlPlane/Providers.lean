import Labrys.ControlPlane.Worker

/-! # Provider execution and the provider dispatcher

`executeOperation` puts the approval gate, redaction, the durable records and the platform
observation around one adapter call. `ProviderJobDispatcher.dispatch` builds the operation of a
claimed job and turns the result into what the worker understands. Ids that the source draws at
random, and the clock, are arguments. -/

namespace Labrys.ControlPlane
open Foundations Labrys.Core
set_option autoImplicit false

/-! ## Adapters -/

inductive ProviderExecution
  | accepted (detail : String)
  | ready (detail : String)
  | degraded (reason : String)
  | failed (reason recovery : String)
deriving DecidableEq

namespace ProviderExecution

def failedRedacted (reason : String) (secrets : List String) : ProviderExecution :=
  .failed (sanitizeFailure reason secrets).1 (sanitizeFailure reason secrets).2

def observation : ProviderExecution → ProviderObservation
  | accepted detail => .accepted detail
  | ready detail => .ready detail
  | degraded reason => .degraded reason
  | failed reason recovery => .failed reason recovery

def targetPhase (execution : ProviderExecution) : ResourcePhase :=
  execution.observation.targetPhase

def redact (secrets : List String) : ProviderExecution → ProviderExecution
  | accepted detail => .accepted (redactReason detail secrets)
  | ready detail => .ready (redactReason detail secrets)
  | degraded reason => .degraded (redactReason reason secrets)
  | failed reason recovery => .failed (redactReason reason secrets) recovery

def failureText : ProviderExecution → String
  | failed reason recovery => s!"{reason} | recovery: {recovery}"
  | degraded reason => reason
  | _ => ""

@[simp] theorem targetPhase_redact (secrets : List String) (execution : ProviderExecution) :
    (execution.redact secrets).targetPhase = execution.targetPhase := by
  cases execution <;> rfl

end ProviderExecution

structure ProviderAdapter where
  key : String
  kind : ProviderKind
  execute : ProviderOperation → Except ControlPlaneError ProviderExecution

/-! ## The runtime -/

structure ProviderRuntime where
  secrets : List String

namespace ProviderRuntime
variable (runtime : ProviderRuntime)

/-- `INSERT .. ON CONFLICT (idempotency_key) DO NOTHING`: the first record of a key stays. -/
def insertOperation (row : OperationRow) : Action Unit := fun db =>
  match hkey : db.operations.get row.operation.idempotencyKey with
  | some _ => (db, .ok ())
  | none => ({ db with operations := db.operations.insert row hkey }, .ok ())

def recordOperation (operation : ProviderOperation) (phase : ResourcePhase) (failure : String)
    (usageUnits : ℕ) : Action Unit := do
  let failure ← Action.lift (redactGuard "provider_operations.failure" failure runtime.secrets)
  insertOperation ⟨operation, phase, failure, usageUnits⟩

/-- `record_event`: the event and its audit record. -/
def recordEvent (operation : ProviderOperation) (report : Report) (time : DateTime) :
    Action Unit := do
  PgEventStore.append
    { EventDraft.new time (.platform s!"provider:{operation.providerKey}")
        ⟨operation.traceId, none, TaggedId.parse "app" (toString operation.applicationId),
          operation.environmentId.bind fun id => TaggedId.parse "env" (toString id)⟩
        report.action report.result with
      resource := some ⟨"resource", toString operation.resourceId⟩
      after := some report.detail }
    runtime.secrets
  PgAuditLog.append
    ⟨time, s!"provider:{operation.providerKey}", s!"provider:{operation.action.label}",
      toString operation.resourceId, operation.idempotencyKey⟩
    []

/-- The platform observation of an execution; errors of the resource store are dropped. -/
def applyObservation (adapterKey : String) (resource : ResourceId) (time : DateTime) :
    ProviderExecution → Action Unit
  | .accepted _ => (PgResourceStore.observePhase resource .provisioning .providerCallback
      (some s!"accepted by {adapterKey}") time).dropError
  | .ready detail =>
      (PgResourceStore.observePhase resource .ready .providerCallback (some detail) time).dropError
  | .degraded reason => (PgResourceStore.observePhase resource .degraded .providerCallback
      (some reason) time).dropError
  | .failed reason _ => (PgResourceStore.recordFailure resource reason runtime.secrets
      RetryPolicy.default time).dropError

def executionReport (execution : ProviderExecution) : Report :=
  match execution with
  | .failed reason _ => ⟨.reconciled, .failed reason, execution.observation.toEventDetail⟩
  | _ => ⟨.resourceProvisioned, .succeeded, execution.observation.toEventDetail⟩

/-- What is persisted about an execution that was let through the gate. -/
def persistExecution (adapter : ProviderAdapter) (operation : ProviderOperation)
    (time : DateTime) (freshEnvironment : EnvironmentId) (execution : ProviderExecution) :
    Action ProviderExecution := do
  runtime.recordOperation operation execution.targetPhase execution.failureText 1
  runtime.applyObservation adapter.key operation.resourceId time execution
  runtime.recordEvent operation (executionReport execution) time
  PgUsageLedger.record
    ⟨operation.applicationId, operation.environmentId.getD freshEnvironment, time, 1⟩
  return execution

def executeOperation (adapter : ProviderAdapter) (operation : ProviderOperation)
    (approval : Option ExplicitApproval) (time : DateTime) (freshEnvironment : EnvironmentId) :
    Action ProviderExecution :=
  match operation.requireApproval approval with
  | .error gate => do
      let reason := gate.display
      runtime.recordOperation operation .failed reason 0
      runtime.recordEvent operation ⟨.reconciled, .failed reason,
        s!"provider {operation.resourceId} denied: no provider call occurred"⟩ time
      Action.throw (.core gate)
  | .ok () =>
      let outcome := match adapter.execute operation with
        | .ok outcome => outcome
        | .error e => .failedRedacted e.display runtime.secrets
      runtime.persistExecution adapter operation time freshEnvironment
        (outcome.redact runtime.secrets)

end ProviderRuntime

/-! ## The dispatcher -/

/-- The registered adapters in the order the map iterates, and Unicode lower-casing. -/
structure ProviderJobDispatcher where
  runtime : ProviderRuntime
  adapters : List ProviderAdapter
  toLowercase : String → String

structure FreshIds where
  resource : ResourceId
  application : ApplicationId
  environment : EnvironmentId

namespace ProviderJobDispatcher
variable (d : ProviderJobDispatcher)

/-- `adapter_for`: the first adapter whose key the target contains, else the first generic one. -/
def adapterFor (job : Job) : Option ProviderAdapter :=
  (d.adapters.find? fun adapter =>
      containsText (d.toLowercase job.target) (d.toLowercase adapter.key)) <|>
    d.adapters.find? fun adapter => decide (adapter.kind = .generic)

def resourceOf (fresh : FreshIds) (job : Job) : ResourceId :=
  (TaggedId.parse "res" job.target).getD fresh.resource

def firstSegment (target : String) : String :=
  String.ofList (target.toList.takeWhile fun c => c ≠ ':')

def actionOf : JobAction → ProviderAction
  | .delete => .delete
  | .update => .replace
  | _ => .provision

def operationOf (fresh : FreshIds) (adapter : ProviderAdapter) (job : Job) :
    ProviderOperation where
  applicationId := (TaggedId.parse "app" (firstSegment job.target)).getD fresh.application
  environmentId := none
  resourceId := resourceOf fresh job
  capability := "database.postgres"
  providerKey := adapter.key
  kind := adapter.kind
  action := actionOf job.action
  idempotencyKey := job.idempotencyKey.text
  traceId := s!"job:{job.id}"
  secretRefs := []
  attempt := max job.attempts 1

/-- The worker's view of an execution; an error of the runtime is a failure of the job. -/
def outcomeOf (resource : ResourceId) :
    Outcome ControlPlaneError ProviderExecution → Outcome ControlPlaneError DispatchOutcome
  | .ok (.ready _) => .ok (.ready resource)
  | .ok (.degraded _) => .ok (.degraded resource)
  | .ok (.accepted _) => .ok .inProgress
  | .ok (.failed reason _) => .ok (.failed reason)
  | .error (.err e) => .ok (.failed e.display)
  | .error (.panic message) => .error (.panic message)

/-- `dispatch`: worker jobs carry no approval, so destructive actions are denied. -/
def dispatch (fresh : FreshIds) (time : DateTime) : Dispatcher := fun job db =>
  match d.adapterFor job with
  | none => (db, .ok (.failed
      s!"no provider adapter for '{job.target}'. {providerFailureRecovery}"))
  | some adapter =>
      let result := d.runtime.executeOperation adapter (operationOf fresh adapter job) none time
        fresh.environment db
      (result.1, outcomeOf (resourceOf fresh job) result.2)

end ProviderJobDispatcher
end Labrys.ControlPlane
