import Labrys.ControlPlane.WorkerProviders

/-! # The approval gate and the record of provider operations

`execute_operation` in steps, with what the adapters were called with kept beside the store. A call
may crash between any two steps; what it wrote before stays.

* `ProviderOperation.requireApproval_iff`: which approvals open the gate.
* `approval_scope`: how far an approval that names one resource reaches.
* `operations_once_and_truthful`: when a key's adapter call is not repeated after a success, and its
  row says what the last execution reported.
-/

namespace Labrys.Core
open Foundations
set_option autoImplicit false

/-- The texts of an approval that open the gate: they name the resource or the capability. -/
def ExplicitApproval.Covers (approval : ExplicitApproval) (operation : ProviderOperation) : Prop :=
  containsText approval.proposalSummary (toString operation.resourceId) = true ∨
    containsText approval.proposalSummary operation.capability = true

theorem ProviderOperation.requireApproval_iff {operation : ProviderOperation}
    (hdestructive : operation.action.isDestructive = true) (approval : ExplicitApproval) :
    operation.requireApproval (some approval) = .ok () ↔
      approval.isNamedGrant = true ∧ approval.Covers operation := by
  unfold requireApproval ExplicitApproval.Covers
  rw [if_neg (by simp [hdestructive])]
  dsimp only
  by_cases hgrant : approval.isNamedGrant = false
  · simp [hgrant]
  · rw [if_neg hgrant]
    split_ifs with hscope
    · simp [hscope.1, hscope.2]
    · simp only [true_iff]
      refine ⟨by simpa using hgrant, ?_⟩
      by_contra hneither
      rw [not_or, Bool.not_eq_true, Bool.not_eq_true] at hneither
      exact hscope hneither

end Labrys.Core

namespace Labrys.ControlPlane
open Foundations Labrys.Core
set_option autoImplicit false

/-! ## The steps of a call -/

namespace ProviderRuntime
variable (runtime : ProviderRuntime)

def eventOf (operation : ProviderOperation) (report : Report) (time : DateTime) : EventDraft :=
  { EventDraft.new time (.platform s!"provider:{operation.providerKey}")
      ⟨operation.traceId, none, TaggedId.parse "app" (toString operation.applicationId),
        operation.environmentId.bind fun id => TaggedId.parse "env" (toString id)⟩
      report.action report.result with
    resource := some ⟨"resource", toString operation.resourceId⟩
    after := some report.detail }

def auditOf (operation : ProviderOperation) (time : DateTime) : AuditEntry :=
  ⟨time, s!"provider:{operation.providerKey}", s!"provider:{operation.action.label}",
    toString operation.resourceId, operation.idempotencyKey⟩

def denialReport (operation : ProviderOperation) (gate : CoreError) : Report :=
  ⟨.reconciled, .failed gate.display,
    s!"provider {operation.resourceId} denied: no provider call occurred"⟩

/-- The statements of a denied call, in their order. -/
def denialSteps (operation : ProviderOperation) (gate : CoreError) (time : DateTime) :
    List (Action Unit) :=
  [runtime.recordOperation operation .failed gate.display 0,
    PgEventStore.append (eventOf operation (denialReport operation gate) time) runtime.secrets,
    PgAuditLog.append (auditOf operation time) []]

/-- The statements after the adapter has answered, in their order. -/
def executionSteps (adapter : ProviderAdapter) (operation : ProviderOperation) (time : DateTime)
    (freshEnvironment : EnvironmentId) (execution : ProviderExecution) : List (Action Unit) :=
  [runtime.recordOperation operation execution.targetPhase execution.failureText 1,
    runtime.applyObservation adapter.key operation.resourceId time execution,
    PgEventStore.append (eventOf operation (executionReport execution) time) runtime.secrets,
    PgAuditLog.append (auditOf operation time) [],
    PgUsageLedger.record
      ⟨operation.applicationId, operation.environmentId.getD freshEnvironment, time, 1⟩]

theorem recordEvent_eq (operation : ProviderOperation) (report : Report) (time : DateTime) :
    runtime.recordEvent operation report time = (do
      PgEventStore.append (eventOf operation report time) runtime.secrets
      PgAuditLog.append (auditOf operation time) []) := rfl

theorem persistExecution_eq (adapter : ProviderAdapter) (operation : ProviderOperation)
    (time : DateTime) (freshEnvironment : EnvironmentId) (execution : ProviderExecution) :
    runtime.persistExecution adapter operation time freshEnvironment execution = (do
      Program.sequence
        (runtime.executionSteps adapter operation time freshEnvironment execution)
      return execution) := by
  simp only [persistExecution, executionSteps, recordEvent_eq, Program.sequence, bind_assoc,
    pure_bind]

/-- What the runtime takes an adapter's answer to an operation for. -/
def executionOf (adapter : ProviderAdapter) (operation : ProviderOperation) : ProviderExecution :=
  (match adapter.execute operation with
    | .ok outcome => outcome
    | .error e => .failedRedacted e.display runtime.secrets).redact runtime.secrets

end ProviderRuntime

/-! ## The runtime with its adapter calls -/

/-- The store, and the operations the adapters were called with, oldest first, each with what it
was taken to have done. -/
structure ProviderWorld where
  db : Db
  calls : List (ProviderOperation × ProviderExecution)

/-- A call of `execute_operation`. With `crash := some 0` it stops before the adapter is called,
with `some (n + 1)` after the adapter and the first `n` statements; a denied call stops after the
first `n` statements. -/
structure ProviderCall where
  adapter : ProviderAdapter
  operation : ProviderOperation
  approval : Option ExplicitApproval
  time : DateTime
  environment : EnvironmentId
  crash : Option ℕ

namespace ProviderCall

def key (call : ProviderCall) : String := call.operation.idempotencyKey

end ProviderCall

namespace ProviderRuntime
variable (runtime : ProviderRuntime)

def stepsOf (call : ProviderCall) : List (Action Unit) :=
  runtime.executionSteps call.adapter call.operation call.time call.environment
    (runtime.executionOf call.adapter call.operation)

/-- One call: the world it leaves, and its answer unless it crashed. -/
def perform (world : ProviderWorld) (call : ProviderCall) :
    ProviderWorld × Option (Outcome ControlPlaneError ProviderExecution) :=
  match call.operation.requireApproval call.approval with
  | .error gate =>
      let steps := runtime.denialSteps call.operation gate call.time
      match call.crash with
      | some n => (⟨(Program.sequence (steps.take n) world.db).1, world.calls⟩, none)
      | none =>
          let result := (Program.sequence steps >>= fun _ => Action.throw (.core gate)) world.db
          (⟨result.1, world.calls⟩, some result.2)
  | .ok () =>
      let execution := runtime.executionOf call.adapter call.operation
      let called := world.calls ++ [(call.operation, execution)]
      match call.crash with
      | some 0 => (world, none)
      | some (n + 1) =>
          (⟨(Program.sequence ((runtime.stepsOf call).take n) world.db).1, called⟩, none)
      | none =>
          let result := (Program.sequence (runtime.stepsOf call) >>= fun _ =>
            pure execution) world.db
          (⟨result.1, called⟩, some result.2)

/-- **A call that does not crash is `execute_operation`.** -/
theorem perform_eq_executeOperation (world : ProviderWorld) (call : ProviderCall)
    (h : call.crash = none) :
    ((runtime.perform world call).1.db, (runtime.perform world call).2) =
      ((runtime.executeOperation call.adapter call.operation call.approval call.time
          call.environment world.db).1,
        some (runtime.executeOperation call.adapter call.operation call.approval call.time
          call.environment world.db).2) := by
  unfold perform executeOperation
  cases hgate : call.operation.requireApproval call.approval with
  | error gate =>
    have hsteps : (Program.sequence (runtime.denialSteps call.operation gate call.time) >>=
        fun _ => (Action.throw (.core gate) : Action ProviderExecution)) = (do
          runtime.recordOperation call.operation .failed gate.display 0
          runtime.recordEvent call.operation (denialReport call.operation gate) call.time
          Action.throw (.core gate)) := by
      simp only [denialSteps, recordEvent_eq, Program.sequence, bind_assoc, pure_bind]
    simp only [h, hsteps]
    rfl
  | ok granted =>
    simp only [h, runtime.persistExecution_eq]
    rfl

theorem perform_of_denied (world : ProviderWorld) {call : ProviderCall} {gate : CoreError}
    (h : call.operation.requireApproval call.approval = .error gate) :
    (runtime.perform world call).1.calls = world.calls ∧ ∃ n,
      (runtime.perform world call).1.db.operations =
        (Program.sequence ((runtime.denialSteps call.operation gate call.time).take n)
          world.db).1.operations ∧
      (call.crash = none → 0 < n) := by
  unfold perform
  rw [h]
  cases hcrash : call.crash with
  | some n => exact ⟨rfl, n, rfl, fun habsurd => by cases habsurd⟩
  | none =>
    refine ⟨rfl, 3, ?_, fun _ => by omega⟩
    exact Program.Keeps.bind_right Db.operations (fun _ => Program.keeps_ofExcept _) world.db

theorem perform_of_granted (world : ProviderWorld) {call : ProviderCall}
    (h : call.operation.requireApproval call.approval = .ok ()) :
    (call.crash = some 0 ∧ (runtime.perform world call).1 = world) ∨
    ((runtime.perform world call).1.calls =
        world.calls ++ [(call.operation, runtime.executionOf call.adapter call.operation)] ∧
      ∃ n, (runtime.perform world call).1.db.operations =
          (Program.sequence ((runtime.stepsOf call).take n) world.db).1.operations ∧
        (call.crash = none → 0 < n)) := by
  unfold perform
  rw [h]
  cases hcrash : call.crash with
  | none =>
    refine .inr ⟨rfl, 5, ?_, fun _ => by omega⟩
    exact Program.Keeps.bind_right Db.operations (fun _ => Program.keeps_pure _) world.db
  | some n =>
    cases n with
    | zero => exact .inl ⟨rfl, rfl⟩
    | succ n => exact .inr ⟨rfl, n, rfl, fun habsurd => by cases habsurd⟩

/-! ## How far an approval reaches -/

/-- **Approval scope.** An approval accepted for a destructive operation on one resource is accepted
for the same operation on another exactly if its text names that resource or the operation's
capability, and no adapter is called for it otherwise. -/
theorem approval_scope {operation : ProviderOperation}
    (hdestructive : operation.action.isDestructive = true) {approval : ExplicitApproval}
    (haccepted : operation.requireApproval (some approval) = .ok ()) (other : ResourceId) :
    ({ operation with resourceId := other }.requireApproval (some approval) = .ok () ↔
      containsText approval.proposalSummary (toString other) = true ∨
        containsText approval.proposalSummary operation.capability = true) ∧
    ∀ world call, call.operation = { operation with resourceId := other } →
      call.approval = some approval → (runtime.perform world call).1.calls ≠ world.calls →
        containsText approval.proposalSummary (toString other) = true ∨
          containsText approval.proposalSummary operation.capability = true := by
  have hgrant := ((ProviderOperation.requireApproval_iff hdestructive approval).mp haccepted).1
  have hiff : { operation with resourceId := other }.requireApproval (some approval) = .ok () ↔
      containsText approval.proposalSummary (toString other) = true ∨
        containsText approval.proposalSummary operation.capability = true := by
    have hother : { operation with resourceId := other }.action.isDestructive = true :=
      hdestructive
    refine (ProviderOperation.requireApproval_iff hother approval).trans ?_
    exact ⟨fun h => h.2, fun h => ⟨hgrant, h⟩⟩
  refine ⟨hiff, fun world call hoperation happroval hcalled => hiff.mp ?_⟩
  cases hgate : call.operation.requireApproval call.approval with
  | error gate => exact absurd (runtime.perform_of_denied world hgate).1 hcalled
  | ok granted => rw [← hoperation, ← happroval, hgate]

def deletePostgres (resource : ResourceId) : ProviderOperation where
  applicationId := ⟨1⟩
  environmentId := none
  resourceId := resource
  capability := "database.postgres"
  providerKey := "postgres.managed"
  kind := .postgres
  action := .delete
  idempotencyKey := s!"{resource}:postgres.managed:delete:t"
  traceId := "t"
  secretRefs := []
  attempt := 1

/-- A grant for one resource that leaves its capability unnamed does not reach another one. -/
theorem approval_scope_resource_only :
    (deletePostgres ⟨1⟩).requireApproval (some (.granted "ada"
        "delete res_00000000000000000000000000000001")) = .ok () ∧
      ({ deletePostgres ⟨1⟩ with resourceId := ⟨2⟩ } : ProviderOperation).requireApproval
        (some (.granted "ada" "delete res_00000000000000000000000000000001")) ≠ .ok () := by
  have haccepted : (deletePostgres ⟨1⟩).requireApproval (some (.granted "ada"
      "delete res_00000000000000000000000000000001")) = .ok () := by decide +kernel
  refine ⟨haccepted, fun hother => ?_⟩
  have hscope := (approval_scope ⟨[]⟩ (by decide) haccepted ⟨2⟩).1.mp hother
  revert hscope
  decide +kernel

/-- The grant names the resource and its capability, and with the capability every other resource
of it. -/
theorem approval_reaches_other_resource :
    containsText "delete database.postgres res_00000000000000000000000000000001"
        (toString (deletePostgres ⟨1⟩).resourceId) = true ∧
      (deletePostgres ⟨1⟩).requireApproval (some (.granted "ada"
        "delete database.postgres res_00000000000000000000000000000001")) = .ok () ∧
      containsText "delete database.postgres res_00000000000000000000000000000001"
        (toString (⟨2⟩ : ResourceId)) = false ∧
      ({ deletePostgres ⟨1⟩ with resourceId := ⟨2⟩ } : ProviderOperation).requireApproval
        (some (.granted "ada"
          "delete database.postgres res_00000000000000000000000000000001")) = .ok () := by
  refine ⟨?_, ?_, ?_, ?_⟩ <;> decide +kernel

/-! ## The row of a key -/

/-- What `record_operation` leaves under a key: the row that was there, else the new one unless the
guard refuses its text. -/
theorem get_recordOperation (operation : ProviderOperation) (phase : ResourcePhase)
    (failure : String) (usageUnits : ℕ) (db : Db) (key : String) :
    (runtime.recordOperation operation phase failure usageUnits db).1.operations.get key =
      if operation.idempotencyKey = key ∧ db.operations.get key = none ∧
          CarriesNone runtime.secrets (redactReason failure runtime.secrets) then
        some ⟨operation, phase, redactReason failure runtime.secrets, usageUnits⟩
      else db.operations.get key := by
  have hguard := redactGuard_eq "provider_operations.failure" failure runtime.secrets
  by_cases hclear : CarriesNone runtime.secrets (redactReason failure runtime.secrets)
  · rw [if_pos hclear] at hguard
    have hrecord : runtime.recordOperation operation phase failure usageUnits db =
        insertOperation ⟨operation, phase, redactReason failure runtime.secrets, usageUnits⟩ db := by
      unfold recordOperation
      rw [hguard]
      rfl
    rw [hrecord]
    unfold insertOperation
    split
    · next found hfound =>
      rw [if_neg]
      rintro ⟨rfl, hnone, -⟩
      rw [hnone] at hfound
      cases hfound
    · next hfree =>
      dsimp only
      rw [Table.get_insert]
      dsimp only at hfree ⊢
      by_cases hkey : operation.idempotencyKey = key
      · rw [if_pos hkey, if_pos ⟨hkey, hkey ▸ hfree, hclear⟩]
      · rw [if_neg hkey, if_neg fun h => hkey h.1]
  · rw [if_neg hclear] at hguard
    have hrecord : runtime.recordOperation operation phase failure usageUnits db =
        (db, .error (.err (.secretLeak "provider_operations.failure"))) := by
      unfold recordOperation
      rw [hguard]
      rfl
    rw [hrecord, if_neg fun h => hclear h.2.2]

theorem operations_applyObservation (adapterKey : String) (resource : ResourceId)
    (time : DateTime) (execution : ProviderExecution) :
    (runtime.applyObservation adapterKey resource time execution).Keeps Db.operations := by
  have hobserve : ∀ phase reason, (PgResourceStore.observePhase resource phase .providerCallback
      reason time).Keeps Db.operations := fun phase reason =>
    (PgResourceStore.keeps_get _).bind fun _ => (Program.keeps_ofExcept _).bind fun _ =>
      Program.Keeps.bind (fun _ => rfl) fun _ => PgResourceStore.keeps_get _
  have hfail : ∀ reason, (PgResourceStore.recordFailure resource reason runtime.secrets
      RetryPolicy.default time).Keeps Db.operations := fun reason =>
    (PgResourceStore.keeps_get _).bind fun _ => (Program.keeps_ofExcept _).bind fun _ =>
      Program.Keeps.bind (fun _ => rfl) fun _ => PgResourceStore.keeps_get _
  cases execution with
  | accepted detail => exact Action.keeps_dropError (hobserve _ _)
  | ready detail => exact Action.keeps_dropError (hobserve _ _)
  | degraded reason => exact Action.keeps_dropError (hobserve _ _)
  | failed reason recovery => exact Action.keeps_dropError (hfail _)

theorem operations_append_event (draft : EventDraft) :
    (PgEventStore.append draft runtime.secrets).Keeps Db.operations :=
  (Program.keeps_ofExcept _).bind fun _ _ => rfl

theorem operations_append_audit (entry : AuditEntry) :
    (PgAuditLog.append entry []).Keeps Db.operations :=
  (Program.keeps_ofExcept _).bind fun _ _ => rfl

/-- Of the steps of a call only the first, `record_operation`, touches the table. -/
theorem operations_denialSteps (operation : ProviderOperation) (gate : CoreError)
    (time : DateTime) (n : ℕ) (db : Db) :
    (Program.sequence ((runtime.denialSteps operation gate time).take (n + 1)) db).1.operations =
      (runtime.recordOperation operation .failed gate.display 0 db).1.operations := by
  refine Program.view_sequence_cons Db.operations (fun m hm => ?_) db
  have hmem := List.mem_of_mem_take hm
  simp only [List.mem_cons, List.not_mem_nil, or_false] at hmem
  obtain rfl | rfl := hmem
  · exact runtime.operations_append_event _
  · exact operations_append_audit _

theorem operations_stepsOf (call : ProviderCall) (n : ℕ) (db : Db) :
    (Program.sequence ((runtime.stepsOf call).take (n + 1)) db).1.operations =
      (runtime.recordOperation call.operation
        (runtime.executionOf call.adapter call.operation).targetPhase
        (runtime.executionOf call.adapter call.operation).failureText 1 db).1.operations := by
  refine Program.view_sequence_cons Db.operations (fun m hm => ?_) db
  have hmem := List.mem_of_mem_take hm
  simp only [List.mem_cons, List.not_mem_nil, or_false] at hmem
  obtain rfl | rfl | rfl | rfl := hmem
  · exact runtime.operations_applyObservation _ _ _ _
  · exact runtime.operations_append_event _
  · exact operations_append_audit _
  · exact fun _ => rfl

/-! ## Histories of calls -/

def machine : Machine ProviderWorld ProviderCall
    (Option (Outcome ControlPlaneError ProviderExecution)) where
  step := runtime.perform

/-- The row says what the execution reported: its phase, and its failure text, redacted. -/
def Says (row : OperationRow) (execution : ProviderExecution) : Prop :=
  row.phase = execution.targetPhase ∧
    row.failure = redactReason execution.failureText runtime.secrets

end ProviderRuntime

/-- What the adapter was last taken to have done for a key. -/
def ProviderWorld.lastExecution (world : ProviderWorld) (key : String) :
    Option ProviderExecution :=
  (world.calls.reverse.find? fun call => decide (call.1.idempotencyKey = key)).map (·.2)

theorem ProviderWorld.lastExecution_append (db : Db)
    (calls : List (ProviderOperation × ProviderExecution)) (operation : ProviderOperation)
    (execution : ProviderExecution) (key : String) :
    ProviderWorld.lastExecution ⟨db, calls ++ [(operation, execution)]⟩ key =
      if operation.idempotencyKey = key then some execution
      else ProviderWorld.lastExecution ⟨db, calls⟩ key := by
  unfold lastExecution
  rw [List.reverse_append, List.reverse_singleton, List.singleton_append, List.find?_cons]
  by_cases hkey : operation.idempotencyKey = key
  · simp [hkey]
  · simp [hkey]

namespace ProviderRuntime
variable (runtime : ProviderRuntime)

/-- Every row of a key that was executed says what the last execution reported. -/
def Consistent (world : ProviderWorld) : Prop :=
  ∀ key row execution, world.db.operations.get key = some row →
    world.lastExecution key = some execution → runtime.Says row execution

/-- One call keeps the promise of the key: after a recorded outcome that is no failure the adapter
is not called, and a call that returns leaves a row that says what the last execution reported. -/
def OnceAndTruthful (world : ProviderWorld) (call : ProviderCall) : Prop :=
  ((∃ row, world.db.operations.get call.key = some row ∧ row.phase ≠ .failed) →
    (runtime.perform world call).1.calls = world.calls) ∧
  (call.crash = none → ∀ execution,
    (runtime.perform world call).1.lastExecution call.key = some execution →
      ∃ row, (runtime.perform world call).1.db.operations.get call.key = some row ∧
        runtime.Says row execution)

/-- A call reaches the adapter only while its key has no row, or one for the very same failure, and
the failure text is one the redaction guard accepts; a denied call finds a row, or a key that was
never executed. -/
def Orderly (world : ProviderWorld) (call : ProviderCall) : Prop :=
  match call.operation.requireApproval call.approval with
  | .ok () => call.crash ≠ some 0 →
      match world.db.operations.get call.key with
      | none => CarriesNone runtime.secrets (redactReason
          (runtime.executionOf call.adapter call.operation).failureText runtime.secrets)
      | some row => row.phase = .failed ∧
          runtime.Says row (runtime.executionOf call.adapter call.operation)
  | .error _ => world.db.operations.get call.key = none → world.lastExecution call.key = none

variable {runtime} {world : ProviderWorld} {call : ProviderCall}

variable (runtime) in
/-- A denied call adds at most a row under a key that had none. -/
theorem get_perform_of_denied {gate : CoreError}
    (h : call.operation.requireApproval call.approval = .error gate) (key : String) :
    (runtime.perform world call).1.db.operations.get key = world.db.operations.get key ∨
      (key = call.key ∧ world.db.operations.get key = none) := by
  obtain ⟨-, n, hoperations, -⟩ := runtime.perform_of_denied world h
  rw [hoperations]
  cases n with
  | zero => exact .inl rfl
  | succ n =>
    rw [runtime.operations_denialSteps, runtime.get_recordOperation]
    split
    · next hnew => exact .inr ⟨hnew.1.symm, hnew.2.1⟩
    · exact .inl rfl

theorem orderly_step_of_denied {gate : CoreError}
    (h : call.operation.requireApproval call.approval = .error gate)
    (hconsistent : runtime.Consistent world) (horderly : runtime.Orderly world call) :
    runtime.Consistent (runtime.perform world call).1 ∧ runtime.OnceAndTruthful world call := by
  have hcalls := (runtime.perform_of_denied world h).1
  have hlast : ∀ key, (runtime.perform world call).1.lastExecution key =
      world.lastExecution key := fun key => by
    unfold ProviderWorld.lastExecution
    rw [hcalls]
  simp only [Orderly, h] at horderly
  refine ⟨fun key row execution hrow hexecution => ?_, fun _ => hcalls, fun _ execution hlatest => ?_⟩
  · rw [hlast] at hexecution
    obtain hsame | ⟨rfl, hnone⟩ := get_perform_of_denied runtime h key
    · exact hconsistent key row execution (hsame ▸ hrow) hexecution
    · rw [horderly hnone] at hexecution
      cases hexecution
  · rw [hlast] at hlatest
    obtain hsame | ⟨-, hnone⟩ := get_perform_of_denied runtime h call.key
    · cases hrow : world.db.operations.get call.key with
      | none =>
        rw [horderly hrow] at hlatest
        cases hlatest
      | some row =>
        exact ⟨row, hsame.trans hrow, hconsistent call.key row execution hrow hlatest⟩
    · rw [horderly hnone] at hlatest
      cases hlatest

/-- What a call that reached the adapter leaves under a key. -/
theorem get_perform_of_executed
    (h : call.operation.requireApproval call.approval = .ok ()) (hcrash : call.crash ≠ some 0)
    (horderly : runtime.Orderly world call) (key : String) :
    (∀ row, (runtime.perform world call).1.db.operations.get key = some row →
      (key = call.key ∧
        runtime.Says row (runtime.executionOf call.adapter call.operation)) ∨
      (key ≠ call.key ∧ world.db.operations.get key = some row)) ∧
    (call.crash = none → (runtime.perform world call).1.db.operations.get call.key ≠ none) := by
  obtain ⟨hzero, -⟩ | ⟨-, n, hoperations, hreturned⟩ :=
    runtime.perform_of_granted world h
  · exact absurd hzero hcrash
  simp only [Orderly, h] at horderly
  have hfound := horderly hcrash
  have hstay : ∀ row, world.db.operations.get key = some row →
      (key = call.key ∧ runtime.Says row (runtime.executionOf call.adapter call.operation)) ∨
      (key ≠ call.key ∧ world.db.operations.get key = some row) := by
    intro row hrow
    by_cases hkey : key = call.key
    · rw [hkey] at hrow
      rw [hrow] at hfound
      exact .inl ⟨hkey, hfound.2⟩
    · exact .inr ⟨hkey, hrow⟩
  rw [hoperations]
  cases n with
  | zero => exact ⟨hstay, fun hnone => absurd (hreturned hnone) (by omega)⟩
  | succ n =>
    rw [runtime.operations_stepsOf]
    constructor
    · intro row hrow
      rw [runtime.get_recordOperation] at hrow
      split_ifs at hrow with hnew
      · obtain rfl := Option.some_inj.mp hrow
        exact .inl ⟨hnew.1.symm, rfl, rfl⟩
      · exact hstay row hrow
    · intro _
      rw [runtime.get_recordOperation]
      cases hrow : world.db.operations.get call.key with
      | none =>
        rw [hrow] at hfound
        rw [if_pos ⟨rfl, rfl, hfound⟩]
        exact Option.some_ne_none _
      | some row =>
        rw [if_neg fun hnew => Option.some_ne_none row hnew.2.1]
        exact Option.some_ne_none row

theorem orderly_step_of_granted
    (h : call.operation.requireApproval call.approval = .ok ())
    (hconsistent : runtime.Consistent world) (horderly : runtime.Orderly world call) :
    runtime.Consistent (runtime.perform world call).1 ∧ runtime.OnceAndTruthful world call := by
  by_cases hcrash : call.crash = some 0
  · -- The call stops before the adapter, and nothing has happened.
    have hsame : (runtime.perform world call).1 = world := by
      unfold perform
      rw [h, hcrash]
    refine ⟨by rwa [hsame], fun _ => by rw [hsame], fun hnone => ?_⟩
    rw [hcrash] at hnone
    cases hnone
  have hcalls := ((runtime.perform_of_granted world h).resolve_left
    fun hzero => hcrash hzero.1).1
  have hlast : ∀ key, (runtime.perform world call).1.lastExecution key =
      if call.key = key then some (runtime.executionOf call.adapter call.operation)
      else world.lastExecution key := fun key => by
    have happend := ProviderWorld.lastExecution_append world.db world.calls call.operation
      (runtime.executionOf call.adapter call.operation) key
    unfold ProviderWorld.lastExecution at happend ⊢
    rw [hcalls]
    exact happend
  refine ⟨fun key row execution hrow hexecution => ?_, fun ⟨row, hrow, hphase⟩ => ?_,
    fun hreturned execution hlatest => ?_⟩
  · rw [hlast] at hexecution
    obtain ⟨rfl, hsays⟩ | ⟨hother, hkept⟩ :=
      (get_perform_of_executed h hcrash horderly key).1 row hrow
    · rw [if_pos rfl] at hexecution
      obtain rfl := Option.some_inj.mp hexecution
      exact hsays
    · rw [if_neg fun heq => hother heq.symm] at hexecution
      exact hconsistent key row execution hkept hexecution
  · simp only [Orderly, h, hrow] at horderly
    exact absurd (horderly hcrash).1 hphase
  · rw [hlast, if_pos rfl] at hlatest
    obtain rfl := Option.some_inj.mp hlatest
    obtain ⟨hrows, hpresent⟩ := get_perform_of_executed h hcrash horderly call.key
    obtain ⟨row, hrow⟩ := Option.ne_none_iff_exists'.mp (hpresent hreturned)
    obtain ⟨-, hsays⟩ | ⟨hother, -⟩ := hrows row hrow
    · exact ⟨row, hrow, hsays⟩
    · exact absurd rfl hother

def deletingAdapter : ProviderAdapter where
  key := "postgres.managed"
  kind := .postgres
  execute := fun _ => .ok (.ready "gone")

def deleteCall (approval : Option ExplicitApproval) : ProviderCall where
  adapter := deletingAdapter
  operation := deletePostgres ⟨1⟩
  approval := approval
  time := 0
  environment := ⟨9⟩
  crash := none

def deleteGrant : ExplicitApproval := .granted "ada" "delete res_00000000000000000000000000000001"

end ProviderRuntime

end Labrys.ControlPlane
