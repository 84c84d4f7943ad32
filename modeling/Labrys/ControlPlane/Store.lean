import Labrys.ControlPlane.Jobs
import Labrys.Core.Events
import Labrys.Core.Provider
import Labrys.Foundations.Program

/-! # The durable store

The tables the worker and the provider runtime write, and the statements on them. A call into the
store is a program that returns a value, an error of the control plane, or a panic; what it wrote
before a failure stays written. -/

namespace Labrys.ControlPlane
open Foundations Labrys.Core
set_option autoImplicit false

/-! ## Tables -/

/-- A row of `provider_operations`; the operation's `idempotency_key` is unique. -/
structure OperationRow where
  operation : ProviderOperation
  phase : ResourcePhase
  failure : String
  usageUnits : ℕ
deriving DecidableEq

/-- The fields of an audit record that its caller supplies. -/
structure AuditEntry where
  time : DateTime
  actor : String
  action : String
  target : String
  detail : String
deriving DecidableEq

/-- A row of `usage_records`, with the one counter the provider runtime sets. -/
structure UsageRow where
  applicationId : ApplicationId
  environmentId : EnvironmentId
  time : DateTime
  requests : ℕ
deriving DecidableEq

structure Db where
  jobs : JobsTable
  resources : Table fun resource : Resource => resource.id
  events : List EventDraft
  operations : Table fun row : OperationRow => row.operation.idempotencyKey
  audit : List AuditEntry
  usage : List UsageRow

abbrev Action := Program Db (Fault ControlPlaneError)

namespace Action

def throw {α : Type} (error : ControlPlaneError) : Action α := Program.ofExcept (.error (.err error))

def lift {α : Type} (x : Except ControlPlaneError α) : Action α := Program.ofExcept (x.mapError .err)

def core {α : Type} (x : Except CoreError α) : Action α :=
  Program.ofExcept (x.mapError fun error => .err (.core error))

/-- A call whose error the caller drops; a panic is not an error. -/
def dropError {α : Type} (m : Action α) : Action Unit := fun db =>
  match (m db).2 with
  | .error (.panic message) => ((m db).1, .error (.panic message))
  | _ => ((m db).1, .ok ())

def onJobs {α : Type} (op : JobsTable → JobsTable × Outcome ControlPlaneError α) : Action α :=
  fun db => ({ db with jobs := (op db.jobs).1 }, (op db.jobs).2)

theorem dropError_fst {α : Type} (m : Action α) (db : Db) : (m.dropError db).1 = (m db).1 := by
  unfold dropError
  split <;> rfl

theorem keeps_dropError {α γ : Type} {view : Db → γ} {m : Action α} (h : m.Keeps view) :
    m.dropError.Keeps view := by
  intro db
  rw [← h db, dropError_fst]

end Action

/-! ## Resources -/

namespace PgResourceStore

def get (id : ResourceId) : Action Resource := fun db =>
  match db.resources.get id with
  | some resource => (db, .ok resource)
  | none => (db, .error (.err (.notFound (toString id))))

/-- The update of an observation: phase and transitions by id, of a resource read before. -/
def writePhase (observed : Resource) : Action Unit := fun db =>
  let wanted := fun row : Resource => decide (row.id = observed.id)
  ({ db with
      resources := db.resources.updateWhere wanted (·.withPhaseOf observed) fun _ => rfl },
    if db.resources.affected wanted = 0 then .error (.err (.notFound (toString observed.id)))
    else .ok ())

/-- `observe_phase`: reads, moves along the lifecycle, writes and reads back. -/
def observePhase (id : ResourceId) (phase : ResourcePhase) (observedBy : ObservationSource)
    (reason : Option String) (time : DateTime) : Action Resource := do
  let resource ← get id
  let observed ← Action.core (resource.observe phase observedBy reason time)
  writePhase observed
  get id

/-- The update of a recorded failure; no row affected is no error. -/
def writeFailure (failed : Resource) : Action Unit := fun db =>
  ({ db with
      resources := db.resources.updateWhere (fun row => decide (row.id = failed.id))
        (fun row => { row with
          phase := failed.phase, generation := failed.generation, failure := failed.failure,
          transitions := failed.transitions, evidence := failed.evidence })
        fun _ => rfl },
    .ok ())

def recordFailure (id : ResourceId) (reason : String) (secrets : List String)
    (policy : RetryPolicy) (time : DateTime) : Action Resource := do
  let resource ← get id
  let failed ← Program.ofExcept ((resource.fail reason secrets policy time).mapError fun
    | .err error => .err (.core error)
    | .panic message => .panic message)
  writeFailure failed
  get id

theorem get_of_some {db : Db} {id : ResourceId} {resource : Resource}
    (h : db.resources.get id = some resource) : get id db = (db, .ok resource) := by
  simp only [get, h]

theorem get_of_none {db : Db} {id : ResourceId} (h : db.resources.get id = none) :
    get id db = (db, .error (.err (.notFound (toString id)))) := by
  simp only [get, h]

def phaseWritten (db : Db) (observed : Resource) : Db :=
  { db with
    resources := db.resources.updateWhere (fun row => decide (row.id = observed.id))
      (·.withPhaseOf observed) fun _ => rfl }

theorem writePhase_of_some {db : Db} {observed row : Resource}
    (h : db.resources.get observed.id = some row) :
    writePhase observed db = (phaseWritten db observed, .ok ()) := by
  have haffected : db.resources.affected (fun row => decide (row.id = observed.id)) ≠ 0 := by
    rw [ne_eq, Table.affected_key_eq_zero_iff, h]
    simp
  simp only [writePhase, phaseWritten, if_neg haffected]

theorem writePhase_of_none {db : Db} {observed : Resource}
    (h : db.resources.get observed.id = none) :
    writePhase observed db = (db, .error (.err (.notFound (toString observed.id)))) := by
  have haffected : db.resources.affected (fun row => decide (row.id = observed.id)) = 0 :=
    (Table.affected_key_eq_zero_iff _ _).mpr h
  have hsame := db.resources.updateWhere_eq_self _ (·.withPhaseOf observed) (fun _ => rfl) haffected
  simp only [writePhase, if_pos haffected, hsame]

theorem get_phaseWritten (db : Db) (observed : Resource) (id : ResourceId) :
    (phaseWritten db observed).resources.get id =
      if id = observed.id then (db.resources.get observed.id).map (·.withPhaseOf observed)
      else db.resources.get id :=
  Table.get_updateWhere_key db.resources observed.id (·.withPhaseOf observed) (fun _ => rfl) id

/-- Writing back what was observed of the stored resource stores exactly that. -/
theorem get_phaseWritten_observe {db : Db} {resource observed : Resource} {phase : ResourcePhase}
    {observedBy : ObservationSource} {reason : Option String} {time : DateTime}
    (hget : db.resources.get resource.id = some resource)
    (h : resource.observe phase observedBy reason time = .ok observed) :
    (phaseWritten db observed).resources.get resource.id = some observed := by
  have heq := (Resource.observe_ok h).2.2
  have hid := Resource.id_of_observe h
  rw [get_phaseWritten, if_pos hid.symm, hid, hget, Option.map_some, heq]

/-- An observation is refused and writes nothing, or follows the lifecycle and is stored. -/
theorem observePhase_cases (db : Db) (id : ResourceId) (phase : ResourcePhase)
    (observedBy : ObservationSource) (reason : Option String) (time : DateTime) :
    (∃ e, observePhase id phase observedBy reason time db = (db, .error (.err e)) ∧
      ∀ resource, db.resources.get id = some resource →
        resource.phase.canTransitionTo phase = false) ∨
    ∃ resource observed, db.resources.get id = some resource ∧
      resource.phase.canTransitionTo phase = true ∧ observed.phase = phase ∧
      observePhase id phase observedBy reason time db =
        (phaseWritten db observed, .ok observed) ∧
      (phaseWritten db observed).resources.get id = some observed := by
  unfold observePhase
  cases hget : db.resources.get id with
  | none =>
    refine .inl ⟨.notFound (toString id), ?_, by simp⟩
    rw [Program.bind_of_error (get_of_none hget)]
  | some resource =>
    have hid : resource.id = id := Table.key_of_get hget
    rw [Program.bind_of_ok (get_of_some hget)]
    cases hobserve : resource.observe phase observedBy reason time with
    | error e =>
      refine .inl ⟨.core e, rfl, fun found hfound => ?_⟩
      obtain rfl := Option.some_inj.mp hfound
      exact Resource.observe_error_iff.mp ⟨e, hobserve⟩
    | ok observed =>
      obtain ⟨hallowed, hphase, -⟩ := Resource.observe_ok hobserve
      have hobservedId : observed.id = id := (Resource.id_of_observe hobserve).trans hid
      have hstored := get_phaseWritten_observe (by rw [hid, hget]) hobserve
      rw [hid] at hstored
      refine .inr ⟨resource, observed, rfl, hallowed, hphase, ?_, hstored⟩
      have hwrite : writePhase observed db = _ :=
        writePhase_of_some (by rw [hobservedId, hget])
      change (writePhase observed >>= fun _ => get id) db = _
      rw [Program.bind_of_ok hwrite, get_of_some hstored]

theorem keeps_get {γ : Type} {view : Db → γ} (id : ResourceId) : (get id).Keeps view := by
  intro db
  unfold get
  split <;> rfl

theorem jobs_observePhase (id : ResourceId) (phase : ResourcePhase)
    (observedBy : ObservationSource) (reason : Option String) (time : DateTime) :
    (observePhase id phase observedBy reason time).Keeps Db.jobs :=
  (keeps_get id).bind fun _ => (Program.keeps_ofExcept _).bind fun _ =>
    Program.Keeps.bind (fun _ => rfl) fun _ => keeps_get id

theorem jobs_recordFailure (id : ResourceId) (reason : String) (secrets : List String)
    (policy : RetryPolicy) (time : DateTime) :
    (recordFailure id reason secrets policy time).Keeps Db.jobs :=
  (keeps_get id).bind fun _ => (Program.keeps_ofExcept _).bind fun _ =>
    Program.Keeps.bind (fun _ => rfl) fun _ => keeps_get id

end PgResourceStore

/-! ## Events and audit -/

/-- The stored form of a draft: its free text redacted, or the first field that still carries a
secret. An absent state is guarded as the empty text. -/
def redactEvent (draft : EventDraft) (secrets : List String) :
    Except ControlPlaneError EventDraft := do
  let before ← redactGuard "event.before" (draft.before.getD "") secrets
  let after ← redactGuard "event.after" (draft.after.getD "") secrets
  let result ← match draft.result with
    | .failed reason => EventResult.failed <$> redactGuard "event.result" reason secrets
    | other => pure other
  return { draft with
    before := draft.before.map fun _ => before
    after := draft.after.map fun _ => after
    result := result }

/-- What a draft that passes every guard is stored as. -/
theorem redactEvent_cases {draft stored : EventDraft} {secrets : List String}
    (h : redactEvent draft secrets = .ok stored) :
    ∃ before after result,
      redactGuard "event.before" (draft.before.getD "") secrets = .ok before ∧
      redactGuard "event.after" (draft.after.getD "") secrets = .ok after ∧
      ((result = draft.result ∧ ∀ reason, draft.result ≠ .failed reason) ∨
        ∃ reason out, redactGuard "event.result" reason secrets = .ok out ∧
          result = .failed out) ∧
      stored = { draft with
        before := draft.before.map fun _ => before
        after := draft.after.map fun _ => after
        result := result } := by
  unfold redactEvent at h
  obtain ⟨before, hbefore, h⟩ := except_bind_eq_ok h
  obtain ⟨after, hafter, h⟩ := except_bind_eq_ok h
  refine ⟨before, after, ?_⟩
  cases hresult : draft.result with
  | failed reason =>
    simp only [hresult] at h
    obtain ⟨result, hfailed, h⟩ := except_bind_eq_ok h
    obtain ⟨out, hguard, hout⟩ := except_bind_eq_ok hfailed
    exact ⟨result, hbefore, hafter, .inr ⟨reason, out, hguard, (Except.ok.inj hout).symm⟩,
      (Except.ok.inj h).symm⟩
  | _ =>
    simp only [hresult] at h
    refine ⟨_, hbefore, hafter, .inl ⟨rfl, ?_⟩, (Except.ok.inj h).symm⟩
    intro reason heq
    cases heq

namespace PgEventStore

def append (draft : EventDraft) (secrets : List String) : Action Unit := do
  let stored ← Action.lift (redactEvent draft secrets)
  fun db => ({ db with events := db.events ++ [stored] }, .ok ())

theorem jobs_append (draft : EventDraft) (secrets : List String) :
    (append draft secrets).Keeps Db.jobs :=
  (Program.keeps_ofExcept _).bind fun _ _ => rfl

theorem resources_append (draft : EventDraft) (secrets : List String) :
    (append draft secrets).Keeps Db.resources :=
  (Program.keeps_ofExcept _).bind fun _ _ => rfl

end PgEventStore

/-- `PgAuditLog::append`, up to the hash chain. -/
def PgAuditLog.append (entry : AuditEntry) (secrets : List String) : Action Unit := do
  let detail ← Action.lift (redactGuard "audit.detail" entry.detail secrets)
  fun db => ({ db with audit := db.audit ++ [{ entry with detail := detail }] }, .ok ())

def PgUsageLedger.record (row : UsageRow) : Action Unit := fun db =>
  ({ db with usage := db.usage ++ [row] }, .ok ())

/-! ## A small store -/

def provisioningResource : Resource where
  id := ⟨1⟩
  kind := "database.postgres"
  desiredVersion := 1
  phase := .provisioning
  generation := 0
  failure := none
  transitions := [⟨.requested, .provisioning, 0, .platformProbe, none⟩]
  evidence := by simp

def queuedStore : Db where
  jobs := (JobsTable.empty.enqueue ⟨7⟩ "res_00000000000000000000000000000001" .provision 1
    RetryPolicy.default 0).1
  resources := ⟨[provisioningResource], by decide⟩
  events := []
  operations := .empty
  audit := []
  usage := []

end Labrys.ControlPlane
