import Labrys.Core.JobQueue
import Labrys.Foundations.Table

/-! # The durable queue

`PgJobQueue` over the `jobs` table. A row is a job with its lease; ids and idempotency keys are
unique, as the schema has it. Every statement or transaction is one atomic operation on the table,
and gives back the table it leaves and the answer. Every instant reaches a statement as a bound
`timestamptz`, so what the table compares and keeps are whole microseconds. -/

namespace Labrys.ControlPlane
open Foundations Labrys.Core
set_option autoImplicit false

structure JobRow extends Job where
  leaseOwner : Option String
  leaseExpiresAt : Option DateTime
deriving DecidableEq

structure ClaimedJob where
  job : Job
  leaseOwner : String
  leaseExpiresAt : DateTime
deriving DecidableEq

/-- The `jobs` table: `id` is the primary key and `idempotency_key` is unique. -/
structure JobsTable where
  jobs : Table fun row : JobRow => row.id
  keys : (jobs.rows.map fun row => row.idempotencyKey).Nodup

def statusName : JobStatus → String
  | .queued => "queued"
  | .paused => "paused"
  | .running => "running"
  | .succeeded => "succeeded"
  | .dead => "dead"

/-! ## Rows -/

namespace JobRow

def fresh (id : JobId) (target : String) (action : JobAction) (version : ℕ)
    (policy : RetryPolicy) (time : DateTime) : JobRow where
  toJob := Job.fresh id target action version policy (timestamptz time)
  leaseOwner := none
  leaseExpiresAt := none

def heldBy (worker : String) (row : JobRow) : Bool :=
  decide (row.status = .running) && decide (row.leaseOwner = some worker)

/-- Queued, with its next attempt at or before the bound time. -/
def claimable (now : DateTime) (row : JobRow) : Bool := row.toJob.claimable (timestamptz now)

/-- Running under a lease that is over; a row without an expiry is not selected. -/
def expired (now : DateTime) (row : JobRow) : Bool :=
  decide (row.status = .running) &&
    row.leaseExpiresAt.any fun expires => decide (expires ≤ timestamptz now)

def claimed (worker : String) (now expires : DateTime) (row : JobRow) : JobRow :=
  { row with
    status := .running, attempts := row.attempts + 1, leaseOwner := some worker,
    leaseExpiresAt := some (timestamptz expires), updatedAt := timestamptz now }

def completed (now : DateTime) (row : JobRow) : JobRow :=
  { row with
    status := .succeeded, lastError := none, leaseOwner := none, leaseExpiresAt := none,
    updatedAt := timestamptz now }

/-- The one update of `fail`; `updated_at` is bound to the next attempt. -/
def failed (status : JobStatus) (error : String) (next : DateTime) (row : JobRow) : JobRow :=
  { row with
    status := status, lastError := some error, nextAttemptAt := timestamptz next,
    leaseOwner := none, leaseExpiresAt := none, updatedAt := timestamptz next }

def moved (target : JobStatus) (resetNext : Bool) (now : DateTime) (row : JobRow) : JobRow :=
  { row with
    status := target,
    nextAttemptAt := if resetNext then timestamptz now else row.nextAttemptAt,
    updatedAt := timestamptz now }

def requeued (now : DateTime) (row : JobRow) : JobRow :=
  { row with
    status := .queued, attempts := 0, nextAttemptAt := timestamptz now, lastError := none,
    leaseOwner := none, leaseExpiresAt := none, updatedAt := timestamptz now }

def recovered (now : DateTime) (row : JobRow) : JobRow :=
  { row with
    status := .queued, leaseOwner := none, leaseExpiresAt := none,
    lastError := some "lease expired; job recovered for re-claim", updatedAt := timestamptz now }

theorem claimable_iff {now : DateTime} {row : JobRow} :
    row.claimable now = true ↔ row.status = .queued ∧ row.nextAttemptAt ≤ timestamptz now := by
  simp only [claimable, Job.claimable, Bool.and_eq_true, decide_eq_true_eq]

/-- A rewrite of a row that leaves both unique columns alone. -/
def KeepsKeys (f : JobRow → JobRow) : Prop :=
  ∀ row, (f row).id = row.id ∧ (f row).idempotencyKey = row.idempotencyKey

end JobRow

/-! ## Statements on the table -/

namespace JobsTable

def empty : JobsTable := ⟨Table.empty, List.nodup_nil⟩

def get (t : JobsTable) (id : JobId) : Option JobRow := t.jobs.get id

def updateWhere (t : JobsTable) (p : JobRow → Bool) (f : JobRow → JobRow)
    (hf : JobRow.KeepsKeys f) : JobsTable where
  jobs := t.jobs.updateWhere p f fun row => (hf row).1
  keys := by
    have hkeys : ((t.jobs.updateWhere p f fun row => (hf row).1).rows.map
        fun row => row.idempotencyKey) = t.jobs.rows.map fun row => row.idempotencyKey := by
      rw [Table.updateWhere, List.map_map]
      refine List.map_congr_left fun row _ => ?_
      simp only [Function.comp_apply]
      split
      · exact (hf row).2
      · rfl
    rw [hkeys]
    exact t.keys

/-- An update of the row `id` that must not come back with no row affected. -/
def updateRow (t : JobsTable) (id : JobId) (p : JobRow → Bool) (f : JobRow → JobRow)
    (hf : JobRow.KeepsKeys f) (error : ControlPlaneError) :
    JobsTable × Outcome ControlPlaneError Unit :=
  let wanted := fun row : JobRow => decide (row.id = id) && p row
  (t.updateWhere wanted f hf,
    if t.jobs.affected wanted = 0 then .error (.err error) else .ok ())

def insert (t : JobsTable) (row : JobRow) (hid : t.get row.id = none)
    (hkey : ∀ other ∈ t.jobs.rows, other.idempotencyKey ≠ row.idempotencyKey) : JobsTable where
  jobs := t.jobs.insert row hid
  keys := by
    have hrows : (t.jobs.insert row hid).rows = t.jobs.rows ++ [row] := rfl
    rw [hrows, List.map_append, List.nodup_append]
    refine ⟨t.keys, List.nodup_singleton _, ?_⟩
    intro a ha b hb hab
    obtain ⟨other, hother, rfl⟩ := List.mem_map.mp ha
    rw [List.map_singleton, List.mem_singleton] at hb
    exact hkey other hother (hab.trans hb)

/-! ## The operations of `PgJobQueue` -/

def withKey (t : JobsTable) (key : IdempotencyKey) : Option JobRow :=
  t.jobs.rows.find? fun row => decide (row.idempotencyKey = key)

theorem withKey_eq_none {t : JobsTable} {key : IdempotencyKey} (h : t.withKey key = none) :
    ∀ other ∈ t.jobs.rows, other.idempotencyKey ≠ key := by
  intro other hother
  simpa using List.find?_eq_none.mp h other hother

/-- `INSERT .. ON CONFLICT (idempotency_key) DO NOTHING`: a taken key, of an active or a terminal
job, gives the job that has it. -/
def enqueue (t : JobsTable) (id : JobId) (target : String) (action : JobAction) (version : ℕ)
    (policy : RetryPolicy) (time : DateTime) :
    JobsTable × Outcome ControlPlaneError EnqueueOutcome :=
  match hkey : t.withKey (IdempotencyKey.new target action version) with
  | some existing => (t, .ok (.duplicate existing.id))
  | none =>
      match hid : t.get id with
      | some _ => (t, .error (.err (.database
          "duplicate key value violates unique constraint \"jobs_pkey\"")))
      | none => (t.insert (JobRow.fresh id target action version policy time) hid
          (withKey_eq_none hkey), .ok (.enqueued id))

/-- Claims the earliest-due queued row for a worker, whose lease expires as the row has it. `skip`
are the rows that `FOR UPDATE SKIP LOCKED` passes over because another transaction has them. -/
def claimNext (t : JobsTable) (worker : String) (now : DateTime) (lease : Duration)
    (skip : JobId → Bool) : JobsTable × Outcome ControlPlaneError (Option ClaimedJob) :=
  match DateTime.add now lease with
  | none => (t, .error (.panic dateTimeOverflowed))
  | some expires =>
      let due := t.jobs.rows.filter fun row => row.claimable now && !skip row.id
      match due.argmin fun row => row.toJob.due with
      | none => (t, .ok none)
      | some row =>
          (t.updateWhere (fun other => decide (other.id = row.id))
              (JobRow.claimed worker now expires) fun _ => ⟨rfl, rfl⟩,
            .ok (some ⟨(row.claimed worker now expires).toJob, worker, timestamptz expires⟩))

def notRunningUnder (id : JobId) (worker : String) : ControlPlaneError :=
  .jobState s!"job {id} is not running under worker {worker}"

def complete (t : JobsTable) (id : JobId) (worker : String) (now : DateTime) :
    JobsTable × Outcome ControlPlaneError Unit :=
  t.updateRow id (JobRow.heldBy worker) (JobRow.completed now) (fun _ => ⟨rfl, rfl⟩)
    (notRunningUnder id worker)

/-- Status and next attempt of a failed row, or the message of the backoff's panic. -/
def afterFailure (row : JobRow) (now : DateTime) : Except String (JobStatus × DateTime) :=
  let attempts := max row.attempts 1
  if row.policy.maxAttempts ≤ attempts then .ok (.dead, now)
  else
    match row.policy.delayFor attempts with
    | none => .error secondsOutOfBounds
    | some delay =>
        match DateTime.add now delay with
        | none => .error dateTimeOverflowed
        | some next => .ok (.queued, next)

/-- Records an attempt failure. The row is read under a lock and written by its id alone in the
same transaction; a panic in between rolls back. -/
def fail (t : JobsTable) (id : JobId) (worker : String) (error : String) (now : DateTime) :
    JobsTable × Outcome ControlPlaneError JobStatus :=
  match (t.get id).filter (JobRow.heldBy worker) with
  | none => (t, .error (.err (notRunningUnder id worker)))
  | some row =>
      match redactGuard "job.last_error" error [] with
      | .error e => (t, .error (.err e))
      | .ok redacted =>
          match afterFailure row now with
          | .error message => (t, .error (.panic message))
          | .ok (status, next) =>
              (t.updateWhere (fun other => decide (other.id = id))
                  (JobRow.failed status redacted next) fun _ => ⟨rfl, rfl⟩,
                .ok status)

def transition (t : JobsTable) (id : JobId) (source target : JobStatus) (resetNext : Bool)
    (now : DateTime) : JobsTable × Outcome ControlPlaneError Unit :=
  t.updateRow id (fun row => decide (row.status = source)) (JobRow.moved target resetNext now)
    (fun _ => ⟨rfl, rfl⟩)
    (.jobState s!"cannot move job {id} from {statusName source} to {statusName target}")

def pause (t : JobsTable) (id : JobId) (now : DateTime) :
    JobsTable × Outcome ControlPlaneError Unit :=
  t.transition id .queued .paused false now

def resume (t : JobsTable) (id : JobId) (now : DateTime) :
    JobsTable × Outcome ControlPlaneError Unit :=
  t.transition id .paused .queued true now

def requeue (t : JobsTable) (id : JobId) (now : DateTime) :
    JobsTable × Outcome ControlPlaneError Unit :=
  t.updateRow id (fun row => decide (row.status = .dead)) (JobRow.requeued now)
    (fun _ => ⟨rfl, rfl⟩)
    (.jobState s!"only dead jobs can be requeued; job {id} is not dead")

def recoverExpiredLeases (t : JobsTable) (now : DateTime) : JobsTable × List JobId :=
  (t.updateWhere (JobRow.expired now) (JobRow.recovered now) fun _ => ⟨rfl, rfl⟩,
    (t.jobs.rows.filter (JobRow.expired now)).map fun row => row.id)

/-! ## Reading the table after a statement -/

@[simp] theorem get_empty (id : JobId) : empty.get id = none := rfl

theorem get_id {t : JobsTable} {id : JobId} {row : JobRow} (h : t.get id = some row) :
    row.id = id :=
  Table.key_of_get (t := t.jobs) h

theorem mem_rows {t : JobsTable} {row : JobRow} :
    row ∈ t.jobs.rows ↔ t.get row.id = some row :=
  Table.mem_rows_iff (t := t.jobs)

theorem eq_of_key {t : JobsTable} {a b : JobRow} (ha : t.get a.id = some a)
    (hb : t.get b.id = some b) (hkey : a.idempotencyKey = b.idempotencyKey) : a = b :=
  List.inj_on_of_nodup_map t.keys (mem_rows.mpr ha) (mem_rows.mpr hb) hkey

theorem get_updateWhere (t : JobsTable) (p : JobRow → Bool) (f : JobRow → JobRow)
    (hf : JobRow.KeepsKeys f) (id : JobId) :
    (t.updateWhere p f hf).get id = (t.get id).map fun row => if p row then f row else row :=
  Table.get_updateWhere t.jobs p f (fun row => (hf row).1) id

theorem get_updateWhere_id (t : JobsTable) (f : JobRow → JobRow) (hf : JobRow.KeepsKeys f)
    {row : JobRow} {id : JobId} (h : t.get id = some row) (k : JobId) :
    (t.updateWhere (fun other => decide (other.id = id)) f hf).get k =
      if k = id then some (f row) else t.get k := by
  rw [← Option.map_some, ← h]
  exact t.jobs.get_updateWhere_key id f (fun row => (hf row).1) k

theorem get_insert (t : JobsTable) (row : JobRow) (hid : t.get row.id = none)
    (hkey : ∀ other ∈ t.jobs.rows, other.idempotencyKey ≠ row.idempotencyKey) (id : JobId) :
    (t.insert row hid hkey).get id = if row.id = id then some row else t.get id :=
  Table.get_insert t.jobs row hid id

theorem updateWhere_eq_self (t : JobsTable) (p : JobRow → Bool) (f : JobRow → JobRow)
    (hf : JobRow.KeepsKeys f) (h : t.jobs.affected p = 0) : t.updateWhere p f hf = t := by
  obtain ⟨jobs, keys⟩ := t
  simp only [updateWhere, Table.updateWhere_eq_self jobs p f (fun row => (hf row).1) h]

end JobsTable
end Labrys.ControlPlane
