import Mathlib.Data.List.MinMax
import Mathlib.Data.Prod.Lex
import Mathlib.Tactic.Linarith
import Labrys.Core.Ids
import Labrys.Core.Time
import Labrys.Core.Redact
import Labrys.Foundations.Runs
import Labrys.Foundations.Table

/-! # Idempotent jobs and the in-memory queue

`JobQueue` is the stand-in for the durable jobs table: jobs keyed by id, claimed in the order of
their due time, retried with backoff, dead-lettered, paused, resumed and requeued. Time and fresh
ids are arguments. Each operation returns the queue it leaves behind next to its answer, also when
it fails. -/

namespace Labrys.Core
open Foundations
set_option autoImplicit false

/-! ## Jobs -/

inductive JobAction
  | provision | update | rollout | verify | delete
deriving DecidableEq, Repr

def JobAction.asStr : JobAction → String
  | .provision => "provision"
  | .update => "update"
  | .rollout => "rollout"
  | .verify => "verify"
  | .delete => "delete"

structure IdempotencyKey where
  text : String
deriving DecidableEq

def IdempotencyKey.new (target : String) (action : JobAction) (version : ℕ) : IdempotencyKey :=
  ⟨target ++ ":" ++ action.asStr ++ ":v" ++ toString version⟩

inductive JobStatus
  | queued | paused | running | succeeded | dead
deriving DecidableEq, Repr

namespace JobStatus

/-- True while the job may still run, so its idempotency key stays taken. -/
def isInFlight : JobStatus → Bool
  | queued | paused | running => true
  | succeeded | dead => false

def debug : JobStatus → String
  | queued => "Queued"
  | paused => "Paused"
  | running => "Running"
  | succeeded => "Succeeded"
  | dead => "Dead"

end JobStatus

structure Job where
  id : JobId
  target : String
  action : JobAction
  idempotencyKey : IdempotencyKey
  status : JobStatus
  attempts : ℕ
  policy : RetryPolicy
  nextAttemptAt : DateTime
  lastError : Option String
  enqueuedAt : DateTime
  updatedAt : DateTime
deriving DecidableEq

def Job.fresh (id : JobId) (target : String) (action : JobAction) (version : ℕ)
    (policy : RetryPolicy) (time : DateTime) : Job where
  id := id
  target := target
  action := action
  idempotencyKey := IdempotencyKey.new target action version
  status := .queued
  attempts := 0
  policy := policy
  nextAttemptAt := time
  lastError := none
  enqueuedAt := time
  updatedAt := time

theorem Job.id_fresh (id : JobId) (target : String) (action : JobAction) (version : ℕ)
    (policy : RetryPolicy) (time : DateTime) :
    (Job.fresh id target action version policy time).id = id := rfl

/-- When a job is due: by its next attempt, then by its enqueueing. -/
def DueTime := DateTime ×ₗ DateTime

instance : LinearOrder DueTime :=
  @Prod.Lex.instLinearOrder ℤ ℤ Int.instLinearOrder Int.instLinearOrder

def Job.due (job : Job) : DueTime := toLex (job.nextAttemptAt, job.enqueuedAt)

def Job.claimable (now : DateTime) (job : Job) : Bool :=
  decide (job.status = .queued) && decide (job.nextAttemptAt ≤ now)

inductive EnqueueOutcome
  | enqueued (id : JobId)
  | duplicate (id : JobId)
deriving DecidableEq

/-! ## The queue -/

/-- Jobs by id; every job sits under its own id. -/
structure JobQueue where
  jobs : Std.TreeMap JobId Job
  keyed : ∀ (id : JobId) (job : Job), jobs[id]? = some job → job.id = id

namespace JobQueue

def new : JobQueue := ⟨∅, by simp⟩

def get (q : JobQueue) (id : JobId) : Option Job := q.jobs[id]?

def values (q : JobQueue) : List Job := q.jobs.toList.map Prod.snd

def put (q : JobQueue) (job : Job) : JobQueue where
  jobs := q.jobs.insert job.id job
  keyed := by
    intro id found h
    rw [Std.TreeMap.getElem?_insert] at h
    split at h
    · next heq =>
      rw [← Std.LawfulEqOrd.eq_of_compare heq, ← Option.some_inj.mp h]
    · exact q.keyed id found h

/-- Enqueues unless an in-flight job with the same key exists. -/
def enqueue (q : JobQueue) (id : JobId) (target : String) (action : JobAction) (version : ℕ)
    (policy : RetryPolicy) (time : DateTime) : JobQueue × EnqueueOutcome :=
  let key := IdempotencyKey.new target action version
  match q.values.find? fun job => decide (job.idempotencyKey = key) && job.status.isInFlight with
  | some existing => (q, .duplicate existing.id)
  | none => (q.put (Job.fresh id target action version policy time), .enqueued id)

/-- Claims the earliest-due queued job. `min_by_key` keeps the first of equal keys, as `argmin`. -/
def claimNext (q : JobQueue) (now : DateTime) : JobQueue × Option JobId :=
  match (q.values.filter (Job.claimable now)).argmin Job.due with
  | some job =>
      (q.put { job with status := .running, attempts := job.attempts + 1, updatedAt := now },
        some job.id)
  | none => (q, none)

def jobNotFound (id : JobId) : CoreError := .notFound s!"job {id}"

def runningJob (q : JobQueue) (id : JobId) : Except CoreError Job :=
  match q.get id with
  | none => .error (jobNotFound id)
  | some job =>
      if job.status = .running then .ok job
      else .error (.reconciliation s!"job {id} is not running ({job.status.debug})")

def complete (q : JobQueue) (id : JobId) (now : DateTime) : JobQueue × Outcome CoreError Unit :=
  match q.runningJob id with
  | .error e => (q, .error (.err e))
  | .ok job =>
      (q.put { job with status := .succeeded, lastError := none, updatedAt := now }, .ok ())

/-- Records an attempt failure: re-queues with backoff, or dead-letters. The delay is computed
before anything else, also for a job that dead-letters; the error and the time are written before
the next attempt is computed, so a panic there leaves them behind. -/
def fail (q : JobQueue) (id : JobId) (error : String) (now : DateTime) :
    JobQueue × Outcome CoreError JobStatus :=
  match q.runningJob id with
  | .error e => (q, .error (.err e))
  | .ok job =>
      match job.policy.delayFor (max job.attempts 1) with
      | none => (q, .error (.panic secondsOutOfBounds))
      | some delay =>
          let job := { job with lastError := some (redactReason error []), updatedAt := now }
          if job.policy.maxAttempts ≤ job.attempts then
            (q.put { job with status := .dead }, .ok .dead)
          else
            match DateTime.add now delay with
            | none => (q.put job, .error (.panic dateTimeOverflowed))
            | some next => (q.put { job with nextAttemptAt := next, status := .queued }, .ok .queued)

/-- Common shape of `pause`, `resume` and `requeue`: the job must be in one status, and is
rewritten. -/
def adjust (q : JobQueue) (id : JobId) (wanted : JobStatus) (rule : String) (change : Job → Job) :
    JobQueue × Outcome CoreError Unit :=
  match q.get id with
  | none => (q, .error (.err (jobNotFound id)))
  | some job =>
      if job.status = wanted then (q.put (change job), .ok ())
      else (q, .error (.err (.reconciliation s!"{rule}, job {id} is {job.status.debug}")))

def pause (q : JobQueue) (id : JobId) (now : DateTime) : JobQueue × Outcome CoreError Unit :=
  q.adjust id .queued "only queued jobs can be paused" fun job =>
    { job with status := .paused, updatedAt := now }

def resume (q : JobQueue) (id : JobId) (now : DateTime) : JobQueue × Outcome CoreError Unit :=
  q.adjust id .paused "only paused jobs can be resumed" fun job =>
    { job with status := .queued, nextAttemptAt := now, updatedAt := now }

def requeue (q : JobQueue) (id : JobId) (now : DateTime) : JobQueue × Outcome CoreError Unit :=
  q.adjust id .dead "only dead jobs can be requeued" fun job =>
    { job with status := .queued, attempts := 0, nextAttemptAt := now, updatedAt := now }

/-! ## Reading the queue after a write -/

@[simp] theorem get_new (id : JobId) : new.get id = none := by simp [new, get]

theorem get_id {q : JobQueue} {id : JobId} {job : Job} (h : q.get id = some job) : job.id = id :=
  q.keyed id job h

theorem get_put (q : JobQueue) (job : Job) (id : JobId) :
    (q.put job).get id = if job.id = id then some job else q.get id := by
  rw [get, put, treeMap_getElem?_insert, get]

theorem mem_values {q : JobQueue} {job : Job} : job ∈ q.values ↔ q.get job.id = some job := by
  refine mem_treeMap_values.trans ⟨?_, fun h => ⟨job.id, h⟩⟩
  rintro ⟨id, hget⟩
  rw [q.keyed id job hget]
  exact hget

end JobQueue
end Labrys.Core
