import Labrys.ControlPlane.Store

/-! # The reconciliation worker

`Worker.finalize` is the pass over one claimed job as the source writes it: dispatch, record what
was observed, settle the job, record the event. The second half of the module cuts the whole loop
of `Worker::run` at its database statements: a worker is at one place of its loop, and each step
makes one statement, asks the clock, the stop flag or the dispatcher, and moves on. That is the
form in which workers are interleaved, crash and see each other's writes; `solo_finalize` says that
a worker left alone does exactly what `finalize` does. -/

namespace Labrys.ControlPlane
open Foundations Labrys.Core
set_option autoImplicit false

inductive DispatchOutcome
  | ready (resource : ResourceId)
  | degraded (resource : ResourceId)
  | inProgress
  | failed (reason : String)
deriving DecidableEq

abbrev Dispatcher := Job → Action DispatchOutcome

inductive TickOutcome
  | completed (job : JobId) (ready : Bool)
  | retried (job : JobId) (attempts : ℕ)
  | deadLettered (job : JobId)
deriving DecidableEq

/-- The settings of a worker; the polling and draining intervals only pass time. -/
structure Worker where
  workerId : String
  lease : Duration
  secrets : List String

structure Report where
  action : EventAction
  result : EventResult
  detail : String
deriving DecidableEq

namespace Worker
variable (w : Worker)

/-! ## One claimed job -/

def draft (now : DateTime) (report : Report) : EventDraft :=
  { EventDraft.new now (.platform w.workerId) (Correlation.new s!"worker:{w.workerId}")
      report.action report.result with
    resource := some ⟨"worker", w.workerId⟩
    after := some report.detail }

def recordEvent (now : DateTime) (report : Report) : Action Unit :=
  PgEventStore.append (w.draft now report) w.secrets

def probeReason : Option String := some s!"observed by worker {w.workerId}"

/-- `observe`: the job it is given has no part in the write. -/
def observe (resource : ResourceId) (phase : ResourcePhase) (now : DateTime) : Action Unit := do
  let _ ← PgResourceStore.observePhase resource phase .platformProbe w.probeReason now
  return ()

def readyReport (job : Job) : Report :=
  ⟨.resourceProvisioned, .succeeded, s!"job {job.id} ready via worker {w.workerId}"⟩

def degradedReport (job : Job) : Report :=
  ⟨.resourceProvisioned, .succeeded, s!"job {job.id} degraded via worker {w.workerId}"⟩

def inProgressReport (job : Job) : Report :=
  ⟨.reconciled, .accepted, s!"job {job.id} in progress via worker {w.workerId}"⟩

def failedReport (job : Job) (reason : String) : Report :=
  ⟨.reconciled, .failed reason,
    s!"job {job.id} attempt {job.attempts} failed via worker {w.workerId}"⟩

def complete (job : Job) (now : DateTime) : Action Unit :=
  Action.onJobs fun t => t.complete job.id w.workerId now

def fail (job : Job) (reason : String) (now : DateTime) : Action JobStatus :=
  Action.onJobs fun t => t.fail job.id w.workerId reason now

def failedOutcome (job : Job) : JobStatus → TickOutcome
  | .dead => .deadLettered job.id
  | _ => .retried job.id job.attempts

/-- `finalize`, from its reading of the clock on. -/
def finalize (dispatch : Dispatcher) (claimed : ClaimedJob) (now : DateTime) :
    Action TickOutcome := do
  let job := claimed.job
  match ← dispatch job with
  | .ready resource =>
      w.observe resource .ready now
      w.complete job now
      w.recordEvent now (w.readyReport job)
      return .completed job.id true
  | .degraded resource =>
      w.observe resource .degraded now
      w.complete job now
      w.recordEvent now (w.degradedReport job)
      return .completed job.id false
  | .inProgress =>
      w.complete job now
      w.recordEvent now (w.inProgressReport job)
      return .completed job.id false
  | .failed reason =>
      let reason := redactReason reason w.secrets
      let status ← w.fail job reason now
      w.recordEvent now (w.failedReport job reason)
      return failedOutcome job status

theorem jobs_recordEvent (now : DateTime) (report : Report) :
    (w.recordEvent now report).Keeps Db.jobs :=
  PgEventStore.jobs_append _ _

theorem resources_recordEvent (now : DateTime) (report : Report) :
    (w.recordEvent now report).Keeps Db.resources :=
  PgEventStore.resources_append _ _

theorem observe_of_phase {db : Db} {id : ResourceId} {resource : Resource}
    (hget : db.resources.get id = some resource) {phase : ResourcePhase}
    (hphase : resource.phase = phase) (now : DateTime) :
    ∃ e, w.observe id phase now db = (db, .error (.err e)) := by
  obtain ⟨e, heq, -⟩ | ⟨found, observed, hfound, hallowed, -⟩ :=
    PgResourceStore.observePhase_cases db id phase .platformProbe w.probeReason now
  · exact ⟨e, Program.bind_of_error heq _⟩
  · rw [hget] at hfound
    obtain rfl := Option.some_inj.mp hfound
    rw [hphase, phase.not_canTransitionTo_self] at hallowed
    cases hallowed

end Worker

/-! ## The loop, statement by statement -/

inductive WorkerAt
  /-- Before the test of the stop flag at the head of the loop. -/
  | top
  | recovering (now : DateTime)
  | recovered (now : DateTime) (count : ℕ)
  /-- Before the second test of the stop flag. -/
  | polling (now : DateTime)
  | claiming (now : DateTime)
  | dispatching (claimed : ClaimedJob) (now : DateTime)
  /-- Before the read of `observe_phase`. -/
  | observing (claimed : ClaimedJob) (now : DateTime) (resource : ResourceId)
      (phase : ResourcePhase) (report : Report)
  /-- Before its update, with the moved resource in hand. -/
  | writing (claimed : ClaimedJob) (now : DateTime) (resource : ResourceId) (observed : Resource)
      (report : Report)
  | rereading (claimed : ClaimedJob) (now : DateTime) (resource : ResourceId) (report : Report)
  | completing (claimed : ClaimedJob) (now : DateTime) (report : Report)
  | failing (claimed : ClaimedJob) (now : DateTime) (reason : String)
  | recording (now : DateTime) (report : Report)
  /-- `run` returned, or its task panicked. -/
  | ended (outcome : Outcome ControlPlaneError Unit)

/-- What the world supplies to a step: the clock, the rows locked by others, a fault of the
database, and the dispatcher's answer. -/
structure Moment where
  now : DateTime
  skip : JobId → Bool
  fault : Option String
  dispatched : Outcome ControlPlaneError DispatchOutcome

namespace Worker
variable (w : Worker)

/-- One statement: a fault changes nothing and, like every error, ends the loop. -/
def attempt {α : Type} (m : Action α) (fault : Option String) (next : α → WorkerAt) (db : Db) :
    Db × WorkerAt :=
  match fault with
  | some text => (db, .ended (.error (.err (.database text))))
  | none =>
      match m db with
      | (db', .ok a) => (db', next a)
      | (db', .error e) => (db', .ended (.error e))

def onOutcome (claimed : ClaimedJob) (now : DateTime) : DispatchOutcome → WorkerAt
  | .ready resource => .observing claimed now resource .ready (w.readyReport claimed.job)
  | .degraded resource =>
      .observing claimed now resource .degraded (w.degradedReport claimed.job)
  | .inProgress => .completing claimed now (w.inProgressReport claimed.job)
  | .failed reason => .failing claimed now (redactReason reason w.secrets)

def readPhase (resource : ResourceId) (phase : ResourcePhase) (now : DateTime) :
    Action Resource := do
  let found ← PgResourceStore.get resource
  Action.core (found.observe phase .platformProbe w.probeReason now)

/-- One step of the loop. Draining waits for passes in flight, and at the head of the loop there
are none. -/
def step (stopping : Bool) (moment : Moment) (db : Db) : WorkerAt → Db × WorkerAt
  | .top => (db, if stopping then .ended (.ok ()) else .recovering moment.now)
  | .recovering now =>
      attempt (Action.onJobs fun t => ((t.recoverExpiredLeases now).1,
          .ok (t.recoverExpiredLeases now).2))
        moment.fault
        (fun ids => if ids.isEmpty then .polling now else .recovered now ids.length) db
  | .recovered now count =>
      attempt (w.recordEvent now ⟨.reconciled, .accepted, s!"recovered {count} expired lease(s)"⟩)
        moment.fault (fun _ => .polling now) db
  | .polling now => (db, if stopping then .top else .claiming now)
  | .claiming now =>
      attempt (Action.onJobs fun t => t.claimNext w.workerId now w.lease moment.skip) moment.fault
        (fun
          | none => .top
          | some claimed => .dispatching claimed moment.now) db
  | .dispatching claimed now =>
      (db, match moment.dispatched with
        | .ok outcome => w.onOutcome claimed now outcome
        | .error e => .ended (.error e))
  | .observing claimed now resource phase report =>
      attempt (w.readPhase resource phase now) moment.fault
        (fun observed => .writing claimed now resource observed report) db
  | .writing claimed now resource observed report =>
      attempt (PgResourceStore.writePhase observed) moment.fault
        (fun _ => .rereading claimed now resource report) db
  | .rereading claimed now resource report =>
      attempt (PgResourceStore.get resource) moment.fault
        (fun _ => .completing claimed now report) db
  | .completing claimed now report =>
      attempt (w.complete claimed.job now) moment.fault (fun _ => .recording now report) db
  | .failing claimed now reason =>
      attempt (w.fail claimed.job reason now) moment.fault
        (fun _ => .recording now (w.failedReport claimed.job reason)) db
  | .recording now report =>
      attempt (w.recordEvent now report) moment.fault (fun _ => .top) db
  | .ended outcome => (db, .ended outcome)

/-! ## A worker left alone -/

def afterPass : Outcome ControlPlaneError TickOutcome → WorkerAt
  | .ok _ => .top
  | .error e => .ended (.error e)

def alone (stopping : Bool) (moment : Moment) (s : Db × WorkerAt) : Db × WorkerAt :=
  w.step stopping moment s.1 s.2

/-- From this place, a worker left alone does what the rest of a pass does. -/
def Performs (stopping : Bool) (moment : Moment) (place : WorkerAt)
    (m : Action TickOutcome) : Prop :=
  ∀ db, ∃ n, (w.alone stopping moment)^[n] (db, place) = ((m db).1, afterPass (m db).2)

section Alone
variable {w} {stopping : Bool} {moment : Moment}

theorem performs_pure (outcome : TickOutcome) : w.Performs stopping moment .top (pure outcome) :=
  fun _ => ⟨0, rfl⟩

theorem performs_bind {α : Type} {m : Action α} {f : α → Action TickOutcome} {place : WorkerAt}
    {next : α → WorkerAt}
    (hplace : ∀ db, w.step stopping moment db place = attempt m none next db)
    (hnext : ∀ a, w.Performs stopping moment (next a) (f a)) :
    w.Performs stopping moment place (m >>= f) := by
  intro db
  have hfirst : w.alone stopping moment (db, place) = attempt m none next db := hplace db
  cases hm : (m db).2 with
  | ok a =>
    have hok : m db = ((m db).1, .ok a) := Program.run_of_snd hm
    obtain ⟨n, hn⟩ := hnext a (m db).1
    refine ⟨n + 1, ?_⟩
    rw [Function.iterate_succ_apply, hfirst, Program.bind_of_ok hok, ← hn, attempt, hok]
  | error e =>
    have herror : m db = ((m db).1, .error e) := Program.run_of_snd hm
    refine ⟨1, ?_⟩
    rw [Function.iterate_one, hfirst, Program.bind_of_error herror, attempt, herror]
    rfl

variable (hfault : moment.fault = none)
include hfault

theorem performs_recording (now : DateTime) (report : Report) (outcome : TickOutcome) :
    w.Performs stopping moment (.recording now report)
      (w.recordEvent now report >>= fun _ => pure outcome) :=
  performs_bind (fun db => by simp only [step, hfault]) fun _ => performs_pure outcome

theorem performs_completing (claimed : ClaimedJob) (now : DateTime) (report : Report)
    (outcome : TickOutcome) :
    w.Performs stopping moment (.completing claimed now report)
      (w.complete claimed.job now >>= fun _ =>
        w.recordEvent now report >>= fun _ => pure outcome) :=
  performs_bind (fun db => by simp only [step, hfault]) fun _ =>
    performs_recording hfault now report outcome

theorem performs_observing (claimed : ClaimedJob) (now : DateTime) (resource : ResourceId)
    (phase : ResourcePhase) (report : Report) (outcome : TickOutcome) :
    w.Performs stopping moment (.observing claimed now resource phase report)
      (w.observe resource phase now >>= fun _ => w.complete claimed.job now >>= fun _ =>
        w.recordEvent now report >>= fun _ => pure outcome) := by
  have hcut : (w.observe resource phase now >>= fun _ => w.complete claimed.job now >>= fun _ =>
        w.recordEvent now report >>= fun _ => pure outcome) =
      (w.readPhase resource phase now >>= fun observed =>
        PgResourceStore.writePhase observed >>= fun _ => PgResourceStore.get resource >>= fun _ =>
        w.complete claimed.job now >>= fun _ => w.recordEvent now report >>= fun _ =>
        pure outcome) := by
    simp only [observe, PgResourceStore.observePhase, readPhase, bind_assoc, pure_bind]
  have hread : ∀ db, w.step stopping moment db (.observing claimed now resource phase report) =
      attempt (w.readPhase resource phase now) none
        (fun observed => .writing claimed now resource observed report) db :=
    fun db => by simp only [step, hfault]
  have hwrite : ∀ observed db,
      w.step stopping moment db (.writing claimed now resource observed report) =
        attempt (PgResourceStore.writePhase observed) none
          (fun _ => .rereading claimed now resource report) db :=
    fun observed db => by simp only [step, hfault]
  rw [hcut]
  refine performs_bind hread fun observed => performs_bind (hwrite observed) fun _ => ?_
  exact performs_bind (fun db => by simp only [step, hfault]) fun _ =>
    performs_completing hfault claimed now report outcome

theorem performs_failing (claimed : ClaimedJob) (now : DateTime) (reason : String) :
    w.Performs stopping moment (.failing claimed now reason)
      (w.fail claimed.job reason now >>= fun status =>
        w.recordEvent now (w.failedReport claimed.job reason) >>= fun _ =>
        pure (failedOutcome claimed.job status)) :=
  performs_bind (fun db => by simp only [step, hfault]) fun status =>
    performs_recording hfault now (w.failedReport claimed.job reason)
      (failedOutcome claimed.job status)

/-- **The cut loop is the pass.** Left alone with a working database, a worker that is about to
dispatch ends up with the store and the result of `finalize`. -/
theorem solo_finalize (claimed : ClaimedJob) (now : DateTime) :
    w.Performs stopping moment (.dispatching claimed now)
      (w.finalize (fun _ => Program.ofExcept moment.dispatched) claimed now) := by
  intro db
  have hfirst : w.alone stopping moment (db, .dispatching claimed now) =
      (db, match moment.dispatched with
        | .ok outcome => w.onOutcome claimed now outcome
        | .error e => .ended (.error e)) := rfl
  suffices hrest : ∃ n, (w.alone stopping moment)^[n]
      (w.alone stopping moment (db, .dispatching claimed now)) =
        ((w.finalize (fun _ => Program.ofExcept moment.dispatched) claimed now db).1,
          afterPass (w.finalize (fun _ => Program.ofExcept moment.dispatched) claimed now db).2) by
    obtain ⟨n, hn⟩ := hrest
    exact ⟨n + 1, by rw [Function.iterate_succ_apply, hn]⟩
  rw [hfirst]
  cases moment.dispatched with
  | error e => exact ⟨0, rfl⟩
  | ok outcome =>
    cases outcome with
    | ready resource => exact performs_observing hfault claimed now resource .ready _ _ db
    | degraded resource => exact performs_observing hfault claimed now resource .degraded _ _ db
    | inProgress => exact performs_completing hfault claimed now _ _ db
    | failed reason => exact performs_failing hfault claimed now _ db

end Alone

end Worker
end Labrys.ControlPlane
