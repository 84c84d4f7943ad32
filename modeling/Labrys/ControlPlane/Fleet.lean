import Mathlib.Logic.Function.Basic
import Labrys.ControlPlane.JobsRuns
import Labrys.ControlPlane.Worker

/-! # Workers side by side

A fleet of workers over one store, told apart by their ids, each at its own place of its loop. One
event is one step of one worker, one operation of a client on the queue, any change of the other
tables by somebody else, a stop signal, or a process that died and was started again. A process
that died and stayed dead is one that takes no further step. -/

namespace Labrys.ControlPlane
open Foundations Labrys.Core
set_option autoImplicit false

structure Fleet where
  db : Db
  place : String → WorkerAt
  stopping : String → Bool

inductive FleetEvent
  | work (worker : String) (moment : Moment)
  | client (op : ClientOp)
  /-- Somebody else's writes to every table but `jobs`. -/
  | elsewhere (change : Db)
  | stop (worker : String)
  | restart (worker : String)

structure FleetSettings where
  lease : String → Duration
  secrets : String → List String

namespace FleetSettings
variable (settings : FleetSettings)

def worker (id : String) : Worker := ⟨id, settings.lease id, settings.secrets id⟩

def step (s : Fleet) : FleetEvent → Fleet × Unit
  | .work id moment =>
      let result := (settings.worker id).step (s.stopping id) moment s.db (s.place id)
      ({ s with db := result.1, place := Function.update s.place id result.2 }, ())
  | .client op => ({ s with db := { s.db with jobs := pgJobQueue.next s.db.jobs op.toPg } }, ())
  | .elsewhere change => ({ s with db := { change with jobs := s.db.jobs } }, ())
  | .stop id => ({ s with stopping := Function.update s.stopping id true }, ())
  | .restart id =>
      ({ s with
          place := Function.update s.place id .top
          stopping := Function.update s.stopping id false }, ())

def fleet : Machine Fleet FleetEvent Unit := ⟨settings.step⟩

theorem place_work_self (s : Fleet) (id : String) (moment : Moment) :
    (settings.fleet.next s (.work id moment)).place id =
      ((settings.worker id).step (s.stopping id) moment s.db (s.place id)).2 :=
  Function.update_self _ _ _

theorem place_work_of_ne (s : Fleet) {id worker : String} (hid : worker ≠ id) (moment : Moment) :
    (settings.fleet.next s (.work id moment)).place worker = s.place worker :=
  Function.update_of_ne hid _ _

theorem place_restart (s : Fleet) (id worker : String) :
    (settings.fleet.next s (.restart id)).place worker =
      if worker = id then .top else s.place worker :=
  Function.update_apply _ _ _ _

end FleetSettings

def Fleet.start (db : Db) : Fleet := ⟨db, fun _ => .top, fun _ => false⟩

/-! ## What a worker's step touches -/

namespace Worker
variable (w : Worker)

theorem attempt_fst {α γ : Type} (view : Db → γ) {m : Action α} (hm : m.Keeps view)
    (fault : Option String) (next : α → WorkerAt) (db : Db) :
    view (attempt m fault next db).1 = view db := by
  unfold attempt
  cases fault with
  | some text => rfl
  | none =>
    dsimp only
    rw [← hm db]
    cases m db with
    | mk db' outcome => cases outcome <;> rfl

theorem attempt_cases {α : Type} (m : Action α) (fault : Option String) (next : α → WorkerAt)
    (db : Db) :
    (∃ e, (attempt m fault next db).2 = .ended (.error e)) ∨
      ∃ a, m db = ((attempt m fault next db).1, .ok a) ∧ (attempt m fault next db).2 = next a := by
  unfold attempt
  cases fault with
  | some text => exact .inl ⟨_, rfl⟩
  | none =>
    dsimp only
    cases m db with
    | mk db' outcome =>
      cases outcome with
      | ok a => exact .inr ⟨a, rfl, rfl⟩
      | error e => exact .inl ⟨e, rfl⟩

def queueOp (moment : Moment) : WorkerAt → Option PgOp
  | .recovering now => if moment.fault = none then some (.recoverExpiredLeases now) else none
  | .claiming now =>
      if moment.fault = none then some (.claimNext w.workerId now w.lease moment.skip) else none
  | .completing claimed now _ =>
      if moment.fault = none then some (.complete claimed.job.id w.workerId now) else none
  | .failing claimed now reason =>
      if moment.fault = none then some (.fail claimed.job.id w.workerId reason now) else none
  | _ => none

def afterOp (t : JobsTable) : Option PgOp → JobsTable
  | none => t
  | some op => pgJobQueue.next t op

theorem jobs_attempt_onJobs {α : Type} (op : PgOp)
    {query : JobsTable → JobsTable × Outcome ControlPlaneError α}
    (hquery : ∀ t, (query t).1 = pgJobQueue.next t op) (fault : Option String)
    (next : α → WorkerAt) (db : Db) :
    (attempt (Action.onJobs query) fault next db).1.jobs =
      afterOp db.jobs (if fault = none then some op else none) := by
  cases fault with
  | some text => rfl
  | none =>
    rw [if_pos rfl, afterOp, ← hquery db.jobs]
    simp only [attempt, Action.onJobs]
    cases (query db.jobs).2 <;> rfl

/-- A step of a worker changes the queue by its operation and by nothing else. -/
theorem jobs_step (stopping : Bool) (moment : Moment) (db : Db) (place : WorkerAt) :
    (w.step stopping moment db place).1.jobs = afterOp db.jobs (w.queueOp moment place) := by
  cases place with
  | recovering now => exact jobs_attempt_onJobs _ (fun _ => rfl) _ _ db
  | claiming now => exact jobs_attempt_onJobs _ (fun _ => rfl) _ _ db
  | completing claimed now report => exact jobs_attempt_onJobs _ (fun _ => rfl) _ _ db
  | failing claimed now reason => exact jobs_attempt_onJobs _ (fun _ => rfl) _ _ db
  | recovered now count => exact attempt_fst Db.jobs (w.jobs_recordEvent now _) _ _ db
  | recording now report => exact attempt_fst Db.jobs (w.jobs_recordEvent now _) _ _ db
  | observing claimed now resource phase report =>
    exact attempt_fst Db.jobs ((PgResourceStore.keeps_get resource).bind fun _ =>
      Program.keeps_ofExcept _) _ _ db
  | writing claimed now resource observed report =>
    exact attempt_fst Db.jobs (fun _ => rfl) _ _ db
  | rereading claimed now resource report =>
    exact attempt_fst Db.jobs (PgResourceStore.keeps_get resource) _ _ db
  | top => rfl
  | polling now => rfl
  | dispatching claimed now => rfl
  | ended outcome => rfl

/-- Only the update of an observation changes the resources. -/
theorem resources_step (stopping : Bool) (moment : Moment) (db : Db) (place : WorkerAt)
    (hplace : ∀ claimed now resource observed report,
      place ≠ .writing claimed now resource observed report) :
    (w.step stopping moment db place).1.resources = db.resources := by
  have honJobs : ∀ {α : Type} (op : JobsTable → JobsTable × Outcome ControlPlaneError α),
      (Action.onJobs op).Keeps Db.resources := fun _ _ => rfl
  cases place with
  | recovering now => exact attempt_fst Db.resources (honJobs _) _ _ db
  | claiming now => exact attempt_fst Db.resources (honJobs _) _ _ db
  | completing claimed now report => exact attempt_fst Db.resources (honJobs _) _ _ db
  | failing claimed now reason => exact attempt_fst Db.resources (honJobs _) _ _ db
  | recovered now count => exact attempt_fst Db.resources (w.resources_recordEvent now _) _ _ db
  | recording now report => exact attempt_fst Db.resources (w.resources_recordEvent now _) _ _ db
  | observing claimed now resource phase report =>
    exact attempt_fst Db.resources ((PgResourceStore.keeps_get resource).bind fun _ =>
      Program.keeps_ofExcept _) _ _ db
  | writing claimed now resource observed report =>
    exact absurd rfl (hplace claimed now resource observed report)
  | rereading claimed now resource report =>
    exact attempt_fst Db.resources (PgResourceStore.keeps_get resource) _ _ db
  | top => rfl
  | polling now => rfl
  | dispatching claimed now => rfl
  | ended outcome => rfl

end Worker

/-! ## A small fleet -/

def smallFleet : FleetSettings := ⟨fun _ => 30000, fun _ => []⟩

def quietMoment (now : DateTime) (dispatched : Outcome ControlPlaneError DispatchOutcome) :
    Moment :=
  ⟨now, fun _ => false, none, dispatched⟩

def steps (n : ℕ) (worker : String) (moment : Moment) : List FleetEvent :=
  List.replicate n (.work worker moment)

end Labrys.ControlPlane
