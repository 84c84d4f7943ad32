import Labrys.ControlPlane.Fleet

/-! # What ends a worker's loop

`Worker::run` documents that it runs until `stop`. Every error of a pass leaves `tick_once` and
`run` through `?`, so the loop also ends on the first pass that the dispatcher, the lifecycle, the
lease or the event store refuses. `Worker.Harmless` is the exact condition on a step under which
the loop goes on. -/

namespace Labrys.ControlPlane
open Foundations Labrys.Core
set_option autoImplicit false

namespace WorkerAt

def isEnded : WorkerAt → Bool
  | .ended _ => true
  | _ => false

def asksQueue : WorkerAt → Bool
  | .recovering _ | .claiming _ | .completing .. | .failing .. => true
  | _ => false

end WorkerAt

/-! ## One step -/

/-- An event the store accepts: none of its texts still carries a secret. -/
def Storable (draft : EventDraft) (secrets : List String) : Prop :=
  ∃ stored, redactEvent draft secrets = .ok stored

def recoveredReport (count : ℕ) : Report :=
  ⟨.reconciled, .accepted, s!"recovered {count} expired lease(s)"⟩

namespace Worker
variable (w : Worker)

/-- What the next step of a loop that goes on finds, beyond a queue that answers: the dispatcher
answered, the observed resource is there and may move, the job is still this worker's, the times
are in range and the event can be stored. -/
def Harmless (moment : Moment) (db : Db) : WorkerAt → Prop
  | .recovered now count =>
      moment.fault = none ∧ Storable (w.draft now (recoveredReport count)) w.secrets
  | .claiming now => DateTime.add now w.lease ≠ none
  | .dispatching _ _ => ∃ outcome, moment.dispatched = .ok outcome
  | .observing _ _ resource phase _ =>
      moment.fault = none ∧ ∃ found, db.resources.get resource = some found ∧
        found.phase.canTransitionTo phase = true
  | .writing _ _ _ observed _ => moment.fault = none ∧ db.resources.get observed.id ≠ none
  | .rereading _ _ resource _ => moment.fault = none ∧ db.resources.get resource ≠ none
  | .completing claimed _ _ =>
      ∃ row, db.jobs.get claimed.job.id = some row ∧ row.heldBy w.workerId = true
  | .failing claimed now _ =>
      ∃ row, db.jobs.get claimed.job.id = some row ∧ row.heldBy w.workerId = true ∧
        ∃ after, JobsTable.afterFailure row now = .ok after
  | .recording now report => moment.fault = none ∧ Storable (w.draft now report) w.secrets
  | _ => True

theorem isEnded_attempt {α : Type} (m : Action α) (fault : Option String) {next : α → WorkerAt}
    (hnext : ∀ a, (next a).isEnded = false) (db : Db) :
    (attempt m fault next db).2.isEnded = false ↔ fault = none ∧ ∃ a, (m db).2 = .ok a := by
  cases fault with
  | some text => simp [attempt, WorkerAt.isEnded]
  | none =>
    simp only [attempt, true_and]
    cases m db with
    | mk db' result =>
      cases result with
      | ok a => exact ⟨fun _ => ⟨a, rfl⟩, fun _ => hnext a⟩
      | error e => simp [WorkerAt.isEnded]

/-! ### When each statement succeeds -/

theorem recordEvent_ok_iff (now : DateTime) (report : Report) (db : Db) :
    (∃ a, (w.recordEvent now report db).2 = .ok a) ↔ Storable (w.draft now report) w.secrets := by
  unfold recordEvent PgEventStore.append Storable
  cases hredact : redactEvent (w.draft now report) w.secrets with
  | ok stored => exact ⟨fun _ => ⟨stored, rfl⟩, fun _ => ⟨(), rfl⟩⟩
  | error e =>
    constructor
    · rintro ⟨a, ha⟩
      cases ha
    · rintro ⟨stored, hstored⟩
      cases hstored

theorem readPhase_ok_iff (resource : ResourceId) (phase : ResourcePhase) (now : DateTime)
    (db : Db) :
    (∃ a, (w.readPhase resource phase now db).2 = .ok a) ↔
      ∃ found, db.resources.get resource = some found ∧
        found.phase.canTransitionTo phase = true := by
  unfold readPhase
  cases hget : db.resources.get resource with
  | none =>
    rw [Program.bind_of_error (PgResourceStore.get_of_none hget)]
    simp
  | some found =>
    rw [Program.bind_of_ok (PgResourceStore.get_of_some hget)]
    cases hobserve : found.observe phase .platformProbe w.probeReason now with
    | ok observed =>
      exact ⟨fun _ => ⟨found, rfl, (Resource.observe_ok hobserve).1⟩, fun _ => ⟨observed, rfl⟩⟩
    | error e =>
      have hrefused := Resource.observe_error_iff.mp ⟨e, hobserve⟩
      constructor
      · rintro ⟨a, ha⟩
        cases ha
      · rintro ⟨same, hsame, hallowed⟩
        obtain rfl := Option.some_inj.mp hsame
        rw [hrefused] at hallowed
        cases hallowed

theorem writePhase_ok_iff (observed : Resource) (db : Db) :
    (∃ a, (PgResourceStore.writePhase observed db).2 = .ok a) ↔
      db.resources.get observed.id ≠ none := by
  cases hget : db.resources.get observed.id with
  | none => simp [PgResourceStore.writePhase_of_none hget]
  | some row => simp [PgResourceStore.writePhase_of_some hget]

theorem get_ok_iff (resource : ResourceId) (db : Db) :
    (∃ a, (PgResourceStore.get resource db).2 = .ok a) ↔ db.resources.get resource ≠ none := by
  cases hget : db.resources.get resource with
  | none => simp [PgResourceStore.get_of_none hget]
  | some row => simp [PgResourceStore.get_of_some hget]

theorem claimNext_ok_iff (now : DateTime) (skip : JobId → Bool) (t : JobsTable) :
    (∃ a, (t.claimNext w.workerId now w.lease skip).2 = .ok a) ↔
      DateTime.add now w.lease ≠ none := by
  obtain ⟨hnone, heq⟩ | ⟨expires, hadd, ⟨heq, -⟩ | ⟨row, -, -, -, -, hok, -⟩⟩ :=
    t.claimNext_cases w.workerId now w.lease skip
  · simp [heq, hnone]
  · simp [heq, hadd]
  · simp [hok, hadd]

theorem complete_ok_iff (id : JobId) (now : DateTime) (t : JobsTable) :
    (∃ a, (t.complete id w.workerId now).2 = .ok a) ↔
      ∃ row, t.get id = some row ∧ row.heldBy w.workerId = true := by
  constructor
  · rintro ⟨a, ha⟩
    exact t.heldBy_of_complete ha
  · rintro ⟨row, hget, hheld⟩
    obtain ⟨-, hnone⟩ | ⟨found, -, -, hok, -⟩ := t.updateRow_cases id (JobRow.heldBy w.workerId)
      (JobRow.completed now) (fun _ => ⟨rfl, rfl⟩) (JobsTable.notRunningUnder id w.workerId)
    · rw [hnone row hget] at hheld
      cases hheld
    · exact ⟨(), hok⟩

theorem fail_ok_iff (id : JobId) (reason : String) (now : DateTime) (t : JobsTable) :
    (∃ a, (t.fail id w.workerId reason now).2 = .ok a) ↔
      ∃ row, t.get id = some row ∧ row.heldBy w.workerId = true ∧
        ∃ after, JobsTable.afterFailure row now = .ok after := by
  constructor
  · rintro ⟨a, ha⟩
    obtain ⟨heq, -⟩ | ⟨row, hget, hheld, ⟨message, -, heq⟩ | ⟨status, next, hafter, -⟩⟩ :=
      t.fail_cases id w.workerId reason now
    · rw [heq] at ha
      cases ha
    · rw [heq] at ha
      cases ha
    · exact ⟨row, hget, hheld, _, hafter⟩
  · rintro ⟨row, hget, hheld, ⟨status, next⟩, hafter⟩
    exact ⟨status, (t.fail_of_afterFailure hget hheld hafter reason).1⟩

/-- **One step.** While it is not stopped and the queue answers, a worker's loop goes on exactly
if its next step is harmless. -/
theorem isEnded_step (moment : Moment) (db : Db) (place : WorkerAt)
    (hplace : place.isEnded = false) (hqueue : place.asksQueue = true → moment.fault = none) :
    (w.step false moment db place).2.isEnded = false ↔ w.Harmless moment db place := by
  cases place with
  | top => simp [step, WorkerAt.isEnded, Harmless]
  | recovering now =>
    rw [step, isEnded_attempt _ _ (fun ids => by cases ids <;> rfl)]
    simp [hqueue rfl, Action.onJobs, Harmless]
  | recovered now count =>
    rw [step, isEnded_attempt _ _ (fun _ => rfl), w.recordEvent_ok_iff]
    rfl
  | polling now => simp [step, WorkerAt.isEnded, Harmless]
  | claiming now =>
    rw [step, isEnded_attempt _ _ (fun found => by cases found <;> rfl)]
    exact ⟨fun h => (w.claimNext_ok_iff now moment.skip db.jobs).mp h.2,
      fun h => ⟨hqueue rfl, (w.claimNext_ok_iff now moment.skip db.jobs).mpr h⟩⟩
  | dispatching claimed now =>
    simp only [step, Harmless]
    cases moment.dispatched with
    | error e => simp [WorkerAt.isEnded]
    | ok outcome => cases outcome <;> simp [onOutcome, WorkerAt.isEnded]
  | observing claimed now resource phase report =>
    rw [step, isEnded_attempt _ _ (fun _ => rfl), w.readPhase_ok_iff]
    rfl
  | writing claimed now resource observed report =>
    rw [step, isEnded_attempt _ _ (fun _ => rfl), writePhase_ok_iff]
    rfl
  | rereading claimed now resource report =>
    rw [step, isEnded_attempt _ _ (fun _ => rfl), get_ok_iff]
    rfl
  | completing claimed now report =>
    rw [step, isEnded_attempt _ _ (fun _ => rfl)]
    exact ⟨fun h => (w.complete_ok_iff _ now db.jobs).mp h.2,
      fun h => ⟨hqueue rfl, (w.complete_ok_iff _ now db.jobs).mpr h⟩⟩
  | failing claimed now reason =>
    rw [step, isEnded_attempt _ _ (fun _ => rfl)]
    exact ⟨fun h => (w.fail_ok_iff _ reason now db.jobs).mp h.2,
      fun h => ⟨hqueue rfl, (w.fail_ok_iff _ reason now db.jobs).mpr h⟩⟩
  | recording now report =>
    rw [step, isEnded_attempt _ _ (fun _ => rfl), w.recordEvent_ok_iff]
    rfl
  | ended outcome => cases hplace

end Worker

/-! ## Whole runs -/

namespace Fleet

/-- The worker's loop has not ended, or it was told to stop. -/
def Serves (id : String) (s : Fleet) : Prop :=
  (s.place id).isEnded = true → s.stopping id = true

/-- When a step of this worker queries the queue, the query itself succeeds. -/
def QueueAnswers (id : String) (s : Fleet) : FleetEvent → Prop
  | .work worker moment =>
      worker = id → (s.place id).asksQueue = true → moment.fault = none
  | _ => True

end Fleet

namespace FleetSettings
variable (settings : FleetSettings)

def Harmless (id : String) (s : Fleet) : FleetEvent → Prop
  | .work worker moment =>
      worker = id → s.stopping id = true ∨
        (settings.worker id).Harmless moment s.db (s.place id)
  | _ => True

theorem serves_next (id : String) (s : Fleet) (event : FleetEvent) (hs : s.Serves id)
    (hqueue : s.QueueAnswers id event) :
    (settings.fleet.next s event).Serves id ↔ settings.Harmless id s event := by
  cases event with
  | work worker moment =>
    by_cases hid : worker = id
    · subst hid
      cases hstop : s.stopping worker with
      | true => exact ⟨fun _ _ => .inl hstop, fun _ _ => hstop⟩
      | false =>
        have hplace : (s.place worker).isEnded = false := by
          by_contra hended
          rw [hs (by simpa using hended)] at hstop
          cases hstop
        have hstep := (settings.worker worker).isEnded_step moment s.db (s.place worker) hplace
          (hqueue rfl)
        have hsame : (settings.fleet.next s (.work worker moment)).stopping worker = false := hstop
        simp only [Fleet.Serves, Harmless, place_work_self, hsame, hstop, ← hstep]
        simp
    · refine ⟨fun _ h => absurd h hid, fun _ hended => ?_⟩
      rw [settings.place_work_of_ne s (Ne.symm hid)] at hended
      exact hs hended
  | client op => exact ⟨fun _ => trivial, fun _ => hs⟩
  | elsewhere change => exact ⟨fun _ => trivial, fun _ => hs⟩
  | stop worker =>
    refine ⟨fun _ => trivial, fun _ hended => ?_⟩
    simp only [fleet, Machine.next, step] at hended ⊢
    by_cases hid : id = worker
    · rw [hid, Function.update_self]
    · rw [Function.update_of_ne hid]
      exact hs hended
  | restart worker =>
    refine ⟨fun _ => trivial, fun _ hended => ?_⟩
    rw [place_restart] at hended
    split at hended
    · cases hended
    · next hid =>
      simp only [fleet, Machine.next, step, Function.update_of_ne hid]
      exact hs hended

end FleetSettings

/-- **When a worker serves until it is stopped.** Along a run of the fleet in which every query of
a worker to the queue succeeds, its loop never ends before `stop` exactly if each of its steps is
harmless. -/
theorem serves_until_stopped_iff (settings : FleetSettings) (db : Db) (id : String)
    (events : List FleetEvent)
    (hqueue : settings.fleet.Guarded (Fleet.QueueAnswers id) (.start db) events) :
    (∀ n, (settings.fleet.run (.start db) (events.take n)).Serves id) ↔
      settings.fleet.Guarded (settings.Harmless id) (.start db) events :=
  settings.fleet.forall_run_take_iff_guarded (fun _ hs => hs)
    (fun s event hs hanswers => (settings.serves_next id s event hs hanswers).mpr)
    (fun s event hs hanswers => (settings.serves_next id s event hs hanswers).mp) (.start db) events
    (fun hended => by cases hended) hqueue

/-- A pass over a job whose dispatcher reports ready, and the next turn of the loop. -/
theorem serves_until_stopped_ready :
    (smallFleet.fleet.run (.start queuedStore)
      (steps 11 "worker-0" (quietMoment 1000 (.ok (.ready ⟨1⟩))))).Serves "worker-0" :=
  (serves_until_stopped_iff smallFleet queuedStore "worker-0"
    (steps 11 "worker-0" (quietMoment 1000 (.ok (.ready ⟨1⟩))))
    (smallFleet.fleet.guarded_of_forall (fun event hevent _ => by
      rw [List.eq_of_mem_replicate hevent]
      exact fun _ _ => rfl) _)).mpr
    ⟨fun _ => .inr trivial, fun _ => .inr trivial, fun _ => .inr trivial,
      fun _ => .inr nofun, fun _ => .inr ⟨_, rfl⟩, fun _ => .inr ⟨rfl, _, rfl, rfl⟩,
      fun _ => .inr ⟨rfl, nofun⟩, fun _ => .inr ⟨rfl, nofun⟩, fun _ => .inr ⟨_, rfl, rfl⟩,
      fun _ => .inr ⟨rfl, _, rfl⟩, fun _ => .inr trivial, trivial⟩
    11

/-- A dispatcher that fails, an outcome on a resource that is not there and an outcome the
lifecycle refuses: each ends the loop, with every query answered and nobody having called `stop`. -/
theorem dispatcher_results_end_loop :
    let readyStore : Db :=
      { queuedStore with resources := ⟨[{ provisioningResource with phase := .ready }], by decide⟩ }
    let cases : List (Db × Outcome ControlPlaneError DispatchOutcome) :=
      [(queuedStore, .error (.err (.jobState "no adapter"))), (queuedStore, .ok (.ready ⟨9⟩)),
        (readyStore, .ok (.ready ⟨1⟩))];
    ∀ c ∈ cases,
      let events := steps 6 "worker-0" (quietMoment 1000 c.2);
      smallFleet.fleet.Guarded (Fleet.QueueAnswers "worker-0") (.start c.1) events ∧
        ¬ (smallFleet.fleet.run (.start c.1) events).Serves "worker-0" := by
  intro readyStore cases c hc events
  constructor
  · refine smallFleet.fleet.guarded_of_forall (fun event hevent _ => ?_) _
    rw [List.eq_of_mem_replicate hevent]
    exact fun _ _ => rfl
  · have hended : ((smallFleet.fleet.run (.start c.1) events).place "worker-0").isEnded = true ∧
        (smallFleet.fleet.run (.start c.1) events).stopping "worker-0" = false := by
      revert c
      decide +kernel
    intro hserves
    have hstopped := hserves hended.1
    rw [hended.2] at hstopped
    cases hstopped

end Labrys.ControlPlane
