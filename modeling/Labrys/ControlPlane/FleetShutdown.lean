import Labrys.ControlPlane.FleetIsolation

/-! # Stopping a worker

`Worker::stop` only raises a flag, which `run` reads at the head of its loop and `tick_once` once
more before it claims. Seen from outside, among any number of other workers and clients: a worker
that was told to stop takes a bounded number of further steps, begins at most one more job, and
when `run` returns normally it has settled every job it ever took up. -/

namespace Labrys.ControlPlane
open Foundations Labrys.Core
set_option autoImplicit false

namespace WorkerAt

/-- The most steps a worker that was told to stop still takes before `run` has returned. -/
def stepsLeft : WorkerAt → ℕ
  | .ended _ => 0
  | .top => 1
  | .polling _ | .recording .. => 2
  | .recovered .. | .completing .. | .failing .. => 3
  | .recovering _ | .rereading .. => 4
  | .writing .. => 5
  | .observing .. => 6
  | .dispatching .. => 7
  | .claiming _ => 8

/-- The claims it may still make: past both tests of the flag there is one. -/
def claimsLeft : WorkerAt → ℕ
  | .claiming _ => 1
  | _ => 0

/-- The claimed job between its claim and its settling. -/
def inHand : WorkerAt → Option JobId
  | .dispatching claimed _ | .observing claimed .. | .writing claimed .. | .rereading claimed ..
  | .completing claimed .. | .failing claimed .. => some claimed.job.id
  | _ => none

def failedRun : WorkerAt → Bool
  | .ended (.error _) => true
  | _ => false

theorem stepsLeft_le (place : WorkerAt) : place.stepsLeft ≤ 8 := by
  cases place <;> simp [stepsLeft]

theorem stepsLeft_pos {place : WorkerAt} (h : place.isEnded = false) : 0 < place.stepsLeft := by
  cases place with
  | ended outcome => cases h
  | _ => simp [stepsLeft]

end WorkerAt

/-! ## One step of a worker -/

/-- The claim of this job ends in its row: held by the worker before, and after it free and
finished, queued again or dead. -/
def JobsTable.Settled (worker : String) (job : JobId) (t t' : JobsTable) : Prop :=
  ∃ row row', t.get job = some row ∧ row.heldBy worker = true ∧ t'.get job = some row' ∧
    row'.leaseOwner = none ∧
    (row'.status = .succeeded ∨ row'.status = .queued ∨ row'.status = .dead)

theorem JobsTable.settled_complete {t t' : JobsTable} {job : JobId} {worker : String}
    {now : DateTime} (h : t.complete job worker now = (t', .ok ())) : t.Settled worker job t' := by
  obtain ⟨heq, -⟩ | ⟨row, hget, hheld, -, hrest⟩ := t.updateRow_cases job (JobRow.heldBy worker)
    (JobRow.completed now) (fun _ => ⟨rfl, rfl⟩) (notRunningUnder job worker)
  · rw [show t.complete job worker now = _ from heq] at h
    cases h
  · have hrow := hrest job
    rw [if_pos rfl, show t.updateRow job _ _ _ _ = _ from h] at hrow
    exact ⟨row, row.completed now, hget, hheld, hrow, rfl, .inl rfl⟩

theorem JobsTable.settled_fail {t t' : JobsTable} {job : JobId} {worker error : String}
    {now : DateTime} {status : JobStatus} (h : t.fail job worker error now = (t', .ok status)) :
    t.Settled worker job t' := by
  obtain ⟨heq, -⟩ | ⟨row, hget, hheld, ⟨message, -, heq⟩ | ⟨status', next, hafter, -, hrest⟩⟩ :=
    t.fail_cases job worker error now
  · rw [heq] at h
    cases h
  · rw [heq] at h
    cases h
  · have hrow := hrest job
    rw [if_pos rfl, h] at hrow
    refine ⟨row, row.failed status' error next, hget, hheld, hrow, rfl, .inr ?_⟩
    exact (afterFailure_status hafter).symm

namespace Worker
variable (w : Worker)

/-- A statement ends the loop with an error or moves on to a place that the answer decides. -/
theorem attempt_place {α : Type} {P : WorkerAt → Prop} (m : Action α) (fault : Option String)
    {next : α → WorkerAt} (hnext : ∀ a, P (next a)) (hended : ∀ e, P (.ended (.error e)))
    (db : Db) : P (attempt m fault next db).2 := by
  obtain ⟨e, heq⟩ | ⟨a, -, heq⟩ := attempt_cases m fault next db <;> rw [heq]
  · exact hended e
  · exact hnext a

theorem stepsLeft_step (moment : Moment) (db : Db) {place : WorkerAt}
    (hplace : place.isEnded = false) :
    (w.step true moment db place).2.stepsLeft < place.stepsLeft := by
  have hended : ∀ {n : ℕ}, 0 < n → ∀ e, (WorkerAt.ended (.error e)).stepsLeft < n := fun h _ => h
  cases place with
  | top => simp [step, WorkerAt.stepsLeft]
  | polling now => simp [step, WorkerAt.stepsLeft]
  | recovering now =>
    refine attempt_place (P := fun next => next.stepsLeft < _) _ _ (fun ids => ?_)
      (hended (by simp [WorkerAt.stepsLeft])) db
    cases ids <;> simp [WorkerAt.stepsLeft]
  | claiming now =>
    refine attempt_place (P := fun next => next.stepsLeft < _) _ _ (fun found => ?_)
      (hended (by simp [WorkerAt.stepsLeft])) db
    cases found <;> simp [WorkerAt.stepsLeft]
  | dispatching claimed now =>
    simp only [step]
    cases moment.dispatched with
    | error e => simp [WorkerAt.stepsLeft]
    | ok outcome => cases outcome <;> simp [onOutcome, WorkerAt.stepsLeft]
  | ended outcome => cases hplace
  | _ =>
    exact attempt_place (P := fun next => next.stepsLeft < _) _ _
      (fun _ => by simp [WorkerAt.stepsLeft]) (hended (by simp [WorkerAt.stepsLeft])) db

/-- A worker takes a job in hand by claiming it, and past the flag it does not come to claim. -/
theorem claimsLeft_step (moment : Moment) (db : Db) (place : WorkerAt) :
    (w.step true moment db place).2.claimsLeft = 0 ∧
      (place.inHand = none → (w.step true moment db place).2.inHand ≠ none →
        place.claimsLeft = 1) := by
  cases place with
  | top => simp [step, WorkerAt.claimsLeft, WorkerAt.inHand]
  | polling now => simp [step, WorkerAt.claimsLeft, WorkerAt.inHand]
  | ended outcome => simp [step, WorkerAt.claimsLeft, WorkerAt.inHand]
  | recovering now =>
    refine attempt_place (P := fun next => next.claimsLeft = 0 ∧
      (_ → next.inHand ≠ none → _)) _ _ (fun ids => ?_) (fun _ => ⟨rfl, fun _ h => absurd rfl h⟩) db
    cases ids <;> simp [WorkerAt.claimsLeft, WorkerAt.inHand]
  | claiming now =>
    refine attempt_place (P := fun next => next.claimsLeft = 0 ∧
      (_ → next.inHand ≠ none → _)) _ _ (fun found => ?_)
      (fun _ => ⟨rfl, fun _ h => absurd rfl h⟩) db
    cases found <;> simp [WorkerAt.claimsLeft]
  | dispatching claimed now =>
    simp only [step]
    cases moment.dispatched with
    | error e => simp [WorkerAt.claimsLeft, WorkerAt.inHand]
    | ok outcome => cases outcome <;> simp [onOutcome, WorkerAt.claimsLeft, WorkerAt.inHand]
  | _ =>
    exact attempt_place (P := fun next => next.claimsLeft = 0 ∧ (_ → next.inHand ≠ none → _)) _ _
      (fun _ => by simp [WorkerAt.claimsLeft, WorkerAt.inHand])
      (fun _ => ⟨rfl, fun _ h => absurd rfl h⟩) db

/-- A job in hand stays in hand until the loop fails or the job is settled. -/
theorem inHand_step (stopping : Bool) (moment : Moment) (db : Db) {place : WorkerAt} {job : JobId}
    (hhand : place.inHand = some job) :
    (w.step stopping moment db place).2.inHand = some job ∨
      (w.step stopping moment db place).2.failedRun = true ∨
      db.jobs.Settled w.workerId job (w.step stopping moment db place).1.jobs := by
  have hgoes : ∀ {α : Type} {m : Action α} {next : α → WorkerAt},
      (∀ a, (next a).inHand = some job) →
      (attempt m moment.fault next db).2.inHand = some job ∨
        (attempt m moment.fault next db).2.failedRun = true ∨
        db.jobs.Settled w.workerId job (attempt m moment.fault next db).1.jobs := fun hnext => by
    obtain ⟨e, heq⟩ | ⟨a, -, heq⟩ := attempt_cases _ moment.fault _ db <;> rw [heq]
    · exact .inr (.inl rfl)
    · exact .inl (hnext a)
  cases place with
  | dispatching claimed now =>
    simp only [step]
    cases moment.dispatched with
    | error e => exact .inr (.inl rfl)
    | ok outcome => cases outcome <;> exact .inl hhand
  | observing claimed now resource phase report => exact hgoes fun _ => hhand
  | writing claimed now resource observed report => exact hgoes fun _ => hhand
  | rereading claimed now resource report => exact hgoes fun _ => hhand
  | completing claimed now report =>
    obtain rfl := Option.some_inj.mp hhand
    obtain ⟨e, heq⟩ | ⟨a, hm, -⟩ := attempt_cases (w.complete claimed.job now) moment.fault
      (fun _ => .recording now report) db
    · rw [step, heq]
      exact .inr (.inl rfl)
    · have hjobs := congrArg (fun result => result.1.jobs) hm
      have hanswer := congrArg Prod.snd hm
      exact .inr (.inr (JobsTable.settled_complete (Prod.ext hjobs hanswer)))
  | failing claimed now reason =>
    obtain rfl := Option.some_inj.mp hhand
    obtain ⟨e, heq⟩ | ⟨a, hm, -⟩ := attempt_cases (w.fail claimed.job reason now) moment.fault
      (fun _ => .recording now (w.failedReport claimed.job reason)) db
    · rw [step, heq]
      exact .inr (.inl rfl)
    · have hjobs := congrArg (fun result => result.1.jobs) hm
      have hanswer := congrArg Prod.snd hm
      exact .inr (.inr (JobsTable.settled_fail (Prod.ext hjobs hanswer)))
  | _ => cases hhand

theorem failedRun_step (stopping : Bool) (moment : Moment) (db : Db) {place : WorkerAt}
    (hfailed : place.failedRun = true) :
    (w.step stopping moment db place).2.failedRun = true := by
  cases place with
  | ended outcome => exact hfailed
  | _ => cases hfailed

end Worker

/-! ## One event of the fleet -/

namespace FleetEvent

def isWorkOf (id : String) : FleetEvent → Bool
  | .work worker _ => decide (worker = id)
  | _ => false

def isRestartOf (id : String) : FleetEvent → Bool
  | .restart worker => decide (worker = id)
  | _ => false

end FleetEvent

namespace FleetSettings
variable (settings : FleetSettings) (id : String)

/-- A step that the loop of this worker still takes. -/
def turn (s : Fleet) (event : FleetEvent) : ℕ :=
  if event.isWorkOf id && !(s.place id).isEnded then 1 else 0

/-- A step by which this worker gets a job in hand. -/
def claim (s : Fleet) (event : FleetEvent) : ℕ :=
  if (s.place id).inHand.isNone && ((settings.fleet.next s event).place id).inHand.isSome then 1
  else 0

variable {id}

theorem place_next_of_not_work (s : Fleet) {event : FleetEvent}
    (hwork : event.isWorkOf id = false) (hrestart : event.isRestartOf id = false) :
    (settings.fleet.next s event).place id = s.place id := by
  cases event with
  | work worker moment =>
    have hne : id ≠ worker := fun h => by simp [FleetEvent.isWorkOf, h] at hwork
    exact settings.place_work_of_ne s hne moment
  | restart worker =>
    have hne : id ≠ worker := fun h => by simp [FleetEvent.isRestartOf, h] at hrestart
    rw [place_restart, if_neg hne]
  | client op => rfl
  | elsewhere change => rfl
  | stop worker => rfl

theorem stopping_next (s : Fleet) {event : FleetEvent} (hrestart : event.isRestartOf id = false)
    (hstop : s.stopping id = true) : (settings.fleet.next s event).stopping id = true := by
  cases event with
  | stop worker =>
    show Function.update s.stopping worker true id = true
    rw [Function.update_apply]
    split
    · rfl
    · exact hstop
  | restart worker =>
    have hne : id ≠ worker := fun h => by simp [FleetEvent.isRestartOf, h] at hrestart
    show Function.update s.stopping worker false id = true
    rw [Function.update_of_ne hne, hstop]
  | work worker moment => exact hstop
  | client op => exact hstop
  | elsewhere change => exact hstop

theorem isWorkOf_eq_true {event : FleetEvent} (h : event.isWorkOf id = true) :
    ∃ moment, event = .work id moment := by
  cases event with
  | work worker moment => exact ⟨moment, by rw [of_decide_eq_true h]⟩
  | _ => cases h

theorem isEnded_next (s : Fleet) {event : FleetEvent} (hrestart : event.isRestartOf id = false)
    (hnext : ((settings.fleet.next s event).place id).isEnded = false) :
    (s.place id).isEnded = false := by
  cases hwork : event.isWorkOf id with
  | false => rwa [settings.place_next_of_not_work s hwork hrestart] at hnext
  | true =>
    obtain ⟨moment, rfl⟩ := isWorkOf_eq_true hwork
    cases hplace : s.place id with
    | ended outcome =>
      rw [place_work_self, hplace] at hnext
      cases hnext
    | _ => rfl

theorem turn_add_stepsLeft_le (s : Fleet) (event : FleetEvent) (hstop : s.stopping id = true)
    (hrestart : event.isRestartOf id = false) :
    turn id s event + ((settings.fleet.next s event).place id).stepsLeft ≤
      (s.place id).stepsLeft := by
  cases hwork : event.isWorkOf id with
  | false =>
    rw [settings.place_next_of_not_work s hwork hrestart]
    simp [turn, hwork]
  | true =>
    obtain ⟨moment, rfl⟩ := isWorkOf_eq_true hwork
    rw [place_work_self, hstop]
    cases hended : (s.place id).isEnded with
    | false =>
      have hless := (settings.worker id).stepsLeft_step moment s.db hended
      simp only [turn, hwork, hended, Bool.not_false, Bool.and_self, if_true]
      omega
    | true =>
      have hsame : ((settings.worker id).step true moment s.db (s.place id)).2 = s.place id := by
        cases hplace : s.place id with
        | ended outcome => rfl
        | _ =>
          rw [hplace] at hended
          cases hended
      rw [hsame]
      simp [turn, hended]

theorem claim_add_claimsLeft_le (s : Fleet) (event : FleetEvent) (hstop : s.stopping id = true)
    (hrestart : event.isRestartOf id = false) :
    settings.claim id s event + ((settings.fleet.next s event).place id).claimsLeft ≤
      (s.place id).claimsLeft := by
  cases hwork : event.isWorkOf id with
  | false =>
    have hsame := settings.place_next_of_not_work s hwork hrestart
    rw [claim, hsame]
    cases (s.place id).inHand <;> simp
  | true =>
    obtain ⟨moment, rfl⟩ := isWorkOf_eq_true hwork
    obtain ⟨hnone, hone⟩ := (settings.worker id).claimsLeft_step moment s.db (s.place id)
    rw [claim, place_work_self, hstop, hnone]
    split
    · next htaken =>
      simp only [Bool.and_eq_true, Option.isNone_iff_eq_none] at htaken
      rw [hone htaken.1 (Option.ne_none_iff_isSome.mpr htaken.2)]
    · exact Nat.zero_le _

/-- A job that was claimed is still in hand, or the loop failed while it was. -/
def Unsettled (id : String) (job : JobId) (s : Fleet) : Prop :=
  (s.place id).inHand = some job ∨ (s.place id).failedRun = true

theorem unsettled_next {s : Fleet} {event : FleetEvent} {job : JobId}
    (hs : Unsettled id job s) (hrestart : event.isRestartOf id = false) :
    Unsettled id job (settings.fleet.next s event) ∨
      s.db.jobs.Settled id job (settings.fleet.next s event).db.jobs := by
  cases hwork : event.isWorkOf id with
  | false =>
    left
    rw [Unsettled, settings.place_next_of_not_work s hwork hrestart]
    exact hs
  | true =>
    obtain ⟨moment, rfl⟩ := isWorkOf_eq_true hwork
    rw [Unsettled, place_work_self]
    obtain hhand | hfailed := hs
    · exact or_assoc.mpr
        ((settings.worker id).inHand_step (s.stopping id) moment s.db hhand)
    · exact .inl (.inr ((settings.worker id).failedRun_step _ moment s.db hfailed))

/-! ## A run around the stop -/

/-- What becomes of a job in hand along a run: it stays in hand, through to an error that ends the
loop, or a step of the run settles it. -/
theorem unsettled_run {s : Fleet} {job : JobId} (hs : Unsettled id job s)
    (events : List FleetEvent) (hrestart : ∀ event ∈ events, event.isRestartOf id = false) :
    (∀ n, Unsettled id job (settings.fleet.run s (events.take n))) ∨
      ∃ first settling rest, events = first ++ settling :: rest ∧
        (settings.fleet.run s first).db.jobs.Settled id job
          (settings.fleet.run s (first ++ [settling])).db.jobs := by
  have hguard : settings.fleet.Guarded (fun _ event => event.isRestartOf id = false) s events :=
    settings.fleet.guarded_of_forall (fun event hevent _ => hrestart event hevent) s
  refine (settings.fleet.run_until (fun s event => settings.unsettled_next) s events hs
    hguard).imp_right ?_
  rintro ⟨first, settling, rest, rfl, hsettled⟩
  refine ⟨first, settling, rest, rfl, ?_⟩
  rw [settings.fleet.run_append]
  exact hsettled

/-- A worker that is told to stop, from there on. -/
theorem stopped_run (s : Fleet) (after : List FleetEvent) (hstop : s.stopping id = true)
    (hrestart : ∀ event ∈ after, event.isRestartOf id = false) :
    settings.fleet.total (turn id) s after ≤ 8 ∧
      (8 ≤ after.countP (·.isWorkOf id) →
        ((settings.fleet.run s after).place id).isEnded = true) ∧
      settings.fleet.total (settings.claim id) s after ≤ (s.place id).claimsLeft := by
  have hguard : settings.fleet.Guarded (fun _ event => event.isRestartOf id = false) s after :=
    settings.fleet.guarded_of_forall (fun event hevent _ => hrestart event hevent) s
  have hturns := settings.fleet.total_add_potential_le (turn id)
    (fun s => (s.place id).stepsLeft)
    (fun s event hs hno => ⟨settings.stopping_next s hno hs,
      settings.turn_add_stepsLeft_le s event hs hno⟩) s after hstop hguard
  have hclaims := settings.fleet.total_add_potential_le (settings.claim id)
    (fun s => (s.place id).claimsLeft)
    (fun s event hs hno => ⟨settings.stopping_next s hno hs,
      settings.claim_add_claimsLeft_le s event hs hno⟩) s after hstop hguard
  have hbound := (s.place id).stepsLeft_le
  refine ⟨by omega, fun hmany => ?_, by omega⟩
  by_contra hgoing
  obtain ⟨hcount, -⟩ := settings.fleet.countP_le_total (turn id) (·.isWorkOf id)
    (P := fun s => (s.place id).isEnded = false)
    (fun s event hno hnext => settings.isEnded_next s hno hnext)
    (fun s event hs hwork => by simp [turn, hs, hwork]) s after hguard (by simpa using hgoing)
  have hpos := WorkerAt.stepsLeft_pos (Bool.eq_false_iff.mpr hgoing)
  omega

end FleetSettings

/-- **Stopping a worker.** In any fleet and any order of events in which the worker is not started
anew: once it was told to stop it takes at most eight further steps, so that its loop has ended
when it has had eight turns; it gets at most one further job in hand, and none unless it had passed
both tests of the flag; and every job it ever took in hand is in hand still, or was when an error
ended the loop, or was settled in its row while the worker held it. -/
theorem stops_gracefully (settings : FleetSettings) (id : String) (s : Fleet)
    (before after : List FleetEvent)
    (hrestart : ∀ event ∈ before ++ .stop id :: after, event.isRestartOf id = false) :
    let told := settings.fleet.run s (before ++ [.stop id])
    settings.fleet.total (FleetSettings.turn id) told after ≤ 8 ∧
      (8 ≤ after.countP (·.isWorkOf id) →
        ((settings.fleet.run told after).place id).isEnded = true) ∧
      settings.fleet.total (settings.claim id) told after ≤ (told.place id).claimsLeft ∧
      ∀ early claiming rest job, before ++ .stop id :: after = early ++ claiming :: rest →
        let claimed := settings.fleet.run s (early ++ [claiming])
        ((settings.fleet.run s early).place id).inHand = none →
        (claimed.place id).inHand = some job →
        (∀ n, FleetSettings.Unsettled id job (settings.fleet.run claimed (rest.take n))) ∨
          ∃ first settling last, rest = first ++ settling :: last ∧
            (settings.fleet.run claimed first).db.jobs.Settled id job
              (settings.fleet.run claimed (first ++ [settling])).db.jobs := by
  intro told
  have hstop : told.stopping id = true := by
    show (settings.fleet.run s (before ++ [.stop id])).stopping id = true
    rw [settings.fleet.run_append]
    exact Function.update_self _ _ _
  obtain ⟨hturns, hended, hclaims⟩ := settings.stopped_run told after hstop fun event hevent =>
    hrestart event (List.mem_append_right _ (List.mem_cons_of_mem _ hevent))
  refine ⟨hturns, hended, hclaims, ?_⟩
  intro early claiming rest job hsplit claimed hfree hhand
  refine settings.unsettled_run (.inl hhand) rest fun event hevent => hrestart event ?_
  rw [hsplit]
  exact List.mem_append_right _ (List.mem_cons_of_mem _ hevent)

/-- The flag is raised between the second test and the claim: the job is claimed all the same, and
settled before the loop ends. -/
theorem claim_under_stop_settled :
    let turn := FleetEvent.work "worker-0" (quietMoment 1000 (.ok (.ready ⟨1⟩)))
    let claimed := smallFleet.fleet.run (.start queuedStore)
      (List.replicate 3 turn ++ [.stop "worker-0"] ++ [turn])
    ((smallFleet.fleet.run claimed (List.replicate 7 turn)).place "worker-0").isEnded = true ∧
      ∃ first settling last, List.replicate 7 turn = first ++ settling :: last ∧
        (smallFleet.fleet.run claimed first).db.jobs.Settled "worker-0" ⟨7⟩
          (smallFleet.fleet.run claimed (first ++ [settling])).db.jobs := by
  intro turn claimed
  have hnone : ∀ event ∈ List.replicate 3 turn ++ .stop "worker-0" :: List.replicate 8 turn,
      event.isRestartOf "worker-0" = false := by
    intro event hevent
    simp only [List.mem_append, List.mem_cons, List.mem_replicate] at hevent
    obtain ⟨-, rfl⟩ | rfl | ⟨-, rfl⟩ := hevent <;> rfl
  obtain ⟨-, hended, -, hjobs⟩ := stops_gracefully smallFleet "worker-0" (.start queuedStore)
    (List.replicate 3 turn) (List.replicate 8 turn) hnone
  have hfree : ((smallFleet.fleet.run (.start queuedStore)
      (List.replicate 3 turn ++ [.stop "worker-0"])).place "worker-0").inHand = none := by
    decide +kernel
  have hhand : (claimed.place "worker-0").inHand = some ⟨7⟩ := by decide +kernel
  refine ⟨hended (by decide), ?_⟩
  obtain hkept | hsettled := hjobs (List.replicate 3 turn ++ [.stop "worker-0"]) turn
    (List.replicate 7 turn) ⟨7⟩ rfl hfree hhand
  · have hgone : ((smallFleet.fleet.run claimed (List.replicate 7 turn)).place
          "worker-0").inHand = none ∧
        ((smallFleet.fleet.run claimed (List.replicate 7 turn)).place
          "worker-0").failedRun = false := by
      decide +kernel
    obtain h | h := hkept 7
    · rw [List.take_of_length_le (by simp), hgone.1] at h
      cases h
    · rw [List.take_of_length_le (by simp), hgone.2] at h
      cases h
  · exact hsettled

end Labrys.ControlPlane
