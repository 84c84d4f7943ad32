import Labrys.ControlPlane.Fleet

/-! # Who writes an observation

`complete` and `fail` are fenced: they only touch a row that runs under the caller. The update of
an observation comes before them, is a statement of its own and names the resource alone, so
nothing ties it to the lease. `observations_fenced` says what it takes for the writer to be the
holder all the same: no recovery may take a lease from a worker that has yet to write. -/

namespace Labrys.ControlPlane
open Foundations Labrys.Core
set_option autoImplicit false

/-- The job a worker has claimed and not yet recorded an observation for. -/
def WorkerAt.pending : WorkerAt → Option ClaimedJob
  | .dispatching claimed _ | .observing claimed .. | .writing claimed .. => some claimed
  | _ => none

/-! ## A running row and the operations of others -/

structure JobRow.Under (row : JobRow) (worker : String) (expires : DateTime) : Prop where
  status : row.status = .running
  owner : row.leaseOwner = some worker
  expiry : row.leaseExpiresAt = some expires

theorem JobRow.Under.heldBy {row : JobRow} {worker : String} {expires : DateTime}
    (h : row.Under worker expires) : row.heldBy worker = true := by
  simp [JobRow.heldBy, h.status, h.owner]

/-- What may not happen to a leased row: its holder settles it, or its lease is found expired. -/
def PgOp.Spares (op : PgOp) (worker : String) (expires : DateTime) : Prop :=
  match op with
  | .complete _ other _ | .fail _ other _ _ => other ≠ worker
  | .recoverExpiredLeases now => timestamptz now < expires
  | _ => True

theorem RowMove.not_under {op : PgOp} {ans : PgAnswer} {row row' : JobRow}
    (h : RowMove op ans row row') {worker : String} {expires : DateTime}
    (hspares : op.Spares worker expires) : ¬ row.Under worker expires := by
  rintro ⟨hstatus, howner, hexpiry⟩
  cases h with
  | claimed _ other now lease skip expires' hclaim _ =>
    exact absurd (JobRow.claimable_iff.mp hclaim).1 (by simp [hstatus])
  | completed _ other now hheld =>
    simp only [JobRow.heldBy, howner, Bool.and_eq_true, decide_eq_true_eq, Option.some_inj] at hheld
    exact hspares hheld.2.symm
  | failed _ other error now status next hheld _ =>
    simp only [JobRow.heldBy, howner, Bool.and_eq_true, decide_eq_true_eq, Option.some_inj] at hheld
    exact hspares hheld.2.symm
  | paused _ now h => simp [hstatus] at h
  | resumed _ now h => simp [hstatus] at h
  | requeued _ now h => simp [hstatus] at h
  | recovered _ now ids hexpired _ =>
    simp only [JobRow.expired, hexpiry, Option.any_some, Bool.and_eq_true,
      decide_eq_true_eq] at hexpired
    exact absurd hexpired.2 (Int.not_le.mpr hspares)

theorem get_next_of_under {t : JobsTable} {id : JobId} {row : JobRow} {worker : String}
    {expires : DateTime} (hget : t.get id = some row) (hrow : row.Under worker expires) {op : PgOp}
    (hspares : op.Spares worker expires) : (pgJobQueue.next t op).get id = some row := by
  obtain ⟨-, hsame⟩ | ⟨new, ⟨_, _, _, _, _, _, -, rfl, hnone, -⟩, rfl, -, -⟩ |
      ⟨old, new, hold, hmove, -⟩ := rowStep_next t op id
  · rw [hsame, hget]
  · cases hnone.symm.trans hget
  · rw [hget] at hold
    obtain rfl := Option.some_inj.mp hold
    exact absurd hrow (hmove.not_under hspares)

/-! ## Fleets -/

namespace Fleet

/-- The code's own fence: the job's row runs under this worker. -/
def HoldsLease (s : Fleet) (worker : String) (job : JobId) : Prop :=
  ∃ row, s.db.jobs.get job = some row ∧ row.heldBy worker = true

/-- A recovery at this time finds no lease of a pending claim expired. -/
def OutlastedBy (s : Fleet) (time : DateTime) : Prop :=
  ∀ worker claimed, (s.place worker).pending = some claimed →
    timestamptz time < claimed.leaseExpiresAt

/-- An event that recovers leases takes none from a worker that has yet to write. -/
def LeasesOutlast (s : Fleet) : FleetEvent → Prop
  | .work worker moment =>
      ∀ now, s.place worker = .recovering now → moment.fault = none → s.OutlastedBy now
  | .client (.recoverExpiredLeases now) => s.OutlastedBy now
  | _ => True

/-- Every pending claim is backed by its row. -/
def Backed (s : Fleet) : Prop :=
  ∀ worker claimed, (s.place worker).pending = some claimed →
    ∃ row, s.db.jobs.get claimed.job.id = some row ∧ row.Under worker claimed.leaseExpiresAt

end Fleet

namespace Worker
variable (w : Worker)

theorem pending_attempt {α : Type} (m : Action α) (fault : Option String) {next : α → WorkerAt}
    (db : Db) {claimed : ClaimedJob}
    (h : (attempt m fault next db).2.pending = some claimed) :
    ∃ a, m db = ((attempt m fault next db).1, .ok a) ∧ (next a).pending = some claimed := by
  obtain ⟨e, hended⟩ | ⟨a, hm, hnext⟩ := attempt_cases m fault next db
  · rw [hended] at h
    cases h
  · rw [hnext] at h
    exact ⟨a, hm, h⟩

/-- A statement after which nothing is pending. -/
theorem not_pending_attempt {α : Type} (m : Action α) (fault : Option String) {next : α → WorkerAt}
    (hnext : ∀ a, (next a).pending = none) (db : Db) (claimed : ClaimedJob) :
    (attempt m fault next db).2.pending ≠ some claimed := by
  intro h
  obtain ⟨a, -, hpending⟩ := pending_attempt m fault db h
  rw [hnext a] at hpending
  cases hpending

/-- Where a pending claim comes from: it was pending before and the step left the queue alone, or
the step claimed it. -/
theorem pending_step (stopping : Bool) (moment : Moment) (db : Db) (place : WorkerAt)
    {claimed : ClaimedJob} (h : (w.step stopping moment db place).2.pending = some claimed) :
    (place.pending = some claimed ∧ w.queueOp moment place = none) ∨
      ∃ now, db.jobs.claimNext w.workerId now w.lease moment.skip =
        ((w.step stopping moment db place).1.jobs, .ok (some claimed)) := by
  cases place with
  | claiming now =>
    obtain ⟨found, hm, hnext⟩ := pending_attempt _ _ db h
    cases found with
    | none => cases hnext
    | some found =>
      cases hnext
      have hjobs := congrArg (fun result => result.1.jobs) hm
      have hanswer := congrArg Prod.snd hm
      exact .inr ⟨now, Prod.ext hjobs hanswer⟩
  | dispatching found now =>
    simp only [step] at h
    cases hdispatched : moment.dispatched with
    | error e =>
      rw [hdispatched] at h
      cases h
    | ok outcome =>
      rw [hdispatched] at h
      cases outcome with
      | ready resource => exact .inl ⟨h, rfl⟩
      | degraded resource => exact .inl ⟨h, rfl⟩
      | inProgress => cases h
      | failed reason => cases h
  | observing found now resource phase report =>
    obtain ⟨_, -, hnext⟩ := pending_attempt _ _ db h
    exact .inl ⟨hnext, rfl⟩
  | recovering now =>
    exact absurd h (not_pending_attempt _ _ (fun ids => by cases ids <;> rfl) db claimed)
  | recovered now count =>
    exact absurd h (not_pending_attempt _ _ (fun _ => rfl) db claimed)
  | writing found now resource observed report =>
    exact absurd h (not_pending_attempt _ _ (fun _ => rfl) db claimed)
  | rereading found now resource report =>
    exact absurd h (not_pending_attempt _ _ (fun _ => rfl) db claimed)
  | completing found now report =>
    exact absurd h (not_pending_attempt _ _ (fun _ => rfl) db claimed)
  | failing found now reason =>
    exact absurd h (not_pending_attempt _ _ (fun _ => rfl) db claimed)
  | recording now report =>
    exact absurd h (not_pending_attempt _ _ (fun _ => rfl) db claimed)
  | top => cases stopping <;> cases h
  | polling now => cases stopping <;> cases h
  | ended outcome => cases h

/-- The operation of one worker spares the leases of the others, up to what it recovers. -/
theorem spares_queueOp (moment : Moment) (place : WorkerAt) {op : PgOp}
    (hop : w.queueOp moment place = some op) {other : String} (hother : w.workerId ≠ other)
    {expires : DateTime}
    (hexpires : ∀ now, place = .recovering now → moment.fault = none →
      timestamptz now < expires) :
    op.Spares other expires := by
  cases place with
  | recovering now =>
    simp only [queueOp, Option.ite_none_right_eq_some, Option.some_inj] at hop
    obtain ⟨hfault, rfl⟩ := hop
    exact hexpires now rfl hfault
  | claiming now =>
    simp only [queueOp, Option.ite_none_right_eq_some, Option.some_inj] at hop
    obtain ⟨-, rfl⟩ := hop
    trivial
  | completing claimed now report =>
    simp only [queueOp, Option.ite_none_right_eq_some, Option.some_inj] at hop
    obtain ⟨-, rfl⟩ := hop
    exact hother
  | failing claimed now reason =>
    simp only [queueOp, Option.ite_none_right_eq_some, Option.some_inj] at hop
    obtain ⟨-, rfl⟩ := hop
    exact hother
  | _ => cases hop

end Worker

/-! ## One event -/

namespace FleetSettings
variable (settings : FleetSettings) {s : Fleet}

theorem backed_work (hs : s.Backed) (id : String) (moment : Moment)
    (hlease : s.LeasesOutlast (.work id moment)) :
    (settings.fleet.next s (.work id moment)).Backed := by
  intro worker claimed hpending
  have hjobs : (settings.fleet.next s (.work id moment)).db.jobs = _ :=
    (settings.worker id).jobs_step (s.stopping id) moment s.db (s.place id)
  by_cases hid : worker = id
  · subst hid
    rw [place_work_self] at hpending
    obtain ⟨hbefore, hop⟩ | ⟨now, hclaim⟩ := Worker.pending_step _ _ _ _ _ hpending
    · rw [hjobs, hop]
      exact hs worker claimed hbefore
    · obtain ⟨row, expires, -, -, -, hexpires, hrow, hrest⟩ := s.db.jobs.claimNext_ok hclaim
      refine ⟨row.claimed worker now expires, ?_, rfl, rfl, congrArg some hexpires.symm⟩
      refine (hrest claimed.job.id).trans ?_
      rw [if_pos hrow]
      rfl
  · rw [settings.place_work_of_ne s hid] at hpending
    obtain ⟨row, hget, hrow⟩ := hs worker claimed hpending
    refine ⟨row, ?_, hrow⟩
    rw [hjobs]
    cases hop : (settings.worker id).queueOp moment (s.place id) with
    | none => exact hget
    | some op =>
      exact get_next_of_under hget hrow ((settings.worker id).spares_queueOp moment _ hop
        (Ne.symm hid) fun now hplace hfault => hlease now hplace hfault worker claimed hpending)

theorem backed_client (hs : s.Backed) (op : ClientOp) (hlease : s.LeasesOutlast (.client op)) :
    (settings.fleet.next s (.client op)).Backed := by
  intro worker claimed hpending
  obtain ⟨row, hget, hrow⟩ := hs worker claimed hpending
  refine ⟨row, get_next_of_under hget hrow ?_, hrow⟩
  cases op with
  | recoverExpiredLeases now => exact hlease worker claimed hpending
  | _ => trivial

theorem backed_next (hs : s.Backed) (event : FleetEvent) (hlease : s.LeasesOutlast event) :
    (settings.fleet.next s event).Backed := by
  cases event with
  | work id moment => exact settings.backed_work hs id moment hlease
  | client op => exact settings.backed_client hs op hlease
  | elsewhere change => exact hs
  | stop id => exact hs
  | restart id =>
    intro worker claimed hpending
    rw [place_restart] at hpending
    split at hpending
    · cases hpending
    · exact hs worker claimed hpending

end FleetSettings

/-! ## Whole runs -/

theorem backed_run (settings : FleetSettings) (db : Db) (events : List FleetEvent)
    (hlease : settings.fleet.Guarded Fleet.LeasesOutlast (.start db) events) :
    (settings.fleet.run (.start db) events).Backed :=
  settings.fleet.run_invariant (P := Fleet.Backed)
    (fun _ event hs hG => settings.backed_next hs event hG) (.start db) events
    (fun _ _ hpending => by cases hpending) hlease

/-- **Who writes an observation.** Along a run in which no recovery takes a lease from a worker
that has yet to write, a worker's step that changes the resources is the update of an observation
for a job whose lease this worker holds at that moment. -/
theorem observations_fenced (settings : FleetSettings) (db : Db) (events : List FleetEvent)
    (hlease : settings.fleet.Guarded Fleet.LeasesOutlast (.start db) events) (worker : String)
    (moment : Moment) :
    let s := settings.fleet.run (.start db) events
    (settings.fleet.next s (.work worker moment)).db.resources ≠ s.db.resources →
      ∃ claimed now resource observed report,
        s.place worker = .writing claimed now resource observed report ∧
          s.HoldsLease worker claimed.job.id := by
  intro s hchanged
  obtain ⟨claimed, now, resource, observed, report, hplace⟩ :
      ∃ claimed now resource observed report,
        s.place worker = .writing claimed now resource observed report := by
    by_contra hnone
    refine hchanged ((settings.worker worker).resources_step (s.stopping worker) moment s.db
      (s.place worker) ?_)
    intro claimed now resource observed report hplace
    exact hnone ⟨claimed, now, resource, observed, report, hplace⟩
  obtain ⟨row, hget, hrow⟩ := backed_run settings db events hlease worker claimed (by
    rw [show (settings.fleet.run (.start db) events).place worker = _ from hplace]
    rfl)
  exact ⟨claimed, now, resource, observed, report, hplace, row, hget, hrow.heldBy⟩

/-- The first worker has read the resource and is about to write when the second looks for expired
leases, in time. -/
def recoveryInTime : List FleetEvent :=
  steps 6 "worker-0" (quietMoment 1000 (.ok (.ready ⟨1⟩))) ++
    steps 2 "worker-1" (quietMoment 20000 (.ok .inProgress))

theorem observations_fenced_in_time :
    let s := smallFleet.fleet.run (.start queuedStore) recoveryInTime
    ∃ claimed now resource observed report,
      s.place "worker-0" = .writing claimed now resource observed report ∧
        s.HoldsLease "worker-0" claimed.job.id := by
  refine observations_fenced smallFleet queuedStore recoveryInTime ?_ "worker-0"
    (quietMoment 21000 (.ok .inProgress)) ?_
  · refine ⟨nofun, ?_, nofun, nofun, nofun, nofun, nofun, ?_, trivial⟩
    · rintro now hplace - worker claimed hpending
      by_cases hfirst : worker = "worker-0"
      · subst hfirst
        cases hpending
      · rw [smallFleet.place_work_of_ne _ hfirst] at hpending
        cases hpending
    · rintro now hplace - worker claimed hpending
      cases hplace
      by_cases hfirst : worker = "worker-0"
      · subst hfirst
        cases hpending
        decide +kernel
      · by_cases hsecond : worker = "worker-1"
        · subst hsecond
          cases hpending
        · simp only [smallFleet.place_work_of_ne _ hfirst,
            smallFleet.place_work_of_ne _ hsecond] at hpending
          cases hpending
  · intro hsame
    have hphase := congrArg (fun rows => (rows.get ⟨1⟩).map fun r : Resource => r.phase) hsame
    revert hphase
    decide +kernel

/-- A lease runs out while its holder is about to write; another worker recovers and claims the
job, and then the first worker's observation is recorded. -/
theorem observation_of_lost_lease :
    let events := steps 6 "worker-0" (quietMoment 1000 (.ok (.ready ⟨1⟩))) ++
      steps 5 "worker-1" (quietMoment 40000 (.ok .inProgress));
    let s := smallFleet.fleet.run (.start queuedStore) events
    let s' := smallFleet.fleet.next s (.work "worker-0" (quietMoment 41000 (.ok .inProgress)))
    (s.db.resources.get ⟨1⟩).map (·.phase) = some .provisioning ∧
      (s'.db.resources.get ⟨1⟩).map (·.phase) = some .ready ∧
      (s.db.jobs.get ⟨7⟩).bind (·.leaseOwner) = some "worker-1" ∧
      (s.db.jobs.get ⟨7⟩).any (·.heldBy "worker-0") = false := by
  decide +kernel

end Labrys.ControlPlane
