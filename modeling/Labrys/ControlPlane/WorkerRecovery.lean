import Labrys.ControlPlane.JobsRuns
import Labrys.ControlPlane.Worker

/-! # A worker that crashes while it finalizes

The worker is cut off after any number of its steps on a claimed job, its lease is recovered, and
another worker gets the job and the same answer from the dispatcher. The resource is written before
the job is completed, and the second observation of one phase is refused: a crash between the two
writes leaves a job that no later pass can complete. -/

namespace Labrys.ControlPlane
open Foundations Labrys.Core
set_option autoImplicit false

/-- The job is succeeded and its resource in the reported phase. -/
def Converged (db : Db) (job : JobId) (resource : ResourceId) (phase : ResourcePhase) : Prop :=
  (∃ row, db.jobs.get job = some row ∧ row.status = .succeeded) ∧
    ∃ found, db.resources.get resource = some found ∧ found.phase = phase

/-- The answer of a dispatcher that observed the resource in a phase. -/
inductive Reports (resource : ResourceId) : DispatchOutcome → ResourcePhase → Prop
  | ready : Reports resource (.ready resource) .ready
  | degraded : Reports resource (.degraded resource) .degraded

def answering (outcome : DispatchOutcome) : Dispatcher := fun _ => pure outcome

/-! ## A pass that is not interrupted -/

namespace Worker
variable (w : Worker)

def observedPass (claimed : ClaimedJob) (now : DateTime) (resource : ResourceId)
    (phase : ResourcePhase) (report : Report) (tick : TickOutcome) : Action TickOutcome := do
  w.observe resource phase now
  w.complete claimed.job now
  w.recordEvent now report
  return tick

theorem finalize_eq_observedPass {resource : ResourceId} {outcome : DispatchOutcome}
    {phase : ResourcePhase} (h : Reports resource outcome phase) (claimed : ClaimedJob)
    (now : DateTime) :
    ∃ report tick, w.finalize (answering outcome) claimed now =
        w.observedPass claimed now resource phase report tick ∧
      w.onOutcome claimed now outcome = .observing claimed now resource phase report := by
  cases h with
  | ready => exact ⟨_, _, rfl, rfl⟩
  | degraded => exact ⟨_, _, rfl, rfl⟩

theorem complete_of_heldBy {db : Db} {job : Job} {row : JobRow}
    (hget : db.jobs.get job.id = some row) (hheld : row.heldBy w.workerId = true)
    (now : DateTime) :
    ∃ db', w.complete job now db = (db', .ok ()) ∧ db'.resources = db.resources ∧
      db'.jobs.get job.id = some (row.completed now) := by
  obtain ⟨-, hnone⟩ | ⟨found, hfound, -, hok, hrest⟩ := db.jobs.updateRow_cases job.id
    (JobRow.heldBy w.workerId) (JobRow.completed now) (fun _ => ⟨rfl, rfl⟩)
    (JobsTable.notRunningUnder job.id w.workerId)
  · rw [hnone row hget] at hheld
    cases hheld
  · rw [hget] at hfound
    obtain rfl := Option.some_inj.mp hfound
    refine ⟨{ db with jobs := (db.jobs.complete job.id w.workerId now).1 }, ?_, rfl, ?_⟩
    · exact congrArg (Prod.mk _) hok
    · exact (hrest job.id).trans (if_pos rfl)

theorem observedPass_converges {db : Db} {claimed : ClaimedJob} {row : JobRow}
    {resource : Resource} {phase : ResourcePhase}
    (hget : db.jobs.get claimed.job.id = some row) (hheld : row.heldBy w.workerId = true)
    (hresource : db.resources.get resource.id = some resource)
    (hallowed : resource.phase.canTransitionTo phase = true) (now : DateTime) (report : Report)
    (tick : TickOutcome) :
    Converged (w.observedPass claimed now resource.id phase report tick db).1 claimed.job.id
      resource.id phase := by
  obtain ⟨e, -, hrefused⟩ | ⟨found, observed, -, -, hphase, hobserve, hstored⟩ :=
    PgResourceStore.observePhase_cases db resource.id phase .platformProbe w.probeReason now
  · rw [hrefused resource hresource] at hallowed
    cases hallowed
  · have hobserved : w.observe resource.id phase now db =
        (PgResourceStore.phaseWritten db observed, .ok ()) := Program.bind_of_ok hobserve _
    obtain ⟨db', hcomplete, hresources, hjob⟩ := w.complete_of_heldBy
      (show (PgResourceStore.phaseWritten db observed).jobs.get claimed.job.id = some row from hget)
      hheld now
    have hrest : w.observedPass claimed now resource.id phase report tick db =
        (w.recordEvent now report >>= fun _ => pure tick) db' := by
      rw [observedPass, Program.bind_of_ok hobserved, Program.bind_of_ok hcomplete]
    rw [hrest]
    have hjobs := (w.jobs_recordEvent now report).bind (fun _ => Program.keeps_pure tick) db'
    have hkept := (w.resources_recordEvent now report).bind (fun _ => Program.keeps_pure tick) db'
    refine ⟨⟨row.completed now, by rw [hjobs, hjob], rfl⟩, observed, ?_, hphase⟩
    rw [hkept, hresources, hstored]

/-- On a resource that is there already, the pass fails and leaves the store as it was. -/
theorem observedPass_stuck {db : Db} {resource : Resource} {phase : ResourcePhase}
    (hresource : db.resources.get resource.id = some resource) (hphase : resource.phase = phase)
    (claimed : ClaimedJob) (now : DateTime) (report : Report) (tick : TickOutcome) :
    (w.observedPass claimed now resource.id phase report tick db).1 = db := by
  obtain ⟨e, he⟩ := w.observe_of_phase hresource hphase now
  rw [observedPass, Program.bind_of_error he]

/-! ## Cut off after some steps -/

/-- The world of a pass: the database works, and the dispatcher gives its answer. -/
def passMoment (outcome : DispatchOutcome) (now : DateTime) : Moment :=
  ⟨now, fun _ => false, none, .ok outcome⟩

/-- The store that a crash after `steps` steps of the pass leaves behind. The worker was told to
stop, so it does not go on to another job. -/
def crashAfter (outcome : DispatchOutcome) (claimed : ClaimedJob) (now : DateTime) (steps : ℕ)
    (db : Db) : Db :=
  ((w.alone true (passMoment outcome now))^[steps] (db, .dispatching claimed now)).1

def Settled : WorkerAt → Prop
  | .recording _ _ | .top | .ended _ => True
  | _ => False

theorem alone_settled (moment : Moment) (s : Db × WorkerAt) (h : Settled s.2) :
    (w.alone true moment s).1.jobs = s.1.jobs ∧
      (w.alone true moment s).1.resources = s.1.resources ∧
      Settled (w.alone true moment s).2 := by
  obtain ⟨db, place⟩ := s
  cases place with
  | recording now report =>
    have hjobs := w.jobs_recordEvent now report db
    have hresources := w.resources_recordEvent now report db
    simp only [alone, step, attempt]
    cases moment.fault with
    | some text => exact ⟨rfl, rfl, trivial⟩
    | none =>
      dsimp only
      generalize w.recordEvent now report db = result at hjobs hresources
      obtain ⟨db', outcome⟩ := result
      cases outcome <;> exact ⟨hjobs, hresources, trivial⟩
  | top => exact ⟨rfl, rfl, trivial⟩
  | ended outcome => exact ⟨rfl, rfl, trivial⟩
  | _ => cases h

theorem iterate_settled (moment : Moment) (n : ℕ) (s : Db × WorkerAt) (h : Settled s.2) :
    ((w.alone true moment)^[n] s).1.jobs = s.1.jobs ∧
      ((w.alone true moment)^[n] s).1.resources = s.1.resources := by
  induction n generalizing s with
  | zero => exact ⟨rfl, rfl⟩
  | succ n ih =>
    obtain ⟨hjobs, hresources, hsettled⟩ := w.alone_settled moment s h
    obtain ⟨hjobs', hresources'⟩ := ih (w.alone true moment s) hsettled
    rw [Function.iterate_succ_apply]
    exact ⟨hjobs'.trans hjobs, hresources'.trans hresources⟩

/-- What a crash leaves: nothing, the observation alone, or the observation and the completed
job. -/
theorem crashAfter_cases {db : Db} {claimed : ClaimedJob} {row : JobRow} {resource : Resource}
    {outcome : DispatchOutcome} {phase : ResourcePhase}
    (hget : db.jobs.get claimed.job.id = some row) (hheld : row.heldBy w.workerId = true)
    (hresource : db.resources.get resource.id = some resource)
    (hallowed : resource.phase.canTransitionTo phase = true)
    (hreports : Reports resource.id outcome phase) (now : DateTime) (steps : ℕ) :
    (steps < 3 ∧ w.crashAfter outcome claimed now steps db = db) ∨
    ∃ observed, observed.id = resource.id ∧ observed.phase = phase ∧
      (PgResourceStore.phaseWritten db observed).resources.get resource.id = some observed ∧
      (((steps = 3 ∨ steps = 4) ∧
          w.crashAfter outcome claimed now steps db = PgResourceStore.phaseWritten db observed) ∨
        (5 ≤ steps ∧
          (w.crashAfter outcome claimed now steps db).jobs.get claimed.job.id =
            some (row.completed now) ∧
          (w.crashAfter outcome claimed now steps db).resources.get resource.id =
            some observed)) := by
  obtain ⟨report, -, -, hplace⟩ := w.finalize_eq_observedPass hreports claimed now
  obtain ⟨observed, hobserve⟩ := Resource.observe_of_allowed hallowed .platformProbe w.probeReason now
  have hphase := (Resource.observe_ok hobserve).2.1
  have hid := Resource.id_of_observe hobserve
  have hstored := PgResourceStore.get_phaseWritten_observe hresource hobserve
  obtain ⟨db', hcomplete, hresources, hjob⟩ := w.complete_of_heldBy
    (show (PgResourceStore.phaseWritten db observed).jobs.get claimed.job.id = some row from hget)
    hheld now
  -- the places of the pass, one after the other
  have h1 : w.alone true (passMoment outcome now) (db, .dispatching claimed now) =
      (db, .observing claimed now resource.id phase report) := congrArg (Prod.mk db) hplace
  have h2 : w.alone true (passMoment outcome now)
      (db, .observing claimed now resource.id phase report) =
        (db, .writing claimed now resource.id observed report) := by
    have hread : w.readPhase resource.id phase now db = (db, .ok observed) := by
      rw [readPhase, Program.bind_of_ok (PgResourceStore.get_of_some hresource), hobserve]
      rfl
    simp only [alone, step, attempt, passMoment, hread]
  have h3 : w.alone true (passMoment outcome now)
      (db, .writing claimed now resource.id observed report) =
        (PgResourceStore.phaseWritten db observed, .rereading claimed now resource.id report) := by
    have hwrite : PgResourceStore.writePhase observed db = _ :=
      PgResourceStore.writePhase_of_some (by rw [hid, hresource])
    simp only [alone, step, attempt, passMoment, hwrite]
  have h4 : w.alone true (passMoment outcome now)
      (PgResourceStore.phaseWritten db observed, .rereading claimed now resource.id report) =
        (PgResourceStore.phaseWritten db observed, .completing claimed now report) := by
    simp only [alone, step, attempt, passMoment, PgResourceStore.get_of_some hstored]
  have h5 : w.alone true (passMoment outcome now)
      (PgResourceStore.phaseWritten db observed, .completing claimed now report) =
        (db', .recording now report) := by
    simp only [alone, step, attempt, passMoment, hcomplete]
  obtain _ | _ | _ | _ | _ | n := steps
  · exact .inl ⟨by omega, rfl⟩
  · refine .inl ⟨by omega, ?_⟩
    simp only [crashAfter, Function.iterate_succ_apply, Function.iterate_zero, id_eq, h1]
  · refine .inl ⟨by omega, ?_⟩
    simp only [crashAfter, Function.iterate_succ_apply, Function.iterate_zero, id_eq, h1, h2]
  · refine .inr ⟨observed, hid, hphase, hstored, .inl ⟨.inl rfl, ?_⟩⟩
    simp only [crashAfter, Function.iterate_succ_apply, Function.iterate_zero, id_eq, h1, h2, h3]
  · refine .inr ⟨observed, hid, hphase, hstored, .inl ⟨.inr rfl, ?_⟩⟩
    simp only [crashAfter, Function.iterate_succ_apply, Function.iterate_zero, id_eq, h1, h2, h3,
      h4]
  · obtain ⟨hjobs, hkept⟩ := w.iterate_settled (passMoment outcome now) n
      (db', .recording now report) trivial
    refine .inr ⟨observed, hid, hphase, hstored, .inr ⟨by omega, ?_, ?_⟩⟩
    · simp only [crashAfter, Function.iterate_succ_apply, h1, h2, h3, h4, h5]
      rw [hjobs, hjob]
    · simp only [crashAfter, Function.iterate_succ_apply, h1, h2, h3, h4, h5]
      rw [hkept, hresources, hstored]

end Worker

/-! ## Recovery and the second pass -/

def Db.recovered (db : Db) (time : DateTime) : Db :=
  { db with jobs := (db.jobs.recoverExpiredLeases time).1 }

/-- After the recovery the job is done, or it is queued and every pass over it that gets the same
answer converges. -/
def RecoversTo (outcome : DispatchOutcome) (job : JobId) (resource : ResourceId)
    (phase : ResourcePhase) (db : Db) : Prop :=
  Converged db job resource phase ∨
    ((∃ row, db.jobs.get job = some row ∧ row.status = .queued) ∧
      ∀ (w : Worker) (tick : DateTime) (skip : JobId → Bool) (t : JobsTable) (claimed : ClaimedJob)
        (now : DateTime),
        db.jobs.claimNext w.workerId tick w.lease skip = (t, .ok (some claimed)) →
        claimed.job.id = job →
        Converged (w.finalize (answering outcome) claimed now { db with jobs := t }).1 job resource
          phase)

theorem heldBy_claimed (row : JobRow) (worker : String) (now expires : DateTime) :
    (row.claimed worker now expires).heldBy worker = true := by
  simp [JobRow.heldBy, JobRow.claimed]

theorem get_recovered_of_expired {db : Db} {id : JobId} {row : JobRow} {time : DateTime}
    (hget : db.jobs.get id = some row) (hexpired : row.expired time = true) :
    (db.recovered time).jobs.get id = some (row.recovered time) := by
  rw [Db.recovered, JobsTable.get_recoverExpiredLeases, hget, Option.map_some, if_pos hexpired]

theorem get_recovered_of_not_expired {db : Db} {id : JobId} {row : JobRow} {time : DateTime}
    (hget : db.jobs.get id = some row) (hexpired : row.expired time = false) :
    (db.recovered time).jobs.get id = some row := by
  rw [Db.recovered, JobsTable.get_recoverExpiredLeases, hget, Option.map_some]
  simp [hexpired]

section Recovery
variable {w : Worker} {outcome : DispatchOutcome} {phase : ResourcePhase} {resource : Resource}
  {db : Db} {time : DateTime}

/-- A queued job on a resource that may still move converges on the next pass. -/
theorem recoversTo_of_allowed {id : JobId} {row : JobRow} (hget : db.jobs.get id = some row)
    (hqueued : row.status = .queued)
    (hresource : db.resources.get resource.id = some resource)
    (hallowed : resource.phase.canTransitionTo phase = true)
    (hreports : Reports resource.id outcome phase) :
    RecoversTo outcome id resource.id phase db := by
  refine .inr ⟨⟨row, hget, hqueued⟩, fun w tick skip t claimed now hclaim hid => ?_⟩
  obtain ⟨found, expires, -, -, -, -, hfoundid, hrest⟩ := db.jobs.claimNext_ok hclaim
  obtain ⟨report, outcome', hpass, -⟩ := w.finalize_eq_observedPass hreports claimed now
  have hrow : ({ db with jobs := t } : Db).jobs.get claimed.job.id =
      some (found.claimed w.workerId tick expires) := by
    rw [hfoundid]
    exact (hrest found.id).trans (if_pos rfl)
  rw [hpass, ← hid]
  exact w.observedPass_converges hrow (heldBy_claimed _ _ _ _) hresource hallowed now report
    outcome'

/-- A queued job on a resource that is in the reported phase does not converge. -/
theorem not_recoversTo_of_phase (row : JobRow) (hget : db.jobs.get row.id = some row)
    (hqueued : row.status = .queued) (hresource : db.resources.get resource.id = some resource)
    (hphase : resource.phase = phase) (hreports : Reports resource.id outcome phase)
    {tick expires : DateTime} {lease : Duration} (hdue : row.nextAttemptAt ≤ timestamptz tick)
    (hadd : DateTime.add tick lease = some expires) :
    ¬ RecoversTo outcome row.id resource.id phase db := by
  rintro (⟨⟨found, hfound, hdone⟩, -⟩ | ⟨-, hpasses⟩)
  · rw [hget] at hfound
    obtain rfl := Option.some_inj.mp hfound
    rw [hqueued] at hdone
    cases hdone
  · have hclaimable : row.claimable tick = true := JobRow.claimable_iff.mpr ⟨hqueued, hdue⟩
    obtain ⟨t, claimed, hclaim, hid⟩ := db.jobs.claimNext_only hget hclaimable hadd "next"
    obtain ⟨found, _, -, -, -, -, hfoundid, hrest⟩ := db.jobs.claimNext_ok hclaim
    obtain ⟨⟨done, hdone, hsucceeded⟩, -⟩ :=
      hpasses ⟨"next", lease, []⟩ tick _ t claimed tick hclaim hid
    obtain ⟨report, outcome', hpass, -⟩ :=
      (⟨"next", lease, []⟩ : Worker).finalize_eq_observedPass hreports claimed tick
    have hstuck := (⟨"next", lease, []⟩ : Worker).observedPass_stuck
      (show ({ db with jobs := t } : Db).resources.get resource.id = some resource from hresource)
      hphase claimed tick report outcome'
    have hrow := (hrest found.id).trans (if_pos rfl)
    rw [hpass, hstuck, ← hid, hfoundid, hrow] at hdone
    obtain rfl := Option.some_inj.mp hdone
    cases hsucceeded

end Recovery

/-- **Crash points.** A worker that claimed a job on a provisioning resource crashes after any
number of steps of its pass; its lease is over and recovered. The job converges exactly if the
crash was not between the write of the observation and the completion of the job. -/
theorem crash_recovers_iff (w : Worker) (before : Db) (tick : DateTime) (skip : JobId → Bool)
    (t : JobsTable) (claimed : ClaimedJob)
    (hclaim : before.jobs.claimNext w.workerId tick w.lease skip = (t, .ok (some claimed)))
    (resource : Resource) (hresource : before.resources.get resource.id = some resource)
    (hprovisioning : resource.phase = .provisioning) (outcome : DispatchOutcome)
    (phase : ResourcePhase) (hreports : Reports resource.id outcome phase) (now : DateTime)
    (steps : ℕ) (recovery : DateTime) (hexpired : claimed.leaseExpiresAt ≤ recovery) :
    RecoversTo outcome claimed.job.id resource.id phase
        ((w.crashAfter outcome claimed now steps { before with jobs := t }).recovered recovery) ↔
      steps ≠ 3 ∧ steps ≠ 4 := by
  obtain ⟨row, expires, hrow, hclaimable, hadd, hexpires, hid, hrest⟩ :=
    before.jobs.claimNext_ok hclaim
  rw [hid]
  have hget : t.get row.id = some (row.claimed w.workerId tick expires) := by
    rw [hrest, if_pos rfl]
  have hover : (row.claimed w.workerId tick expires).expired recovery = true := by
    have hcut : timestamptz expires ≤ timestamptz recovery := by
      rw [← timestamptz_idem expires]
      exact timestamptz_mono (hexpires ▸ hexpired)
    simp [JobRow.expired, JobRow.claimed, hcut]
  have hallowed : resource.phase.canTransitionTo phase = true := by
    rw [hprovisioning]
    cases hreports <;> rfl
  obtain ⟨hsteps, heq⟩ | ⟨observed, hobservedid, hobserved, hstored,
      ⟨hsteps, heq⟩ | ⟨hsteps, hdone, hkept⟩⟩ :=
    w.crashAfter_cases
      (show ({ before with jobs := t } : Db).jobs.get claimed.job.id = _ by rw [hid]; exact hget)
      (heldBy_claimed _ _ _ _) hresource hallowed hreports now steps
  · rw [heq]
    refine ⟨fun _ => by omega, fun _ => ?_⟩
    exact recoversTo_of_allowed (get_recovered_of_expired hget hover) rfl hresource hallowed
      hreports
  · rw [heq]
    refine ⟨fun hrecovers => ?_, fun h => by omega⟩
    have hdue : row.nextAttemptAt ≤ timestamptz tick := (JobRow.claimable_iff.mp hclaimable).2
    rw [← hobservedid] at hrecovers hstored hreports
    refine absurd hrecovers (not_recoversTo_of_phase
      ((row.claimed w.workerId tick expires).recovered recovery) ?_ rfl hstored
      hobserved hreports hdue hadd)
    exact get_recovered_of_expired hget hover
  · refine ⟨fun _ => by omega, fun _ => .inl ⟨⟨_, get_recovered_of_not_expired (hid ▸ hdone) ?_,
      rfl⟩, observed, hkept, hobserved⟩⟩
    simp [JobRow.expired, JobRow.completed]

/-- The worker dies once the dispatcher has answered; its job converges on the next pass. -/
theorem crash_recovers_after_dispatch :
    RecoversTo (.ready ⟨1⟩) ⟨7⟩ ⟨1⟩ .ready
      (((⟨"worker-0", 30000, []⟩ : Worker).crashAfter (.ready ⟨1⟩)
        ⟨{ Job.fresh ⟨7⟩ "res_00000000000000000000000000000001" .provision 1
            RetryPolicy.default 0 with status := .running, attempts := 1, updatedAt := 1000 },
          "worker-0", 31000⟩ 2000 1
        { queuedStore with
          jobs := (queuedStore.jobs.claimNext "worker-0" 1000 30000 fun _ => false).1 }).recovered
        31000) :=
  (crash_recovers_iff ⟨"worker-0", 30000, []⟩ queuedStore 1000 (fun _ => false)
    (queuedStore.jobs.claimNext "worker-0" 1000 30000 fun _ => false).1
    ⟨{ Job.fresh ⟨7⟩ "res_00000000000000000000000000000001" .provision 1
        RetryPolicy.default 0 with status := .running, attempts := 1, updatedAt := 1000 },
      "worker-0", 31000⟩
    (Prod.ext rfl (by decide)) provisioningResource (by decide) rfl (.ready ⟨1⟩) .ready .ready 2000
    1 31000 (by decide)).mpr (by decide)

/-- The worker dies between the two writes: the resource is ready, the second pass is refused, and
the job is left running. -/
theorem crash_between_writes_strands_job :
    let claimedStore : Db := { queuedStore with
      jobs := (queuedStore.jobs.claimNext "worker-0" 1000 30000 fun _ => false).1 }
    let claimed : ClaimedJob :=
      ⟨{ Job.fresh ⟨7⟩ "res_00000000000000000000000000000001" .provision 1
          RetryPolicy.default 0 with status := .running, attempts := 1, updatedAt := 1000 },
        "worker-0", 31000⟩
    let recovered := ((⟨"worker-0", 30000, []⟩ : Worker).crashAfter (.ready ⟨1⟩) claimed 2000 3
      claimedStore).recovered 31000
    let second := recovered.jobs.claimNext "worker-1" 32000 30000 fun _ => false
    let claimed' : ClaimedJob :=
      ⟨{ claimed.job with
          attempts := 2, updatedAt := 32000,
          lastError := some "lease expired; job recovered for re-claim" }, "worker-1", 62000⟩
    let result := (⟨"worker-1", 30000, []⟩ : Worker).finalize (answering (.ready ⟨1⟩)) claimed' 33000
      { recovered with jobs := second.1 }
    second.2 = .ok (some claimed') ∧
      result.2 = .error (.err (.core (.reconciliation ("illegal resource transition Ready -> " ++
        "Ready for resource res_00000000000000000000000000000001")))) ∧
      (result.1.jobs.get ⟨7⟩).map (·.status) = some .running ∧
      ¬ Converged result.1 ⟨7⟩ ⟨1⟩ .ready := by
  refine ⟨by decide +kernel, by decide +kernel, by decide +kernel, ?_⟩
  rintro ⟨⟨row, hget, hdone⟩, -⟩
  have hstatus := congrArg (Option.map fun row : JobRow => row.status) hget
  rw [Option.map_some, hdone] at hstatus
  revert hstatus
  decide +kernel

end Labrys.ControlPlane
