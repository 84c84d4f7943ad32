import Labrys.Core.JobQueueRuns
import Labrys.ControlPlane.JobsRuns

/-! # The durable queue against the in-memory one

Both queues fed the same operations by one worker whose lease does not expire. `JobAgrees` relates
a job to its row: the same work in the same status with the same attempts, due at the same time
unless dead, and with the same last error except on a first attempt, where a requeue of the
durable queue has cleared it. The two part where a key of a finished job is enqueued again, which
the in-memory queue accepts and the durable one answers with the finished job, and where a time is
not a whole number of microseconds, which the in-memory queue keeps and the table cuts. -/

namespace Labrys.ControlPlane
open Foundations Labrys.Core
set_option autoImplicit false

/-! ## What is compared -/

/-- An answer both queues can give: the value, or nothing for a failed call. -/
inductive QueueView
  | enqueue (outcome : Option EnqueueOutcome)
  | claim (claimed : Option (Option JobId))
  | done (outcome : Option Unit)
  | failed (outcome : Option JobStatus)
  | recovered
deriving DecidableEq

def viewCore : QueueAnswer → QueueView
  | .enqueue outcome => .enqueue (some outcome)
  | .claim claimed => .claim (some claimed)
  | .done outcome => .done outcome.toOption
  | .failed outcome => .failed outcome.toOption

def viewPg : PgAnswer → QueueView
  | .enqueue outcome => .enqueue outcome.toOption
  | .claim outcome => .claim (outcome.toOption.map fun claimed => claimed.map fun c => c.job.id)
  | .done outcome => .done outcome.toOption
  | .failed outcome => .failed outcome.toOption
  | .recovered _ => .recovered

/-- The operation of the durable queue for one of the in-memory queue, by the one worker. -/
def onTable (worker : String) (lease : Duration) : QueueOp → PgOp
  | .enqueue id target action version policy time =>
      .enqueue id target action version policy time
  | .claimNext now => .claimNext worker now lease fun _ => false
  | .complete id now => .complete id worker now
  | .fail id error now => .fail id worker error now
  | .pause id now => .pause id now
  | .resume id now => .resume id now
  | .requeue id now => .requeue id now

def coreQueue : Machine JobQueue QueueOp QueueView := jobQueue.adapt id viewCore

def tableQueue (worker : String) (lease : Duration) : Machine JobsTable QueueOp QueueView :=
  pgJobQueue.adapt (onTable worker lease) viewPg

/-- No attempt has ended since the job was enqueued or requeued. -/
def firstAttempt (job : Job) : Bool :=
  decide (job.attempts = 0) || decide (job.attempts = 1) && decide (job.status = .running)

structure JobAgrees (worker : String) (job : Job) (row : JobRow) : Prop where
  work : row.toJob.SameWork job
  status : row.status = job.status
  attempts : row.attempts = job.attempts
  nextAttemptAt : job.status ≠ .dead → row.nextAttemptAt = job.nextAttemptAt
  lastError : row.lastError = if firstAttempt job then none else job.lastError
  started : job.status = .running → 0 < job.attempts
  owner : job.status = .running → row.leaseOwner = some worker

/-- The queue and the table have the same ids, with agreeing jobs under them. -/
def Agrees (worker : String) (s : JobQueue × JobsTable) : Prop :=
  ∀ id, Option.Rel (JobAgrees worker) (s.1.get id) (s.2.get id)

/-- What the two queues do differently is not asked of them: an enqueue has a fresh id and does not
reuse the key of a finished job, jobs due at the same moment are not claimed in their order of
storage, no time leaves its range, and every time a job is due at or claimed at is a whole number
of microseconds. -/
def Comparable (lease : Duration) (q : JobQueue) : QueueOp → Prop
  | .enqueue id target action version _ time => q.get id = none ∧ WholeMicros time ∧
      ∀ job, q.get job.id = some job →
        job.idempotencyKey = IdempotencyKey.new target action version →
        job.status.isInFlight = true
  | .claimNext now => DateTime.add now lease ≠ none ∧ WholeMicros now ∧
      ∀ a b, q.get a.id = some a → q.get b.id = some b → a.claimable now = true →
        b.claimable now = true → a.due = b.due → a.id = b.id
  | .fail id _ now => ∀ job, q.get id = some job → job.status = .running →
      ∃ delay, job.policy.delayFor (max job.attempts 1) = some delay ∧
        (job.attempts < job.policy.maxAttempts →
          ∃ next, DateTime.add now delay = some next ∧ WholeMicros next)
  | .resume _ now => WholeMicros now
  | .requeue _ now => WholeMicros now
  | _ => True

/-! ## Agreement across one write -/

section Agreement
variable {worker : String} {q : JobQueue} {t t' : JobsTable}

theorem Agrees.row (h : Agrees worker (q, t)) {id : JobId} {job : Job}
    (hget : q.get id = some job) : ∃ row, t.get id = some row ∧ JobAgrees worker job row := by
  have hrel := h id
  simp only [hget] at hrel
  cases hrow : t.get id with
  | none =>
    rw [hrow] at hrel
    cases hrel
  | some row =>
    rw [hrow] at hrel
    cases hrel with
    | some hagree => exact ⟨row, rfl, hagree⟩

theorem Agrees.job (h : Agrees worker (q, t)) {id : JobId} {row : JobRow}
    (hget : t.get id = some row) : ∃ job, q.get id = some job ∧ JobAgrees worker job row := by
  have hrel := h id
  simp only [hget] at hrel
  cases hjob : q.get id with
  | none =>
    rw [hjob] at hrel
    cases hrel
  | some job =>
    rw [hjob] at hrel
    cases hrel with
    | some hagree => exact ⟨job, rfl, hagree⟩

theorem Agrees.put (h : Agrees worker (q, t)) {job : Job} (row : JobRow)
    (hagree : JobAgrees worker job row)
    (hrest : ∀ k, t'.get k = if k = job.id then some row else t.get k) :
    Agrees worker (q.put job, t') := by
  intro k
  simp only [JobQueue.get_put, hrest, eq_comm (a := job.id)]
  split
  · exact .some hagree
  · exact h k

theorem JobAgrees.heldBy {job : Job} {row : JobRow} (h : JobAgrees worker job row) :
    row.heldBy worker = true ↔ job.status = .running := by
  simp only [JobRow.heldBy, Bool.and_eq_true, decide_eq_true_eq, h.status]
  exact ⟨fun hrow => hrow.1, fun hrun => ⟨hrun, h.owner hrun⟩⟩

theorem JobAgrees.due {job : Job} {row : JobRow} (h : JobAgrees worker job row)
    (hstatus : job.status ≠ .dead) : row.toJob.due = job.due := by
  rw [Job.due, Job.due, h.nextAttemptAt hstatus, h.work.2.2.2.2.2]

theorem JobAgrees.claimable {job : Job} {row : JobRow} (h : JobAgrees worker job row)
    {now : DateTime} (hnow : WholeMicros now) : row.claimable now = job.claimable now := by
  simp only [JobRow.claimable, timestamptz_of_whole hnow, Job.claimable, h.status]
  by_cases hstatus : job.status = .queued
  · rw [h.nextAttemptAt (by simp [hstatus])]
  · simp [hstatus]

/-! ## Agreement across one operation -/

def Alike {α β : Type} (worker : String) (view : α → QueueView) (view' : β → QueueView)
    (left : JobQueue × α) (right : JobsTable × β) : Prop :=
  Agrees worker (left.1, right.1) ∧ view left.2 = view' right.2

theorem Agrees.update (h : Agrees worker (q, t)) {id : JobId} {wanted : JobStatus}
    {change : Job → Job} {left : JobQueue × Outcome CoreError Unit}
    (hleft : (∃ e, left = (q, .error (.err e)) ∧ ∀ job, q.get id = some job → job.status ≠ wanted) ∨
      ∃ job, q.get id = some job ∧ job.status = wanted ∧ left = (q.put (change job), .ok ()))
    {p : JobRow → Bool} {f : JobRow → JobRow} {hf : JobRow.KeepsKeys f}
    {error : ControlPlaneError}
    (hp : ∀ job row, JobAgrees worker job row → (p row = true ↔ job.status = wanted))
    (hchange : ∀ job row, JobAgrees worker job row → job.status = wanted →
      (change job).id = job.id ∧ JobAgrees worker (change job) (f row)) :
    Alike worker (viewCore ∘ .done) (viewPg ∘ .done) left (t.updateRow id p f hf error) := by
  obtain ⟨e, rfl, hnone⟩ | ⟨job, hget, hstatus, rfl⟩ := hleft
  · obtain ⟨heq, -⟩ | ⟨row, hrow, hprow, -⟩ := t.updateRow_cases id p f hf error
    · rw [heq]
      exact ⟨h, rfl⟩
    · obtain ⟨job, hjob, hagree⟩ := h.job hrow
      exact absurd ((hp job row hagree).mp hprow) (hnone job hjob)
  · obtain ⟨row, hrow, hagree⟩ := h.row hget
    obtain ⟨hid, hafter⟩ := hchange job row hagree hstatus
    obtain ⟨-, hnone⟩ | ⟨found, hfound, -, hok, hrest⟩ := t.updateRow_cases id p f hf error
    · have hp' := (hp job row hagree).mpr hstatus
      rw [hnone row hrow] at hp'
      cases hp'
    · rw [hrow] at hfound
      obtain rfl := Option.some_inj.mp hfound
      refine ⟨h.put (f row) hafter ?_, ?_⟩
      · rw [hid, JobQueue.get_id hget]
        exact hrest
      · simp only [Function.comp_apply, hok]
        rfl

theorem Agrees.complete (h : Agrees worker (q, t)) (id : JobId) (now : DateTime) :
    Alike worker (viewCore ∘ .done) (viewPg ∘ .done) (q.complete id now)
      (t.complete id worker now) := by
  refine h.update (complete_cases q id now) (fun _ _ hagree => hagree.heldBy) ?_
  intro job row hagree hrun
  refine ⟨rfl, hagree.work, rfl, hagree.attempts, fun _ => hagree.nextAttemptAt (by simp [hrun]),
    ?_, by simp, by simp⟩
  simp [JobRow.completed]

theorem Agrees.pause (h : Agrees worker (q, t)) (id : JobId) (now : DateTime) :
    Alike worker (viewCore ∘ .done) (viewPg ∘ .done) (q.pause id now) (t.pause id now) := by
  refine h.update (adjust_cases rfl) (fun _ _ hagree => by simp [hagree.status]) ?_
  intro job row hagree hqueued
  refine ⟨rfl, hagree.work, rfl, hagree.attempts, fun _ => ?_, ?_, by simp, by simp⟩
  · exact hagree.nextAttemptAt (by simp [hqueued])
  · simpa [firstAttempt, hqueued, JobRow.moved] using hagree.lastError

theorem Agrees.resume (h : Agrees worker (q, t)) (id : JobId) {now : DateTime}
    (hnow : WholeMicros now) :
    Alike worker (viewCore ∘ .done) (viewPg ∘ .done) (q.resume id now) (t.resume id now) := by
  refine h.update (adjust_cases rfl) (fun _ _ hagree => by simp [hagree.status]) ?_
  intro job row hagree hpaused
  refine ⟨rfl, hagree.work, rfl, hagree.attempts, fun _ => timestamptz_of_whole hnow, ?_,
    by simp, by simp⟩
  simpa [firstAttempt, hpaused, JobRow.moved] using hagree.lastError

theorem Agrees.requeue (h : Agrees worker (q, t)) (id : JobId) {now : DateTime}
    (hnow : WholeMicros now) :
    Alike worker (viewCore ∘ .done) (viewPg ∘ .done) (q.requeue id now) (t.requeue id now) := by
  refine h.update (adjust_cases rfl) (fun _ _ hagree => by simp [hagree.status]) ?_
  intro job row hagree hdead
  refine ⟨rfl, hagree.work, rfl, rfl, fun _ => timestamptz_of_whole hnow, ?_, by simp, by simp⟩
  simp [firstAttempt, JobRow.requeued]

theorem Agrees.enqueue (h : Agrees worker (q, t)) {lease : Duration} {id : JobId} {target : String}
    {action : JobAction} {version : ℕ} {policy : RetryPolicy} {time : DateTime}
    (hop : Comparable lease q (.enqueue id target action version policy time)) :
    Alike worker (viewCore ∘ .enqueue) (viewPg ∘ .enqueue)
      (q.enqueue id target action version policy time)
      (t.enqueue id target action version policy time) := by
  obtain ⟨hid, htime, hkeys⟩ := hop
  obtain ⟨job, hget, -, hkey, heq⟩ | ⟨hfree, heq⟩ :=
    enqueue_cases q id target action version policy time <;> rw [heq]
  · obtain ⟨row, hrow, hagree⟩ := h.row hget
    have hrowid := JobsTable.get_id hrow
    have hrowkey : row.idempotencyKey = IdempotencyKey.new target action version :=
      hagree.work.2.2.2.1.trans hkey
    obtain ⟨other, hother, hotherkey, heq'⟩ | ⟨hnone, -⟩ :=
      t.enqueue_cases id target action version policy time
    · obtain rfl := JobsTable.eq_of_key (by rw [hrowid, hrow]) hother
        (hrowkey.trans hotherkey.symm)
      rw [heq', hrowid]
      exact ⟨h, rfl⟩
    · exact absurd hrowkey (hnone row (by rw [hrowid, hrow]))
  · obtain ⟨row, hrow, hrowkey, -⟩ | ⟨-, ⟨e, hsome, -⟩ | ⟨hnone, hok, hrest⟩⟩ :=
      t.enqueue_cases id target action version policy time
    · obtain ⟨job, hjob, hagree⟩ := h.job hrow
      have hjobid : job.id = row.id := JobQueue.get_id hjob
      have hjobkey := hagree.work.2.2.2.1.symm.trans hrowkey
      rw [← hjobid] at hjob
      exact absurd hjobkey (hfree job hjob (hkeys job hjob hjobkey))
    · obtain ⟨row, hrow⟩ := Option.ne_none_iff_exists'.mp hsome
      obtain ⟨job, hjob, -⟩ := h.job hrow
      rw [hid] at hjob
      cases hjob
    · refine ⟨h.put (JobRow.fresh id target action version policy time) ?_ ?_, ?_⟩
      · have hkept := timestamptz_of_whole htime
        exact ⟨⟨rfl, rfl, rfl, rfl, rfl, hkept⟩, rfl, rfl, fun _ => hkept, rfl,
          by simp [Job.fresh], by simp [Job.fresh]⟩
      · intro k
        rw [hrest k]
        simp only [eq_comm (a := id)]
        rfl
      · simp only [Function.comp_apply, hok]
        rfl

/-- A claim takes the same job: the earliest due of both, which no other job is due with. -/
theorem Agrees.claimNext (h : Agrees worker (q, t)) {lease : Duration} {now : DateTime}
    (hop : Comparable lease q (.claimNext now)) :
    Alike worker (viewCore ∘ .claim) (viewPg ∘ .claim) (q.claimNext now)
      (t.claimNext worker now lease fun _ => false) := by
  obtain ⟨hlease, hnow, hties⟩ := hop
  obtain ⟨hoverflow, -⟩ | ⟨expires, hadd, hcases⟩ :=
    t.claimNext_cases worker now lease fun _ => false
  · exact absurd hoverflow hlease
  obtain ⟨heq, hnone⟩ | ⟨job, hget, hclaim, hmin, heq⟩ := claimNext_cases q now <;> rw [heq]
  · obtain ⟨heq', -⟩ | ⟨row, hrow, hrowclaim, -⟩ := hcases
    · rw [heq']
      exact ⟨h, rfl⟩
    · obtain ⟨job, hjob, hagree⟩ := h.job hrow
      rw [hagree.claimable hnow] at hrowclaim
      rw [← JobQueue.get_id hjob] at hjob
      rw [hnone job hjob] at hrowclaim
      cases hrowclaim
  · obtain ⟨row, hrow, hagree⟩ := h.row hget
    have hrowid : row.id = job.id := JobsTable.get_id hrow
    rw [← hrowid] at hrow
    have hqueued : ∀ {j : Job}, j.claimable now = true → j.status ≠ .dead := by
      intro j hj hdead
      simp [Job.claimable, hdead] at hj
    obtain ⟨-, hnone⟩ | ⟨found, hfound, hfoundclaim, -, hfoundmin, hok, hrest⟩ := hcases
    · have := hnone row hrow (by rw [hagree.claimable hnow, hclaim])
      cases this
    · obtain ⟨other, hother, hotheragree⟩ := h.job hfound
      have hotherid : other.id = found.id := JobQueue.get_id hother
      rw [← hotherid] at hother
      rw [hotheragree.claimable hnow] at hfoundclaim
      -- the two minima are due together, so they are one job
      have hdue : job.due = other.due := by
        refine le_antisymm (hmin other hother hfoundclaim) ?_
        rw [← hotheragree.due (hqueued hfoundclaim), ← hagree.due (hqueued hclaim)]
        exact hfoundmin row hrow (by rw [hagree.claimable hnow, hclaim]) rfl
      have hsame := hties job other hget hother hclaim hfoundclaim hdue
      obtain rfl : found = row := by
        rw [hrowid, hsame, hotherid, hfound] at hrow
        exact Option.some_inj.mp hrow
      refine ⟨h.put (found.claimed worker now expires) ?_ ?_, ?_⟩
      · have hstatus : job.status = .queued := by
          simp only [Job.claimable, Bool.and_eq_true, decide_eq_true_eq] at hclaim
          exact hclaim.1
        refine ⟨hagree.work, rfl, by simp [JobRow.claimed, hagree.attempts],
          fun _ => hagree.nextAttemptAt (hqueued hclaim), ?_, by simp, fun _ => rfl⟩
        simpa [firstAttempt, hstatus, JobRow.claimed] using hagree.lastError
      · simpa only [hrowid] using hrest
      · simp only [Function.comp_apply, hok]
        simp [viewCore, viewPg, Except.toOption, JobRow.claimed, hrowid]

theorem JobAgrees.afterFailure_dead {job : Job} {row : JobRow} (h : JobAgrees worker job row)
    (hbudget : job.policy.maxAttempts ≤ job.attempts) (now : DateTime) :
    JobsTable.afterFailure row now = .ok (.dead, now) := by
  have hpolicy : row.policy = job.policy := h.work.2.2.2.2.1
  simp only [JobsTable.afterFailure, hpolicy, h.attempts]
  rw [if_pos (le_max_of_le_left hbudget)]

theorem JobAgrees.afterFailure_queued {job : Job} {row : JobRow} (h : JobAgrees worker job row)
    (hrun : job.status = .running) (hbudget : job.attempts < job.policy.maxAttempts)
    {delay : Duration} {now next : DateTime}
    (hdelay : job.policy.delayFor (max job.attempts 1) = some delay)
    (hadd : DateTime.add now delay = some next) :
    JobsTable.afterFailure row now = .ok (.queued, next) := by
  have hpolicy : row.policy = job.policy := h.work.2.2.2.2.1
  have hstarted := h.started hrun
  simp only [JobsTable.afterFailure, hpolicy, h.attempts, hdelay, hadd]
  rw [if_neg (by omega)]

theorem Agrees.fail (h : Agrees worker (q, t)) {lease : Duration} {id : JobId} {error : String}
    {now : DateTime} (hop : Comparable lease q (.fail id error now)) :
    Alike worker (viewCore ∘ .failed) (viewPg ∘ .failed) (q.fail id error now)
      (t.fail id worker error now) := by
  obtain ⟨e, heq, hnone⟩ | ⟨job, hget, hrun, hcases⟩ := fail_cases q id error now
  · rw [heq]
    obtain ⟨heq', -⟩ | ⟨row, hrow, hheld, -⟩ := t.fail_cases id worker error now
    · rw [heq']
      exact ⟨h, rfl⟩
    · obtain ⟨job, hjob, hagree⟩ := h.job hrow
      exact absurd (hagree.heldBy.mp hheld) (hnone job hjob)
  obtain ⟨row, hrow, hagree⟩ := h.row hget
  obtain rfl : job.id = id := JobQueue.get_id hget
  have hheld := hagree.heldBy.mpr hrun
  have hstarted := hagree.started hrun
  obtain ⟨delay, hdelay, hrange⟩ := hop job hget hrun
  rw [hdelay] at hcases
  obtain ⟨hpanic, -⟩ | ⟨delay', hsame, hcases⟩ := hcases
  · cases hpanic
  obtain rfl := Option.some_inj.mp hsame
  obtain ⟨hbudget, heq⟩ | ⟨hbudget, hoverflow, -⟩ | ⟨next, hbudget, hadd, heq⟩ := hcases
  · obtain ⟨hok, hrest⟩ := t.fail_of_afterFailure hrow hheld
      (hagree.afterFailure_dead hbudget now) error
    rw [heq]
    refine ⟨h.put (row.failed .dead error now) ?_ hrest, ?_⟩
    · refine ⟨hagree.work, rfl, hagree.attempts, by simp, ?_, by simp, by simp⟩
      simp [firstAttempt, JobRow.failed, hstarted.ne']
    · simp only [Function.comp_apply, hok]
      rfl
  · obtain ⟨next, hadd, -⟩ := hrange hbudget
    exact absurd hoverflow (by simp [hadd])
  · obtain ⟨next', hadd', hnext⟩ := hrange hbudget
    obtain rfl := Option.some_inj.mp (hadd.symm.trans hadd')
    obtain ⟨hok, hrest⟩ := t.fail_of_afterFailure hrow hheld
      (hagree.afterFailure_queued hrun hbudget hdelay hadd) error
    rw [heq]
    refine ⟨h.put (row.failed .queued error next) ?_ hrest, ?_⟩
    · refine ⟨hagree.work, rfl, hagree.attempts, fun _ => timestamptz_of_whole hnext, ?_,
        by simp, by simp⟩
      simp [firstAttempt, JobRow.failed, hstarted.ne']
    · simp only [Function.comp_apply, hok]
      rfl

end Agreement

/-! ## Whole histories -/

theorem agrees_next (worker : String) (lease : Duration) (s : JobQueue × JobsTable) (op : QueueOp)
    (h : Agrees worker s) (hop : Comparable lease s.1 op) :
    Agrees worker ((coreQueue.pair (tableQueue worker lease)).next s op) ∧
      coreQueue.answer s.1 op = (tableQueue worker lease).answer s.2 op := by
  cases op with
  | enqueue id target action version policy time => exact Agrees.enqueue h hop
  | claimNext now => exact Agrees.claimNext h hop
  | complete id now => exact Agrees.complete h id now
  | fail id error now => exact Agrees.fail h hop
  | pause id now => exact Agrees.pause h id now
  | resume id now => exact Agrees.resume h id hop
  | requeue id now => exact Agrees.requeue h id hop

end Labrys.ControlPlane
