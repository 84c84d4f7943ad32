import Labrys.Core.JobQueue

/-! # Histories of the in-memory queue

The queue as a machine over its seven operations. `step_cases` says once what an operation can do
to the queue: nothing, store one fresh job, or move one stored job along an edge of `JobMove`.
Everything below is read off that: what a job keeps, which statuses follow each other, and the
attempt budget. -/

namespace Labrys.Core
open Foundations
set_option autoImplicit false

/-! ## The queue as a machine -/

inductive QueueOp
  | enqueue (id : JobId) (target : String) (action : JobAction) (version : ℕ)
      (policy : RetryPolicy) (time : DateTime)
  | claimNext (now : DateTime)
  | complete (id : JobId) (now : DateTime)
  | fail (id : JobId) (error : String) (now : DateTime)
  | pause (id : JobId) (now : DateTime)
  | resume (id : JobId) (now : DateTime)
  | requeue (id : JobId) (now : DateTime)

inductive QueueAnswer
  | enqueue (outcome : EnqueueOutcome)
  | claim (claimed : Option JobId)
  | done (outcome : Outcome CoreError Unit)
  | failed (outcome : Outcome CoreError JobStatus)
deriving DecidableEq

def QueueAnswer.isErr : QueueAnswer → Bool
  | .done (.error (.err _)) | .failed (.error (.err _)) => true
  | _ => false

def JobQueue.step (q : JobQueue) : QueueOp → JobQueue × QueueAnswer
  | .enqueue id target action version policy time =>
      answered .enqueue (q.enqueue id target action version policy time)
  | .claimNext now => answered .claim (q.claimNext now)
  | .complete id now => answered .done (q.complete id now)
  | .fail id error now => answered .failed (q.fail id error now)
  | .pause id now => answered .done (q.pause id now)
  | .resume id now => answered .done (q.resume id now)
  | .requeue id now => answered .done (q.requeue id now)

def jobQueue : Machine JobQueue QueueOp QueueAnswer := ⟨JobQueue.step⟩

def QueueOp.Fresh (q : JobQueue) : QueueOp → Prop
  | .enqueue id .. => q.get id = none
  | _ => True

/-! ## What one operation can do -/

/-- The operation did something: it stored, claimed or moved a job and said so. -/
def QueueAnswer.accepted : QueueAnswer → Bool
  | .enqueue (.enqueued _) | .claim (some _) | .done (.ok _) | .failed (.ok _) => true
  | _ => false

/-- The edges a stored job moves along, each with the operation that takes it and its answer. -/
inductive JobMove : QueueOp → QueueAnswer → Job → Job → Prop
  | claimed (job : Job) (now : DateTime) (h : job.status = .queued) :
      JobMove (.claimNext now) (.claim (some job.id)) job
        { job with status := .running, attempts := job.attempts + 1, updatedAt := now }
  | completed (job : Job) (now : DateTime) (h : job.status = .running) :
      JobMove (.complete job.id now) (.done (.ok ())) job
        { job with status := .succeeded, lastError := none, updatedAt := now }
  | retried (job : Job) (error : String) (now next : DateTime) (h : job.status = .running)
      (hbudget : job.attempts < job.policy.maxAttempts) :
      JobMove (.fail job.id error now) (.failed (.ok .queued)) job
        { job with
          status := .queued, lastError := some error, updatedAt := now, nextAttemptAt := next }
  | buried (job : Job) (error : String) (now : DateTime) (h : job.status = .running)
      (hbudget : job.policy.maxAttempts ≤ job.attempts) :
      JobMove (.fail job.id error now) (.failed (.ok .dead)) job
        { job with status := .dead, lastError := some error, updatedAt := now }
  -- the panic of `now + delay`, after the error and the time were written
  | interrupted (job : Job) (error : String) (now : DateTime) (h : job.status = .running) :
      JobMove (.fail job.id error now) (.failed (.error (.panic dateTimeOverflowed))) job
        { job with lastError := some error, updatedAt := now }
  | paused (job : Job) (now : DateTime) (h : job.status = .queued) :
      JobMove (.pause job.id now) (.done (.ok ())) job
        { job with status := .paused, updatedAt := now }
  | resumed (job : Job) (now : DateTime) (h : job.status = .paused) :
      JobMove (.resume job.id now) (.done (.ok ())) job
        { job with status := .queued, nextAttemptAt := now, updatedAt := now }
  | requeued (job : Job) (now : DateTime) (h : job.status = .dead) :
      JobMove (.requeue job.id now) (.done (.ok ())) job
        { job with status := .queued, attempts := 0, nextAttemptAt := now, updatedAt := now }

def Enqueued (q : JobQueue) (op : QueueOp) (job : Job) : Prop :=
  ∃ id target action version policy time,
    op = .enqueue id target action version policy time ∧
    job = Job.fresh id target action version policy time ∧
    ∀ other, q.get other.id = some other → other.status.isInFlight = true →
      other.idempotencyKey ≠ job.idempotencyKey

theorem runningJob_ok {q : JobQueue} {id : JobId} {job : Job} (h : q.runningJob id = .ok job) :
    q.get id = some job ∧ job.status = .running := by
  unfold JobQueue.runningJob at h
  split at h
  · cases h
  · next found hget =>
    split at h
    · next hrun =>
      cases h
      exact ⟨hget, hrun⟩
    · cases h

theorem runningJob_error {q : JobQueue} {id : JobId} {e : CoreError}
    (h : q.runningJob id = .error e) (job : Job) (hget : q.get id = some job) :
    job.status ≠ .running := by
  intro hrun
  simp [JobQueue.runningJob, hget, hrun] at h

/-- The three adjustments either refuse and change nothing, or rewrite a job of the wanted
status. -/
theorem adjust_cases {q : JobQueue} {id : JobId} {wanted : JobStatus} {rule : String}
    {change : Job → Job} {result : JobQueue × Outcome CoreError Unit}
    (hresult : result = q.adjust id wanted rule change) :
    (∃ e, result = (q, .error (.err e)) ∧ ∀ job, q.get id = some job → job.status ≠ wanted) ∨
    ∃ job, q.get id = some job ∧ job.status = wanted ∧ result = (q.put (change job), .ok ()) := by
  subst hresult
  unfold JobQueue.adjust
  cases hget : q.get id with
  | none => exact .inl ⟨_, rfl, by simp⟩
  | some job =>
    by_cases hstatus : job.status = wanted
    · exact .inr ⟨job, rfl, hstatus, by simp [hstatus]⟩
    · refine .inl ⟨_, if_neg hstatus, fun other hother => ?_⟩
      obtain rfl := Option.some_inj.mp hother
      exact hstatus

theorem complete_cases (q : JobQueue) (id : JobId) (now : DateTime) :
    (∃ e, q.complete id now = (q, .error (.err e)) ∧
      ∀ job, q.get id = some job → job.status ≠ .running) ∨
    ∃ job, q.get id = some job ∧ job.status = .running ∧
      q.complete id now =
        (q.put { job with status := .succeeded, lastError := none, updatedAt := now }, .ok ()) := by
  unfold JobQueue.complete
  split
  · next e hrun => exact .inl ⟨_, rfl, runningJob_error hrun⟩
  · next job hrun =>
    obtain ⟨hget, hstatus⟩ := runningJob_ok hrun
    exact .inr ⟨job, hget, hstatus, rfl⟩

/-- A failed attempt: refused, stopped by a panic before or after the first writes, buried or
retried. -/
theorem fail_cases (q : JobQueue) (id : JobId) (error : String) (now : DateTime) :
    (∃ e, q.fail id error now = (q, .error (.err e)) ∧
      ∀ job, q.get id = some job → job.status ≠ .running) ∨
    ∃ job, q.get id = some job ∧ job.status = .running ∧
      ((job.policy.delayFor (max job.attempts 1) = none ∧
          q.fail id error now = (q, .error (.panic secondsOutOfBounds))) ∨
        ∃ delay, job.policy.delayFor (max job.attempts 1) = some delay ∧
          ((job.policy.maxAttempts ≤ job.attempts ∧
              q.fail id error now = (q.put { job with
                status := .dead, lastError := some error, updatedAt := now }, .ok .dead)) ∨
            (job.attempts < job.policy.maxAttempts ∧ DateTime.add now delay = none ∧
              q.fail id error now = (q.put { job with lastError := some error, updatedAt := now },
                .error (.panic dateTimeOverflowed))) ∨
            ∃ next, job.attempts < job.policy.maxAttempts ∧ DateTime.add now delay = some next ∧
              q.fail id error now = (q.put { job with
                status := .queued, lastError := some error, updatedAt := now,
                nextAttemptAt := next }, .ok .queued))) := by
  unfold JobQueue.fail
  split
  · next e hrun => exact .inl ⟨_, rfl, runningJob_error hrun⟩
  · next job hrun =>
    obtain ⟨hget, hstatus⟩ := runningJob_ok hrun
    refine .inr ⟨job, hget, hstatus, ?_⟩
    cases hdelay : job.policy.delayFor (max job.attempts 1) with
    | none => exact .inl ⟨rfl, rfl⟩
    | some delay =>
      refine .inr ⟨delay, rfl, ?_⟩
      by_cases hbudget : job.policy.maxAttempts ≤ job.attempts
      · exact .inl ⟨hbudget, by simp [hbudget]⟩
      · cases hadd : DateTime.add now delay with
        | none => exact .inr (.inl ⟨by omega, rfl, by simp [hbudget, hadd]⟩)
        | some next => exact .inr (.inr ⟨next, by omega, rfl, by simp [hbudget, hadd]⟩)

theorem claimNext_cases (q : JobQueue) (now : DateTime) :
    (q.claimNext now = (q, none) ∧
      ∀ job, q.get job.id = some job → job.claimable now = false) ∨
    ∃ job, q.get job.id = some job ∧ job.claimable now = true ∧
      (∀ other, q.get other.id = some other → other.claimable now = true → job.due ≤ other.due) ∧
      q.claimNext now = (q.put { job with
        status := .running, attempts := job.attempts + 1, updatedAt := now }, some job.id) := by
  unfold JobQueue.claimNext
  cases hmin : (q.values.filter (Job.claimable now)).argmin Job.due with
  | none =>
    refine .inl ⟨rfl, fun job hget => ?_⟩
    have hnil := List.argmin_eq_none.mp hmin
    have := List.filter_eq_nil_iff.mp hnil job (JobQueue.mem_values.mpr hget)
    simpa using this
  | some job =>
    have hmem := List.argmin_mem (Option.mem_def.mpr hmin)
    obtain ⟨hval, hclaim⟩ := List.mem_filter.mp hmem
    refine .inr ⟨job, JobQueue.mem_values.mp hval, hclaim, fun other hget hother => ?_, rfl⟩
    exact List.le_of_mem_argmin
      (List.mem_filter.mpr ⟨JobQueue.mem_values.mpr hget, hother⟩) (Option.mem_def.mpr hmin)

theorem enqueue_cases (q : JobQueue) (id : JobId) (target : String) (action : JobAction)
    (version : ℕ) (policy : RetryPolicy) (time : DateTime) :
    (∃ job, q.get job.id = some job ∧ job.status.isInFlight = true ∧
      job.idempotencyKey = IdempotencyKey.new target action version ∧
      q.enqueue id target action version policy time = (q, .duplicate job.id)) ∨
    ((∀ job, q.get job.id = some job → job.status.isInFlight = true →
        job.idempotencyKey ≠ IdempotencyKey.new target action version) ∧
      q.enqueue id target action version policy time =
        (q.put (Job.fresh id target action version policy time), .enqueued id)) := by
  unfold JobQueue.enqueue
  cases hfind : q.values.find? fun job =>
      decide (job.idempotencyKey = IdempotencyKey.new target action version) &&
        job.status.isInFlight with
  | some job =>
    have hp := List.find?_some hfind
    simp only [Bool.and_eq_true, decide_eq_true_eq] at hp
    exact .inl ⟨job, JobQueue.mem_values.mp (List.mem_of_find?_eq_some hfind), hp.2, hp.1,
      by simp only [hfind]⟩
  | none =>
    refine .inr ⟨fun job hget hflight hkey => ?_, by simp only [hfind]⟩
    have := List.find?_eq_none.mp hfind job (JobQueue.mem_values.mpr hget)
    simp [hflight, hkey] at this

/-- **What a step does.** It leaves the queue as it was and accepts nothing, stores one fresh job,
or moves one stored job along an edge. -/
theorem step_cases (q : JobQueue) (op : QueueOp) :
    (∃ ans, jobQueue.step q op = (q, ans) ∧ ans.accepted = false) ∨
    (∃ job, Enqueued q op job ∧ jobQueue.step q op = (q.put job, .enqueue (.enqueued job.id))) ∨
    ∃ job job' ans, q.get job.id = some job ∧ JobMove op ans job job' ∧
      jobQueue.step q op = (q.put job', ans) := by
  cases op with
  | enqueue id target action version policy time =>
    obtain ⟨job, -, -, -, h⟩ | ⟨hfree, h⟩ := enqueue_cases q id target action version policy time
    · exact .inl ⟨_, congrArg (answered _) h, rfl⟩
    · exact .inr (.inl ⟨_, ⟨id, target, action, version, policy, time, rfl, rfl, hfree⟩,
        congrArg (answered _) h⟩)
  | claimNext now =>
    obtain ⟨h, -⟩ | ⟨job, hget, hclaim, -, h⟩ := claimNext_cases q now
    · exact .inl ⟨_, congrArg (answered _) h, rfl⟩
    · simp only [Job.claimable, Bool.and_eq_true, decide_eq_true_eq] at hclaim
      exact .inr (.inr ⟨job, _, _, hget, .claimed job now hclaim.1, congrArg (answered _) h⟩)
  | complete id now =>
    obtain ⟨e, h, -⟩ | ⟨job, hget, hstatus, h⟩ := complete_cases q id now
    · exact .inl ⟨_, congrArg (answered _) h, rfl⟩
    · obtain rfl := JobQueue.get_id hget
      exact .inr (.inr ⟨job, _, _, hget, .completed job now hstatus, congrArg (answered _) h⟩)
  | fail id error now =>
    obtain ⟨e, h, -⟩ | ⟨job, hget, hstatus, hrest⟩ := fail_cases q id error now
    · exact .inl ⟨_, congrArg (answered _) h, rfl⟩
    · obtain rfl := JobQueue.get_id hget
      obtain ⟨-, h⟩ | ⟨delay, -, ⟨hbudget, h⟩ | ⟨-, -, h⟩ | ⟨next, hbudget, -, h⟩⟩ := hrest
      · exact .inl ⟨_, congrArg (answered _) h, rfl⟩
      · exact .inr (.inr ⟨job, _, _, hget, .buried job error now hstatus hbudget,
          congrArg (answered _) h⟩)
      · exact .inr (.inr ⟨job, _, _, hget, .interrupted job error now hstatus,
          congrArg (answered _) h⟩)
      · exact .inr (.inr ⟨job, _, _, hget, .retried job error now next hstatus hbudget,
          congrArg (answered _) h⟩)
  | pause id now =>
    obtain ⟨e, h, -⟩ | ⟨job, hget, hstatus, h⟩ := adjust_cases (rfl : q.pause id now = _)
    · exact .inl ⟨_, congrArg (answered _) h, rfl⟩
    · obtain rfl := JobQueue.get_id hget
      exact .inr (.inr ⟨job, _, _, hget, .paused job now hstatus, congrArg (answered _) h⟩)
  | resume id now =>
    obtain ⟨e, h, -⟩ | ⟨job, hget, hstatus, h⟩ := adjust_cases (rfl : q.resume id now = _)
    · exact .inl ⟨_, congrArg (answered _) h, rfl⟩
    · obtain rfl := JobQueue.get_id hget
      exact .inr (.inr ⟨job, _, _, hget, .resumed job now hstatus, congrArg (answered _) h⟩)
  | requeue id now =>
    obtain ⟨e, h, -⟩ | ⟨job, hget, hstatus, h⟩ := adjust_cases (rfl : q.requeue id now = _)
    · exact .inl ⟨_, congrArg (answered _) h, rfl⟩
    · obtain rfl := JobQueue.get_id hget
      exact .inr (.inr ⟨job, _, _, hget, .requeued job now hstatus, congrArg (answered _) h⟩)

/-- **Refusals.** An operation that returns an error leaves the whole queue as it was. -/
theorem next_of_isErr (q : JobQueue) (op : QueueOp) (h : (jobQueue.answer q op).isErr = true) :
    jobQueue.next q op = q := by
  obtain ⟨ans, hstep, -⟩ | ⟨job, -, hstep⟩ | ⟨job, job', ans, -, hmove, hstep⟩ := step_cases q op
  · exact jobQueue.next_of_step hstep
  · rw [jobQueue.answer_of_step hstep] at h
    cases h
  · rw [jobQueue.answer_of_step hstep] at h
    cases hmove <;> cases h

/-! ## What a job keeps, and how its status moves -/

/-- What no operation changes in a job. -/
def Job.SameWork (a b : Job) : Prop :=
  a.id = b.id ∧ a.target = b.target ∧ a.action = b.action ∧ a.idempotencyKey = b.idempotencyKey ∧
    a.policy = b.policy ∧ a.enqueuedAt = b.enqueuedAt

/-- The status graph; `succeeded` has no way out. -/
def JobStatus.movesTo : JobStatus → JobStatus → Bool
  | .queued, .running => true
  | .running, .succeeded | .running, .queued | .running, .dead => true
  | .queued, .paused | .paused, .queued => true
  | .dead, .queued => true
  | _, _ => false

section Moves
variable {op : QueueOp} {ans : QueueAnswer} {job job' : Job}

theorem JobMove.sameWork (h : JobMove op ans job job') : job'.SameWork job := by
  cases h <;> exact ⟨rfl, rfl, rfl, rfl, rfl, rfl⟩

theorem JobMove.status (h : JobMove op ans job job') :
    job'.status = job.status ∨ job.status.movesTo job'.status = true := by
  cases h with
  | interrupted => exact .inl rfl
  | _ => simp_all [JobStatus.movesTo]

/-- Attempts within the budget of the policy; a job that may still be claimed has one left, and a
dead one has used them up. -/
def Job.WithinBudget (job : Job) : Prop :=
  job.attempts ≤ max job.policy.maxAttempts 1 ∧
    (job.status = .queued ∨ job.status = .paused → job.attempts < max job.policy.maxAttempts 1) ∧
    (job.status = .dead → job.policy.maxAttempts ≤ job.attempts)

theorem JobMove.withinBudget (h : JobMove op ans job job') (hjob : job.WithinBudget) :
    job'.WithinBudget := by
  obtain ⟨hle, hlt, hdead⟩ := hjob
  cases h with
  | claimed _ now hq => exact ⟨hlt (.inl hq), by simp, by simp⟩
  | completed _ now hr => exact ⟨hle, by simp, by simp⟩
  | retried _ error now next hr hbudget =>
    exact ⟨hle, fun _ => lt_max_of_lt_left hbudget, by simp⟩
  | buried _ error now hr hbudget => exact ⟨hle, by simp, fun _ => hbudget⟩
  | interrupted _ error now hr => exact ⟨hle, hlt, hdead⟩
  | paused _ now hq => exact ⟨hle, fun _ => hlt (.inl hq), by simp⟩
  | resumed _ now hp => exact ⟨hle, fun _ => hlt (.inr hp), by simp⟩
  | requeued _ now hd => exact ⟨Nat.zero_le _, fun _ => by simp, by simp⟩

/-- How one answered operation changes the number of claims of `id` since its last enqueue or
requeue. -/
def tally (id : JobId) (claims : ℕ) : QueueOp → QueueAnswer → ℕ
  | .enqueue .., .enqueue (.enqueued new) => if new = id then 0 else claims
  | .claimNext _, .claim (some claimed) => if claimed = id then claims + 1 else claims
  | .requeue dead _, .done (.ok _) => if dead = id then 0 else claims
  | _, _ => claims

theorem tally_of_not_accepted (id : JobId) (claims : ℕ) (h : ans.accepted = false) :
    tally id claims op ans = claims := by
  unfold tally
  split <;> first | rfl | cases h

theorem JobMove.tally_self (h : JobMove op ans job job') :
    tally job.id job.attempts op ans = job'.attempts := by
  cases h <;> simp [tally]

theorem JobMove.tally_of_ne (h : JobMove op ans job job') {id : JobId} (hne : job.id ≠ id)
    (claims : ℕ) : tally id claims op ans = claims := by
  cases h <;> simp [tally, hne]

end Moves

/-- The stored jobs after a step, by where they come from: an old job untouched, a fresh one, or
an old one moved. -/
theorem get_next_cases (q : JobQueue) (op : QueueOp) (id : JobId) (job' : Job)
    (hget : (jobQueue.next q op).get id = some job') :
    (q.get id = some job' ∧ ∀ claims, tally id claims op (jobQueue.answer q op) = claims) ∨
    (Enqueued q op job' ∧ job'.id = id ∧
      jobQueue.answer q op = .enqueue (.enqueued id)) ∨
    ∃ job, q.get id = some job ∧ JobMove op (jobQueue.answer q op) job job' := by
  obtain ⟨ans, hstep, hacc⟩ | ⟨new, henq, hstep⟩ | ⟨old, moved, ans, hold, hmove, hstep⟩ :=
    step_cases q op <;> rw [jobQueue.next_of_step hstep] at hget <;>
    rw [jobQueue.answer_of_step hstep]
  · exact .inl ⟨hget, fun claims => tally_of_not_accepted id claims hacc⟩
  · rw [JobQueue.get_put] at hget
    split at hget
    · next hid =>
      obtain rfl := Option.some_inj.mp hget
      exact .inr (.inl ⟨henq, hid, by rw [hid]⟩)
    · next hid =>
      obtain ⟨i, target, action, version, policy, time, rfl, rfl, -⟩ := henq
      exact .inl ⟨hget, fun claims => by simp [tally, hid]⟩
  · rw [JobQueue.get_put] at hget
    split at hget
    · next hid =>
      obtain rfl := Option.some_inj.mp hget
      rw [hmove.sameWork.1] at hid
      exact .inr (.inr ⟨old, by rw [← hid, hold], hmove⟩)
    · next hid =>
      rw [hmove.sameWork.1] at hid
      exact .inl ⟨hget, fun claims => hmove.tally_of_ne hid claims⟩

/-- A stored job survives every operation with fresh ids, as the same work in a status its old one
leads to. -/
theorem get_next (q : JobQueue) (op : QueueOp) (hfresh : op.Fresh q) (id : JobId) (job : Job)
    (hget : q.get id = some job) :
    ∃ job', (jobQueue.next q op).get id = some job' ∧ job'.SameWork job ∧
      (job'.status = job.status ∨ job.status.movesTo job'.status = true) := by
  have hsame : job.SameWork job := ⟨rfl, rfl, rfl, rfl, rfl, rfl⟩
  obtain ⟨ans, hstep, -⟩ | ⟨new, henq, hstep⟩ | ⟨old, moved, ans, hold, hmove, hstep⟩ :=
    step_cases q op <;> rw [jobQueue.next_of_step hstep]
  · exact ⟨job, hget, hsame, .inl rfl⟩
  · obtain ⟨i, target, action, version, policy, time, rfl, rfl, -⟩ := henq
    have hne : i ≠ id := by
      rintro rfl
      rw [show q.get i = none from hfresh] at hget
      cases hget
    refine ⟨job, ?_, hsame, .inl rfl⟩
    rw [JobQueue.get_put, if_neg (show (Job.fresh i target action version policy time).id ≠ id
      from hne), hget]
  · by_cases hid : old.id = id
    · have heq : old = job := by
        rw [hid, hget] at hold
        exact (Option.some_inj.mp hold).symm
      subst heq
      exact ⟨moved, by rw [JobQueue.get_put, if_pos (hmove.sameWork.1.trans hid)],
        hmove.sameWork, hmove.status⟩
    · refine ⟨job, ?_, hsame, .inl rfl⟩
      rw [JobQueue.get_put, if_neg (by rw [hmove.sameWork.1]; exact hid), hget]

/-! ## Whole histories -/

theorem withinBudget_run (ops : List QueueOp) (id : JobId) (job : Job)
    (hget : (jobQueue.run .new ops).get id = some job) : job.WithinBudget := by
  refine jobQueue.run_invariant_all (P := fun q => ∀ id job, q.get id = some job → job.WithinBudget)
    (fun q op hq id job hget => ?_) .new ops (by simp) id job hget
  obtain ⟨hold, -⟩ | ⟨⟨i, target, action, version, policy, time, -, rfl, -⟩, -⟩ |
    ⟨old, hold, hmove⟩ := get_next_cases q op id job hget
  · exact hq id job hold
  · exact ⟨Nat.zero_le _, fun _ => by simp [Job.fresh], by simp [Job.fresh]⟩
  · exact hmove.withinBudget (hq id old hold)

/-- The claims of `id` since its last enqueue or requeue, along a history from the empty queue. -/
def claimsSince (id : JobId) (ops : List QueueOp) : ℕ := jobQueue.fold (tally id) .new 0 ops

/-- The attempt counter of a job counts exactly its claims since the last enqueue or requeue. -/
theorem attempts_eq_claimsSince (ops : List QueueOp) (id : JobId) (job : Job)
    (hget : (jobQueue.run .new ops).get id = some job) : job.attempts = claimsSince id ops := by
  refine jobQueue.fold_invariant (R := fun q claims => ∀ job, q.get id = some job →
    job.attempts = claims) (fun q op claims hq _ job' hget' => ?_) .new 0 ops (by simp)
    (jobQueue.guarded_true .new ops) job hget
  obtain ⟨hold, htally⟩ | ⟨⟨i, target, action, version, policy, time, hop, rfl, -⟩, hid, hans⟩ |
    ⟨old, hold, hmove⟩ := get_next_cases q op id job' hget'
  · rw [htally, hq job' hold]
  · rw [hans, hop]
    simp [tally, Job.fresh]
  · rw [← hmove.tally_self, JobQueue.get_id hold, hq old hold]

/-- What a claim at `now` answers: a due queued job, earliest first, or that there is none. -/
def ClaimsEarliest (q : JobQueue) (now : DateTime) : Option JobId → Prop
  | some id => ∃ job, q.get id = some job ∧ job.claimable now = true ∧
      ∀ other, q.get other.id = some other → other.claimable now = true → job.due ≤ other.due
  | none => ∀ job, q.get job.id = some job → job.claimable now = false

theorem claimNext_earliest (q : JobQueue) (now : DateTime) :
    ClaimsEarliest q now (q.claimNext now).2 := by
  obtain ⟨h, hnone⟩ | ⟨job, hget, hclaim, hmin, h⟩ := claimNext_cases q now <;> rw [h]
  · exact hnone
  · exact ⟨job, hget, hclaim, hmin⟩

/-- **The queue over any history.** In every state reached, a job's attempts are its claims since
the last enqueue or requeue, stay within the budget, and are used up when it is dead; and whatever
comes next with a fresh id, stored jobs stay the same work and move along the status graph, a new
job is one just enqueued, a claim takes the earliest due job, and an error changes nothing. -/
theorem jobQueue_history (ops : List QueueOp) :
    let q := jobQueue.run .new ops
    (∀ id job, q.get id = some job →
      job.attempts = claimsSince id ops ∧
      job.attempts ≤ max job.policy.maxAttempts 1 ∧
      (job.status = .dead → job.policy.maxAttempts ≤ job.attempts)) ∧
    (∀ op, op.Fresh q →
      (∀ id job, q.get id = some job →
        ∃ job', (jobQueue.next q op).get id = some job' ∧ job'.SameWork job ∧
          (job'.status = job.status ∨ job.status.movesTo job'.status = true)) ∧
      (∀ id job, q.get id = none → (jobQueue.next q op).get id = some job →
        job.id = id ∧ jobQueue.answer q op = .enqueue (.enqueued id)) ∧
      ((jobQueue.answer q op).isErr = true → jobQueue.next q op = q)) ∧
    ∀ now, ClaimsEarliest q now (q.claimNext now).2 := by
  intro q
  refine ⟨fun id job hget => ?_, fun op hop => ⟨?_, ?_, ?_⟩, claimNext_earliest q⟩
  · have hbudget := withinBudget_run ops id job hget
    exact ⟨attempts_eq_claimsSince ops id job hget, hbudget.1, hbudget.2.2⟩
  · exact get_next q op hop
  · intro id job hnone hget
    obtain ⟨hold, -⟩ | ⟨-, hid, hans⟩ | ⟨old, hold, -⟩ := get_next_cases q op id job hget
    · rw [hold] at hnone
      cases hnone
    · exact ⟨hid, hans⟩
    · rw [hold] at hnone
      cases hnone
  · exact next_of_isErr q op

/-- A job claimed, failed once and waiting for its second attempt. -/
theorem jobQueue_history_retried :
    let ops : List QueueOp := [.enqueue ⟨1⟩ "res" .verify 1 RetryPolicy.default 0, .claimNext 5,
      .fail ⟨1⟩ "boom" 6]
    ∃ job, (jobQueue.run .new ops).get ⟨1⟩ = some job ∧ job.status = .queued ∧
      job.attempts = claimsSince ⟨1⟩ ops ∧
      ((QueueOp.claimNext 7).Fresh (jobQueue.run .new ops)) ∧
      ∃ job', (jobQueue.next (jobQueue.run .new ops) (.claimNext 7)).get ⟨1⟩ = some job' ∧
        job'.SameWork job := by
  intro ops
  obtain ⟨job, hget, hstatus⟩ :
      ∃ job, (jobQueue.run .new ops).get ⟨1⟩ = some job ∧ job.status = .queued :=
    ⟨_, rfl, rfl⟩
  obtain ⟨hjobs, hnext, -⟩ := jobQueue_history ops
  obtain ⟨job', hget', hsame, -⟩ := (hnext (.claimNext 7) trivial).1 ⟨1⟩ job hget
  exact ⟨job, hget, hstatus, (hjobs ⟨1⟩ job hget).1, trivial, job', hget', hsame⟩

end Labrys.Core
