import Labrys.Core.JobQueueRuns

/-! # Idempotency keys in flight

`enqueue` refuses a key while a job with it is in flight. A dead job gives its key up, and
`requeue` takes it back without asking: the results here say exactly when two jobs of one key can
then be in flight together. -/

namespace Labrys.Core
open Foundations
set_option autoImplicit false

def InFlightUnique (q : JobQueue) : Prop :=
  ∀ a b : Job, q.get a.id = some a → q.get b.id = some b →
    a.status.isInFlight = true → b.status.isInFlight = true →
    a.idempotencyKey = b.idempotencyKey → a.id = b.id

/-- A requeue finds the key of the dead job free: no job in flight has it. -/
def QueueOp.KeyFree (q : JobQueue) : QueueOp → Prop
  | .requeue id _ => ∀ job other, q.get id = some job → job.status = .dead →
      q.get other.id = some other → other.status.isInFlight = true →
      other.idempotencyKey ≠ job.idempotencyKey
  | _ => True

theorem JobMove.isInFlight {op : QueueOp} {ans : QueueAnswer} {job job' : Job}
    (h : JobMove op ans job job') (hflight : job'.status.isInFlight = true) :
    job.status.isInFlight = true ∨ job.status = .dead ∧ ∃ now, op = .requeue job.id now := by
  cases h with
  | requeued _ now hd => exact .inr ⟨hd, now, rfl⟩
  | completed _ now hr => cases hflight
  | buried _ error now hr hbudget => cases hflight
  | interrupted _ error now hr => exact .inl hflight
  | claimed _ now hs | retried _ error now next hs | paused _ now hs | resumed _ now hs =>
    exact .inl (by rw [hs]; rfl)

/-- A job that carries its key in flight alone: it was in flight already, or nothing with its key
is. -/
def HoldsKey (q : JobQueue) (job : Job) : Prop :=
  (∃ old, q.get job.id = some old ∧ old.status.isInFlight = true ∧
    old.idempotencyKey = job.idempotencyKey) ∨
  ∀ other, q.get other.id = some other → other.status.isInFlight = true →
    other.idempotencyKey ≠ job.idempotencyKey

/-- A step that leaves keys free stores at most one job, which holds its key if it is in flight. -/
theorem next_holdsKey (q : JobQueue) (op : QueueOp) (hfree : op.KeyFree q) :
    jobQueue.next q op = q ∨ ∃ job, jobQueue.next q op = q.put job ∧
      (job.status.isInFlight = true → HoldsKey q job) := by
  obtain ⟨ans, hstep, -⟩ | ⟨new, henq, hstep⟩ | ⟨old, moved, ans, hold, hmove, hstep⟩ :=
    step_cases q op <;> rw [jobQueue.next_of_step hstep]
  · exact .inl rfl
  · obtain ⟨i, target, action, version, policy, time, -, -, hkeys⟩ := henq
    exact .inr ⟨new, rfl, fun _ => .inr hkeys⟩
  · refine .inr ⟨moved, rfl, fun hflight => ?_⟩
    obtain ⟨hid, -, -, hkey, -⟩ := hmove.sameWork
    obtain hwas | ⟨hdead, now, rfl⟩ := hmove.isInFlight hflight
    · exact .inl ⟨old, by rw [hid, hold], hwas, hkey.symm⟩
    · refine .inr fun other hother hflightOther => ?_
      rw [hkey]
      exact hfree old other hold hdead hother hflightOther

theorem inFlightUnique_put {q : JobQueue} {job : Job} (hq : InFlightUnique q)
    (hjob : job.status.isInFlight = true → HoldsKey q job) : InFlightUnique (q.put job) := by
  -- the stored job against one that was there
  have hone : ∀ b, q.get b.id = some b → b.status.isInFlight = true →
      job.status.isInFlight = true → job.idempotencyKey = b.idempotencyKey → job.id = b.id := by
    intro b hb hbflight hflight hkey
    obtain ⟨old, hold, hwas, hsame⟩ | hfree := hjob hflight
    · have hid := JobQueue.get_id hold
      rw [← hid] at hold ⊢
      exact hq old b hold hb hwas hbflight (hsame.trans hkey)
    · exact absurd hkey.symm (hfree b hb hbflight)
  intro a b ha hb haflight hbflight hkey
  rw [JobQueue.get_put] at ha hb
  split at ha <;> split at hb
  · next ha' hb' => rw [← ha', ← hb']
  · obtain rfl := Option.some_inj.mp ha
    exact hone b hb hbflight haflight hkey
  · obtain rfl := Option.some_inj.mp hb
    exact (hone a ha haflight hbflight hkey.symm).symm
  · exact hq a b ha hb haflight hbflight hkey

/-- A requeue that finds its key in flight puts a second job of the key in flight. -/
theorem not_inFlightUnique_requeue {q : JobQueue} {id : JobId} {now : DateTime}
    (h : ¬ (QueueOp.requeue id now).KeyFree q) :
    ¬ InFlightUnique (jobQueue.next q (.requeue id now)) := by
  simp only [QueueOp.KeyFree, ne_eq, not_forall, not_not] at h
  obtain ⟨job, other, hjob, hdead, hother, hflight, hkey⟩ := h
  obtain rfl := JobQueue.get_id hjob
  have hne : job.id ≠ other.id := by
    intro heq
    rw [← heq, hjob] at hother
    obtain rfl := Option.some_inj.mp hother
    rw [hdead] at hflight
    cases hflight
  obtain ⟨requeued, hid, hkey', hflight', hnext⟩ : ∃ requeued : Job, requeued.id = job.id ∧
      requeued.idempotencyKey = job.idempotencyKey ∧ requeued.status.isInFlight = true ∧
      jobQueue.next q (.requeue job.id now) = q.put requeued :=
    ⟨{ job with status := .queued, attempts := 0, nextAttemptAt := now, updatedAt := now },
      rfl, rfl, rfl, by
        simp [jobQueue, Machine.next, JobQueue.step, answered, JobQueue.requeue, JobQueue.adjust,
          hjob, hdead]⟩
  rw [hnext]
  intro hunique
  rw [← hid] at hne
  refine hne (hunique requeued other ?_ ?_ hflight' hflight (hkey'.trans hkey.symm))
  · rw [JobQueue.get_put, if_pos rfl]
  · rw [JobQueue.get_put, if_neg hne, hother]

theorem inFlightUnique_next (q : JobQueue) (op : QueueOp) (hq : InFlightUnique q) :
    InFlightUnique (jobQueue.next q op) ↔ op.KeyFree q := by
  constructor
  · intro hnext
    cases op with
    | requeue id now =>
      by_contra hfree
      exact not_inFlightUnique_requeue hfree hnext
    | _ => trivial
  · intro hfree
    obtain h | ⟨job, h, hjob⟩ := next_holdsKey q op hfree <;> rw [h]
    · exact hq
    · exact inFlightUnique_put hq hjob

/-- **In-flight keys.** Along a history from the empty queue, keys in flight are unique in every
state exactly if every requeue of a dead job finds the job's key out of flight. -/
theorem inFlightUnique_history (ops : List QueueOp) :
    (∀ n, InFlightUnique (jobQueue.run .new (ops.take n))) ↔
      jobQueue.Guarded (fun q op => op.KeyFree q) .new ops :=
  jobQueue.forall_run_take_iff_guarded (fun _ hq => hq)
    (fun q op hq _ hfree => (inFlightUnique_next q op hq).mpr hfree)
    (fun q op hq _ hnext => (inFlightUnique_next q op hq).mp hnext) .new ops
    (fun a b ha => by simp at ha) (jobQueue.guarded_true .new ops)

/-- A dead job requeued after its key was enqueued again: both are in flight. -/
theorem requeue_duplicates_key :
    let ops : List QueueOp :=
      [.enqueue ⟨1⟩ "res" .verify 1 { RetryPolicy.default with maxAttempts := 1 } 0,
        .claimNext 1, .fail ⟨1⟩ "boom" 2, .enqueue ⟨2⟩ "res" .verify 1 RetryPolicy.default 3,
        .requeue ⟨1⟩ 4]
    ¬ InFlightUnique (jobQueue.run .new ops) := by
  intro ops hunique
  obtain ⟨a, ha, ha'⟩ : ∃ a, (jobQueue.run .new ops).get ⟨1⟩ = some a ∧
    a.status = .queued ∧ a.idempotencyKey = .new "res" .verify 1 := ⟨_, rfl, rfl, rfl⟩
  obtain ⟨b, hb, hb'⟩ : ∃ b, (jobQueue.run .new ops).get ⟨2⟩ = some b ∧
    b.status = .queued ∧ b.idempotencyKey = .new "res" .verify 1 := ⟨_, rfl, rfl, rfl⟩
  have hida := JobQueue.get_id ha
  have hidb := JobQueue.get_id hb
  have heq := hunique a b (by rw [hida, ha]) (by rw [hidb, hb]) (by rw [ha'.1]; rfl)
    (by rw [hb'.1]; rfl) (ha'.2.trans hb'.2.symm)
  rw [hida, hidb] at heq
  exact absurd heq (by decide)

end Labrys.Core
