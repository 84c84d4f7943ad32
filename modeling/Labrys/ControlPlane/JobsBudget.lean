import Labrys.ControlPlane.JobsRuns

/-! # The attempt budget of the durable queue

`fail` is the only operation that compares attempts with the policy. Lease recovery also returns a
running row to the queue, and does not: the budget holds along every history whose recoveries only
meet rows with an attempt left, and is exceeded otherwise by the next claim. -/

namespace Labrys.ControlPlane
open Foundations Labrys.Core
set_option autoImplicit false

/-- Attempts within the budget, with one left while the row can still be claimed. -/
def JobRow.WithinBudget (row : JobRow) : Prop :=
  row.attempts ≤ max row.policy.maxAttempts 1 ∧
    (row.status = .queued ∨ row.status = .paused → row.attempts < max row.policy.maxAttempts 1)

/-- A recovery only meets rows with an attempt left. -/
def PgOp.RecoversWithinBudget (t : JobsTable) : PgOp → Prop
  | .recoverExpiredLeases now => ∀ id row, t.get id = some row → row.expired now = true →
      row.attempts < max row.policy.maxAttempts 1
  | _ => True

theorem afterFailure_queued {row : JobRow} {now next : DateTime}
    (h : JobsTable.afterFailure row now = .ok (.queued, next)) :
    row.attempts < row.policy.maxAttempts := by
  unfold JobsTable.afterFailure at h
  dsimp only at h
  split at h
  · cases h
  · next hbudget => omega

section Moves
variable {op : PgOp} {ans : PgAnswer} {row row' : JobRow}

theorem RowMove.withinBudget (h : RowMove op ans row row') (hrow : row.WithinBudget)
    (hrecover : ∀ now, op = .recoverExpiredLeases now → row.expired now = true →
      row.attempts < max row.policy.maxAttempts 1) : row'.WithinBudget := by
  obtain ⟨hle, hlt⟩ := hrow
  cases h with
  | claimed _ worker now lease skip expires hclaim =>
    have hleft : row.attempts < max row.policy.maxAttempts 1 :=
      hlt (.inl (JobRow.claimable_iff.mp hclaim).1)
    exact ⟨Nat.succ_le_of_lt hleft, by simp [JobRow.claimed]⟩
  | completed _ worker now hheld => exact ⟨hle, by simp [JobRow.completed]⟩
  | failed _ worker error now status next hheld hafter =>
    refine ⟨hle, fun hstatus => ?_⟩
    obtain rfl | rfl := afterFailure_status hafter
    · simp [JobRow.failed] at hstatus
    · have hleft : row.attempts < row.policy.maxAttempts := afterFailure_queued hafter
      exact lt_max_of_lt_left hleft
  | paused _ now hq => exact ⟨hle, fun _ => hlt (.inl hq)⟩
  | resumed _ now hp => exact ⟨hle, fun _ => hlt (.inr hp)⟩
  | requeued _ now hd => exact ⟨Nat.zero_le _, fun _ => by simp [JobRow.requeued]⟩
  | recovered _ now ids hexp hids => exact ⟨hle, fun _ => hrecover now rfl hexp⟩

/-- How one answered operation changes the number of claims of `id` since its enqueue or last
requeue. -/
def claimTally (id : JobId) (claims : ℕ) : PgOp → PgAnswer → ℕ
  | .enqueue new .., .enqueue (.ok (.enqueued _)) => if new = id then 0 else claims
  | .claimNext .., .claim (.ok (some claimed)) =>
      if claimed.job.id = id then claims + 1 else claims
  | .requeue dead _, .done (.ok _) => if dead = id then 0 else claims
  | _, _ => claims

theorem RowMove.claimTally_self (h : RowMove op ans row row') :
    claimTally row.id row.attempts op ans = row'.attempts := by
  cases h <;> simp [claimTally, JobRow.claimed, JobRow.completed, JobRow.failed, JobRow.moved,
    JobRow.requeued, JobRow.recovered]

theorem claimTally_of_not_mem {id : JobId} (h : id ∉ touched op ans) (claims : ℕ) :
    claimTally id claims op ans = claims := by
  have hne : ∀ other : JobId, id ∉ [other] → other ≠ id := fun other h heq => by simp [heq] at h
  unfold claimTally
  split
  · exact if_neg (hne _ h)
  · exact if_neg (hne _ h)
  · exact if_neg (hne _ h)
  · rfl

end Moves

/-- The claims of `id` since its enqueue or last requeue, along a history from the empty table. -/
def JobsTable.claimsSince (id : JobId) (ops : List PgOp) : ℕ :=
  pgJobQueue.fold (claimTally id) .empty 0 ops

/-- The row of `id` counts its claims and is within its budget. -/
def CountsWithin (id : JobId) (t : JobsTable) (claims : ℕ) : Prop :=
  ∀ row, t.get id = some row → row.attempts = claims ∧ row.WithinBudget

theorem countsWithin_next (id : JobId) (t : JobsTable) (op : PgOp) (claims : ℕ)
    (ht : CountsWithin id t claims) (hop : op.RecoversWithinBudget t) :
    CountsWithin id (pgJobQueue.next t op) (claimTally id claims op (pgJobQueue.answer t op)) := by
  intro row' hget'
  obtain ⟨huntouched, heq⟩ | ⟨new, ⟨i, target, action, version, policy, time, hop', rfl, -⟩, hid,
    heq, hans⟩ | ⟨old, moved, hold, hmove, heq⟩ := rowStep_next t op id <;> rw [heq] at hget'
  · rw [claimTally_of_not_mem huntouched]
    exact ht row' hget'
  · obtain rfl := Option.some_inj.mp hget'
    refine ⟨?_, Nat.zero_le _, fun _ => by simp [JobRow.fresh, Job.fresh]⟩
    rw [hans, hop']
    simp only [claimTally, if_pos (show i = id from hid)]
    rfl
  · obtain rfl := Option.some_inj.mp hget'
    obtain ⟨hclaims, hwithin⟩ := ht old hold
    refine ⟨?_, hmove.withinBudget hwithin fun now hrec hexp => ?_⟩
    · rw [← hmove.claimTally_self, JobsTable.get_id hold, hclaims]
    · rw [hrec] at hop
      exact hop id old hold hexp

/-- **The budget along a history.** When every recovery only meets rows with an attempt left, a
row's attempts count its claims since its enqueue or last requeue and never exceed the budget. -/
theorem attempts_within_budget (ops : List PgOp)
    (h : pgJobQueue.Guarded (fun t op => op.RecoversWithinBudget t) .empty ops) (id : JobId)
    (row : JobRow) (hget : (pgJobQueue.run .empty ops).get id = some row) :
    row.attempts = JobsTable.claimsSince id ops ∧
      row.attempts ≤ max row.policy.maxAttempts 1 := by
  obtain ⟨hcount, hbudget⟩ := pgJobQueue.fold_invariant (countsWithin_next id) .empty 0 ops
    (fun row hrow => by simp at hrow) h row hget
  exact ⟨hcount, hbudget.1⟩

/-- The budget is met by a job that fails, is retried and has its lease recovered in between. -/
theorem attempts_within_budget_recovered :
    let ops : List PgOp :=
      [.enqueue ⟨1⟩ "res" .verify 1 RetryPolicy.default 0,
        .claimNext "a" 0 10000 fun _ => false, .recoverExpiredLeases 10000,
        .claimNext "b" 11000 10000 fun _ => false]
    ∃ row, (pgJobQueue.run .empty ops).get ⟨1⟩ = some row ∧ row.status = .running ∧
      row.attempts = JobsTable.claimsSince ⟨1⟩ ops ∧
      row.attempts ≤ max row.policy.maxAttempts 1 := by
  intro ops
  refine ⟨_, rfl, rfl, attempts_within_budget ops ⟨trivial, trivial, ?_, trivial, trivial⟩ ⟨1⟩ _ rfl⟩
  intro id row hget hexp
  have hmem : row ∈ (pgJobQueue.run .empty (ops.take 2)).jobs.rows := Table.mem_of_get hget
  obtain rfl := List.mem_singleton.mp hmem
  decide

/-- A one-attempt job whose worker is gone: recovered instead of dead-lettered, and claimed a
second time. -/
theorem recovery_exceeds_budget :
    ∃ row, (pgJobQueue.run .empty
        [.enqueue ⟨1⟩ "res" .verify 1 { RetryPolicy.default with maxAttempts := 1 } 0,
          .claimNext "a" 0 10000 fun _ => false, .recoverExpiredLeases 10000,
          .claimNext "b" 11000 10000 fun _ => false]).get ⟨1⟩ = some row ∧
      ¬ row.attempts ≤ max row.policy.maxAttempts 1 :=
  ⟨_, rfl, by decide⟩

end Labrys.ControlPlane
