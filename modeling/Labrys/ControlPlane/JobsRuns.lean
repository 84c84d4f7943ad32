import Labrys.ControlPlane.Jobs

/-! # What the operations of the durable queue do to a row

The queue as a machine over its eight operations. `rowStep_next` is the one place where the
operations are taken apart: after a step, a row is untouched, freshly inserted, or moved along an
edge of `RowMove`. -/

namespace Labrys.ControlPlane
open Foundations Labrys.Core
set_option autoImplicit false

/-! ## The queue as a machine -/

inductive PgOp
  | enqueue (id : JobId) (target : String) (action : JobAction) (version : ℕ)
      (policy : RetryPolicy) (time : DateTime)
  | claimNext (worker : String) (now : DateTime) (lease : Duration) (skip : JobId → Bool)
  | complete (id : JobId) (worker : String) (now : DateTime)
  | fail (id : JobId) (worker : String) (error : String) (now : DateTime)
  | pause (id : JobId) (now : DateTime)
  | resume (id : JobId) (now : DateTime)
  | requeue (id : JobId) (now : DateTime)
  | recoverExpiredLeases (now : DateTime)

inductive PgAnswer
  | enqueue (outcome : Outcome ControlPlaneError EnqueueOutcome)
  | claim (outcome : Outcome ControlPlaneError (Option ClaimedJob))
  | done (outcome : Outcome ControlPlaneError Unit)
  | failed (outcome : Outcome ControlPlaneError JobStatus)
  | recovered (ids : List JobId)
deriving DecidableEq

def JobsTable.step (t : JobsTable) : PgOp → JobsTable × PgAnswer
  | .enqueue id target action version policy time =>
      answered .enqueue (t.enqueue id target action version policy time)
  | .claimNext worker now lease skip => answered .claim (t.claimNext worker now lease skip)
  | .complete id worker now => answered .done (t.complete id worker now)
  | .fail id worker error now => answered .failed (t.fail id worker error now)
  | .pause id now => answered .done (t.pause id now)
  | .resume id now => answered .done (t.resume id now)
  | .requeue id now => answered .done (t.requeue id now)
  | .recoverExpiredLeases now => answered .recovered (t.recoverExpiredLeases now)

def pgJobQueue : Machine JobsTable PgOp PgAnswer := ⟨JobsTable.step⟩

/-- The operations that are not a worker's own: everything but claiming and finalizing. -/
inductive ClientOp
  | enqueue (id : JobId) (target : String) (action : JobAction) (version : ℕ)
      (policy : RetryPolicy) (time : DateTime)
  | pause (id : JobId) (now : DateTime)
  | resume (id : JobId) (now : DateTime)
  | requeue (id : JobId) (now : DateTime)
  | recoverExpiredLeases (now : DateTime)

def ClientOp.toPg : ClientOp → PgOp
  | .enqueue id target action version policy time =>
      .enqueue id target action version policy time
  | .pause id now => .pause id now
  | .resume id now => .resume id now
  | .requeue id now => .requeue id now
  | .recoverExpiredLeases now => .recoverExpiredLeases now

/-! ## Edges of a row -/

/-- The edges a row moves along, each with the operation that takes it and its answer. -/
inductive RowMove : PgOp → PgAnswer → JobRow → JobRow → Prop
  | claimed (row : JobRow) (worker : String) (now : DateTime) (lease : Duration)
      (skip : JobId → Bool) (expires : DateTime) (h : row.claimable now = true)
      (hlease : DateTime.add now lease = some expires) :
      RowMove (.claimNext worker now lease skip)
        (.claim (.ok (some ⟨(row.claimed worker now expires).toJob, worker,
          timestamptz expires⟩)))
        row (row.claimed worker now expires)
  | completed (row : JobRow) (worker : String) (now : DateTime) (h : row.heldBy worker = true) :
      RowMove (.complete row.id worker now) (.done (.ok ())) row (row.completed now)
  | failed (row : JobRow) (worker error : String) (now : DateTime) (status : JobStatus)
      (next : DateTime) (h : row.heldBy worker = true)
      (hafter : JobsTable.afterFailure row now = .ok (status, next)) :
      RowMove (.fail row.id worker error now) (.failed (.ok status))
        row (row.failed status error next)
  | paused (row : JobRow) (now : DateTime) (h : row.status = .queued) :
      RowMove (.pause row.id now) (.done (.ok ())) row (row.moved .paused false now)
  | resumed (row : JobRow) (now : DateTime) (h : row.status = .paused) :
      RowMove (.resume row.id now) (.done (.ok ())) row (row.moved .queued true now)
  | requeued (row : JobRow) (now : DateTime) (h : row.status = .dead) :
      RowMove (.requeue row.id now) (.done (.ok ())) row (row.requeued now)
  | recovered (row : JobRow) (now : DateTime) (ids : List JobId) (h : row.expired now = true)
      (hids : row.id ∈ ids) :
      RowMove (.recoverExpiredLeases now) (.recovered ids) row (row.recovered now)

/-- The ids whose rows an answered operation wrote. -/
def touched : PgOp → PgAnswer → List JobId
  | .enqueue id .., .enqueue (.ok (.enqueued _)) => [id]
  | .claimNext .., .claim (.ok (some claimed)) => [claimed.job.id]
  | .complete id .., .done (.ok _) | .pause id _, .done (.ok _) | .resume id _, .done (.ok _)
  | .requeue id _, .done (.ok _) => [id]
  | .fail id .., .failed (.ok _) => [id]
  | .recoverExpiredLeases _, .recovered ids => ids
  | _, _ => []

def Inserted (t : JobsTable) (op : PgOp) (row : JobRow) : Prop :=
  ∃ id target action version policy time,
    op = .enqueue id target action version policy time ∧
    row = JobRow.fresh id target action version policy time ∧ t.get id = none ∧
    ∀ other, t.get other.id = some other → other.idempotencyKey ≠ row.idempotencyKey

/-! ## The operations, case by case -/

theorem afterFailure_status {row : JobRow} {now next : DateTime} {status : JobStatus}
    (h : JobsTable.afterFailure row now = .ok (status, next)) :
    status = .dead ∨ status = .queued := by
  unfold JobsTable.afterFailure at h
  dsimp only at h
  split at h
  · cases h
    exact .inl rfl
  · split at h
    · cases h
    · split at h
      · cases h
      · cases h
        exact .inr rfl

namespace JobsTable
variable (t : JobsTable)

theorem updateRow_cases (id : JobId) (p : JobRow → Bool) (f : JobRow → JobRow)
    (hf : JobRow.KeepsKeys f) (error : ControlPlaneError) :
    (t.updateRow id p f hf error = (t, .error (.err error)) ∧
      ∀ row, t.get id = some row → p row = false) ∨
    ∃ row, t.get id = some row ∧ p row = true ∧ (t.updateRow id p f hf error).2 = .ok () ∧
      ∀ k, (t.updateRow id p f hf error).1.get k = if k = id then some (f row) else t.get k := by
  have haffected := t.jobs.affected_eq_zero_iff id (fun row => decide (row.id = id) && p row)
    (fun row _ hp => by
      rw [Bool.and_eq_true, decide_eq_true_eq] at hp
      exact hp.1)
  unfold updateRow
  dsimp only
  by_cases hzero : t.jobs.affected (fun row => decide (row.id = id) && p row) = 0
  · refine .inl ⟨?_, fun row hget => ?_⟩
    · rw [if_pos hzero, updateWhere_eq_self _ _ _ _ hzero]
    · simpa [get_id hget] using haffected.mp hzero row hget
  · obtain ⟨row, hget, hp⟩ : ∃ row, t.get id = some row ∧ p row = true := by
      by_contra hnone
      refine hzero (haffected.mpr fun row hget => ?_)
      simpa [get_id (t := t) hget] using fun hp => hnone ⟨row, hget, hp⟩
    refine .inr ⟨row, hget, hp, by simp only [if_neg hzero], fun k => ?_⟩
    rw [get_updateWhere]
    by_cases hk : k = id
    · subst hk
      simp [hget, get_id hget, hp]
    · rw [if_neg hk]
      cases hother : t.get k with
      | none => rfl
      | some other => simp [get_id hother, hk]

theorem enqueue_cases (id : JobId) (target : String) (action : JobAction) (version : ℕ)
    (policy : RetryPolicy) (time : DateTime) :
    (∃ row, t.get row.id = some row ∧
      row.idempotencyKey = IdempotencyKey.new target action version ∧
      t.enqueue id target action version policy time = (t, .ok (.duplicate row.id))) ∨
    ((∀ row, t.get row.id = some row →
        row.idempotencyKey ≠ IdempotencyKey.new target action version) ∧
      ((∃ e, t.get id ≠ none ∧
          t.enqueue id target action version policy time = (t, .error (.err e))) ∨
        (t.get id = none ∧
          (t.enqueue id target action version policy time).2 = .ok (.enqueued id) ∧
          ∀ k, (t.enqueue id target action version policy time).1.get k =
            if id = k then some (JobRow.fresh id target action version policy time)
            else t.get k))) := by
  unfold enqueue
  split
  · next existing hkey =>
    refine .inl ⟨existing, mem_rows.mp (List.mem_of_find?_eq_some hkey), ?_, rfl⟩
    simpa using List.find?_some hkey
  · next hkey =>
    refine .inr ⟨fun row hget => withKey_eq_none hkey row (mem_rows.mpr hget), ?_⟩
    split
    · next found hid => exact .inl ⟨_, by simp [hid], rfl⟩
    · next hid => exact .inr ⟨hid, rfl, fun k => get_insert t _ hid (withKey_eq_none hkey) k⟩

theorem claimNext_cases (worker : String) (now : DateTime) (lease : Duration)
    (skip : JobId → Bool) :
    (DateTime.add now lease = none ∧
      t.claimNext worker now lease skip = (t, .error (.panic dateTimeOverflowed))) ∨
    ∃ expires, DateTime.add now lease = some expires ∧
      ((t.claimNext worker now lease skip = (t, .ok none) ∧
          ∀ row, t.get row.id = some row → row.claimable now = true →
            skip row.id = true) ∨
        ∃ row, t.get row.id = some row ∧ row.claimable now = true ∧ skip row.id = false ∧
          (∀ other, t.get other.id = some other → other.claimable now = true →
            skip other.id = false → row.toJob.due ≤ other.toJob.due) ∧
          (t.claimNext worker now lease skip).2 =
            .ok (some ⟨(row.claimed worker now expires).toJob, worker, timestamptz expires⟩) ∧
          ∀ k, (t.claimNext worker now lease skip).1.get k =
            if k = row.id then some (row.claimed worker now expires) else t.get k) := by
  unfold claimNext
  cases hadd : DateTime.add now lease with
  | none => exact .inl ⟨rfl, rfl⟩
  | some expires =>
    refine .inr ⟨expires, rfl, ?_⟩
    dsimp only
    cases hmin : (t.jobs.rows.filter fun row => row.claimable now && !skip row.id).argmin
        fun row => row.toJob.due with
    | none =>
      refine .inl ⟨rfl, fun row hget hclaim => ?_⟩
      have hnil := List.argmin_eq_none.mp hmin
      simpa [hclaim] using List.filter_eq_nil_iff.mp hnil row (mem_rows.mpr hget)
    | some row =>
      obtain ⟨hmem, hsel⟩ := List.mem_filter.mp (List.argmin_mem (Option.mem_def.mpr hmin))
      simp only [Bool.and_eq_true, Bool.not_eq_true'] at hsel
      have hget := mem_rows.mp hmem
      refine .inr ⟨row, hget, hsel.1, hsel.2, fun other hother hclaim hskip => ?_, rfl, fun k => ?_⟩
      · refine List.le_of_mem_argmin (f := fun row : JobRow => row.toJob.due)
          (List.mem_filter.mpr ⟨mem_rows.mpr hother, ?_⟩) (Option.mem_def.mpr hmin)
        simp [hclaim, hskip]
      · exact get_updateWhere_id t (JobRow.claimed worker now expires) (fun _ => ⟨rfl, rfl⟩) hget k

/-- A claim that handed out a job: the row it came from, and the row it left. -/
theorem claimNext_ok {worker : String} {now : DateTime} {lease : Duration} {skip : JobId → Bool}
    {t' : JobsTable} {claimed : ClaimedJob}
    (h : t.claimNext worker now lease skip = (t', .ok (some claimed))) :
    ∃ row expires, t.get row.id = some row ∧ row.claimable now = true ∧
      DateTime.add now lease = some expires ∧ claimed.leaseExpiresAt = timestamptz expires ∧
      claimed.job.id = row.id ∧
      ∀ k, t'.get k = if k = row.id then some (row.claimed worker now expires) else t.get k := by
  obtain ⟨-, heq⟩ | ⟨expires, hadd, ⟨heq, -⟩ | ⟨row, hget, hclaim, -, -, hok, hrest⟩⟩ :=
    t.claimNext_cases worker now lease skip
  · rw [heq] at h
    cases h
  · rw [heq] at h
    cases h
  · rw [h] at hok hrest
    cases hok
    exact ⟨row, expires, hget, hclaim, hadd, rfl, rfl, hrest⟩

/-- A claimable row that is not locked can be claimed, by locking the others out. -/
theorem claimNext_only {row : JobRow} (hget : t.get row.id = some row) {now : DateTime}
    (hclaim : row.claimable now = true) {lease : Duration} {expires : DateTime}
    (hadd : DateTime.add now lease = some expires) (worker : String) :
    ∃ t' claimed, t.claimNext worker now lease (fun id => decide (id ≠ row.id)) =
      (t', .ok (some claimed)) ∧ claimed.job.id = row.id := by
  obtain ⟨hnone, -⟩ | ⟨_, -, ⟨-, hskipped⟩ | ⟨found, -, -, hskip, -, hok, -⟩⟩ :=
    t.claimNext_cases worker now lease fun id => decide (id ≠ row.id)
  · rw [hadd] at hnone
    cases hnone
  · have := hskipped row hget hclaim
    simp at this
  · have hfound : found.id = row.id := by simpa using hskip
    exact ⟨_, _, Prod.ext rfl hok, hfound⟩

theorem fail_cases (id : JobId) (worker error : String) (now : DateTime) :
    (t.fail id worker error now = (t, .error (.err (notRunningUnder id worker))) ∧
      ∀ row, t.get id = some row → row.heldBy worker = false) ∨
    ∃ row, t.get id = some row ∧ row.heldBy worker = true ∧
      ((∃ message, afterFailure row now = .error message ∧
          t.fail id worker error now = (t, .error (.panic message))) ∨
        ∃ status next, afterFailure row now = .ok (status, next) ∧
          (t.fail id worker error now).2 = .ok status ∧
          ∀ k, (t.fail id worker error now).1.get k =
            if k = id then some (row.failed status error next) else t.get k) := by
  unfold fail
  cases hheld : (t.get id).filter (JobRow.heldBy worker) with
  | none =>
    refine .inl ⟨rfl, fun row hget => ?_⟩
    simpa [hget, Option.filter] using hheld
  | some row =>
    obtain ⟨hget, hrow⟩ := Option.filter_eq_some_iff.mp hheld
    refine .inr ⟨row, hget, hrow, ?_⟩
    simp only [redactGuard_nil]
    cases hafter : afterFailure row now with
    | error message => exact .inl ⟨message, rfl, rfl⟩
    | ok after =>
      obtain ⟨status, next⟩ := after
      exact .inr ⟨status, next, rfl, rfl,
        get_updateWhere_id t (JobRow.failed status error next) (fun _ => ⟨rfl, rfl⟩) hget⟩

theorem fail_of_afterFailure {id : JobId} {worker : String} {row : JobRow} {now next : DateTime}
    {status : JobStatus} (hget : t.get id = some row) (hheld : row.heldBy worker = true)
    (hafter : afterFailure row now = .ok (status, next)) (error : String) :
    (t.fail id worker error now).2 = .ok status ∧
      ∀ k, (t.fail id worker error now).1.get k =
        if k = id then some (row.failed status error next) else t.get k := by
  obtain ⟨-, hnone⟩ | ⟨found, hfound, -, hcases⟩ := t.fail_cases id worker error now
  · rw [hnone row hget] at hheld
    cases hheld
  · rw [hget] at hfound
    obtain rfl := Option.some_inj.mp hfound
    rw [hafter] at hcases
    obtain ⟨message, hmessage, -⟩ | ⟨status', next', hsame, hok, hrest⟩ := hcases
    · cases hmessage
    · cases hsame
      exact ⟨hok, hrest⟩

theorem heldBy_of_complete {id : JobId} {worker : String} {now : DateTime}
    (h : (t.complete id worker now).2 = .ok ()) :
    ∃ row, t.get id = some row ∧ row.heldBy worker = true := by
  obtain ⟨heq, -⟩ | ⟨row, hget, hheld, -⟩ := t.updateRow_cases id (JobRow.heldBy worker)
    (JobRow.completed now) (fun _ => ⟨rfl, rfl⟩) (notRunningUnder id worker)
  · rw [show t.complete id worker now = _ from heq] at h
    cases h
  · exact ⟨row, hget, hheld⟩

theorem heldBy_of_fail {id : JobId} {worker error : String} {now : DateTime} {status : JobStatus}
    (h : (t.fail id worker error now).2 = .ok status) :
    ∃ row, t.get id = some row ∧ row.heldBy worker = true := by
  obtain ⟨heq, -⟩ | ⟨row, hget, hheld, -⟩ := t.fail_cases id worker error now
  · rw [heq] at h
    cases h
  · exact ⟨row, hget, hheld⟩

/-- Who does not hold the row gets `JobState` from both and changes nothing. -/
theorem refused_of_not_heldBy {id : JobId} {worker : String}
    (h : ∀ row, t.get id = some row → row.heldBy worker = false) (error : String)
    (now : DateTime) :
    t.complete id worker now = (t, .error (.err (notRunningUnder id worker))) ∧
      t.fail id worker error now = (t, .error (.err (notRunningUnder id worker))) := by
  constructor
  · obtain ⟨heq, -⟩ | ⟨row, hget, hheld, -⟩ := t.updateRow_cases id (JobRow.heldBy worker)
      (JobRow.completed now) (fun _ => ⟨rfl, rfl⟩) (notRunningUnder id worker)
    · exact heq
    · rw [h row hget] at hheld
      cases hheld
  · obtain ⟨heq, -⟩ | ⟨row, hget, hheld, -⟩ := t.fail_cases id worker error now
    · exact heq
    · rw [h row hget] at hheld
      cases hheld

theorem get_recoverExpiredLeases (now : DateTime) (id : JobId) :
    (t.recoverExpiredLeases now).1.get id =
      (t.get id).map fun row => if row.expired now then row.recovered now else row :=
  get_updateWhere t (JobRow.expired now) (JobRow.recovered now) (fun _ => ⟨rfl, rfl⟩) id

theorem mem_recoverExpiredLeases (now : DateTime) (id : JobId) :
    id ∈ (t.recoverExpiredLeases now).2 ↔
      ∃ row, t.get id = some row ∧ row.expired now = true := by
  simp only [recoverExpiredLeases, List.mem_map, List.mem_filter]
  constructor
  · rintro ⟨row, ⟨hmem, hexp⟩, rfl⟩
    exact ⟨row, mem_rows.mp hmem, hexp⟩
  · rintro ⟨row, hget, hexp⟩
    have hid := get_id hget
    exact ⟨row, ⟨mem_rows.mpr (by rw [hid, hget]), hexp⟩, hid⟩

end JobsTable

/-! ## One step, row by row -/

/-- What a step leaves under `id`: the row that was there, untouched; a row just inserted; or the
old row moved along an edge. -/
def RowStep (t t' : JobsTable) (op : PgOp) (ans : PgAnswer) (id : JobId) : Prop :=
  (id ∉ touched op ans ∧ t'.get id = t.get id) ∨
  (∃ row, Inserted t op row ∧ row.id = id ∧ t'.get id = some row ∧
    ans = .enqueue (.ok (.enqueued id))) ∨
  ∃ row row', t.get id = some row ∧ RowMove op ans row row' ∧ t'.get id = some row'

section Steps
variable {t t' : JobsTable} {op : PgOp} {ans : PgAnswer}

theorem RowStep.refused (h : touched op ans = []) (id : JobId) : RowStep t t op ans id :=
  .inl ⟨by simp [h], rfl⟩

theorem RowStep.single {row row' : JobRow} (hget : t.get row.id = some row)
    (hmove : RowMove op ans row row') (htouched : touched op ans = [row.id])
    (hrest : ∀ k, t'.get k = if k = row.id then some row' else t.get k) (id : JobId) :
    RowStep t t' op ans id := by
  by_cases hid : id = row.id
  · subst hid
    exact .inr (.inr ⟨row, row', hget, hmove, by rw [hrest, if_pos rfl]⟩)
  · exact .inl ⟨by simp [htouched, hid], by rw [hrest, if_neg hid]⟩

theorem RowStep.updateRow {t : JobsTable} {op : PgOp} {k : JobId} {p : JobRow → Bool}
    {f : JobRow → JobRow} {hf : JobRow.KeepsKeys f} {error : ControlPlaneError}
    (hstep : pgJobQueue.step t op = answered .done (t.updateRow k p f hf error))
    (hrefused : touched op (.done (.error (.err error))) = [])
    (hmove : ∀ row : JobRow, row.id = k → p row = true →
      RowMove op (.done (.ok ())) row (f row) ∧ touched op (.done (.ok ())) = [row.id])
    (id : JobId) : RowStep t (pgJobQueue.next t op) op (pgJobQueue.answer t op) id := by
  rw [pgJobQueue.next_of_step hstep, pgJobQueue.answer_of_step hstep]
  obtain ⟨heq, -⟩ | ⟨row, hget, hp, hok, hrest⟩ := t.updateRow_cases k p f hf error
  · rw [heq]
    exact .refused hrefused id
  · obtain rfl := JobsTable.get_id hget
    obtain ⟨hrow, htouched⟩ := hmove row rfl hp
    rw [hok]
    exact .single hget hrow htouched hrest id

end Steps

theorem rowStep_enqueue (t : JobsTable) (new : JobId) (target : String) (action : JobAction)
    (version : ℕ) (policy : RetryPolicy) (time : DateTime) (id : JobId) :
    RowStep t (pgJobQueue.next t (.enqueue new target action version policy time))
      (.enqueue new target action version policy time)
      (pgJobQueue.answer t (.enqueue new target action version policy time)) id := by
  have hstep : pgJobQueue.step t (.enqueue new target action version policy time) =
    answered .enqueue (t.enqueue new target action version policy time) := rfl
  rw [pgJobQueue.next_of_step hstep, pgJobQueue.answer_of_step hstep]
  obtain ⟨row, -, -, heq⟩ | ⟨hkeys, ⟨e, -, heq⟩ | ⟨hnone, hok, hrest⟩⟩ :=
    t.enqueue_cases new target action version policy time
  · rw [heq]
    exact .refused rfl id
  · rw [heq]
    exact .refused rfl id
  · rw [hok]
    by_cases hid : new = id
    · subst hid
      refine .inr (.inl ⟨JobRow.fresh new target action version policy time,
        ⟨new, target, action, version, policy, time, rfl, rfl, hnone, hkeys⟩, rfl, ?_, rfl⟩)
      rw [hrest, if_pos rfl]
    · refine .inl ⟨?_, by rw [hrest, if_neg hid]⟩
      simpa [touched] using fun heq : id = new => hid heq.symm

theorem rowStep_recoverExpiredLeases (t : JobsTable) (now : DateTime) (id : JobId) :
    RowStep t (pgJobQueue.next t (.recoverExpiredLeases now)) (.recoverExpiredLeases now)
      (pgJobQueue.answer t (.recoverExpiredLeases now)) id := by
  have hnext : (pgJobQueue.next t (.recoverExpiredLeases now)).get id = _ :=
    t.get_recoverExpiredLeases now id
  have hmem := t.mem_recoverExpiredLeases now id
  by_cases hexp : ∃ row, t.get id = some row ∧ row.expired now = true
  · obtain ⟨row, hget, hrow⟩ := hexp
    refine .inr (.inr ⟨row, row.recovered now, hget, .recovered row now _ hrow ?_, ?_⟩)
    · rw [JobsTable.get_id hget]
      exact hmem.mpr ⟨row, hget, hrow⟩
    · rw [hnext, hget, Option.map_some, if_pos hrow]
  · refine .inl ⟨fun h => hexp (hmem.mp h), ?_⟩
    rw [hnext]
    cases hget : t.get id with
    | none => rfl
    | some row => rw [Option.map_some, if_neg fun hrow => hexp ⟨row, hget, hrow⟩]

/-- **What a step does**, row by row. -/
theorem rowStep_next (t : JobsTable) (op : PgOp) (id : JobId) :
    RowStep t (pgJobQueue.next t op) op (pgJobQueue.answer t op) id := by
  cases op with
  | enqueue new target action version policy time =>
    exact rowStep_enqueue t new target action version policy time id
  | claimNext worker now lease skip =>
    have hstep : pgJobQueue.step t (.claimNext worker now lease skip) =
      answered .claim (t.claimNext worker now lease skip) := rfl
    rw [pgJobQueue.next_of_step hstep, pgJobQueue.answer_of_step hstep]
    obtain ⟨-, heq⟩ | ⟨expires, hadd, ⟨heq, -⟩ | ⟨row, hget, hclaim, -, -, hok, hrest⟩⟩ :=
      t.claimNext_cases worker now lease skip
    · rw [heq]
      exact .refused rfl id
    · rw [heq]
      exact .refused rfl id
    · rw [hok]
      exact .single hget (.claimed row worker now lease skip expires hclaim hadd) rfl hrest id
  | complete k worker now =>
    refine RowStep.updateRow rfl rfl (fun row hid hp => ?_) id
    subst hid
    exact ⟨.completed row worker now hp, rfl⟩
  | fail k worker error now =>
    have hstep : pgJobQueue.step t (.fail k worker error now) =
      answered .failed (t.fail k worker error now) := rfl
    rw [pgJobQueue.next_of_step hstep, pgJobQueue.answer_of_step hstep]
    obtain ⟨heq, -⟩ | ⟨row, hget, hheld, ⟨message, -, heq⟩ | ⟨status, next, hafter, hok, hrest⟩⟩ :=
      t.fail_cases k worker error now
    · rw [heq]
      exact .refused rfl id
    · rw [heq]
      exact .refused rfl id
    · obtain rfl := JobsTable.get_id hget
      rw [hok]
      exact .single hget (.failed row worker error now status next hheld hafter) rfl hrest id
  | pause k now =>
    refine RowStep.updateRow rfl rfl (fun row hid hp => ?_) id
    subst hid
    exact ⟨.paused row now (by simpa using hp), rfl⟩
  | resume k now =>
    refine RowStep.updateRow rfl rfl (fun row hid hp => ?_) id
    subst hid
    exact ⟨.resumed row now (by simpa using hp), rfl⟩
  | requeue k now =>
    refine RowStep.updateRow rfl rfl (fun row hid hp => ?_) id
    subst hid
    exact ⟨.requeued row now (by simpa using hp), rfl⟩
  | recoverExpiredLeases now => exact rowStep_recoverExpiredLeases t now id

end Labrys.ControlPlane
