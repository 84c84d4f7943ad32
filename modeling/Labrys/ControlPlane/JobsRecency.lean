import Labrys.ControlPlane.JobsRuns
import Labrys.ControlPlane.ReadApi

/-! # Recency in the durable queue

A read of a target's latest job goes by `updated_at`. Every operation but `fail` writes its own time
there; `fail` binds the column to the next attempt, so a job that is retried is stamped with a time
that is not that of the change. The column keeps whole microseconds, so the times of two changes may
also be too close for it.

* `JobsTable.changes`, `JobsTable.lastChange`: the writes of a history, and the last one of a job.
* `JobsTable.IsLatest`: the rows `latest_for_target` may answer with.
* `PgOp.StampsNow`: a failure that the operation records is stamped with the time it is recorded.
* `JobsTable.ToldApart`: the column tells the changes of a history apart. -/

namespace Labrys.ControlPlane
open Foundations Labrys.Core
set_option autoImplicit false

/-! ## The last change of a job -/

def PgOp.time : PgOp → DateTime
  | .enqueue _ _ _ _ _ time => time
  | .claimNext _ now _ _ => now
  | .complete _ _ now => now
  | .fail _ _ _ now => now
  | .pause _ now => now
  | .resume _ now => now
  | .requeue _ now => now
  | .recoverExpiredLeases now => now

def changeTally (changes : List (JobId × DateTime)) (op : PgOp) (ans : PgAnswer) :
    List (JobId × DateTime) :=
  ((touched op ans).map fun id => (id, op.time)) ++ changes

/-- The writes of a history from the empty table, the last first: the job and the time. -/
def JobsTable.changes (ops : List PgOp) : List (JobId × DateTime) :=
  pgJobQueue.fold changeTally .empty [] ops

/-- When the row of `id` was last written, along a history from the empty table. -/
def JobsTable.lastChange (id : JobId) (ops : List PgOp) : Option DateTime :=
  (changes ops).lookup id

theorem lookup_map_append (ids : List JobId) (time : DateTime) (changes : List (JobId × DateTime))
    (id : JobId) :
    ((ids.map fun id => (id, time)) ++ changes).lookup id =
      if id ∈ ids then some time else changes.lookup id := by
  induction ids with
  | nil => rfl
  | cons head ids ih =>
    rw [List.map_cons, List.cons_append, List.lookup_cons, ih]
    by_cases hid : id = head
    · simp [hid]
    · simp [hid, beq_false_of_ne hid]

theorem mem_of_lookup {changes : List (JobId × DateTime)} {id : JobId} {time : DateTime}
    (h : changes.lookup id = some time) : (id, time) ∈ changes := by
  obtain ⟨before, after, rfl, -⟩ := List.lookup_eq_some_iff.mp h
  exact List.mem_append_right before List.mem_cons_self

theorem JobsTable.changes_take_subset (ops : List PgOp) (n : ℕ) :
    changes (ops.take n) ⊆ changes ops := by
  have hsplit : changes ops = pgJobQueue.fold changeTally
      (pgJobQueue.run .empty (ops.take n)) (changes (ops.take n)) (ops.drop n) := by
    rw [changes, changes, ← pgJobQueue.fold_append, List.take_append_drop]
  rw [hsplit]
  exact pgJobQueue.fold_invariant (R := fun _ grown => changes (ops.take n) ⊆ grown)
    (fun _ _ _ h _ => List.subset_append_of_subset_right _ h) _ _ _ (List.Subset.refl _)
    (pgJobQueue.guarded_true _ _)

/-! ## Reading the latest job -/

/-- `ORDER BY updated_at DESC, enqueued_at DESC`. -/
def JobRow.ReadBefore (a b : JobRow) : Prop :=
  b.updatedAt < a.updatedAt ∨ (b.updatedAt = a.updatedAt ∧ b.enqueuedAt ≤ a.enqueuedAt)

instance : DecidableRel JobRow.ReadBefore := fun a b =>
  inferInstanceAs (Decidable (b.updatedAt < a.updatedAt ∨
    (b.updatedAt = a.updatedAt ∧ b.enqueuedAt ≤ a.enqueuedAt)))

theorem JobRow.ReadBefore.updatedAt_le {a b : JobRow} (h : a.ReadBefore b) :
    b.updatedAt ≤ a.updatedAt := by
  obtain hlt | ⟨heq, -⟩ := h
  · exact hlt.le
  · exact heq.le

theorem JobRow.ReadBefore.total (a b : JobRow) : a.ReadBefore b ∨ b.ReadBefore a := by
  obtain hlt | heq | hgt := lt_trichotomy b.updatedAt a.updatedAt
  · exact .inl (.inl hlt)
  · exact (le_total b.enqueuedAt a.enqueuedAt).imp (fun hle => .inr ⟨heq, hle⟩)
      fun hle => .inr ⟨heq.symm, hle⟩
  · exact .inr (.inl hgt)

theorem JobRow.ReadBefore.trans {a b c : JobRow} (hab : a.ReadBefore b) (hbc : b.ReadBefore c) :
    a.ReadBefore c := by
  obtain hba | ⟨hba, hold⟩ := hab
  · exact .inl (hbc.updatedAt_le.trans_lt hba)
  · obtain hcb | ⟨hcb, hold'⟩ := hbc
    · exact .inl (hba ▸ hcb)
    · exact .inr ⟨hcb.trans hba, hold'.trans hold⟩

/-- A row that `latest_for_target` may answer with: none of the target's rows is read strictly
before it. Several rows may be such, and the database returns any of them. -/
structure JobsTable.IsLatest (t : JobsTable) (target : String) (row : JobRow) : Prop where
  stored : t.get row.id = some row
  ofTarget : row.target = target
  first : ∀ other, t.get other.id = some other → other.target = target → row.ReadBefore other

theorem latestForTarget_isLatest {s : ReadDb} {target : String} {job : Job}
    (h : PgJobQueue.latestForTarget target s = some job) :
    ∃ row, s.api.db.jobs.IsLatest target row ∧ row.toJob = job := by
  have : Std.Total JobRow.ReadBefore := ⟨JobRow.ReadBefore.total⟩
  have : IsTrans JobRow JobRow.ReadBefore := ⟨fun _ _ _ => JobRow.ReadBefore.trans⟩
  let rows := s.api.db.jobs.jobs.rows.filter fun row => decide (row.target = target)
  obtain ⟨row, hhead, rfl⟩ := Option.map_eq_some_iff.mp h
  have hmem {other : JobRow} : other ∈ rows.insertionSort JobRow.ReadBefore ↔
      s.api.db.jobs.get other.id = some other ∧ other.target = target := by
    rw [List.mem_insertionSort, List.mem_filter, JobsTable.mem_rows, decide_eq_true_iff]
  have hsorted := List.pairwise_insertionSort JobRow.ReadBefore rows
  obtain ⟨rest, hrest⟩ := List.head?_eq_some_iff.mp
    (show (rows.insertionSort JobRow.ReadBefore).head? = some row from hhead)
  rw [hrest] at hmem hsorted
  obtain ⟨hstored, htarget⟩ := hmem.mp List.mem_cons_self
  refine ⟨row, ⟨hstored, htarget, fun other hother hsame => ?_⟩, rfl⟩
  obtain rfl | hlater := List.mem_cons.mp (hmem.mpr ⟨hother, hsame⟩)
  · exact (JobRow.ReadBefore.total other other).elim id id
  · exact List.rel_of_pairwise_cons hsorted hlater

/-- The updates of the stored jobs go with their last changes, and so does the latest job. -/
structure JobsTable.Recent (t : JobsTable) (changed : JobId → Option DateTime) : Prop where
  updated : ∀ row, t.get row.id = some row →
    ∃ time, changed row.id = some time ∧ row.updatedAt ≤ time
  latest : ∀ target row, t.IsLatest target row →
    ∀ other, t.get other.id = some other → other.target = target →
      ∀ time, changed other.id = some time →
        ∃ latest, changed row.id = some latest ∧ time ≤ latest

/-! ## What a failure is stamped with -/

/-- A failure that `fail` records dead-letters the job or is retried within the microsecond. -/
def PgOp.StampsNow (t : JobsTable) : PgOp → Prop
  | .fail id worker _ now => ∀ row, t.get id = some row → row.heldBy worker = true →
      row.policy.maxAttempts ≤ max row.attempts 1 ∨
        ∀ delay next, row.policy.delayFor (max row.attempts 1) = some delay →
          DateTime.add now delay = some next → timestamptz next = timestamptz now
  | _ => True

theorem afterFailure_now {t : JobsTable} {worker error : String} {row : JobRow}
    {now next : DateTime} {status : JobStatus}
    (hop : (PgOp.fail row.id worker error now).StampsNow t) (hget : t.get row.id = some row)
    (hheld : row.heldBy worker = true)
    (h : JobsTable.afterFailure row now = .ok (status, next)) :
    timestamptz next = timestamptz now := by
  unfold JobsTable.afterFailure at h
  dsimp only at h
  split at h
  · cases h
    rfl
  · next hbudget =>
    have hretried := (hop row hget hheld).resolve_left hbudget
    split at h
    · cases h
    · next delay hdelay =>
      split at h
      · cases h
      · next sum hsum =>
        cases h
        exact hretried delay next hdelay hsum

/-! ## Along a history -/

section Moves
variable {op : PgOp} {ans : PgAnswer} {row row' : JobRow}

theorem RowMove.mem_touched (h : RowMove op ans row row') : row.id ∈ touched op ans := by
  cases h with
  | recovered _ now ids hexp hids => exact hids
  | _ => exact List.mem_singleton_self row.id

theorem RowMove.target (h : RowMove op ans row row') : row'.target = row.target := by
  cases h <;> rfl

theorem RowMove.updatedAt {t : JobsTable} (h : RowMove op ans row row')
    (hget : t.get row.id = some row) (hop : op.StampsNow t) :
    row'.updatedAt = timestamptz op.time := by
  cases h with
  | failed _ worker error now status next hheld hafter =>
    exact afterFailure_now hop hget hheld hafter
  | _ => rfl

end Moves

/-- Every row carries the time of its last change, as the column keeps it. -/
def Stamped (t : JobsTable) (changes : List (JobId × DateTime)) : Prop :=
  ∀ id row, t.get id = some row →
    ∃ time, changes.lookup id = some time ∧ row.updatedAt = timestamptz time

theorem stamped_next (t : JobsTable) (op : PgOp) (changes : List (JobId × DateTime))
    (ht : Stamped t changes) (hop : op.StampsNow t) :
    Stamped (pgJobQueue.next t op) (changeTally changes op (pgJobQueue.answer t op)) := by
  intro id row' hget'
  rw [changeTally, lookup_map_append]
  obtain ⟨huntouched, heq⟩ | ⟨new, ⟨i, target, action, version, policy, time, rfl, rfl, -⟩, hid,
    heq, hans⟩ | ⟨old, moved, hold, hmove, heq⟩ := rowStep_next t op id <;> rw [heq] at hget'
  · rw [if_neg huntouched]
    exact ht id row' hget'
  · obtain rfl := Option.some_inj.mp hget'
    obtain rfl : i = id := hid
    rw [hans]
    exact ⟨time, if_pos (List.mem_singleton_self i), rfl⟩
  · obtain rfl := Option.some_inj.mp hget'
    obtain rfl := JobsTable.get_id hold
    exact ⟨op.time, if_pos hmove.mem_touched, hmove.updatedAt hold hop⟩

theorem stamped_run (ops : List PgOp)
    (h : pgJobQueue.Guarded (fun t op => op.StampsNow t) .empty ops) :
    Stamped (pgJobQueue.run .empty ops) (JobsTable.changes ops) :=
  pgJobQueue.fold_invariant stamped_next .empty [] ops (fun id row hrow => by cases hrow) h

/-- A stored job stays stored, for the same target. -/
theorem target_run_take {ops : List PgOp} {n : ℕ} {id : JobId} {row : JobRow}
    (hget : (pgJobQueue.run .empty (ops.take n)).get id = some row) :
    ∃ last, (pgJobQueue.run .empty ops).get id = some last ∧ last.target = row.target := by
  have hkept := pgJobQueue.run_invariant_all
    (P := fun t => ∃ last, t.get id = some last ∧ last.target = row.target) ?_
    (pgJobQueue.run .empty (ops.take n)) (ops.drop n) ⟨row, hget, rfl⟩
  · rwa [← pgJobQueue.run_append, List.take_append_drop] at hkept
  · rintro t op ⟨last, hlast, htarget⟩
    obtain ⟨-, hsame⟩ | ⟨new, ⟨_, _, _, _, _, _, -, rfl, hnone, -⟩, rfl, -, -⟩ |
      ⟨old, moved, hold, hmove, hmoved⟩ := rowStep_next t op id
    · exact ⟨last, hsame.trans hlast, htarget⟩
    · cases hnone.symm.trans hlast
    · obtain rfl := Option.some_inj.mp (hold.symm.trans hlast)
      exact ⟨moved, hmoved, hmove.target.trans htarget⟩

/-! ## The resolution of the column -/

/-- The column tells the changes of a history apart: it keeps none as later than it was made, and
no two changes of different jobs of one target, made at different times, as one. -/
structure JobsTable.ToldApart (ops : List PgOp) : Prop where
  notLater : ∀ change ∈ changes ops, timestamptz change.2 ≤ change.2
  apart : ∀ a b, (pgJobQueue.run .empty ops).get a.id = some a →
    (pgJobQueue.run .empty ops).get b.id = some b → a.id ≠ b.id → a.target = b.target →
    ∀ s t, (a.id, s) ∈ changes ops → (b.id, t) ∈ changes ops → timestamptz s = timestamptz t →
      s = t

/-- Changes at whole microseconds are told apart. -/
theorem JobsTable.toldApart_of_whole {ops : List PgOp}
    (h : ∀ change ∈ changes ops, WholeMicros change.2) : ToldApart ops where
  notLater := fun change hchange => (timestamptz_of_whole (h change hchange)).le
  apart := by
    intro a b _ _ _ _ s t hs ht hcut
    rwa [timestamptz_of_whole (h _ hs), timestamptz_of_whole (h _ ht)] at hcut

theorem JobsTable.ToldApart.take {ops : List PgOp} (h : ToldApart ops) (n : ℕ) :
    ToldApart (ops.take n) where
  notLater := fun change hchange => h.notLater change (changes_take_subset ops n hchange)
  apart := by
    intro a b ha hb hne htarget s t hs ht hcut
    obtain ⟨a', ha', hatarget⟩ := target_run_take ha
    obtain ⟨b', hb', hbtarget⟩ := target_run_take hb
    have haid := get_id ha'
    have hbid := get_id hb'
    rw [← haid] at ha' hne hs
    rw [← hbid] at hb' hne ht
    exact h.apart a' b' ha' hb' hne (hatarget.trans (htarget.trans hbtarget.symm)) s t
      (changes_take_subset ops n hs) (changes_take_subset ops n ht) hcut

/-- Where the rows carry the times of their last changes, and the column tells these apart, the
latest job is the one changed last. -/
theorem JobsTable.recent_of_stamped {ops : List PgOp}
    (hstamped : Stamped (pgJobQueue.run .empty ops) (changes ops)) (h : ToldApart ops) :
    (pgJobQueue.run .empty ops).Recent fun id => lastChange id ops where
  updated := by
    intro row hrow
    obtain ⟨time, htime, hupdated⟩ := hstamped row.id row hrow
    refine ⟨time, htime, ?_⟩
    rw [hupdated]
    exact h.notLater _ (mem_of_lookup htime)
  latest := by
    intro target row hlatest other hother htarget time htime
    obtain ⟨latest, hlast, hupdated⟩ := hstamped row.id row hlatest.stored
    obtain ⟨time', htime', hupdated'⟩ := hstamped other.id other hother
    obtain rfl := Option.some_inj.mp (htime'.symm.trans htime)
    refine ⟨latest, hlast, ?_⟩
    by_cases hid : row.id = other.id
    · rw [← hid, hlast] at htime'
      exact (Option.some_inj.mp htime').ge
    · have hcut : timestamptz time' ≤ timestamptz latest := by
        rw [← hupdated, ← hupdated']
        exact (hlatest.first other hother htarget).updatedAt_le
      -- an earlier change of the latest job could only have been kept as the same time
      by_contra hlater
      have hsame := hcut.antisymm (timestamptz_mono (not_le.mp hlater).le)
      refine hlater (h.apart row other hlatest.stored hother hid
        (hlatest.ofTarget.trans htarget.symm) latest time' (mem_of_lookup hlast)
        (mem_of_lookup htime') hsame.symm).ge

/-- **Recency of the queue** in every state of a history whose recorded failures are stamped with
the time they are recorded and whose changes the column tells apart. -/
theorem queue_recency (ops : List PgOp)
    (h : pgJobQueue.Guarded (fun t op => op.StampsNow t) .empty ops)
    (hchanges : JobsTable.ToldApart ops) (n : ℕ) :
    (pgJobQueue.run .empty (ops.take n)).Recent fun id => JobsTable.lastChange id (ops.take n) := by
  have hreached : pgJobQueue.Guarded (fun t op => op.StampsNow t) .empty (ops.take n) := by
    rw [← List.take_append_drop n ops, Machine.guarded_append] at h
    exact h.1
  exact JobsTable.recent_of_stamped (stamped_run (ops.take n) hreached) (hchanges.take n)

/-! ## Two jobs of one target -/

/-- Two jobs of one target are taken by two workers; the first fails and the second is completed. -/
def failedThenCompleted (policy : RetryPolicy) : List PgOp :=
  [.enqueue ⟨1⟩ "res" .verify 1 policy 0, .enqueue ⟨2⟩ "res" .verify 2 policy 0,
    .claimNext "a" 0 10000 fun _ => false, .claimNext "b" 0 10000 fun _ => false,
    .fail ⟨1⟩ "a" "no quota" 1000, .complete ⟨2⟩ "b" 2000]

/-- With one attempt the failed job is dead-lettered. -/
theorem queue_recency_deadLettered :
    let ops := failedThenCompleted { RetryPolicy.default with maxAttempts := 1 }
    (pgJobQueue.run .empty (ops.take 6)).Recent fun id => JobsTable.lastChange id (ops.take 6) := by
  intro ops
  refine queue_recency ops ⟨trivial, trivial, trivial, trivial, ?_, trivial, trivial⟩
    (JobsTable.toldApart_of_whole (by decide +kernel)) 6
  intro row hget hheld
  have hmem : row ∈ (pgJobQueue.run .empty (ops.take 4)).jobs.rows := Table.mem_of_get hget
  have hbudget : ∀ row ∈ (pgJobQueue.run .empty (ops.take 4)).jobs.rows,
      row.policy.maxAttempts ≤ max row.attempts 1 := by decide +kernel
  exact .inl (hbudget row hmem)

/-- The two rows, as the run leaves them. -/
def failedRow : JobRow :=
  ((JobRow.fresh ⟨1⟩ "res" .verify 1 .default 0).claimed "a" 0 10000).failed .queued "no quota"
    (1000 + 5 * nanosPerSecond)

def completedRow : JobRow :=
  ((JobRow.fresh ⟨2⟩ "res" .verify 2 .default 0).claimed "b" 0 10000).completed 2000

/-- Two jobs of one target are enqueued within a microsecond, 100 ns apart. -/
def enqueuedTogether : List PgOp :=
  [.enqueue ⟨1⟩ "res" .verify 1 .default (pgEpoch + 100),
    .enqueue ⟨2⟩ "res" .verify 2 .default (pgEpoch + 200)]

theorem JobsTable.isLatest_of_rows {t : JobsTable} {target : String} {row : JobRow}
    (hrow : t.get row.id = some row) (htarget : row.target = target)
    (h : ∀ other ∈ t.jobs.rows, row.ReadBefore other) : t.IsLatest target row :=
  ⟨hrow, htarget, fun other hother _ => h other (mem_rows.mpr hother)⟩

/-- A job that failed and waits for its retry stays the latest of its target when another job of it
is completed after the failure; and of two jobs changed within a microsecond, the one changed first
may be the latest. -/
theorem retried_job_stays_latest :
    (let ops := failedThenCompleted .default;
      (ops.map PgOp.time).Pairwise (· ≤ ·) ∧
        (pgJobQueue.run .empty ops).IsLatest "res" failedRow ∧
        JobsTable.lastChange failedRow.id ops = some 1000 ∧ 1000 < failedRow.updatedAt ∧
        (pgJobQueue.run .empty ops).get completedRow.id = some completedRow ∧
        completedRow.target = "res" ∧ JobsTable.lastChange completedRow.id ops = some 2000 ∧
        ¬ (pgJobQueue.run .empty ops).Recent fun id => JobsTable.lastChange id ops) ∧
    (pgJobQueue.run .empty enqueuedTogether).IsLatest "res"
        (JobRow.fresh ⟨1⟩ "res" .verify 1 .default (pgEpoch + 100)) ∧
      JobsTable.lastChange ⟨1⟩ enqueuedTogether = some (pgEpoch + 100) ∧
      JobsTable.lastChange ⟨2⟩ enqueuedTogether = some (pgEpoch + 200) := by
  refine ⟨?_, JobsTable.isLatest_of_rows (by decide +kernel) rfl (by decide +kernel),
    by decide +kernel, by decide +kernel⟩
  intro ops
  have hfailed : (pgJobQueue.run .empty ops).get failedRow.id = some failedRow := by
    decide +kernel
  have hchanged : JobsTable.lastChange failedRow.id ops = some 1000 := by decide +kernel
  refine ⟨by decide +kernel, JobsTable.isLatest_of_rows hfailed rfl (by decide +kernel), hchanged,
    by decide, by decide +kernel, rfl, by decide +kernel, fun h => ?_⟩
  obtain ⟨time, htime, hle⟩ := h.updated failedRow hfailed
  obtain rfl := Option.some_inj.mp (hchanged.symm.trans htime)
  exact absurd hle (by decide)

end Labrys.ControlPlane
