import Labrys.ControlPlane.JobsRuns
import Mathlib.Logic.Function.Basic

/-! # Leases: workers sharing one jobs table

Any number of sequential workers, told apart by their ids, on one jobs table, in any order of
operations, recoveries and crashes; every time is the caller's, so clocks may do anything. Next to
the table the system keeps a record of the claims: each grant is a ticket, the job and the number
of claims of it so far, and the record says to whom it went, who finalized it and which tickets
were recovered. A worker remembers the ticket of its last claim and finalizes that one only. -/

namespace Labrys.ControlPlane
open Foundations Labrys.Core
set_option autoImplicit false

/-! ## Running is being leased -/

/-- Running exactly while both lease columns are set. -/
def JobRow.Leased (row : JobRow) : Prop :=
  (row.status = .running ↔ row.leaseOwner.isSome = true) ∧
    (row.status = .running ↔ row.leaseExpiresAt.isSome = true)

theorem JobRow.leased_of_none {row : JobRow} (hstatus : row.status ≠ .running)
    (howner : row.leaseOwner = none) (hexpires : row.leaseExpiresAt = none) : row.Leased := by
  simp [Leased, hstatus, howner, hexpires]

theorem JobRow.Leased.free {row : JobRow} (h : row.Leased) (hstatus : row.status ≠ .running) :
    row.leaseOwner = none ∧ row.leaseExpiresAt = none := by
  obtain ⟨howner, hexpires⟩ := h
  simp only [hstatus, false_iff, Bool.not_eq_true, Option.isSome_eq_false_iff,
    Option.isNone_iff_eq_none] at howner hexpires
  exact ⟨howner, hexpires⟩

/-- A move keeps a row leased exactly while it runs, and leaves a lease only by claiming. -/
theorem RowMove.leased {op : PgOp} {ans : PgAnswer} {row row' : JobRow}
    (h : RowMove op ans row row') (hrow : row.Leased) :
    row'.Leased ∧ (row'.leaseOwner = none ∨ ∃ worker now lease skip claimed,
      op = .claimNext worker now lease skip ∧ ans = .claim (.ok (some claimed)) ∧
      claimed.job.id = row.id ∧ row'.leaseOwner = some worker) := by
  cases h with
  | claimed _ worker now lease skip expires hclaim =>
    exact ⟨by simp [JobRow.Leased, JobRow.claimed],
      .inr ⟨worker, now, lease, skip, _, rfl, rfl, rfl, rfl⟩⟩
  | completed _ worker now hheld =>
    exact ⟨JobRow.leased_of_none (by simp [JobRow.completed]) rfl rfl, .inl rfl⟩
  | failed _ worker error now status next hheld hafter =>
    refine ⟨JobRow.leased_of_none ?_ rfl rfl, .inl rfl⟩
    obtain rfl | rfl := afterFailure_status hafter <;> simp [JobRow.failed]
  | paused _ now hq =>
    obtain ⟨howner, hexpires⟩ := hrow.free (by simp [hq])
    exact ⟨JobRow.leased_of_none (by simp [JobRow.moved]) howner hexpires, .inl howner⟩
  | resumed _ now hp =>
    obtain ⟨howner, hexpires⟩ := hrow.free (by simp [hp])
    exact ⟨JobRow.leased_of_none (by simp [JobRow.moved]) howner hexpires, .inl howner⟩
  | requeued _ now hd =>
    exact ⟨JobRow.leased_of_none (by simp [JobRow.requeued]) rfl rfl, .inl rfl⟩
  | recovered _ now ids hexp hids =>
    exact ⟨JobRow.leased_of_none (by simp [JobRow.recovered]) rfl rfl, .inl rfl⟩

theorem leased_next {t : JobsTable} (h : ∀ id row, t.get id = some row → row.Leased) (op : PgOp)
    (id : JobId) (row : JobRow) (hget : (pgJobQueue.next t op).get id = some row) :
    row.Leased := by
  obtain ⟨-, heq⟩ | ⟨new, ⟨i, target, action, version, policy, time, -, rfl, -⟩, -, heq, -⟩ |
    ⟨old, moved, hold, hmove, heq⟩ := rowStep_next t op id <;> rw [heq] at hget
  · exact h id row hget
  · obtain rfl := Option.some_inj.mp hget
    exact JobRow.leased_of_none (by simp [JobRow.fresh, Job.fresh]) rfl rfl
  · obtain rfl := Option.some_inj.mp hget
    exact (hmove.leased (h id old hold)).1

/-! ## Workers and the record of their claims -/

/-- One claim of a job: the `ordinal`-th. -/
structure Ticket where
  job : JobId
  ordinal : ℕ
deriving DecidableEq

/-- An accepted `complete` or `fail`: the claim the row was under, the ticket the worker had, the
worker, and the row's `lease_owner` at that moment. -/
structure Finalization where
  claim : Ticket
  held : Option Ticket
  worker : String
  owner : Option String
deriving DecidableEq

structure LeaseSystem where
  table : JobsTable
  ordinal : JobId → ℕ
  held : String → Option Ticket
  grants : List (Ticket × String)
  finalized : List Finalization
  recovered : List Ticket

inductive LeaseEvent
  | client (op : ClientOp)
  | claimNext (worker : String) (now : DateTime) (lease : Duration) (skip : JobId → Bool)
  | complete (worker : String) (now : DateTime)
  | fail (worker : String) (error : String) (now : DateTime)
  | crash (worker : String)

namespace LeaseSystem

/-- The ticket of the claim a row is under. -/
def current (s : LeaseSystem) (id : JobId) : Ticket := ⟨id, s.ordinal id⟩

/-- The system over a table, before any of the workers has claimed. The rows running there are
under their first recorded claim. -/
def start (t : JobsTable) : LeaseSystem where
  table := t
  ordinal := fun _ => 0
  held := fun _ => none
  grants := t.jobs.rows.filterMap fun row => row.leaseOwner.map fun owner => (⟨row.id, 0⟩, owner)
  finalized := []
  recovered := []

/-- The operation an event makes on the table; a worker without a ticket has nothing to finalize,
and a crash makes none. -/
def operation (s : LeaseSystem) : LeaseEvent → Option PgOp
  | .client op => some op.toPg
  | .claimNext worker now lease skip => some (.claimNext worker now lease skip)
  | .complete worker now => (s.held worker).map fun ticket => .complete ticket.job worker now
  | .fail worker error now => (s.held worker).map fun ticket => .fail ticket.job worker error now
  | .crash _ => none

def grant (s : LeaseSystem) (id : JobId) (worker : String) : LeaseSystem :=
  let ticket : Ticket := ⟨id, s.ordinal id + 1⟩
  { s with
    ordinal := Function.update s.ordinal id (s.ordinal id + 1)
    held := Function.update s.held worker (some ticket)
    grants := (ticket, worker) :: s.grants }

def finalize (s : LeaseSystem) (id : JobId) (worker : String) : LeaseSystem :=
  { s with
    finalized := ⟨s.current id, s.held worker, worker, (s.table.get id).bind (·.leaseOwner)⟩ ::
      s.finalized }

def record (s : LeaseSystem) : PgOp → PgAnswer → LeaseSystem
  | .claimNext worker .., .claim (.ok (some claimed)) => s.grant claimed.job.id worker
  | .complete id worker _, .done (.ok _) => s.finalize id worker
  | .fail id worker _ _, .failed (.ok _) => s.finalize id worker
  | .recoverExpiredLeases _, .recovered ids =>
      { s with recovered := ids.map s.current ++ s.recovered }
  | _, _ => s

def perform (s : LeaseSystem) (op : PgOp) : LeaseSystem :=
  { s.record op (pgJobQueue.answer s.table op) with table := pgJobQueue.next s.table op }

def step (s : LeaseSystem) (event : LeaseEvent) : LeaseSystem × Option PgAnswer :=
  match s.operation event, event with
  | some op, _ => (s.perform op, some (pgJobQueue.answer s.table op))
  | none, .crash worker => ({ s with held := Function.update s.held worker none }, none)
  | none, _ => (s, none)

end LeaseSystem

def leaseSystem : Machine LeaseSystem LeaseEvent (Option PgAnswer) := ⟨LeaseSystem.step⟩

/-! ## The invariant -/

namespace LeaseSystem

/-- The row of `id` is under a claim granted to `worker` that is neither finalized nor recovered,
and is the one the worker remembers, if the worker remembers one of this job. -/
structure HeldUnder (s : LeaseSystem) (id : JobId) (worker : String) : Prop where
  granted : (s.current id, worker) ∈ s.grants
  unfinalized : s.current id ∉ s.finalized.map (·.claim)
  unrecovered : s.current id ∉ s.recovered
  remembered : ∀ ticket, s.held worker = some ticket → ticket.job = id → ticket = s.current id

/-- A finalization by the lease holder, of the claim it was granted. -/
def Earned (s : LeaseSystem) (f : Finalization) : Prop :=
  f.owner = some f.worker ∧ f.held = some f.claim ∧ (f.claim, f.worker) ∈ s.grants

/-- The record is in order: tickets are granted once and finalized once, by their holder, and none
is ahead of the count of its job. -/
structure Ledger (s : LeaseSystem) : Prop where
  grants_le : ∀ g ∈ s.grants, g.1.ordinal ≤ s.ordinal g.1.job
  grants_nodup : (s.grants.map Prod.fst).Nodup
  finalized_nodup : (s.finalized.map (·.claim)).Nodup
  earned : ∀ f ∈ s.finalized, s.Earned f
  recovered_le : ∀ ticket ∈ s.recovered, ticket.ordinal ≤ s.ordinal ticket.job

structure Inv (s : LeaseSystem) : Prop where
  ledger : s.Ledger
  leased : ∀ id row, s.table.get id = some row → row.Leased
  under : ∀ id row, s.table.get id = some row → ∀ worker, row.leaseOwner = some worker →
    s.HeldUnder id worker

/-! ## What the record keeps -/

section Record
variable {s : LeaseSystem} {id : JobId} {worker : String}

theorem ordinal_le_grant (job : JobId) : s.ordinal job ≤ (s.grant id worker).ordinal job := by
  simp only [grant, Function.update_apply]
  split
  · next h => rw [h]; exact Nat.le_succ _
  · exact le_rfl

theorem Ledger.next_not_mem (h : s.Ledger) (id : JobId) :
    (⟨id, s.ordinal id + 1⟩ : Ticket) ∉ s.grants.map Prod.fst ∧
      ⟨id, s.ordinal id + 1⟩ ∉ s.finalized.map (·.claim) ∧
      ⟨id, s.ordinal id + 1⟩ ∉ s.recovered := by
  have hgrants : (⟨id, s.ordinal id + 1⟩ : Ticket) ∉ s.grants.map Prod.fst := by
    intro hmem
    obtain ⟨g, hg, heq⟩ := List.mem_map.mp hmem
    have hle := h.grants_le g hg
    rw [heq] at hle
    exact Nat.not_succ_le_self _ hle
  refine ⟨hgrants, fun hmem => ?_, fun hmem => Nat.not_succ_le_self _ (h.recovered_le _ hmem)⟩
  obtain ⟨f, hf, heq⟩ := List.mem_map.mp hmem
  exact hgrants (heq ▸ List.mem_map.mpr ⟨_, (h.earned f hf).2.2, rfl⟩)

theorem Ledger.grant (h : s.Ledger) (id : JobId) (worker : String) :
    (s.grant id worker).Ledger where
  grants_le := by
    intro g hg
    obtain rfl | hg := List.mem_cons.mp hg
    · simp [LeaseSystem.grant]
    · exact (h.grants_le g hg).trans (ordinal_le_grant _)
  grants_nodup := List.nodup_cons.mpr ⟨(h.next_not_mem id).1, h.grants_nodup⟩
  finalized_nodup := h.finalized_nodup
  earned := fun f hf =>
    ⟨(h.earned f hf).1, (h.earned f hf).2.1, List.mem_cons_of_mem _ (h.earned f hf).2.2⟩
  recovered_le := fun ticket hmem => (h.recovered_le ticket hmem).trans (ordinal_le_grant _)

theorem Ledger.finalize (h : s.Ledger) (hunder : s.HeldUnder id worker) {ticket : Ticket}
    (hheld : s.held worker = some ticket) (hjob : ticket.job = id)
    (howner : (s.table.get id).bind (·.leaseOwner) = some worker) :
    (s.finalize id worker).Ledger where
  grants_le := h.grants_le
  grants_nodup := h.grants_nodup
  finalized_nodup := List.nodup_cons.mpr ⟨hunder.unfinalized, h.finalized_nodup⟩
  earned := by
    intro f hf
    obtain rfl | hf := List.mem_cons.mp hf
    · refine ⟨howner, ?_, hunder.granted⟩
      rw [← hunder.remembered ticket hheld hjob]
      exact hheld
    · exact h.earned f hf
  recovered_le := h.recovered_le

theorem Ledger.recover (h : s.Ledger) (ids : List JobId) :
    Ledger { s with recovered := ids.map s.current ++ s.recovered } where
  grants_le := h.grants_le
  grants_nodup := h.grants_nodup
  finalized_nodup := h.finalized_nodup
  earned := h.earned
  recovered_le := by
    intro ticket hmem
    obtain hmem | hmem := List.mem_append.mp hmem
    · obtain ⟨id, -, rfl⟩ := List.mem_map.mp hmem
      exact le_rfl
    · exact h.recovered_le ticket hmem

theorem Ledger.heldUnder_grant (h : s.Ledger) (id : JobId) (worker : String) :
    (s.grant id worker).HeldUnder id worker := by
  have hcurrent : (s.grant id worker).current id = ⟨id, s.ordinal id + 1⟩ := by
    simp [current, LeaseSystem.grant]
  obtain ⟨-, hfinalized, hrecovered⟩ := h.next_not_mem id
  constructor
  · rw [hcurrent]
    exact List.mem_cons_self
  · rw [hcurrent]
    exact hfinalized
  · rw [hcurrent]
    exact hrecovered
  · intro ticket hheld _
    rw [hcurrent]
    simpa [LeaseSystem.grant, eq_comm] using hheld

theorem HeldUnder.record (h : s.HeldUnder id worker) {op : PgOp} {ans : PgAnswer}
    (hid : id ∉ touched op ans) : (s.record op ans).HeldUnder id worker := by
  have hne : ∀ {other : JobId}, id ∉ [other] → id ≠ other := fun h => by simpa using h
  unfold LeaseSystem.record
  split
  · next other now lease skip claimed =>
    have hother := hne hid
    have hcurrent : (s.grant claimed.job.id other).current id = s.current id := by
      simp [current, grant, hother]
    constructor
    · rw [hcurrent]
      exact List.mem_cons_of_mem _ h.granted
    · rw [hcurrent]
      exact h.unfinalized
    · rw [hcurrent]
      exact h.unrecovered
    · intro ticket hheld hjob
      rw [hcurrent]
      simp only [grant, Function.update_apply] at hheld
      split at hheld
      · obtain rfl := Option.some_inj.mp hheld
        exact absurd hjob.symm hother
      · exact h.remembered ticket hheld hjob
  · next job other now =>
    refine ⟨h.granted, ?_, h.unrecovered, h.remembered⟩
    exact List.not_mem_cons_of_ne_of_not_mem (fun heq => hne hid (congrArg Ticket.job heq))
      h.unfinalized
  · next job other error now status =>
    refine ⟨h.granted, ?_, h.unrecovered, h.remembered⟩
    exact List.not_mem_cons_of_ne_of_not_mem (fun heq => hne hid (congrArg Ticket.job heq))
      h.unfinalized
  · next now ids =>
    refine ⟨h.granted, h.unfinalized, fun hmem => ?_, h.remembered⟩
    obtain hmem | hmem := List.mem_append.mp hmem
    · obtain ⟨job, hjob, heq⟩ := List.mem_map.mp hmem
      have hsame : job = id := congrArg Ticket.job heq
      exact hid (hsame ▸ hjob)
    · exact h.unrecovered hmem
  · exact h

end Record

/-! ## One event -/

/-- An operation that finalizes does so on the ticket its worker holds. -/
def OnTicket (s : LeaseSystem) : PgOp → Prop
  | .complete id worker _ | .fail id worker _ _ =>
      ∃ ticket, s.held worker = some ticket ∧ ticket.job = id
  | _ => True

theorem operation_onTicket {s : LeaseSystem} {event : LeaseEvent} {op : PgOp}
    (h : s.operation event = some op) : s.OnTicket op := by
  cases event with
  | complete worker now =>
    obtain ⟨ticket, hheld, rfl⟩ := Option.map_eq_some_iff.mp h
    exact ⟨ticket, hheld, rfl⟩
  | fail worker error now =>
    obtain ⟨ticket, hheld, rfl⟩ := Option.map_eq_some_iff.mp h
    exact ⟨ticket, hheld, rfl⟩
  | crash worker => cases h
  | claimNext worker now lease skip =>
    obtain rfl := Option.some_inj.mp h
    trivial
  | client op =>
    obtain rfl := Option.some_inj.mp h
    cases op <;> trivial

theorem Inv.finalize {s : LeaseSystem} (h : s.Inv) {id : JobId} {worker : String}
    (hticket : ∃ ticket, s.held worker = some ticket ∧ ticket.job = id)
    (hrow : ∃ row, s.table.get id = some row ∧ row.heldBy worker = true) :
    (s.finalize id worker).Ledger := by
  obtain ⟨ticket, hheld, hjob⟩ := hticket
  obtain ⟨row, hget, hrun⟩ := hrow
  simp only [JobRow.heldBy, Bool.and_eq_true, decide_eq_true_eq] at hrun
  exact h.ledger.finalize (h.under id row hget worker hrun.2) hheld hjob (by simp [hget, hrun.2])

theorem Inv.record {s : LeaseSystem} (h : s.Inv) {op : PgOp} (hop : s.OnTicket op) :
    (s.record op (pgJobQueue.answer s.table op)).Ledger := by
  generalize hans : pgJobQueue.answer s.table op = ans
  unfold LeaseSystem.record
  split
  · exact h.ledger.grant _ _
  · next id worker now =>
    exact h.finalize hop (s.table.heldBy_of_complete (PgAnswer.done.inj hans))
  · next id worker error now status =>
    exact h.finalize hop (s.table.heldBy_of_fail (PgAnswer.failed.inj hans))
  · exact h.ledger.recover _
  · exact h.ledger

/-- The row a step leaves leased was held before and not touched, or is the one just granted. -/
theorem Inv.under_next {s : LeaseSystem} (h : s.Inv) (op : PgOp) (id : JobId) (row : JobRow)
    (hget : (pgJobQueue.next s.table op).get id = some row) (worker : String)
    (howner : row.leaseOwner = some worker) :
    (s.record op (pgJobQueue.answer s.table op)).HeldUnder id worker := by
  obtain ⟨huntouched, heq⟩ | ⟨new, ⟨i, target, action, version, policy, time, -, rfl, -⟩, -, heq,
    -⟩ | ⟨old, moved, hold, hmove, heq⟩ := rowStep_next s.table op id <;> rw [heq] at hget
  · exact (h.under id row hget worker howner).record huntouched
  · obtain rfl := Option.some_inj.mp hget
    cases howner
  · obtain rfl := Option.some_inj.mp hget
    obtain ⟨-, hfree | ⟨claimant, now, lease, skip, claimed, rfl, hans, hid, hclaimant⟩⟩ :=
      hmove.leased (h.leased id old hold)
    · rw [hfree] at howner
      cases howner
    · rw [hclaimant] at howner
      obtain rfl := Option.some_inj.mp howner
      rw [hans, ← JobsTable.get_id hold, ← hid]
      exact h.ledger.heldUnder_grant claimed.job.id claimant

theorem Inv.perform {s : LeaseSystem} (h : s.Inv) {op : PgOp} (hop : s.OnTicket op) :
    (s.perform op).Inv := by
  have hledger := h.record hop
  refine ⟨⟨hledger.1, hledger.2, hledger.3, hledger.4, hledger.5⟩, leased_next h.leased op,
    fun id row hget worker howner => ?_⟩
  have hunder := h.under_next op id row hget worker howner
  exact ⟨hunder.1, hunder.2, hunder.3, hunder.4⟩

theorem Inv.crash {s : LeaseSystem} (h : s.Inv) (worker : String) :
    Inv { s with held := Function.update s.held worker none } := by
  have hledger := h.ledger
  refine ⟨⟨hledger.1, hledger.2, hledger.3, hledger.4, hledger.5⟩, h.leased,
    fun id row hget owner howner => ?_⟩
  have hunder := h.under id row hget owner howner
  refine ⟨hunder.1, hunder.2, hunder.3, fun ticket hheld hjob => ?_⟩
  simp only [Function.update_apply] at hheld
  split at hheld
  · cases hheld
  · exact hunder.4 ticket hheld hjob

theorem Inv.next {s : LeaseSystem} (h : s.Inv) (event : LeaseEvent) :
    (leaseSystem.next s event).Inv := by
  simp only [Machine.next, leaseSystem, step]
  split
  · next op heq => exact h.perform (operation_onTicket heq)
  · next worker heq => exact h.crash worker
  · exact h

theorem Inv.start {t : JobsTable} (h : ∀ id row, t.get id = some row → row.Leased) :
    (start t).Inv := by
  have hgrant : ∀ g ∈ (LeaseSystem.start t).grants, g.1.ordinal = 0 := by
    intro g hg
    obtain ⟨row, -, hrow⟩ := List.mem_filterMap.mp hg
    obtain ⟨owner, -, rfl⟩ := Option.map_eq_some_iff.mp hrow
    rfl
  refine ⟨⟨fun g hg => (hgrant g hg).le, ?_, List.nodup_nil, by simp [LeaseSystem.start],
    by simp [LeaseSystem.start]⟩, h, fun id row hget worker howner => ?_⟩
  · have hids : t.jobs.rows.Pairwise fun a b => a.id ≠ b.id := List.pairwise_map.mp t.jobs.nodup
    refine List.pairwise_map.mpr (hids.filterMap _ fun a b hne g hg g' hg' heq => ?_)
    obtain ⟨owner, -, rfl⟩ := Option.map_eq_some_iff.mp hg
    obtain ⟨owner', -, rfl⟩ := Option.map_eq_some_iff.mp hg'
    exact hne (congrArg Ticket.job heq)
  · refine ⟨?_, by simp [LeaseSystem.start], by simp [LeaseSystem.start],
      by simp [LeaseSystem.start]⟩
    have hid := JobsTable.get_id hget
    refine List.mem_filterMap.mpr ⟨row, JobsTable.mem_rows.mpr (by rw [hid]; exact hget), ?_⟩
    rw [howner, ← hid]
    rfl

theorem Inv.not_heldBy {s : LeaseSystem} (h : s.Inv) {worker : String} {ticket : Ticket}
    (hheld : s.held worker = some ticket) (hrecovered : ticket ∈ s.recovered) (row : JobRow)
    (hget : s.table.get ticket.job = some row) : row.heldBy worker = false := by
  by_contra hrow
  simp only [JobRow.heldBy, Bool.and_eq_false_iff, decide_eq_false_iff_not, not_or, not_not]
    at hrow
  have hunder := h.under ticket.job row hget worker hrow.2
  rw [hunder.remembered ticket hheld rfl] at hrecovered
  exact hunder.unrecovered hrecovered

end LeaseSystem

/-! ## Every interleaving -/

/-- **One winner per claim.** In every state workers with different ids can bring a table to whose
running rows are the leased ones: a claim is granted once and finalized at most once, by the
worker that is the row's lease owner at that moment and that was granted this claim; rows run
exactly while leased; and a worker whose ticket was recovered gets `JobState` from `complete` and
`fail`, which leave the table as it was. -/
theorem leases_single_winner (t : JobsTable)
    (ht : ∀ id row, t.get id = some row → row.Leased) (events : List LeaseEvent) :
    let s := leaseSystem.run (.start t) events
    (s.grants.map Prod.fst).Nodup ∧ (s.finalized.map (·.claim)).Nodup ∧
    (∀ f ∈ s.finalized, f.owner = some f.worker ∧ f.held = some f.claim ∧
      (f.claim, f.worker) ∈ s.grants) ∧
    (∀ id row, s.table.get id = some row → row.Leased) ∧
    ∀ worker ticket, s.held worker = some ticket → ticket ∈ s.recovered →
      ∀ (error : String) (now : DateTime),
        s.table.complete ticket.job worker now =
          (s.table, .error (.err (JobsTable.notRunningUnder ticket.job worker))) ∧
        s.table.fail ticket.job worker error now =
          (s.table, .error (.err (JobsTable.notRunningUnder ticket.job worker))) := by
  intro s
  have hinv : s.Inv := leaseSystem.run_invariant_all (fun _ event h => h.next event) (.start t)
    events (.start ht)
  exact ⟨hinv.ledger.grants_nodup, hinv.ledger.finalized_nodup, hinv.ledger.earned, hinv.leased,
    fun worker ticket hheld hrecovered error now =>
      s.table.refused_of_not_heldBy (hinv.not_heldBy hheld hrecovered) error now⟩

/-- Two workers on one job: the lease of the first runs out, the second is granted the job and
completes it, and the first is turned away. -/
theorem leases_single_winner_regranted :
    let events : List LeaseEvent :=
      [.client (.enqueue ⟨1⟩ "res" .verify 1 RetryPolicy.default 0),
        .claimNext "a" 0 10000 fun _ => false, .client (.recoverExpiredLeases 10000),
        .claimNext "b" 11000 10000 fun _ => false, .complete "a" 12000, .complete "b" 13000]
    let s := leaseSystem.run (.start .empty) events
    s.finalized = [⟨⟨⟨1⟩, 2⟩, some ⟨⟨1⟩, 2⟩, "b", some "b"⟩] ∧
      (s.finalized.map (·.claim)).Nodup ∧
      s.held "a" = some ⟨⟨1⟩, 1⟩ ∧ ⟨⟨1⟩, 1⟩ ∈ s.recovered ∧
      s.table.complete ⟨1⟩ "a" 14000 =
        (s.table, .error (.err (JobsTable.notRunningUnder ⟨1⟩ "a"))) := by
  intro events s
  obtain ⟨-, honce, -, -, hlost⟩ :=
    leases_single_winner .empty (fun id row hget => by simp at hget) events
  have hheld : s.held "a" = some ⟨⟨1⟩, 1⟩ := by decide
  have hrecovered : (⟨⟨1⟩, 1⟩ : Ticket) ∈ s.recovered := by decide
  exact ⟨by decide, honce, hheld, hrecovered, (hlost "a" ⟨⟨1⟩, 1⟩ hheld hrecovered "" 14000).1⟩

end Labrys.ControlPlane
