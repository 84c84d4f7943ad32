import Mathlib.Data.List.Sort
import Mathlib.Logic.Function.Basic
import Labrys.Core.Audit
import Labrys.Foundations.Runs

/-! # The durable audit chain under concurrent transactions

`append_audit` takes an advisory lock that its transaction keeps until it ends, reads the last row,
and inserts the next link. Here any number of transactions on their own connections do this at once,
statement by statement, in any order, and each may end at any point without a commit. Statements
read what is committed when they start and what their own transaction wrote (`READ COMMITTED`, which
the pool leaves in place), and a commit releases the lock once its rows are visible.

* `auditStore`: the machine of the interleaved statements.
* `Inv`: only the holder of the lock has rows of its own, and the table followed by them is a chain.
* `append_audit_chain`: every run leaves a table that verifies and holds what was committed. -/

namespace Labrys.ControlPlane
open Foundations Labrys.Core
set_option autoImplicit false

/-! ## Rows and instants -/

/-- `round_subsecs(6)`: to the nearest microsecond, up from the middle. -/
def roundSubsecs (time : DateTime) : Option DateTime :=
  let down := time % 1000
  if 0 < down then
    let up := 1000 - down
    if up ≤ down then DateTime.add time up else DateTime.add time (-down)
  else some time

theorem roundSubsecs_whole {time rounded : ℤ} (h : roundSubsecs time = some rounded) :
    rounded % 1000 = 0 := by
  unfold roundSubsecs DateTime.add at h
  dsimp only at h
  split_ifs at h with hdown hup
  · have heq : time + (1000 - time % 1000) = rounded := Option.some_inj.mp h
    omega
  · have heq : time + -(time % 1000) = rounded := Option.some_inj.mp h
    omega
  · have heq : time = rounded := Option.some_inj.mp h
    have hzero : ¬ 0 < time % 1000 := hdown
    omega

theorem ofInt_natCast (n : ℕ) : UInt64.ofInt n = n.toUInt64 := by
  have hmod : ((n : ℤ) % 2 ^ 64).toNat = n % 2 ^ 64 := by omega
  rw [UInt64.ofInt, hmod]
  apply UInt64.toNat_inj.mp
  simp

/-- A row of `audit_log`; the sequence is its primary key, a `bigint`. -/
structure AuditRow where
  sequence : ℤ
  time : DateTime
  actor : String
  action : String
  target : String
  detail : String
  prevHash : String
  hash : String
deriving DecidableEq

def auditFromRow (row : AuditRow) : AuditRecord where
  sequence := UInt64.ofInt row.sequence
  time := row.time
  actor := row.actor
  action := row.action
  target := row.target
  detail := row.detail
  prevHash := row.prevHash
  hash := row.hash

/-- `ORDER BY sequence`. -/
def orderBySequence (rows : List AuditRow) : List AuditRow :=
  rows.mergeSort fun a b => a.sequence ≤ b.sequence

/-- `ORDER BY sequence DESC LIMIT 1`: keys are unique, so it is the last row in ascending order. -/
def readLast (rows : List AuditRow) : Option (ℤ × String) :=
  (orderBySequence rows).getLast?.map fun row => (row.sequence, row.hash)

/-! ## Transactions -/

structure AuditCall where
  entry : Core.AuditEntry
  secrets : List String

/-- Where a transaction is in a call of `append_audit`. -/
inductive AuditPhase
  | outside
  /-- The lock is requested; the instant is already rounded. -/
  | waiting (call : AuditCall) (time : DateTime)
  | locked (call : AuditCall) (time : DateTime)
  | headRead (call : AuditCall) (time : DateTime) (last : Option (ℤ × String))

/-- An open transaction: the rows it inserted, what `append_audit` returned for them, and where it
is. -/
structure AuditTx where
  pending : List AuditRow
  returned : List AuditRecord
  phase : AuditPhase

structure AuditStore where
  rows : List AuditRow
  holder : Option ℕ
  tx : ℕ → Option AuditTx

inductive AuditEvent
  | start (conn : ℕ)
  | call (conn : ℕ) (call : AuditCall)
  | lock (conn : ℕ)
  | readHead (conn : ℕ)
  | insert (conn : ℕ)
  | commit (conn : ℕ)
  /-- The transaction ends without a commit: an error elsewhere, a crash, a lost connection. -/
  | abort (conn : ℕ)

inductive AuditAnswer
  | done
  /-- The connection is not at this statement, or its lock is not granted yet. -/
  | blocked
  | failed (fault : Fault ControlPlaneError)
  | appended (record : AuditRecord)
  | committed (records : List AuditRecord)

/-- The first sequence is 1; `s + 1` panics at `i64::MAX`. -/
def nextSequence (last : Option (ℤ × String)) : Option ℤ :=
  match last with
  | some (sequence, _) => if sequence + 1 ≤ i64Max then some (sequence + 1) else none
  | none => some 1

def nextPrevHash (last : Option (ℤ × String)) : String :=
  (last.map (·.2)).getD AuditLog.genesis

section
variable (rfc3339 : DateTime → String)

/-- The record that `append_audit` builds once it has read the last row. -/
def buildRecord (call : AuditCall) (time : DateTime) (last : Option (ℤ × String)) :
    Outcome ControlPlaneError (ℤ × AuditRecord) :=
  match nextSequence last with
  | none => .error (.panic addOverflowed)
  | some sequence =>
      match redactGuard "audit.detail" call.entry.detail call.secrets with
      | .error error => .error (.err error)
      | .ok detail =>
          let record : AuditRecord := {
            sequence := UInt64.ofInt sequence
            time := time
            actor := call.entry.actor
            action := call.entry.action
            target := call.entry.target
            detail := detail
            prevHash := nextPrevHash last
            hash := "" }
          .ok (sequence, { record with hash := record.computeHash rfc3339 })

end

/-- The row that the `INSERT` binds for a record. -/
def rowOf (sequence : ℤ) (record : AuditRecord) : AuditRow where
  sequence := sequence
  time := timestamptz record.time
  actor := record.actor
  action := record.action
  target := record.target
  detail := record.detail
  prevHash := record.prevHash
  hash := record.hash

def duplicateKey : ControlPlaneError :=
  .database "duplicate key value violates unique constraint \"audit_log_pkey\""

namespace AuditStore

def empty : AuditStore := ⟨[], none, fun _ => none⟩

def put (s : AuditStore) (conn : ℕ) (tx : AuditTx) : AuditStore :=
  { s with tx := Function.update s.tx conn (some tx) }

/-- The transaction is gone, and the lock with it if it was the holder. -/
def release (s : AuditStore) (conn : ℕ) : AuditStore where
  rows := s.rows
  holder := if s.holder = some conn then none else s.holder
  tx := Function.update s.tx conn none

variable (rfc3339 : DateTime → String)

/-- One statement of an open transaction. An error or a panic of `append_audit` drops the
transaction. -/
def stepTx (s : AuditStore) (conn : ℕ) (tx : AuditTx) : AuditEvent → AuditStore × AuditAnswer
  | .start _ => (s, .blocked)
  | .call _ call =>
      match tx.phase, roundSubsecs call.entry.time with
      | .outside, some time => (s.put conn { tx with phase := .waiting call time }, .done)
      | .outside, none => (s.release conn, .failed (.panic dateTimeOverflowed))
      | _, _ => (s, .blocked)
  | .lock _ =>
      match tx.phase with
      | .waiting call time =>
          if s.holder = none ∨ s.holder = some conn then
            ({ s.put conn { tx with phase := .locked call time } with holder := some conn }, .done)
          else (s, .blocked)
      | _ => (s, .blocked)
  | .readHead _ =>
      match tx.phase with
      | .locked call time =>
          let last := readLast (s.rows ++ tx.pending)
          (s.put conn { tx with phase := .headRead call time last }, .done)
      | _ => (s, .blocked)
  | .insert _ =>
      match tx.phase with
      | .headRead call time last =>
          match buildRecord rfc3339 call time last with
          | .error fault => (s.release conn, .failed fault)
          | .ok (sequence, record) =>
              if (s.rows ++ tx.pending).any fun row => row.sequence = sequence then
                (s.release conn, .failed (.err duplicateKey))
              else
                (s.put conn
                  { pending := tx.pending ++ [rowOf sequence record]
                    returned := tx.returned ++ [record]
                    phase := .outside }, .appended record)
      | _ => (s, .blocked)
  | .commit _ =>
      match tx.phase with
      | .outside =>
          (({ s with rows := s.rows ++ tx.pending } : AuditStore).release conn,
            .committed tx.returned)
      | _ => (s, .blocked)
  | .abort _ => (s.release conn, .done)

end AuditStore

def AuditEvent.conn : AuditEvent → ℕ
  | .start conn | .call conn _ | .lock conn | .readHead conn | .insert conn | .commit conn
  | .abort conn => conn

variable (rfc3339 : DateTime → String)

def AuditStore.step (s : AuditStore) (event : AuditEvent) : AuditStore × AuditAnswer :=
  match s.tx event.conn with
  | some tx => s.stepTx rfc3339 event.conn tx event
  | none =>
      match event with
      | .start conn => (s.put conn ⟨[], [], .outside⟩, .done)
      | _ => (s, .blocked)

def auditStore : Machine AuditStore AuditEvent AuditAnswer := ⟨AuditStore.step rfc3339⟩

/-- `PgAuditLog::load`. -/
def AuditStore.load (s : AuditStore) : AuditLog :=
  AuditLog.restore ((orderBySequence s.rows).map auditFromRow)

/-! ## Rows that form a chain -/

/-- Rows in the order of their sequences, which are `1, 2, …`, and chained. -/
structure ChainRows (rows : List AuditRow) : Prop where
  sequences : rows.map (·.sequence) = (List.range rows.length).map fun i : ℕ => (i : ℤ) + 1
  sound : (auditChain rfc3339).Sound 0 AuditLog.genesis (rows.map auditFromRow)

namespace ChainRows
variable {rfc3339}

theorem nil : ChainRows rfc3339 [] := ⟨rfl, trivial⟩

theorem orderBySequence_eq {rows : List AuditRow} (h : ChainRows rfc3339 rows) :
    orderBySequence rows = rows := by
  have hsorted : (rows.map (·.sequence)).Pairwise (· ≤ ·) := by
    rw [h.sequences, List.pairwise_map]
    refine List.pairwise_lt_range.imp fun {i j} hij => ?_
    omega
  refine List.mergeSort_of_pairwise ?_
  rw [List.pairwise_map] at hsorted
  exact hsorted.imp fun hle => decide_eq_true hle

theorem sequence_eq_succ {rows : List AuditRow} (h : ChainRows rfc3339 rows) {sequence : ℤ}
    (hnext : nextSequence (readLast rows) = some sequence) : sequence = rows.length + 1 := by
  have hlast := congrArg List.getLast? h.sequences
  rw [List.getLast?_map, List.getLast?_map, List.getLast?_range] at hlast
  rw [readLast, h.orderBySequence_eq] at hnext
  cases hrow : rows.getLast? with
  | none =>
    rw [List.getLast?_eq_none_iff] at hrow
    subst hrow
    exact (Option.some_inj.mp hnext).symm
  | some row =>
    have hpos : rows.length ≠ 0 := by
      rintro hzero
      rw [List.length_eq_zero_iff.mp hzero] at hrow
      cases hrow
    rw [hrow, if_neg hpos, Option.map_some, Option.map_some, Option.some_inj] at hlast
    rw [hrow, Option.map_some, nextSequence] at hnext
    split_ifs at hnext
    have hseq := Option.some_inj.mp hnext
    omega

theorem nextPrevHash_eq {rows : List AuditRow} (h : ChainRows rfc3339 rows) :
    nextPrevHash (readLast rows) =
      (auditChain rfc3339).lastLink AuditLog.genesis (rows.map auditFromRow) := by
  rw [nextPrevHash, readLast, h.orderBySequence_eq, Chain.lastLink, List.getLast?_map,
    Option.map_map, Option.map_map]
  rfl

/-- The inserted row reads back as the record that `append_audit` returned. -/
theorem auditFromRow_rowOf {call : AuditCall} {time : DateTime} {last : Option (ℤ × String)}
    {sequence : ℤ} {record : AuditRecord} (htime : timestamptz time = time)
    (hbuild : buildRecord rfc3339 call time last = .ok (sequence, record)) :
    auditFromRow (rowOf sequence record) = record := by
  unfold buildRecord at hbuild
  split at hbuild
  · cases hbuild
  · split at hbuild
    · cases hbuild
    · cases hbuild
      simp only [auditFromRow, rowOf, htime]

/-- The row built from the last one read continues the chain. -/
theorem concat {rows : List AuditRow} (h : ChainRows rfc3339 rows) {call : AuditCall}
    {time : DateTime} {sequence : ℤ} {record : AuditRecord} (htime : timestamptz time = time)
    (hbuild : buildRecord rfc3339 call time (readLast rows) = .ok (sequence, record)) :
    ChainRows rfc3339 (rows ++ [rowOf sequence record]) := by
  have hrecord := auditFromRow_rowOf htime hbuild
  unfold buildRecord at hbuild
  split at hbuild
  · cases hbuild
  · next next hnext =>
    split at hbuild
    · cases hbuild
    · next detail hdetail =>
      have hpair := Except.ok.inj hbuild
      have hsequence : sequence = rows.length + 1 := by
        rw [← (Prod.mk.inj hpair).1]
        exact h.sequence_eq_succ hnext
      refine ⟨?_, ?_⟩
      · rw [List.map_append, h.sequences, List.length_append, List.length_singleton,
          List.range_succ, List.map_append]
        exact congrArg _ (congrArg (fun n => [n]) hsequence)
      · rw [List.map_append, List.map_singleton, hrecord, Chain.sound_concat, Nat.zero_add,
          List.length_map]
        refine ⟨h.sound, ⟨time, call.entry.actor, call.entry.action, call.entry.target, detail⟩, ?_⟩
        have hword : UInt64.ofInt next = rows.length.toUInt64 + 1 := by
          rw [(Prod.mk.inj hpair).1, hsequence, UInt64.ofInt_add, UInt64.ofInt_one,
            ofInt_natCast]
        rw [← (Prod.mk.inj hpair).2, ← h.nextPrevHash_eq, hword]
        rfl

end ChainRows

/-! ## The invariant -/

/-- The instant of a call in progress is whole, and what was read is still the last row that the
transaction sees. -/
def AuditPhase.Fresh (rows : List AuditRow) : AuditPhase → Prop
  | .outside => True
  | .waiting _ time | .locked _ time => time % 1000 = 0
  | .headRead _ time last => time % 1000 = 0 ∧ last = readLast rows

def AuditPhase.beforeLock : AuditPhase → Bool
  | .outside | .waiting _ _ => true
  | _ => false

/-- A transaction seen against the committed rows. -/
structure TxInv (rows : List AuditRow) (holds : Prop) (tx : AuditTx) : Prop where
  alone : ¬ holds → tx.pending = [] ∧ tx.phase.beforeLock = true
  chain : ChainRows rfc3339 (rows ++ tx.pending)
  returned : tx.pending.map auditFromRow = tx.returned
  fresh : tx.phase.Fresh (rows ++ tx.pending)

structure AuditStore.Inv (s : AuditStore) : Prop where
  rows : ChainRows rfc3339 s.rows
  txs : ∀ conn tx, s.tx conn = some tx → TxInv rfc3339 s.rows (s.holder = some conn) tx

variable {rfc3339}

/-- A transaction that does not hold the lock depends on the committed rows in nothing. -/
theorem TxInv.of_not_holds {rows rows' : List AuditRow} {holds holds' : Prop} {tx : AuditTx}
    (h : TxInv rfc3339 rows holds tx) (hholds : ¬ holds) (hrows' : ChainRows rfc3339 rows') :
    TxInv rfc3339 rows' holds' tx := by
  obtain ⟨hpending, hphase⟩ := h.alone hholds
  refine ⟨fun _ => ⟨hpending, hphase⟩, ?_, h.returned, ?_⟩
  · rw [hpending, List.append_nil]
    exact hrows'
  · have hfresh := h.fresh
    cases hcase : tx.phase with
    | outside => trivial
    | waiting call time => rwa [hcase] at hfresh
    | locked call time => rw [hcase] at hphase; cases hphase
    | headRead call time last => rw [hcase] at hphase; cases hphase

namespace TxInv
variable {rows : List AuditRow} {holds : Prop} {tx : AuditTx} {call : AuditCall} {time : DateTime}
  {last : Option (ℤ × String)}

/-- Past the lock, the transaction is its holder. -/
theorem holds_of_locked (h : TxInv rfc3339 rows holds tx) (hphase : tx.phase.beforeLock = false) :
    holds := by
  by_contra hnot
  rw [(h.alone hnot).2] at hphase
  cases hphase

theorem wait (h : TxInv rfc3339 rows holds tx) (call : AuditCall) {given : DateTime}
    (htime : roundSubsecs given = some time) :
    TxInv rfc3339 rows holds { tx with phase := .waiting call time } :=
  ⟨fun hnot => ⟨(h.alone hnot).1, rfl⟩, h.chain, h.returned, roundSubsecs_whole htime⟩

theorem lock (h : TxInv rfc3339 rows holds tx) (hphase : tx.phase = .waiting call time) :
    TxInv rfc3339 rows True { tx with phase := .locked call time } := by
  have hfresh := h.fresh
  rw [hphase] at hfresh
  exact ⟨fun hnot => absurd trivial hnot, h.chain, h.returned, hfresh⟩

theorem readHead (h : TxInv rfc3339 rows holds tx) (hphase : tx.phase = .locked call time) :
    TxInv rfc3339 rows holds
      { tx with phase := .headRead call time (readLast (rows ++ tx.pending)) } := by
  have hholds : holds := h.holds_of_locked (by rw [hphase]; rfl)
  have hfresh := h.fresh
  rw [hphase] at hfresh
  exact ⟨fun hnot => absurd hholds hnot, h.chain, h.returned, hfresh, rfl⟩

/-- The row inserted after the last one read continues the chain, and reads back as returned. -/
theorem insert (h : TxInv rfc3339 rows holds tx) (hphase : tx.phase = .headRead call time last)
    {sequence : ℤ} {record : AuditRecord}
    (hbuild : buildRecord rfc3339 call time last = .ok (sequence, record)) :
    TxInv rfc3339 rows holds
      { pending := tx.pending ++ [rowOf sequence record]
        returned := tx.returned ++ [record]
        phase := .outside } := by
  have hholds : holds := h.holds_of_locked (by rw [hphase]; rfl)
  have hfresh := h.fresh
  rw [hphase] at hfresh
  obtain ⟨hwhole, rfl⟩ := hfresh
  have htime := timestamptz_of_whole hwhole
  refine ⟨fun hnot => absurd hholds hnot, ?_, ?_, trivial⟩
  · rw [← List.append_assoc]
    exact h.chain.concat htime hbuild
  · rw [List.map_append, h.returned, List.map_singleton,
      ChainRows.auditFromRow_rowOf htime hbuild]

end TxInv

namespace AuditStore

theorem inv_empty : empty.Inv rfc3339 := ⟨.nil, fun _ _ h => by cases h⟩

/-- One transaction moves on; table and lock stay. -/
theorem Inv.put {s : AuditStore} (h : s.Inv rfc3339) {conn : ℕ} {tx : AuditTx}
    (htx : TxInv rfc3339 s.rows (s.holder = some conn) tx) : (s.put conn tx).Inv rfc3339 := by
  refine ⟨h.rows, fun other tx' hother => ?_⟩
  by_cases heq : other = conn
  · subst heq
    simp only [AuditStore.put, Function.update_self, Option.some_inj] at hother
    subst hother
    exact htx
  · simp only [AuditStore.put, Function.update_of_ne heq] at hother
    exact h.txs other tx' hother

/-- The lock was free or already the transaction's own, so no other one held it. -/
theorem Inv.lock {s : AuditStore} (h : s.Inv rfc3339) {conn : ℕ} {tx : AuditTx}
    (hfree : s.holder = none ∨ s.holder = some conn)
    (htx : TxInv rfc3339 s.rows True tx) :
    ({ s.put conn tx with holder := some conn } : AuditStore).Inv rfc3339 := by
  refine ⟨h.rows, fun other tx' hother => ?_⟩
  by_cases heq : other = conn
  · subst heq
    simp only [AuditStore.put, Function.update_self, Option.some_inj] at hother
    subst hother
    exact ⟨fun hne => absurd rfl hne, htx.chain, htx.returned, htx.fresh⟩
  · simp only [AuditStore.put, Function.update_of_ne heq] at hother
    have hnot : s.holder ≠ some other := by
      rintro hholder
      obtain hnone | hown := hfree
      · rw [hnone] at hholder
        cases hholder
      · rw [hown, Option.some_inj] at hholder
        exact heq hholder.symm
    exact (h.txs other tx' hother).of_not_holds hnot h.rows

/-- A transaction ends, with or without its rows. -/
theorem Inv.release {s : AuditStore} (h : s.Inv rfc3339) (conn : ℕ) {rows : List AuditRow}
    (hrows : ChainRows rfc3339 rows) (hkept : rows = s.rows ∨ s.holder = some conn) :
    (({ s with rows := rows } : AuditStore).release conn).Inv rfc3339 := by
  refine ⟨hrows, fun other tx hother => ?_⟩
  by_cases heq : other = conn
  · subst heq
    simp [AuditStore.release] at hother
  · simp only [AuditStore.release, Function.update_of_ne heq] at hother ⊢
    have htx := h.txs other tx hother
    by_cases hholder : s.holder = some conn
    · refine htx.of_not_holds ?_ hrows
      rw [hholder, Option.some_inj]
      exact fun hsame => heq hsame.symm
    · rw [if_neg hholder]
      obtain rfl := hkept.resolve_right hholder
      exact htx

theorem Inv.drop {s : AuditStore} (h : s.Inv rfc3339) (conn : ℕ) : (s.release conn).Inv rfc3339 :=
  h.release conn h.rows (.inl rfl)

end AuditStore

/-! ## One statement -/

/-- The records that a statement's answer reports as committed. -/
def AuditAnswer.records : AuditAnswer → List AuditRecord
  | .committed records => records
  | _ => []

/-- What a statement leaves: the invariant, and the table with what it committed at the end. -/
structure StepKeeps (rfc3339 : DateTime → String) (s : AuditStore)
    (result : AuditStore × AuditAnswer) : Prop where
  inv : result.1.Inv rfc3339
  rows : result.1.rows.map auditFromRow = s.rows.map auditFromRow ++ result.2.records

namespace AuditStore

/-- A statement that leaves the table alone and commits nothing. -/
theorem stepKeeps_of_inv {s s' : AuditStore} {answer : AuditAnswer} (hinv : s'.Inv rfc3339)
    (hrows : s'.rows = s.rows) (hanswer : answer.records = []) :
    StepKeeps rfc3339 s (s', answer) := by
  refine ⟨hinv, ?_⟩
  rw [hanswer, List.append_nil]
  exact congrArg _ hrows

theorem Inv.stepTx {s : AuditStore} (h : s.Inv rfc3339) {conn : ℕ} {tx : AuditTx}
    (hconn : s.tx conn = some tx) (event : AuditEvent) :
    StepKeeps rfc3339 s (s.stepTx rfc3339 conn tx event) := by
  have htx := h.txs conn tx hconn
  have hblocked : StepKeeps rfc3339 s (s, .blocked) := stepKeeps_of_inv h rfl rfl
  have hfailed : ∀ fault, StepKeeps rfc3339 s (s.release conn, .failed fault) :=
    fun fault => stepKeeps_of_inv (h.drop conn) rfl rfl
  cases event with
  | start _ => exact hblocked
  | call _ call =>
    dsimp only [AuditStore.stepTx]
    split
    · next time _ htime => exact stepKeeps_of_inv (h.put (htx.wait call htime)) rfl rfl
    · exact hfailed _
    · exact hblocked
  | lock _ =>
    dsimp only [AuditStore.stepTx]
    split
    · next call time hphase =>
      split_ifs with hfree
      · exact stepKeeps_of_inv (h.lock hfree (htx.lock hphase)) rfl rfl
      · exact hblocked
    · exact hblocked
  | readHead _ =>
    dsimp only [AuditStore.stepTx]
    split
    · next call time hphase => exact stepKeeps_of_inv (h.put (htx.readHead hphase)) rfl rfl
    · exact hblocked
  | insert _ =>
    dsimp only [AuditStore.stepTx]
    split
    · next call time last hphase =>
      split
      · exact hfailed _
      · next sequence record hbuild =>
        split_ifs
        · exact hfailed _
        · exact stepKeeps_of_inv (h.put (htx.insert hphase hbuild)) rfl rfl
    · exact hblocked
  | commit _ =>
    dsimp only [AuditStore.stepTx]
    split
    · refine ⟨h.release conn htx.chain ?_, ?_⟩
      · by_cases hholder : s.holder = some conn
        · exact .inr hholder
        · rw [(htx.alone hholder).1, List.append_nil]
          exact .inl rfl
      · change (s.rows ++ tx.pending).map auditFromRow = s.rows.map auditFromRow ++ tx.returned
        rw [List.map_append, htx.returned]
    · exact hblocked
  | abort _ => exact stepKeeps_of_inv (h.drop conn) rfl rfl

theorem Inv.next {s : AuditStore} (h : s.Inv rfc3339) (event : AuditEvent) :
    StepKeeps rfc3339 s ((auditStore rfc3339).step s event) := by
  change StepKeeps rfc3339 s (s.step rfc3339 event)
  unfold AuditStore.step
  cases hconn : s.tx event.conn with
  | some tx => exact h.stepTx hconn event
  | none =>
    have hblocked : StepKeeps rfc3339 s (s, .blocked) := stepKeeps_of_inv h rfl rfl
    cases event with
    | start conn =>
      refine stepKeeps_of_inv (h.put ⟨fun _ => ⟨rfl, rfl⟩, ?_, rfl, trivial⟩) rfl rfl
      rw [List.append_nil]
      exact h.rows
    | _ => exact hblocked

theorem Inv.load {s : AuditStore} (h : s.Inv rfc3339) :
    s.load = AuditLog.restore (s.rows.map auditFromRow) := by
  rw [AuditStore.load, h.rows.orderBySequence_eq]

end AuditStore

/-! ## Every interleaving -/

section
variable (rfc3339)

/-- The records that committed transactions appended, in the order of the commits. -/
def committedRecords (events : List AuditEvent) : List AuditRecord :=
  (auditStore rfc3339).fold (fun records _ answer => records ++ answer.records) .empty [] events

theorem inv_run (events : List AuditEvent) :
    ((auditStore rfc3339).run .empty events).Inv rfc3339 :=
  (auditStore rfc3339).run_invariant_all (fun _ event h => (h.next event).inv) .empty events
    AuditStore.inv_empty

/-- The table only grows at its end. -/
theorem rows_run_prefix {s : AuditStore} (h : s.Inv rfc3339) (events : List AuditEvent) :
    s.rows.map auditFromRow <+: ((auditStore rfc3339).run s events).rows.map auditFromRow := by
  have hstep := (auditStore rfc3339).run_invariant_all (P := fun t => t.Inv rfc3339 ∧
    s.rows.map auditFromRow <+: t.rows.map auditFromRow) (fun t event ht => ?_) s events
    ⟨h, List.prefix_rfl⟩
  · exact hstep.2
  · have hkeeps := ht.1.next event
    refine ⟨hkeeps.inv, ht.2.trans ?_⟩
    exact hkeeps.rows ▸ List.prefix_append _ _

/-- **The durable chain.** After every run of interleaved transactions, aborted ones among them, the
reloaded log verifies; the sequences in order are `1` to the number of rows; the reloaded records
are exactly those that committed transactions appended, in commit order; and what an earlier moment
of the run would have reloaded is a beginning of it. -/
theorem append_audit_chain (events : List AuditEvent) :
    let s := (auditStore rfc3339).run .empty events
    s.load.verify rfc3339 = .ok () ∧
      (orderBySequence s.rows).map (·.sequence) =
        (List.range s.rows.length).map (fun i : ℕ => (i : ℤ) + 1) ∧
      s.load.records = committedRecords rfc3339 events ∧
      ∀ n, ((auditStore rfc3339).run .empty (events.take n)).load.records <+: s.load.records := by
  intro s
  have hinv : s.Inv rfc3339 := inv_run rfc3339 events
  have hrecords : s.load.records = s.rows.map auditFromRow := congrArg AuditLog.records hinv.load
  refine ⟨?_, ?_, ?_, ?_⟩
  · rw [hinv.load, AuditLog.verify_eq_ok_iff]
    exact hinv.rows.sound
  · rw [hinv.rows.orderBySequence_eq]
    exact hinv.rows.sequences
  · have hfold : s.Inv rfc3339 ∧ s.rows.map auditFromRow = committedRecords rfc3339 events := by
      refine (auditStore rfc3339).fold_invariant
        (R := fun t records => t.Inv rfc3339 ∧ t.rows.map auditFromRow = records)
        (fun t event records ht _ => ?_) .empty [] events ⟨AuditStore.inv_empty, rfl⟩
        ((auditStore rfc3339).guarded_true .empty events)
      obtain ⟨hinv, rfl⟩ := ht
      exact ⟨(hinv.next event).inv, (hinv.next event).rows⟩
    rw [hrecords]
    exact hfold.2
  · intro n
    have hearlier := inv_run rfc3339 (events.take n)
    have hsplit : s = (auditStore rfc3339).run ((auditStore rfc3339).run .empty (events.take n))
        (events.drop n) := by
      rw [← Machine.run_append, List.take_append_drop]
    rw [hrecords, hearlier.load, hsplit]
    exact rows_run_prefix rfc3339 hearlier (events.drop n)

-- The second connection asks for the lock while the first one holds it, and again after its commit.
example :
    let call : AuditCall := ⟨⟨0, "agent", "deploy", "web", "ok"⟩, []⟩
    (committedRecords (fun _ => "2026-01-01T00:00:00+00:00")
      [.start 1, .start 2, .call 2 call, .call 1 call, .lock 1, .lock 2, .readHead 2, .readHead 1,
        .insert 1, .commit 1, .lock 2, .readHead 2, .insert 2, .commit 2]).map (·.sequence) =
      [1, 2] := by decide +kernel

end

end Labrys.ControlPlane
