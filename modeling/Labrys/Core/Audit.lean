import Labrys.Core.Deployment
import Labrys.Core.Redact
import Labrys.Foundations.Chain

/-! # The hash-chained audit log

`append` links each record to the hash of the one before it; `verify` walks the list and recomputes
everything. The text of an instant (`DateTime::to_rfc3339`) belongs to `chrono` and is a parameter.

* `auditChain`: the log as a chain in the sense of `Foundations.Chain`.
* `verify_eq_ok_iff`: a log verifies exactly if its records are a sound chain.
* `verify_exact`: the lists of records that verify are those that `append` produces. -/

namespace Labrys.Core
open Foundations
set_option autoImplicit false

structure AuditRecord where
  sequence : UInt64
  time : DateTime
  actor : String
  action : String
  target : String
  detail : String
  prevHash : String
  hash : String
deriving DecidableEq

/-- The parts are hashed forwards, each closed by the byte `0x1f`, and the result is hashed on over
the parts in reverse, without a separator. -/
def auditDigest (parts : List String) : String :=
  let hash := parts.foldl (fun hash part => fnv1a [0x1f] (fnv1a part.toUTF8.toList hash))
    0xcbf29ce484222325
  let second := parts.reverse.foldl (fun second part => fnv1a part.toUTF8.toList second)
    (hash ^^^ 0x51ed270b07a5ac65)
  hexDigits 16 hash.toNat ++ hexDigits 16 second.toNat

structure AuditLog where
  records : List AuditRecord
deriving DecidableEq

variable (rfc3339 : DateTime → String)

def AuditRecord.computeHash (record : AuditRecord) : String :=
  auditDigest [toString record.sequence, rfc3339 record.time, record.actor, record.action,
    record.target, record.detail, record.prevHash]

namespace AuditLog

def new : AuditLog := ⟨[]⟩

def genesis : String := "0000000000000000000000000000000000000000000000000000000000000000"

/-- Appends a record, chained to the previous hash; its detail is redacted before it is stored. -/
def append (log : AuditLog) (time : DateTime) (actor action target detail : String)
    (secrets : List String) : AuditLog × AuditRecord :=
  let record : AuditRecord := {
    sequence := log.records.length.toUInt64 + 1
    time, actor, action, target
    detail := redactReason detail secrets
    prevHash := (log.records.getLast?.map (·.hash)).getD genesis
    hash := "" }
  let record := { record with hash := record.computeHash rfc3339 }
  (⟨log.records ++ [record]⟩, record)

def restore (records : List AuditRecord) : AuditLog := ⟨records⟩

/-- The loop of `verify`, from an index on: sequence, chain link, digest. -/
def verifyFrom (index : ℕ) (expectedPrev : String) : List AuditRecord → Except CoreError Unit
  | [] => .ok ()
  | record :: rest =>
      if record.sequence ≠ index.toUInt64 + 1 then
        .error (.auditIntegrity s!"sequence gap at index {index}: {record.sequence}")
      else if record.prevHash ≠ expectedPrev then
        .error (.auditIntegrity s!"chain break at record {record.sequence}")
      else if record.hash ≠ record.computeHash rfc3339 then
        .error (.auditIntegrity s!"digest mismatch at record {record.sequence}")
      else verifyFrom (index + 1) record.hash rest

def verify (log : AuditLog) : Except CoreError Unit :=
  verifyFrom rfc3339 0 genesis log.records

end AuditLog

/-! ## The log as a chain -/

/-- What a caller of `append` hands over, the secrets aside. -/
structure AuditEntry where
  time : DateTime
  actor : String
  action : String
  target : String
  detail : String

def AuditEntry.redacted (entry : AuditEntry) (secrets : List String) : AuditEntry :=
  { entry with detail := redactReason entry.detail secrets }

/-- The record of an entry at an index after a hash, as `append` seals it. -/
def AuditEntry.sealed (index : ℕ) (prevHash : String) (entry : AuditEntry) : AuditRecord :=
  let record : AuditRecord := {
    sequence := index.toUInt64 + 1
    time := entry.time
    actor := entry.actor
    action := entry.action
    target := entry.target
    detail := entry.detail
    prevHash := prevHash
    hash := "" }
  { record with hash := record.computeHash rfc3339 }

def auditChain : Chain AuditRecord String AuditEntry where
  genesis := AuditLog.genesis
  link := AuditRecord.hash
  forge := AuditEntry.sealed rfc3339

namespace AuditLog

/-- A history of `append` calls, each with the secrets it redacts. -/
def appendAll (log : AuditLog) (calls : List (AuditEntry × List String)) : AuditLog :=
  calls.foldl (fun log (entry, secrets) =>
    (log.append rfc3339 entry.time entry.actor entry.action entry.target entry.detail secrets).1) log

theorem append_records (log : AuditLog) (entry : AuditEntry) (secrets : List String) :
    (log.append rfc3339 entry.time entry.actor entry.action entry.target entry.detail
      secrets).1.records = (auditChain rfc3339).extend log.records (entry.redacted secrets) := rfl

theorem appendAll_records (calls : List (AuditEntry × List String)) :
    (new.appendAll rfc3339 calls).records =
      (auditChain rfc3339).grown (calls.map fun call => call.1.redacted call.2) := by
  induction calls using List.reverseRecOn with
  | nil => rfl
  | append_singleton calls call ih =>
    rw [List.map_append, List.map_singleton, Chain.grown_concat, ← ih, ← append_records, appendAll,
      List.foldl_append]
    rfl

/-- The digest does not read the stored hash. -/
theorem computeHash_withHash (record : AuditRecord) (hash : String) :
    AuditRecord.computeHash rfc3339 { record with hash := hash } = record.computeHash rfc3339 := rfl

/-- The three checks on a record pass exactly if it is the sealed record of its own texts. -/
theorem sealed_iff (index : ℕ) (prevHash : String) (record : AuditRecord) :
    (record.sequence = index.toUInt64 + 1 ∧ record.prevHash = prevHash ∧
        record.hash = record.computeHash rfc3339) ↔
      ∃ entry : AuditEntry, record = entry.sealed rfc3339 index prevHash := by
  constructor
  · rintro ⟨hsequence, hprev, hhash⟩
    refine ⟨⟨record.time, record.actor, record.action, record.target, record.detail⟩, ?_⟩
    have hblank := computeHash_withHash rfc3339 record ""
    rw [← hhash] at hblank
    dsimp only [AuditEntry.sealed]
    rw [← hsequence, ← hprev, hblank]
  · rintro ⟨entry, rfl⟩
    refine ⟨rfl, rfl, ?_⟩
    unfold AuditEntry.sealed
    rw [computeHash_withHash]

theorem verifyFrom_eq_ok_iff (index : ℕ) (expectedPrev : String) (records : List AuditRecord) :
    verifyFrom rfc3339 index expectedPrev records = .ok () ↔
      (auditChain rfc3339).Sound index expectedPrev records := by
  induction records generalizing index expectedPrev with
  | nil => simp [verifyFrom, Chain.Sound]
  | cons record rest ih =>
    rw [Chain.Sound, ← ih]
    change _ ↔ (∃ entry : AuditEntry, record = entry.sealed rfc3339 index expectedPrev) ∧
      verifyFrom rfc3339 (index + 1) record.hash rest = .ok ()
    rw [← sealed_iff, verifyFrom]
    split_ifs with hsequence hprev hhash
    · simp [hsequence]
    · simp [hprev]
    · simp [hhash]
    · rw [not_not] at hsequence hprev hhash
      exact (and_iff_right ⟨hsequence, hprev, hhash⟩).symm

theorem verify_eq_ok_iff (log : AuditLog) :
    log.verify rfc3339 = .ok () ↔ (auditChain rfc3339).Sound 0 genesis log.records :=
  verifyFrom_eq_ok_iff rfc3339 0 genesis log.records

/-- An appended record always passes, so a log verifies after the call exactly if it did before. -/
theorem verify_append_iff (log : AuditLog) (entry : AuditEntry) (secrets : List String) :
    (log.append rfc3339 entry.time entry.actor entry.action entry.target entry.detail
      secrets).1.verify rfc3339 = .ok () ↔ log.verify rfc3339 = .ok () := by
  rw [verify_eq_ok_iff, verify_eq_ok_iff, append_records]
  exact (auditChain rfc3339).sound_extend log.records (entry.redacted secrets)

/-- **Verification is exact.** The lists of records that verify are those some history of appends
without secrets produces; every history of appends, with any secrets, gives a log that verifies; and
an append to a restored log that verifies gives one that verifies. -/
theorem verify_exact :
    (∀ records : List AuditRecord, (restore records).verify rfc3339 = .ok () ↔
      ∃ entries : List AuditEntry,
        (new.appendAll rfc3339 (entries.map fun entry => (entry, []))).records = records) ∧
    (∀ calls : List (AuditEntry × List String),
      (new.appendAll rfc3339 calls).verify rfc3339 = .ok ()) ∧
    ∀ (records : List AuditRecord) (entry : AuditEntry) (secrets : List String),
      (restore records).verify rfc3339 = .ok () →
        ((restore records).append rfc3339 entry.time entry.actor entry.action entry.target
          entry.detail secrets).1.verify rfc3339 = .ok () := by
  have hplain : ∀ entries : List AuditEntry,
      (new.appendAll rfc3339 (entries.map fun entry => (entry, []))).records =
        (auditChain rfc3339).grown entries := by
    intro entries
    rw [appendAll_records, List.map_map]
    exact congrArg _ (List.map_id entries)
  refine ⟨fun records => ?_, fun calls => ?_, fun records entry secrets h => ?_⟩
  · simp only [hplain]
    rw [verify_eq_ok_iff]
    exact (auditChain rfc3339).sound_iff_grown records
  · rw [verify_eq_ok_iff, appendAll_records]
    exact ((auditChain rfc3339).sound_iff_grown _).mpr ⟨_, rfl⟩
  · exact (verify_append_iff rfc3339 (restore records) entry secrets).mpr h

-- A detail edited after the fact.
example :
    let record := (new.append (fun _ => "2026-01-01T00:00:00+00:00") 0 "agent" "deploy" "web" "ok" []).2
    (restore [{ record with detail := "no" }]).verify (fun _ => "2026-01-01T00:00:00+00:00") =
      .error (.auditIntegrity "digest mismatch at record 1") := by decide +kernel

end AuditLog

end Labrys.Core
