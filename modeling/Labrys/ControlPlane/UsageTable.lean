import Mathlib.Algebra.Order.BigOperators.Group.List
import Mathlib.Algebra.Order.Group.Nat
import Labrys.ControlPlane.AuditAppend
import Labrys.Core.Usage

/-! # The durable usage ledger

`PgUsageLedger` writes each record into a row of `usage_records`, whose counters are `BIGINT`
columns: a `u64` is cast to an `i64` on the way in, and what reads back negative becomes 0 on the way
out. The statements are taken to succeed, and rows come back in the order of their insertion. An
identifier that does not parse would be replaced by a fresh one, which is a parameter.

* `UsageTable.readBack`: what a record has become once it is read back.
* `UsageTable.readBack_eq_self_iff`: which records come back as they were.
* `usage_agrees_iff`: when the durable ledger and the one of the core agree. -/

namespace Labrys.ControlPlane
open Foundations Labrys.Core
set_option autoImplicit false

/-! ## Rows -/

/-- A row of `usage_records`. -/
structure UsageRecordsRow where
  applicationId : String
  environmentId : String
  periodStart : DateTime
  periodEnd : DateTime
  cpuMillicoreSeconds : Int64
  memoryMbSeconds : Int64
  buildSeconds : Int64
  requests : Int64
  egressBytes : Int64

/-- What the `INSERT` binds for a record. -/
def usageRowOf (record : UsageRecord) : UsageRecordsRow where
  applicationId := toString record.applicationId
  environmentId := toString record.environmentId
  periodStart := timestamptz record.periodStart
  periodEnd := timestamptz record.periodEnd
  cpuMillicoreSeconds := record.cpuMillicoreSeconds.toInt64
  memoryMbSeconds := record.memoryMbSeconds.toInt64
  buildSeconds := record.buildSeconds.toInt64
  requests := record.requests.toInt64
  egressBytes := record.egressBytes.toInt64

def u64FromI64 (value : Int64) : UInt64 := if 0 ≤ value then value.toUInt64 else 0

/-- The identifiers that are drawn in place of texts that do not parse. -/
structure DrawnIds where
  application : ApplicationId
  environment : EnvironmentId

variable (drawn : DrawnIds)

def parseApplication (value : String) : ApplicationId :=
  (TaggedId.parse "app" value).getD drawn.application

def parseEnvironment (value : String) : EnvironmentId :=
  (TaggedId.parse "env" value).getD drawn.environment

def usageFromRow (row : UsageRecordsRow) : UsageRecord where
  applicationId := parseApplication drawn row.applicationId
  environmentId := parseEnvironment drawn row.environmentId
  periodStart := row.periodStart
  periodEnd := row.periodEnd
  cpuMillicoreSeconds := u64FromI64 row.cpuMillicoreSeconds
  memoryMbSeconds := u64FromI64 row.memoryMbSeconds
  buildSeconds := u64FromI64 row.buildSeconds
  requests := u64FromI64 row.requests
  egressBytes := u64FromI64 row.egressBytes

/-- The table behind `PgUsageLedger`. -/
structure UsageTable where
  rows : List UsageRecordsRow

namespace UsageTable

def empty : UsageTable := ⟨[]⟩

variable (table : UsageTable)

def record (record : UsageRecord) : UsageTable := ⟨table.rows ++ [usageRowOf record]⟩

def forApplication (applicationId : String) : List UsageRecord :=
  (table.rows.filter fun row => row.applicationId = applicationId).map (usageFromRow drawn)

def totals (applicationId : String) : Outcome ControlPlaneError UsageTotals :=
  sumUsage (table.forApplication drawn applicationId)

theorem rows_foldl (records : List UsageRecord) :
    (records.foldl UsageTable.record table).rows = table.rows ++ records.map usageRowOf := by
  induction records generalizing table with
  | nil => simp
  | cons first records ih =>
    rw [List.foldl_cons, ih, record, List.append_assoc, List.map_cons, List.singleton_append]

end UsageTable

/-! ## Reading back -/

theorem u64FromI64_toInt64 (n : UInt64) :
    u64FromI64 n.toInt64 = if n.toNat < 2 ^ 63 then n else 0 := by
  have hvalue : n.toInt64.toInt = if 2 * n.toNat < 2 ^ 64 then (n.toNat : ℤ)
      else (n.toNat : ℤ) - (2 ^ 64 : ℕ) := BitVec.toInt_eq_toNat_cond n.toBitVec
  have hrange := n.toNat_lt
  have hsign : 0 ≤ n.toInt64 ↔ n.toNat < 2 ^ 63 := by
    rw [Int64.le_iff_toInt_le, Int64.toInt_zero, hvalue]
    split <;> omega
  unfold u64FromI64
  simp only [hsign, UInt64.toUInt64_toInt64]

theorem u64FromI64_toInt64_le (n : UInt64) : (u64FromI64 n.toInt64).toNat ≤ n.toNat := by
  rw [u64FromI64_toInt64]
  split
  · exact le_rfl
  · exact Nat.zero_le _

/-- A counter comes back exactly if the column can hold it. -/
theorem u64FromI64_toInt64_eq_self_iff (n : UInt64) :
    u64FromI64 n.toInt64 = n ↔ n.toNat < 2 ^ 63 := by
  rw [u64FromI64_toInt64]
  split
  next hfits => exact iff_of_true rfl hfits
  next hlarge =>
    refine iff_of_false (fun hzero => ?_) hlarge
    rw [← hzero] at hlarge
    exact hlarge (by decide)

theorem parseApplication_toString (id : ApplicationId) :
    parseApplication drawn (toString id) = id := by
  rw [parseApplication, TaggedId.parse_toString, Option.getD_some]

theorem parseEnvironment_toString (id : EnvironmentId) :
    parseEnvironment drawn (toString id) = id := by
  rw [parseEnvironment, TaggedId.parse_toString, Option.getD_some]

namespace UsageTable
variable (record : UsageRecord)

/-- What a record has become once it is read back. -/
def readBack : UsageRecord := usageFromRow drawn (usageRowOf record)

theorem counter_readBack (c : UsageCounter) :
    (readBack drawn record).counter c = u64FromI64 (record.counter c).toInt64 := by
  cases c <;> rfl

/-- Every counter is one that a `BIGINT` column holds, and the period starts and ends at whole
microseconds. -/
structure Storable : Prop where
  counters : ∀ c, (record.counter c).toNat < 2 ^ 63
  periodStart : record.periodStart % 1000 = 0
  periodEnd : record.periodEnd % 1000 = 0

theorem readBack_eq_self_iff : readBack drawn record = record ↔ Storable record := by
  constructor
  · intro h
    refine ⟨fun c => ?_, ?_, ?_⟩
    · rw [← u64FromI64_toInt64_eq_self_iff, ← counter_readBack drawn, h]
    · exact (timestamptz_eq_self_iff _).mp (congrArg UsageRecord.periodStart h)
    · exact (timestamptz_eq_self_iff _).mp (congrArg UsageRecord.periodEnd h)
  · intro h
    have hcounter (c : UsageCounter) : u64FromI64 (record.counter c).toInt64 = record.counter c :=
      (u64FromI64_toInt64_eq_self_iff _).mpr (h.counters c)
    have hstart : timestamptz record.periodStart = record.periodStart :=
      (timestamptz_eq_self_iff _).mpr h.periodStart
    have hend : timestamptz record.periodEnd = record.periodEnd :=
      (timestamptz_eq_self_iff _).mpr h.periodEnd
    have hcpu := hcounter .cpuMillicoreSeconds
    have hmemory := hcounter .memoryMbSeconds
    have hbuild := hcounter .buildSeconds
    have hrequests := hcounter .requests
    have hegress := hcounter .egressBytes
    unfold readBack usageFromRow usageRowOf
    simp only [UsageRecord.counter] at hcpu hmemory hbuild hrequests hegress
    simp only [parseApplication_toString, parseEnvironment_toString, hstart, hend, hcpu, hmemory,
      hbuild, hrequests, hegress]

end UsageTable

/-! ## Agreement -/

/-- The records, recorded one after the other. -/
def recordedLedger (records : List UsageRecord) : UsageLedger :=
  records.foldl UsageLedger.record .new

def recordedTable (records : List UsageRecord) : UsageTable :=
  records.foldl UsageTable.record .empty

/-- Every sum over the records of one application fits in a `u64`. -/
def SumsFit (records : List UsageRecord) : Prop :=
  ∀ applicationId c, counterSum c ((recordedLedger records).forApplication applicationId) < 2 ^ 64

/-- Both ledgers have, for every application, the same records and the same totals, and no addition
overflows. -/
def UsageAgrees (records : List UsageRecord) : Prop :=
  ∀ applicationId : ApplicationId,
    (recordedTable records).forApplication drawn (toString applicationId) =
        (recordedLedger records).forApplication applicationId ∧
      ∃ totals, (recordedLedger records).totals applicationId = .ok totals ∧
        (recordedTable records).totals drawn (toString applicationId) = .ok totals

/-- The table has the records of the ledger, as they read back. -/
theorem forApplication_recordedTable (records : List UsageRecord) (applicationId : ApplicationId) :
    (recordedTable records).forApplication drawn (toString applicationId) =
      ((recordedLedger records).forApplication applicationId).map (UsageTable.readBack drawn) := by
  have hsame (record : UsageRecord) : decide ((usageRowOf record).applicationId =
      toString applicationId) = decide (record.applicationId = applicationId) :=
    decide_eq_decide.mpr TaggedId.toString_injective.eq_iff
  unfold UsageTable.forApplication UsageLedger.forApplication recordedTable recordedLedger
  rw [UsageTable.rows_foldl, UsageLedger.records_foldl, UsageTable.empty, UsageLedger.new,
    List.nil_append, List.nil_append, List.filter_map, List.map_map]
  exact congrArg (List.map _) (List.filter_congr fun record _ => hsame record)

theorem counterSum_readBack_le (c : UsageCounter) (records : List UsageRecord) :
    counterSum c (records.map (UsageTable.readBack drawn)) ≤ counterSum c records := by
  induction records with
  | nil => exact le_rfl
  | cons record records ih =>
    rw [List.map_cons, counterSum_cons, counterSum_cons, UsageTable.counter_readBack]
    exact Nat.add_le_add (u64FromI64_toInt64_le _) ih

theorem mem_forApplication {records : List UsageRecord} {record : UsageRecord}
    {applicationId : ApplicationId} :
    record ∈ (recordedLedger records).forApplication applicationId ↔
      record ∈ records ∧ record.applicationId = applicationId := by
  unfold UsageLedger.forApplication recordedLedger
  rw [UsageLedger.records_foldl, UsageLedger.new, List.nil_append, List.mem_filter,
    decide_eq_true_eq]

/-- Where the lists agree, every record comes back as it was. -/
theorem storable_of_agrees {records : List UsageRecord} (h : UsageAgrees drawn records)
    {record : UsageRecord} (hrecord : record ∈ records) : UsageTable.Storable record := by
  have hsame := (h record.applicationId).1
  rw [forApplication_recordedTable] at hsame
  have hkept := List.map_inj_left.mp (hsame.trans (List.map_id _).symm) record
    (mem_forApplication.mpr ⟨hrecord, rfl⟩)
  exact (UsageTable.readBack_eq_self_iff drawn record).mp hkept

/-- **Durable usage totals**: they never overflow where those of the core fit, and both ledgers agree
exactly if every counter is one that a `BIGINT` column holds and every period starts and ends at
whole microseconds. -/
theorem usage_agrees_iff {records : List UsageRecord} (hfits : SumsFit records) :
    (∀ applicationId : ApplicationId, ∃ totals,
      (recordedTable records).totals drawn (toString applicationId) = .ok totals) ∧
    (UsageAgrees drawn records ↔ ∀ record ∈ records, UsageTable.Storable record) := by
  refine ⟨fun applicationId => ?_, fun hagrees record => storable_of_agrees drawn hagrees, ?_⟩
  · unfold UsageTable.totals
    rw [forApplication_recordedTable]
    exact exists_sumUsage fun c =>
      (counterSum_readBack_le drawn c _).trans_lt (hfits applicationId c)
  · intro hstorable applicationId
    have hsame : ((recordedLedger records).forApplication applicationId).map
        (UsageTable.readBack drawn) = (recordedLedger records).forApplication applicationId := by
      refine (List.map_congr_left fun record hrecord => ?_).trans (List.map_id _)
      exact (UsageTable.readBack_eq_self_iff drawn record).mpr
        (hstorable record (mem_forApplication.mp hrecord).1)
    have hlist := (forApplication_recordedTable drawn records applicationId).trans hsame
    obtain ⟨totals, htotals⟩ := exists_sumUsage (hfits applicationId)
    refine ⟨hlist, totals, htotals, ?_⟩
    unfold UsageTable.totals
    rw [hlist]
    exact sumUsage_eq_ok_iff.mpr (sumUsage_eq_ok_iff.mp htotals)

/-! ### Some records -/

/-- A record of so many requests, in a period of whole seconds. -/
def requestsRecord (requests : UInt64) : UsageRecord where
  applicationId := ⟨1⟩
  environmentId := ⟨2⟩
  periodStart := 0
  periodEnd := 3600 * nanosPerSecond
  cpuMillicoreSeconds := 0
  memoryMbSeconds := 0
  buildSeconds := 0
  requests := requests
  egressBytes := 0

/-- Sums over all records bound those of each application. -/
theorem sumsFit_of_lt {records : List UsageRecord} (h : ∀ c, counterSum c records < 2 ^ 64) :
    SumsFit records := by
  intro applicationId c
  unfold UsageLedger.forApplication recordedLedger
  rw [UsageLedger.records_foldl, UsageLedger.new, List.nil_append]
  exact ((List.filter_sublist.map _).sum_le_sum fun _ _ => Nat.zero_le _).trans_lt (h c)

def drawnIds : DrawnIds := ⟨⟨7⟩, ⟨8⟩⟩

/-- Two applications, one of them with two records and different counters in them. -/
def mixedRecords : List UsageRecord :=
  [{ requestsRecord 6 with cpuMillicoreSeconds := 250, egressBytes := 4096 },
    { requestsRecord 40 with applicationId := ⟨3⟩, memoryMbSeconds := 512 },
    { requestsRecord 7 with periodStart := 3600 * nanosPerSecond,
                            periodEnd := 7200 * nanosPerSecond, buildSeconds := 90 }]

theorem usage_agrees_requests :
    UsageAgrees drawnIds mixedRecords ∧
      (recordedLedger mixedRecords).totals ⟨1⟩ = .ok ⟨250, 0, 90, 13, 4096⟩ := by
  have hfits : SumsFit mixedRecords := sumsFit_of_lt fun c => by cases c <;> decide
  have hcounters : ∀ c : UsageCounter, ∀ record ∈ mixedRecords,
      (record.counter c).toNat < 2 ^ 63 := fun c => by cases c <;> decide
  have hperiods : ∀ record ∈ mixedRecords,
      record.periodStart % 1000 = 0 ∧ record.periodEnd % 1000 = 0 := by decide
  refine ⟨(usage_agrees_iff drawnIds hfits).2.mpr fun record hrecord => ?_, by decide⟩
  exact ⟨fun c => hcounters c record hrecord, (hperiods record hrecord).1,
    (hperiods record hrecord).2⟩

/-- From the half of the range on that the column cannot hold, a counter reads back as 0. -/
theorem usage_counter_lost :
    SumsFit [requestsRecord 9223372036854775808] ∧
      ¬ UsageAgrees drawnIds [requestsRecord 9223372036854775808] := by
  refine ⟨sumsFit_of_lt fun c => by cases c <;> decide, fun hagrees => ?_⟩
  have hstorable := storable_of_agrees drawnIds hagrees List.mem_cons_self
  exact absurd (hstorable.counters .requests) (by decide)

end Labrys.ControlPlane
