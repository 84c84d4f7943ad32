import Labrys.Core.Errors
import Labrys.Core.Ids
import Labrys.Core.Time
import Labrys.Foundations.Program

/-! # Usage accounting

A usage record meters one period of an application with five `u64` counters. The ledger keeps the
records in the order of their arrival and sums the counters of one application; an addition that
leaves the range of a `u64` panics.

* `sumUsage_eq_ok_iff`: the totals are the sums, counter by counter.
* `exists_sumUsage`: they exist if every sum fits. -/

namespace Labrys.Core
open Foundations
set_option autoImplicit false

structure UsageRecord where
  applicationId : ApplicationId
  environmentId : EnvironmentId
  periodStart : DateTime
  periodEnd : DateTime
  cpuMillicoreSeconds : UInt64
  memoryMbSeconds : UInt64
  buildSeconds : UInt64
  requests : UInt64
  egressBytes : UInt64
deriving DecidableEq

structure UsageTotals where
  cpuMillicoreSeconds : UInt64
  memoryMbSeconds : UInt64
  buildSeconds : UInt64
  requests : UInt64
  egressBytes : UInt64
deriving DecidableEq

def UsageTotals.default : UsageTotals := ⟨0, 0, 0, 0, 0⟩

/-- The counters by their names. -/
inductive UsageCounter
  | cpuMillicoreSeconds | memoryMbSeconds | buildSeconds | requests | egressBytes

def UsageRecord.counter (record : UsageRecord) : UsageCounter → UInt64
  | .cpuMillicoreSeconds => record.cpuMillicoreSeconds
  | .memoryMbSeconds => record.memoryMbSeconds
  | .buildSeconds => record.buildSeconds
  | .requests => record.requests
  | .egressBytes => record.egressBytes

def UsageTotals.counter (totals : UsageTotals) : UsageCounter → UInt64
  | .cpuMillicoreSeconds => totals.cpuMillicoreSeconds
  | .memoryMbSeconds => totals.memoryMbSeconds
  | .buildSeconds => totals.buildSeconds
  | .requests => totals.requests
  | .egressBytes => totals.egressBytes

/-! ## Sums -/

/-- `+=` on a `u64`. -/
def addU64 {ε : Type} (a b : UInt64) : Outcome ε UInt64 :=
  if a.toNat + b.toNat < 2 ^ 64 then .ok (a + b) else .error (.panic addOverflowed)

/-- One round of the loop of `totals`. -/
def UsageTotals.add {ε : Type} (totals : UsageTotals) (record : UsageRecord) :
    Outcome ε UsageTotals := do
  let cpuMillicoreSeconds ← addU64 totals.cpuMillicoreSeconds record.cpuMillicoreSeconds
  let memoryMbSeconds ← addU64 totals.memoryMbSeconds record.memoryMbSeconds
  let buildSeconds ← addU64 totals.buildSeconds record.buildSeconds
  let requests ← addU64 totals.requests record.requests
  let egressBytes ← addU64 totals.egressBytes record.egressBytes
  return ⟨cpuMillicoreSeconds, memoryMbSeconds, buildSeconds, requests, egressBytes⟩

/-- The loop of `totals`. -/
def sumUsage {ε : Type} (records : List UsageRecord) : Outcome ε UsageTotals :=
  records.foldlM UsageTotals.add .default

/-! ## The ledger -/

structure UsageLedger where
  records : List UsageRecord

namespace UsageLedger

def new : UsageLedger := ⟨[]⟩

variable (ledger : UsageLedger)

def record (record : UsageRecord) : UsageLedger := ⟨ledger.records ++ [record]⟩

def forApplication (applicationId : ApplicationId) : List UsageRecord :=
  ledger.records.filter fun record => record.applicationId = applicationId

/-- Totals across every recorded period for one application. -/
def totals (applicationId : ApplicationId) : Outcome CoreError UsageTotals :=
  sumUsage (ledger.forApplication applicationId)

theorem records_foldl (records : List UsageRecord) :
    (records.foldl UsageLedger.record ledger).records = ledger.records ++ records := by
  induction records generalizing ledger with
  | nil => rw [List.foldl_nil, List.append_nil]
  | cons first records ih =>
    rw [List.foldl_cons, ih, record, List.append_assoc, List.singleton_append]

end UsageLedger

/-! ## What the sums are -/

section Sums
variable {ε : Type}

theorem addU64_eq_ok_iff {a b sum : UInt64} :
    (addU64 a b : Outcome ε UInt64) = .ok sum ↔ sum.toNat = a.toNat + b.toNat := by
  have hrange := sum.toNat_lt
  unfold addU64
  split
  next hfits =>
    have hsum : (a + b).toNat = a.toNat + b.toNat := by
      rw [UInt64.toNat_add, Nat.mod_eq_of_lt hfits]
    rw [Except.ok.injEq, ← UInt64.toNat_inj, hsum, eq_comm]
  next hfull =>
    refine iff_of_false (fun h => by cases h) fun h => ?_
    omega

theorem UsageTotals.eq_of_counters {totals totals' : UsageTotals}
    (h : ∀ c, (totals.counter c).toNat = (totals'.counter c).toNat) : totals = totals' := by
  have hsame : ∀ c, totals.counter c = totals'.counter c := fun c => UInt64.toNat_inj.mp (h c)
  obtain ⟨cpu, memory, build, requests, egress⟩ := totals
  obtain ⟨cpu', memory', build', requests', egress'⟩ := totals'
  obtain rfl : cpu = cpu' := hsame .cpuMillicoreSeconds
  obtain rfl : memory = memory' := hsame .memoryMbSeconds
  obtain rfl : build = build' := hsame .buildSeconds
  obtain rfl : requests = requests' := hsame .requests
  obtain rfl : egress = egress' := hsame .egressBytes
  rfl

/-- Totals with given counters. -/
def UsageTotals.ofCounters (counters : UsageCounter → UInt64) : UsageTotals where
  cpuMillicoreSeconds := counters .cpuMillicoreSeconds
  memoryMbSeconds := counters .memoryMbSeconds
  buildSeconds := counters .buildSeconds
  requests := counters .requests
  egressBytes := counters .egressBytes

theorem UsageTotals.counter_ofCounters (counters : UsageCounter → UInt64) (c : UsageCounter) :
    (ofCounters counters).counter c = counters c := by
  cases c <;> rfl

/-- One round adds counter by counter. -/
theorem UsageTotals.add_eq_ok_iff {totals sum : UsageTotals} {record : UsageRecord} :
    (totals.add record : Outcome ε UsageTotals) = .ok sum ↔
      ∀ c, (sum.counter c).toNat = (totals.counter c).toNat + (record.counter c).toNat := by
  constructor
  · intro h
    unfold add at h
    obtain ⟨cpu, hcpu, h⟩ := except_bind_eq_ok h
    obtain ⟨memory, hmemory, h⟩ := except_bind_eq_ok h
    obtain ⟨build, hbuild, h⟩ := except_bind_eq_ok h
    obtain ⟨requests, hrequests, h⟩ := except_bind_eq_ok h
    obtain ⟨egress, hegress, h⟩ := except_bind_eq_ok h
    obtain rfl := Except.ok.inj h
    intro c
    cases c with
    | cpuMillicoreSeconds => exact addU64_eq_ok_iff.mp hcpu
    | memoryMbSeconds => exact addU64_eq_ok_iff.mp hmemory
    | buildSeconds => exact addU64_eq_ok_iff.mp hbuild
    | requests => exact addU64_eq_ok_iff.mp hrequests
    | egressBytes => exact addU64_eq_ok_iff.mp hegress
  · intro h
    have hcpu : (addU64 _ _ : Outcome ε UInt64) = _ := addU64_eq_ok_iff.mpr (h .cpuMillicoreSeconds)
    have hmemory : (addU64 _ _ : Outcome ε UInt64) = _ := addU64_eq_ok_iff.mpr (h .memoryMbSeconds)
    have hbuild : (addU64 _ _ : Outcome ε UInt64) = _ := addU64_eq_ok_iff.mpr (h .buildSeconds)
    have hrequests : (addU64 _ _ : Outcome ε UInt64) = _ := addU64_eq_ok_iff.mpr (h .requests)
    have hegress : (addU64 _ _ : Outcome ε UInt64) = _ := addU64_eq_ok_iff.mpr (h .egressBytes)
    simp only [UsageTotals.counter, UsageRecord.counter] at hcpu hmemory hbuild hrequests hegress
    unfold add
    rw [hcpu, hmemory, hbuild, hrequests, hegress]
    rfl

/-- The sum of one counter. -/
def counterSum (c : UsageCounter) (records : List UsageRecord) : ℕ :=
  (records.map fun record => (record.counter c).toNat).sum

theorem counterSum_cons (c : UsageCounter) (record : UsageRecord) (records : List UsageRecord) :
    counterSum c (record :: records) = (record.counter c).toNat + counterSum c records := rfl

theorem foldlM_add_eq_ok_iff {records : List UsageRecord} {totals sum : UsageTotals} :
    (records.foldlM UsageTotals.add totals : Outcome ε UsageTotals) = .ok sum ↔
      ∀ c, (sum.counter c).toNat = (totals.counter c).toNat + counterSum c records := by
  induction records generalizing totals with
  | nil =>
    refine ⟨fun h c => ?_, fun h => ?_⟩
    · obtain rfl : totals = sum := Except.ok.inj h
      rfl
    · exact congrArg Except.ok (UsageTotals.eq_of_counters fun c => (h c).symm)
  | cons record records ih =>
    rw [List.foldlM_cons]
    constructor
    · intro h c
      obtain ⟨next, hnext, hrest⟩ := except_bind_eq_ok h
      rw [ih.mp hrest c, UsageTotals.add_eq_ok_iff.mp hnext c, counterSum_cons, Nat.add_assoc]
    · intro h
      -- What has been added so far stays below the sum of all.
      have hbegin (c : UsageCounter) :
          (totals.counter c).toNat + (record.counter c).toNat < 2 ^ 64 := by
        have hsum := h c
        have hrange := (sum.counter c).toNat_lt
        rw [counterSum_cons] at hsum
        omega
      have hadd (c : UsageCounter) : ((totals.counter c) + (record.counter c)).toNat =
          (totals.counter c).toNat + (record.counter c).toNat := by
        rw [UInt64.toNat_add, Nat.mod_eq_of_lt (hbegin c)]
      have hnext : (totals.add record : Outcome ε UsageTotals) =
          .ok (.ofCounters fun c => totals.counter c + record.counter c) :=
        UsageTotals.add_eq_ok_iff.mpr fun c => by rw [UsageTotals.counter_ofCounters, hadd]
      rw [hnext]
      refine ih.mpr fun c => ?_
      rw [UsageTotals.counter_ofCounters, hadd, h c, counterSum_cons, Nat.add_assoc]

theorem sumUsage_eq_ok_iff {records : List UsageRecord} {totals : UsageTotals} :
    (sumUsage records : Outcome ε UsageTotals) = .ok totals ↔
      ∀ c, (totals.counter c).toNat = counterSum c records := by
  have hzero (c : UsageCounter) : (UsageTotals.default.counter c).toNat = 0 := by
    cases c <;> rfl
  unfold sumUsage
  rw [foldlM_add_eq_ok_iff]
  simp only [hzero, Nat.zero_add]

theorem exists_sumUsage {records : List UsageRecord} (h : ∀ c, counterSum c records < 2 ^ 64) :
    ∃ totals, (sumUsage records : Outcome ε UsageTotals) = .ok totals := by
  refine ⟨.ofCounters fun c => .ofNat (counterSum c records), sumUsage_eq_ok_iff.mpr fun c => ?_⟩
  rw [UsageTotals.counter_ofCounters, UInt64.toNat_ofNat', Nat.mod_eq_of_lt (h c)]

end Sums

end Labrys.Core
