import Labrys.Core.Verifier
import Labrys.Foundations.Parting
import Labrys.Foundations.Selection

/-! # Retention of evidence

`prune` drops what is older than the policy's age from all but the last `keep_latest` positions.
`retain` prunes while nothing in the store is a blocking failure; once something is, it drops every
expired record that is none, wherever it stands.

* `prune_eq`, `retain_of_failures`: what stays, and the ids that are reported.
* `retention_conserves`: both part the list, and a second run removes nothing.
* `retention_guarantees`: when `retain` keeps the newest records. -/

namespace Labrys.Core
open Foundations
set_option autoImplicit false

structure RetentionPolicy where
  maxAge : Duration
  keepLatest : ℕ
deriving DecidableEq

namespace RetentionPolicy

def expired (policy : RetentionPolicy) (now : DateTime) (record : VerificationEvidence) : Bool :=
  decide (now - record.time > policy.maxAge)

end RetentionPolicy

/-- Drains the list and rebuilds it: what `goes` takes out, by position and record, is not put back,
and its id is noted. -/
def sweepFrom (goes : ℕ → VerificationEvidence → Bool) (index : ℕ) :
    List VerificationEvidence → List VerificationEvidence × List String
  | [] => ([], [])
  | record :: rest =>
      let (kept, removed) := sweepFrom goes (index + 1) rest
      if goes index record then (kept, record.id :: removed) else (record :: kept, removed)

def RetentionPolicy.prune (policy : RetentionPolicy) (evidence : List VerificationEvidence)
    (now : DateTime) : List VerificationEvidence × List String :=
  if evidence.length ≤ policy.keepLatest then (evidence, [])
  else
    let protectedStart := evidence.length - policy.keepLatest
    sweepFrom (fun index record => decide (index < protectedStart) && policy.expired now record) 0
      evidence

def VerificationEvidence.isBlockingFailure (record : VerificationEvidence) : Bool :=
  !record.passed && record.stage.isBlocking

structure EvidenceStore where
  evidence : List VerificationEvidence
  policy : RetentionPolicy
deriving DecidableEq

namespace EvidenceStore

def new (policy : RetentionPolicy) : EvidenceStore := ⟨[], policy⟩

def append (store : EvidenceStore) (evidence : VerificationEvidence) : EvidenceStore :=
  { store with evidence := store.evidence ++ [evidence] }

def hasFailures (store : EvidenceStore) : Bool := store.evidence.any (·.isBlockingFailure)

def retain (store : EvidenceStore) (now : DateTime) : EvidenceStore × List String :=
  if store.hasFailures = false then
    let (kept, removed) := store.policy.prune store.evidence now
    ({ store with evidence := kept }, removed)
  else
    let (kept, removed) := sweepFrom
      (fun _ record => store.policy.expired now record && !record.isBlockingFailure) 0 store.evidence
    ({ store with evidence := kept }, removed)

end EvidenceStore

/-! ## What stays -/

theorem sweepFrom_append (goes : ℕ → VerificationEvidence → Bool) (index : ℕ)
    (xs ys : List VerificationEvidence) : sweepFrom goes index (xs ++ ys) =
      ((sweepFrom goes index xs).1 ++ (sweepFrom goes (index + xs.length) ys).1,
        (sweepFrom goes index xs).2 ++ (sweepFrom goes (index + xs.length) ys).2) := by
  induction xs generalizing index with
  | nil => rfl
  | cons x xs ih =>
    have hindex : index + (x :: xs).length = index + 1 + xs.length := by
      rw [List.length_cons]
      omega
    rw [List.cons_append, sweepFrom, sweepFrom, ih, hindex]
    split_ifs <;> rfl

/-- Where the test does not depend on the position, the sweep is a filter. -/
theorem sweepFrom_eq {goes : ℕ → VerificationEvidence → Bool} (test : VerificationEvidence → Bool)
    (index : ℕ) (xs : List VerificationEvidence)
    (h : ∀ i record, index ≤ i → i < index + xs.length → goes i record = test record) :
    sweepFrom goes index xs =
      (xs.filter fun record => !test record, (xs.filter test).map (·.id)) := by
  induction xs generalizing index with
  | nil => rfl
  | cons x xs ih =>
    have hhead : goes index x = test x := h index x (le_refl _) (by simp)
    rw [sweepFrom, ih (index + 1) fun i record hle hlt => h i record (by omega) (by
      rw [List.length_cons]
      omega), hhead]
    cases hx : test x <;> simp [hx]

section Prune
variable (policy : RetentionPolicy) (evidence : List VerificationEvidence) (now : DateTime)

/-- The records before the protected positions. -/
def RetentionPolicy.front : List VerificationEvidence :=
  evidence.take (evidence.length - policy.keepLatest)

/-- The records at the last `keep_latest` positions. -/
def RetentionPolicy.back : List VerificationEvidence :=
  evidence.drop (evidence.length - policy.keepLatest)

theorem RetentionPolicy.front_append_back :
    policy.front evidence ++ policy.back evidence = evidence := List.take_append_drop _ _

theorem RetentionPolicy.prune_eq : policy.prune evidence now =
    ((policy.front evidence).filter (fun record => !policy.expired now record) ++
        policy.back evidence, ((policy.front evidence).filter (policy.expired now)).map (·.id)) := by
  unfold prune
  split_ifs with hlength
  · have hzero : evidence.length - policy.keepLatest = 0 := Nat.sub_eq_zero_of_le hlength
    simp [front, back, hzero]
  · have hfront : (policy.front evidence).length = evidence.length - policy.keepLatest := by
      rw [front, List.length_take]
      omega
    -- The loop over the unprotected positions, and then over the others.
    have hsplit := sweepFrom_append
      (fun index record =>
        decide (index < evidence.length - policy.keepLatest) && policy.expired now record) 0
      (policy.front evidence) (policy.back evidence)
    rw [policy.front_append_back, Nat.zero_add, hfront] at hsplit
    rw [hsplit, sweepFrom_eq (policy.expired now) 0 _ fun i record _ hlt => by
        rw [hfront, Nat.zero_add] at hlt
        simp [hlt],
      sweepFrom_eq (fun _ => false) _ _ fun i record hle _ => by simp [Nat.not_lt.mpr hle]]
    simp

end Prune

namespace EvidenceStore
variable (store : EvidenceStore) (now : DateTime)

theorem retain_of_none (h : store.hasFailures = false) : store.retain now =
    ({ store with evidence := (store.policy.prune store.evidence now).1 },
      (store.policy.prune store.evidence now).2) := if_pos h

/-- What the second branch takes out. -/
def goes (record : VerificationEvidence) : Bool :=
  store.policy.expired now record && !record.isBlockingFailure

theorem retain_of_failures (h : store.hasFailures = true) : store.retain now =
    ({ store with evidence := store.evidence.filter fun record => !store.goes now record },
      (store.evidence.filter (store.goes now)).map (·.id)) := by
  have hsweep := sweepFrom_eq (store.goes now) 0 store.evidence fun _ _ _ _ => rfl
  rw [retain, if_neg (by simp [h])]
  unfold goes at hsweep ⊢
  rw [hsweep]

theorem isBlockingFailure_eq_false (h : store.hasFailures = false) {record : VerificationEvidence}
    (hmem : record ∈ store.evidence) : record.isBlockingFailure = false := by
  have hnone := List.any_eq_false.mp h record hmem
  exact Bool.eq_false_of_not_eq_true hnone

end EvidenceStore

/-! ## Conservation -/

/-- A run removed records for which `may` holds, reported their ids in order and kept the others. -/
def Conserves (evidence : List VerificationEvidence) (may : VerificationEvidence → Prop)
    (result : List VerificationEvidence × List String) : Prop :=
  ∃ removed, Parted evidence result.1 removed ∧ result.2 = removed.map (·.id) ∧
    ∀ record ∈ removed, may record

theorem RetentionPolicy.prune_conserves (policy : RetentionPolicy)
    (evidence : List VerificationEvidence) (now : DateTime) :
    Conserves evidence (fun record => policy.expired now record = true)
      (policy.prune evidence now) := by
  refine ⟨(policy.front evidence).filter (policy.expired now), ?_, ?_, fun record hrecord =>
    (List.mem_filter.mp hrecord).2⟩
  · have hparted := (Parted.filter (policy.expired now) (policy.front evidence)).append
      (Parted.all_kept (policy.back evidence))
    rw [policy.front_append_back, List.append_nil] at hparted
    rwa [prune_eq]
  · rw [prune_eq]

/-- Pruning a second time: the unprotected positions hold only what the first run kept of them. -/
theorem RetentionPolicy.prune_prune (policy : RetentionPolicy)
    (evidence : List VerificationEvidence) (now : DateTime) :
    policy.prune (policy.prune evidence now).1 now = ((policy.prune evidence now).1, []) := by
  set kept := (policy.front evidence).filter fun record => !policy.expired now record with hkept
  have hfirst : (policy.prune evidence now).1 = kept ++ policy.back evidence := by rw [prune_eq]
  rw [hfirst]
  by_cases hlength : evidence.length ≤ policy.keepLatest
  · have hzero : evidence.length - policy.keepLatest = 0 := Nat.sub_eq_zero_of_le hlength
    have hall : kept ++ policy.back evidence = evidence := by simp [hkept, front, back, hzero]
    rw [hall, prune, if_pos hlength]
  · have hback : (policy.back evidence).length = policy.keepLatest := by
      rw [back, List.length_drop]
      omega
    have hcut : (kept ++ policy.back evidence).length - policy.keepLatest = kept.length := by
      rw [List.length_append, hback]
      omega
    have hfront : policy.front (kept ++ policy.back evidence) = kept := by
      rw [front, hcut, List.take_left]
    have hfresh : ∀ record ∈ kept, policy.expired now record = false := by
      intro record hrecord
      simpa using (List.mem_filter.mp hrecord).2
    have hstay : kept.filter (fun record => !policy.expired now record) = kept := by
      refine List.filter_eq_self.mpr fun record hrecord => ?_
      rw [hfresh record hrecord]
      rfl
    have hgone : kept.filter (policy.expired now) = [] := by
      refine List.filter_eq_nil_iff.mpr fun record hrecord => ?_
      rw [hfresh record hrecord]
      exact Bool.false_ne_true
    have hagain : policy.back (kept ++ policy.back evidence) = policy.back evidence := by
      rw [back, hcut, List.drop_left]
    rw [prune_eq, hfront, hstay, hgone, hagain]
    rfl

namespace EvidenceStore
variable (store : EvidenceStore) (now : DateTime)

theorem retain_conserves : Conserves store.evidence
    (fun record => store.policy.expired now record = true ∧ record.isBlockingFailure = false)
    ((store.retain now).1.evidence, (store.retain now).2) := by
  cases h : store.hasFailures with
  | false =>
    obtain ⟨removed, hparted, hids, hexpired⟩ := store.policy.prune_conserves store.evidence now
    rw [store.retain_of_none now h]
    exact ⟨removed, hparted, hids, fun record hrecord => ⟨hexpired record hrecord,
      store.isBlockingFailure_eq_false h (hparted.sublist_removed.subset hrecord)⟩⟩
  | true =>
    rw [store.retain_of_failures now h]
    refine ⟨store.evidence.filter (store.goes now), Parted.filter _ _, rfl, fun record hrecord => ?_⟩
    have hgoes := (List.mem_filter.mp hrecord).2
    simpa [goes] using hgoes

/-- Whether there is a blocking failure does not change. -/
theorem hasFailures_retain : (store.retain now).1.hasFailures = store.hasFailures := by
  obtain ⟨removed, hparted, -, hmay⟩ := store.retain_conserves now
  unfold hasFailures
  rw [Bool.eq_iff_iff, List.any_eq_true, List.any_eq_true]
  constructor
  · rintro ⟨record, hrecord, hfailure⟩
    exact ⟨record, hparted.sublist_kept.subset hrecord, hfailure⟩
  · rintro ⟨record, hrecord, hfailure⟩
    obtain hkept | hremoved := List.mem_append.mp (hparted.perm.mem_iff.mp hrecord)
    · exact ⟨record, hkept, hfailure⟩
    · exact absurd hfailure (by simp [(hmay record hremoved).2])

theorem retain_retain : (store.retain now).1.retain now = ((store.retain now).1, []) := by
  cases h : store.hasFailures with
  | false =>
    have hagain := (store.hasFailures_retain now).trans h
    rw [retain_of_none _ now hagain]
    rw [store.retain_of_none now h]
    simp only [store.policy.prune_prune store.evidence now]
  | true =>
    have hagain := (store.hasFailures_retain now).trans h
    rw [retain_of_failures _ now hagain]
    rw [store.retain_of_failures now h]
    have hsame : ∀ record, EvidenceStore.goes { store with
        evidence := store.evidence.filter fun record => !store.goes now record } now record =
          store.goes now record := fun _ => rfl
    simp [hsame, List.filter_filter]

end EvidenceStore

/-- **Retention conserves evidence**, for every list, policy and time: what `prune` and `retain` keep
and what they remove are the list dealt out in two, the ids are those of the removed records in
order, each of them expired and for `retain` no blocking failure; and a second run at the same time
removes nothing. -/
theorem retention_conserves (store : EvidenceStore) (now : DateTime) :
    Conserves store.evidence (fun record => now - record.time > store.policy.maxAge)
      (store.policy.prune store.evidence now) ∧
    store.policy.prune (store.policy.prune store.evidence now).1 now =
      ((store.policy.prune store.evidence now).1, []) ∧
    Conserves store.evidence
      (fun record => now - record.time > store.policy.maxAge ∧ record.isBlockingFailure = false)
      ((store.retain now).1.evidence, (store.retain now).2) ∧
    (store.retain now).1.retain now = ((store.retain now).1, []) := by
  refine ⟨?_, store.policy.prune_prune store.evidence now, ?_, store.retain_retain now⟩
  · obtain ⟨removed, hparted, hids, hmay⟩ := store.policy.prune_conserves store.evidence now
    exact ⟨removed, hparted, hids, fun record hrecord => of_decide_eq_true (hmay record hrecord)⟩
  · obtain ⟨removed, hparted, hids, hmay⟩ := store.retain_conserves now
    exact ⟨removed, hparted, hids, fun record hrecord =>
      ⟨of_decide_eq_true (hmay record hrecord).1, (hmay record hrecord).2⟩⟩

/-! ## The newest records -/

/-- The newest `count` records: the last ones in the order of their times, of equals the later. -/
def newest (count : ℕ) (evidence : List VerificationEvidence) : List VerificationEvidence :=
  (sortByKey (fun record : VerificationEvidence => record.time) evidence).drop
    (evidence.length - count)

theorem newest_subperm (count : ℕ) (evidence : List VerificationEvidence) :
    (newest count evidence).Subperm evidence :=
  (List.drop_sublist _ _).subperm.trans (sortByKey_perm _ evidence).subperm

/-- In a list that is in the order of the times the newest are the last. -/
theorem newest_eq_of_pairwise (count : ℕ) {evidence : List VerificationEvidence}
    (h : evidence.Pairwise fun a b => a.time ≤ b.time) :
    newest count evidence = evidence.drop (evidence.length - count) := by
  rw [newest, sortByKey, h.insertionSort_eq]

namespace EvidenceStore
variable (store : EvidenceStore) (now : DateTime)

theorem filter_isBlockingFailure_retain :
    (store.retain now).1.evidence.filter (·.isBlockingFailure) =
      store.evidence.filter (·.isBlockingFailure) := by
  cases h : store.hasFailures with
  | false =>
    have hnone : ∀ records : List VerificationEvidence, (∀ r ∈ records, r ∈ store.evidence) →
        records.filter (·.isBlockingFailure) = [] := by
      intro records hsub
      refine List.filter_eq_nil_iff.mpr fun record hrecord => ?_
      rw [store.isBlockingFailure_eq_false h (hsub record hrecord)]
      exact Bool.false_ne_true
    obtain ⟨removed, hparted, -⟩ := store.retain_conserves now
    rw [hnone _ fun record hrecord => hparted.sublist_kept.subset hrecord,
      hnone _ fun record hrecord => hrecord]
  | true =>
    rw [store.retain_of_failures now h, List.filter_filter]
    refine List.filter_congr fun record _ => ?_
    cases hfailure : record.isBlockingFailure <;> simp [goes, hfailure]

/-- Once there is a blocking failure, `keep_latest` protects nothing. -/
theorem newest_subperm_retain_of_failures (h : store.hasFailures = true) :
    (newest store.policy.keepLatest store.evidence).Subperm (store.retain now).1.evidence ↔
      ∀ record ∈ newest store.policy.keepLatest store.evidence,
        store.policy.expired now record = true → record.isBlockingFailure = true := by
  rw [store.retain_of_failures now h]
  constructor
  · intro hkept record hrecord hexpired
    have hstays := (List.mem_filter.mp (hkept.subset hrecord)).2
    simpa [goes, hexpired] using hstays
  · intro hall
    have hstay : (newest store.policy.keepLatest store.evidence).filter
        (fun record => !store.goes now record) =
          newest store.policy.keepLatest store.evidence := by
      refine List.filter_eq_self.mpr fun record hrecord => ?_
      cases hexpired : store.policy.expired now record with
      | false => simp [goes, hexpired]
      | true => simp [goes, hall record hrecord hexpired]
    rw [← hstay]
    exact (newest_subperm _ _).filter _

/-- Without one, the last positions are protected, whatever their times. -/
theorem newest_subperm_retain_of_none (h : store.hasFailures = false) :
    (newest store.policy.keepLatest store.evidence).Subperm (store.retain now).1.evidence ↔
      ((newest store.policy.keepLatest store.evidence).filter (store.policy.expired now)).Subperm
        (store.policy.back store.evidence) := by
  have hkept : (store.retain now).1.evidence = (store.policy.front store.evidence).filter
      (fun record => !store.policy.expired now record) ++ store.policy.back store.evidence := by
    rw [store.retain_of_none now h, RetentionPolicy.prune_eq]
  rw [hkept]
  set newer := newest store.policy.keepLatest store.evidence with hnewer
  set front := store.policy.front store.evidence with hfront
  set back := store.policy.back store.evidence with hback
  constructor
  · intro hall
    have hexpired := hall.filter (store.policy.expired now)
    rw [List.filter_append, List.filter_filter] at hexpired
    have hnone : front.filter (fun record => store.policy.expired now record &&
        !store.policy.expired now record) = [] := by simp
    rw [hnone, List.nil_append] at hexpired
    exact hexpired.trans (List.filter_sublist).subperm
  · intro hexpired
    -- The fresh ones stay wherever they stand, the expired ones in the protected positions.
    have hfresh := (newest_subperm store.policy.keepLatest store.evidence).filter
      fun record => !store.policy.expired now record
    rw [← hnewer, ← store.policy.front_append_back store.evidence, ← hfront, ← hback,
      List.filter_append] at hfresh
    have hold := hexpired.filter (store.policy.expired now)
    rw [List.filter_filter] at hold
    simp only [Bool.and_self] at hold
    have hboth := hold.append hfresh
    have hleft := List.filter_append_perm (store.policy.expired now) newer
    have hright := List.filter_append_perm (store.policy.expired now) back
    refine hleft.symm.subperm.trans (hboth.trans (List.Perm.subperm ?_))
    refine (List.perm_append_comm_assoc _ _ _).trans ?_
    exact hright.append_left _

end EvidenceStore

/-- **What `retain` guarantees**, for every list, policy and time. Every blocking failure is kept. The
newest `keep_latest` records are kept exactly if, where there is a blocking failure, each expired one
of them is one, and otherwise the expired ones of them stand at the protected positions. In a list
in the order of its times those are where the newest stand. -/
theorem retention_guarantees (store : EvidenceStore) (now : DateTime) :
    (((store.retain now).1.evidence.filter (·.isBlockingFailure) =
          store.evidence.filter (·.isBlockingFailure) ∧
        (newest store.policy.keepLatest store.evidence).Subperm (store.retain now).1.evidence) ↔
      if store.evidence.any (·.isBlockingFailure) then
        ∀ record ∈ newest store.policy.keepLatest store.evidence,
          now - record.time > store.policy.maxAge → record.isBlockingFailure = true
      else
        ((newest store.policy.keepLatest store.evidence).filter
            fun record => decide (now - record.time > store.policy.maxAge)).Subperm
          (store.evidence.drop (store.evidence.length - store.policy.keepLatest))) ∧
    ((store.retain now).1.evidence.filter (·.isBlockingFailure) =
      store.evidence.filter (·.isBlockingFailure)) ∧
    ((store.evidence.Pairwise fun a b => a.time ≤ b.time) →
      newest store.policy.keepLatest store.evidence =
        store.evidence.drop (store.evidence.length - store.policy.keepLatest)) := by
  have hblocking := store.filter_isBlockingFailure_retain now
  refine ⟨?_, hblocking, newest_eq_of_pairwise _⟩
  have hany : store.evidence.any (·.isBlockingFailure) = store.hasFailures := rfl
  rw [and_iff_right hblocking, hany]
  cases h : store.hasFailures with
  | true =>
    rw [if_pos rfl, store.newest_subperm_retain_of_failures now h]
    simp only [RetentionPolicy.expired, decide_eq_true_iff]
  | false =>
    rw [if_neg Bool.false_ne_true, store.newest_subperm_retain_of_none now h]
    rfl

/-- An old failure and a newer pass, both expired, where two records should always be kept. -/
theorem retention_loses_newest : ¬ ∀ (store : EvidenceStore) (now : DateTime),
    (store.retain now).1.evidence.filter (·.isBlockingFailure) =
        store.evidence.filter (·.isBlockingFailure) ∧
      (newest store.policy.keepLatest store.evidence).Subperm (store.retain now).1.evidence := by
  intro h
  let failure : VerificationEvidence :=
    ⟨"ancient-failure", .schema, "migration state", false, "migration 42 not applied", none, none, 0⟩
  let pass : VerificationEvidence :=
    ⟨"ancient-pass", .schema, "schema drift", true, "no drift", none, none, 0⟩
  let store : EvidenceStore := ⟨[failure, pass], ⟨30 * 86400 * nanosPerSecond, 2⟩⟩
  have hlength := (h store (400 * 86400 * nanosPerSecond)).2.length_le
  exact absurd hlength (by decide)

end Labrys.Core
