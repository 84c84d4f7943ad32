import Mathlib.Data.List.InsertIdx
import Labrys.Core.Audit

/-! # Edits that audit verification detects

Each step of the digest, an exclusive or with a byte and a multiplication by an odd constant modulo
`2 ^ 64`, is a bijection of the state for every byte and of the byte for every state. A digest over
parts with one byte changed is therefore always another one, and the forward half of the text shows
it.

* `auditDigest_ne`: one changed byte in one part changes the digest.
* `verify_at`: what a verified log says of the record at a position.
* `verify_detects`: the edits of a verified log that cannot verify. -/

namespace Labrys.Core
open Foundations
set_option autoImplicit false

/-! ## The digest -/

/-- The prime of the digest is odd: this is its inverse modulo `2 ^ 64`. -/
theorem fnvPrime_mul_inverse : (0x100000001b3 : UInt64) * 0xce965057aff6957b = 1 := by decide

theorem fnvStep_injective (byte : UInt8) :
    Function.Injective fun hash : UInt64 => (hash ^^^ byte.toUInt64) * 0x100000001b3 := by
  intro a b h
  have hinverse := congrArg (· * 0xce965057aff6957b) h
  simp only [UInt64.mul_assoc, fnvPrime_mul_inverse, UInt64.mul_one] at hinverse
  exact UInt64.xor_left_inj byte.toUInt64 |>.mp hinverse

theorem fnvStep_byte_injective (hash : UInt64) :
    Function.Injective fun byte : UInt8 => (hash ^^^ byte.toUInt64) * 0x100000001b3 := by
  intro a b h
  have hinverse := congrArg (· * 0xce965057aff6957b) h
  simp only [UInt64.mul_assoc, fnvPrime_mul_inverse, UInt64.mul_one] at hinverse
  exact UInt8.toUInt64_inj.mp ((UInt64.xor_right_inj hash).mp hinverse)

theorem fnv1a_append (xs ys : List UInt8) (start : UInt64) :
    fnv1a (xs ++ ys) start = fnv1a ys (fnv1a xs start) := List.foldl_append

theorem fnv1a_ne (front back : List UInt8) {b c : UInt8} (hne : b ≠ c) (start : UInt64) :
    fnv1a (front ++ b :: back) start ≠ fnv1a (front ++ c :: back) start :=
  foldl_ne_of_changed fnvStep_injective fnvStep_byte_injective start front back hne

/-- The bytes that the forward pass reads: each part closed by `0x1f`. -/
def auditStream (parts : List String) : List UInt8 :=
  parts.flatMap fun part => part.toUTF8.toList ++ [0x1f]

/-- The forward pass of the digest. -/
def auditForward (parts : List String) : UInt64 := fnv1a (auditStream parts) 0xcbf29ce484222325

theorem auditForward_eq (parts : List String) :
    parts.foldl (fun hash part => fnv1a [0x1f] (fnv1a part.toUTF8.toList hash))
      0xcbf29ce484222325 = auditForward parts := by
  unfold auditForward auditStream
  generalize (0xcbf29ce484222325 : UInt64) = start
  induction parts generalizing start with
  | nil => rfl
  | cons part rest ih =>
    rw [List.foldl_cons, ih, List.flatMap_cons, fnv1a_append, fnv1a_append]

/-- Equal digests have equal forward passes: they are the first sixteen digits. -/
theorem auditForward_eq_of_auditDigest_eq {parts parts' : List String}
    (h : auditDigest parts = auditDigest parts') : auditForward parts = auditForward parts' := by
  have htexts := congrArg String.toList h
  simp only [auditDigest, String.toList_append, auditForward_eq] at htexts
  have hfirst := (List.append_inj htexts (by rw [hexDigits_length, hexDigits_length])).1
  have hlt : ∀ n : UInt64, n.toNat < 16 ^ 16 := fun n => n.toNat_lt
  exact UInt64.toNat_inj.mp (hexDigits_injective (hlt _) (hlt _) (String.toList_inj.mp hfirst))

/-- Two texts of the same length whose bytes differ at exactly one place. -/
def OneByte (old new : String) : Prop :=
  ∃ (front back : List UInt8) (b c : UInt8), b ≠ c ∧
    old.toUTF8.toList = front ++ b :: back ∧ new.toUTF8.toList = front ++ c :: back

theorem auditDigest_ne (before after : List String) {old new : String} (h : OneByte old new) :
    auditDigest (before ++ old :: after) ≠ auditDigest (before ++ new :: after) := by
  obtain ⟨front, back, b, c, hne, hold, hnew⟩ := h
  -- The byte's neighbours in the whole stream.
  have hstream : ∀ (text : String) (x : UInt8), text.toUTF8.toList = front ++ x :: back →
      auditStream (before ++ text :: after) =
        (auditStream before ++ front) ++ x :: (back ++ [0x1f] ++ auditStream after) := by
    intro text x htext
    simp only [auditStream, List.flatMap_append, List.flatMap_cons, htext, List.append_assoc,
      List.cons_append]
  intro heq
  have hforward := auditForward_eq_of_auditDigest_eq heq
  unfold auditForward at hforward
  rw [hstream old b hold, hstream new c hnew] at hforward
  exact fnv1a_ne _ _ hne _ hforward

/-! ## Edits -/

/-- The four texts of a record that a caller supplies. -/
inductive AuditText
  | actor
  | action
  | target
  | detail
deriving DecidableEq

def AuditRecord.text (record : AuditRecord) : AuditText → String
  | .actor => record.actor
  | .action => record.action
  | .target => record.target
  | .detail => record.detail

def AuditRecord.withText (record : AuditRecord) (text : String) : AuditText → AuditRecord
  | .actor => { record with actor := text }
  | .action => { record with action := text }
  | .target => { record with target := text }
  | .detail => { record with detail := text }

/-- Some record of the first list stands at another position in the second. -/
def Moved (records edited : List AuditRecord) : Prop :=
  ∃ (i j : ℕ) (record : AuditRecord), i ≠ j ∧ records[i]? = some record ∧
    edited[j]? = some record

/-- The records at two positions exchanged. -/
def swapped (records : List AuditRecord) (i j : ℕ) (atI atJ : AuditRecord) : List AuditRecord :=
  (records.set i atJ).set j atI

/-- Every record after a deleted one changes its position. -/
theorem moved_eraseIdx (records : List AuditRecord) (i : ℕ) (h : i + 1 < records.length) :
    Moved records (records.eraseIdx i) := by
  refine ⟨i + 1, i, records[i + 1], by omega, List.getElem?_eq_getElem h, ?_⟩
  rw [List.getElem?_eraseIdx, if_neg (lt_irrefl i)]
  exact List.getElem?_eq_getElem h

/-- Wherever a second copy of a record is put, one of the two is at another position. -/
theorem moved_insertIdx (records : List AuditRecord) (i j : ℕ) (record : AuditRecord)
    (hi : records[i]? = some record) (hj : j ≤ records.length) :
    Moved records (records.insertIdx j record) := by
  by_cases hij : i = j
  · refine ⟨i, i + 1, record, by omega, hi, ?_⟩
    rw [List.getElem?_insertIdx_of_gt (by omega), Nat.add_sub_cancel, hi]
  · refine ⟨i, j, record, hij, hi, ?_⟩
    rw [List.getElem?_insertIdx_self, if_pos hj]

theorem moved_swapped (records : List AuditRecord) (i j : ℕ) (atI atJ : AuditRecord)
    (hij : i ≠ j) (hi : records[i]? = some atI) (hj : records[j]? = some atJ) :
    Moved records (swapped records i j atI atJ) := by
  refine ⟨i, j, atI, hij, hi, ?_⟩
  have hlt : j < (records.set i atJ).length := by
    rw [List.length_set]
    exact (List.getElem?_eq_some_iff.mp hj).1
  rw [swapped, List.getElem?_set_self hlt]

variable (rfc3339 : DateTime → String)

theorem computeHash_withText_ne (record : AuditRecord) (field : AuditText) (text : String)
    (h : OneByte (record.text field) text) :
    (record.withText text field).computeHash rfc3339 ≠ record.computeHash rfc3339 := by
  cases field with
  | actor => exact (auditDigest_ne [toString record.sequence, rfc3339 record.time] _ h).symm
  | action =>
    exact (auditDigest_ne [toString record.sequence, rfc3339 record.time, record.actor] _ h).symm
  | target =>
    exact (auditDigest_ne [toString record.sequence, rfc3339 record.time, record.actor,
      record.action] _ h).symm
  | detail =>
    exact (auditDigest_ne [toString record.sequence, rfc3339 record.time, record.actor,
      record.action, record.target] _ h).symm

namespace AuditLog

/-- What a verified log says of the record at a position. -/
theorem verify_at {records : List AuditRecord} (h : (restore records).verify rfc3339 = .ok ())
    {i : ℕ} {record : AuditRecord} (hi : records[i]? = some record) :
    record.sequence = i.toUInt64 + 1 ∧
      record.prevHash = (auditChain rfc3339).lastLink genesis (records.take i) ∧
      record.hash = record.computeHash rfc3339 := by
  have hsound := (verify_eq_ok_iff rfc3339 (restore records)).mp h
  rw [sealed_iff]
  have hblock := hsound.getElem? (auditChain rfc3339) hi
  rwa [Nat.zero_add] at hblock

/-- An edited record at a position passes only if its sequence and link are the old ones and its
hash is its digest. -/
theorem verify_set_at {records : List AuditRecord} (h : (restore records).verify rfc3339 = .ok ())
    {i : ℕ} {record edited : AuditRecord} (hi : records[i]? = some record)
    (hedited : (restore (records.set i edited)).verify rfc3339 = .ok ()) :
    edited.sequence = record.sequence ∧ edited.prevHash = record.prevHash ∧
      edited.hash = edited.computeHash rfc3339 := by
  have hlt : i < records.length := (List.getElem?_eq_some_iff.mp hi).1
  have hat : (records.set i edited)[i]? = some edited := List.getElem?_set_self hlt
  obtain ⟨hsequence, hprev, -⟩ := verify_at rfc3339 h hi
  obtain ⟨hsequence', hprev', hhash'⟩ := verify_at rfc3339 hedited hat
  rw [List.take_set, List.set_eq_of_length_le (by rw [List.length_take]; omega)] at hprev'
  exact ⟨hsequence'.trans hsequence.symm, hprev'.trans hprev.symm, hhash'⟩

/-- A moved record keeps its sequence, which names another position: no list that a `Vec` can hold
is long enough for the two to agree modulo `2 ^ 64`. -/
theorem not_verify_of_moved {records edited : List AuditRecord}
    (h : (restore records).verify rfc3339 = .ok ()) (hrecords : records.length ≤ i64Max)
    (hedited : edited.length ≤ i64Max) (hmoved : Moved records edited) :
    (restore edited).verify rfc3339 ≠ .ok () := by
  intro hverify
  obtain ⟨i, j, record, hij, hi, hj⟩ := hmoved
  have hsequence := (verify_at rfc3339 h hi).1
  rw [(verify_at rfc3339 hverify hj).1] at hsequence
  have hilt : i < records.length := (List.getElem?_eq_some_iff.mp hi).1
  have hjlt : j < edited.length := (List.getElem?_eq_some_iff.mp hj).1
  have hindex := congrArg UInt64.toNat ((UInt64.add_left_inj 1).mp hsequence)
  rw [Nat.toUInt64_eq, Nat.toUInt64_eq, UInt64.toNat_ofNat', UInt64.toNat_ofNat'] at hindex
  rw [i64Max] at hrecords hedited
  omega

/-- **Small edits are detected.** A log that verifies, held in a `Vec`, never verifies again after
one byte of a text of a record is replaced, or its sequence, link or hash becomes any other value,
or a record is found at another position: in particular after a record before the last one is
deleted, a copy of a record is inserted anywhere, or two records are exchanged. -/
theorem verify_detects (records : List AuditRecord) (hvec : records.length ≤ i64Max)
    (h : (restore records).verify rfc3339 = .ok ()) :
    (∀ (i : ℕ) (record : AuditRecord), records[i]? = some record →
      (∀ (field : AuditText) (text : String), OneByte (record.text field) text →
        (restore (records.set i (record.withText text field))).verify rfc3339 ≠ .ok ()) ∧
      (∀ sequence : UInt64, sequence ≠ record.sequence →
        (restore (records.set i { record with sequence })).verify rfc3339 ≠ .ok ()) ∧
      (∀ prevHash : String, prevHash ≠ record.prevHash →
        (restore (records.set i { record with prevHash })).verify rfc3339 ≠ .ok ()) ∧
      (∀ hash : String, hash ≠ record.hash →
        (restore (records.set i { record with hash })).verify rfc3339 ≠ .ok ())) ∧
    (∀ edited : List AuditRecord, edited.length ≤ i64Max → Moved records edited →
      (restore edited).verify rfc3339 ≠ .ok ()) ∧
    (∀ i : ℕ, i + 1 < records.length →
      (restore (records.eraseIdx i)).verify rfc3339 ≠ .ok ()) ∧
    (∀ (i j : ℕ) (record : AuditRecord), records[i]? = some record → j ≤ records.length →
      records.length < i64Max → (restore (records.insertIdx j record)).verify rfc3339 ≠ .ok ()) ∧
    ∀ (i j : ℕ) (atI atJ : AuditRecord), i ≠ j → records[i]? = some atI →
      records[j]? = some atJ → (restore (swapped records i j atI atJ)).verify rfc3339 ≠ .ok () := by
  have hmoved : ∀ edited : List AuditRecord, edited.length ≤ i64Max → Moved records edited →
      (restore edited).verify rfc3339 ≠ .ok () :=
    fun edited hlength => not_verify_of_moved rfc3339 h hvec hlength
  refine ⟨?_, hmoved, ?_, ?_, ?_⟩
  · intro i record hi
    have hhash := (verify_at rfc3339 h hi).2.2
    refine ⟨?_, ?_, ?_, ?_⟩
    · intro field text hbyte hverify
      have hdigest := (verify_set_at rfc3339 h hi hverify).2.2
      have hkept : (record.withText text field).hash = record.hash := by cases field <;> rfl
      rw [hkept, hhash] at hdigest
      exact computeHash_withText_ne rfc3339 record field text hbyte hdigest.symm
    · intro sequence hne hverify
      exact hne (verify_set_at rfc3339 h hi hverify).1
    · intro prevHash hne hverify
      exact hne (verify_set_at rfc3339 h hi hverify).2.1
    · intro hash hne hverify
      have hdigest := (verify_set_at rfc3339 h hi hverify).2.2
      rw [computeHash_withHash, ← hhash] at hdigest
      exact hne hdigest
  · intro i hi
    refine hmoved _ ?_ (moved_eraseIdx records i hi)
    exact le_trans (List.length_eraseIdx_le records i) hvec
  · intro i j record hi hj hroom
    refine hmoved _ ?_ (moved_insertIdx records i j record hi hj)
    rw [List.length_insertIdx, if_pos hj]
    exact hroom
  · intro i j atI atJ hij hi hj
    refine hmoved _ ?_ (moved_swapped records i j atI atJ hij hi hj)
    rw [swapped, List.length_set, List.length_set]
    exact hvec

/-- A log of one record whose detail `ok` is edited to `oj`. -/
theorem verify_detects_detail :
    let rfc3339 := fun _ : DateTime => "2026-01-01T00:00:00+00:00"
    let record := (new.append rfc3339 0 "agent" "deploy" "web" "ok" []).2
    (restore [record]).verify rfc3339 = .ok () ∧
      (restore [{ record with detail := "oj" }]).verify rfc3339 ≠ .ok () := by
  intro rfc3339 record
  have hverify : (restore [record]).verify rfc3339 = .ok () :=
    (verify_append_iff rfc3339 new ⟨0, "agent", "deploy", "web", "ok"⟩ []).mpr rfl
  refine ⟨hverify, ?_⟩
  have hdetects := (verify_detects rfc3339 [record] (by decide) hverify).1 0 record rfl
  exact hdetects.1 .detail "oj" ⟨[0x6f], [], 0x6b, 0x6a, by decide, by decide +kernel,
    by decide +kernel⟩

end AuditLog

end Labrys.Core
