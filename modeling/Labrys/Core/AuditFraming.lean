import Mathlib.Data.Set.Basic
import Labrys.Core.AuditTamper
import Labrys.Foundations.Framing

/-! # The two streams of the audit digest

The digest reads the texts of a record forwards, each closed by the byte `0x1f`, and then in reverse
with nothing between them. Nothing keeps that byte out of the texts: over any other characters the
forward stream determines the four texts, and with it text can move between neighbouring fields
without changing either stream.

* `auditDigest_eq`: the digest is a function of the two streams.
* `audit_framing`: the alphabets over which the streams tell the texts, and the moves they miss. -/

namespace Labrys.Core
open Foundations
set_option autoImplicit false

/-- The bytes that the second pass reads: the parts in reverse. -/
def auditReverse (parts : List String) : List UInt8 :=
  parts.reverse.flatMap fun part => part.toUTF8.toList

theorem auditDigest_eq (parts : List String) : auditDigest parts =
    hexDigits 16 (auditForward parts).toNat ++
      hexDigits 16 (fnv1a (auditReverse parts) (auditForward parts ^^^ 0x51ed270b07a5ac65)).toNat := by
  have hsecond : ∀ (texts : List String) (start : UInt64),
      texts.foldl (fun second part => fnv1a part.toUTF8.toList second) start =
        fnv1a (texts.flatMap fun part => part.toUTF8.toList) start := by
    intro texts
    induction texts with
    | nil => exact fun _ => rfl
    | cons text texts ih =>
      intro start
      rw [List.foldl_cons, ih, List.flatMap_cons, fnv1a_append]
  rw [auditDigest, auditForward_eq, hsecond, auditReverse]

variable (rfc3339 : DateTime → String)

namespace AuditRecord

/-- What `compute_hash` hands to the digest. -/
def parts (record : AuditRecord) : List String :=
  [toString record.sequence, rfc3339 record.time, record.actor, record.action, record.target,
    record.detail, record.prevHash]

theorem computeHash_eq (record : AuditRecord) :
    record.computeHash rfc3339 = auditDigest (record.parts rfc3339) := rfl

/-- Neither pass tells the two records apart. -/
def SameStreams (record other : AuditRecord) : Prop :=
  auditStream (record.parts rfc3339) = auditStream (other.parts rfc3339) ∧
    auditReverse (record.parts rfc3339) = auditReverse (other.parts rfc3339)

instance (record other : AuditRecord) : Decidable (record.SameStreams rfc3339 other) := by
  unfold SameStreams
  infer_instance

/-- The digest of two such records is the same. -/
theorem SameStreams.computeHash_eq {record other : AuditRecord}
    (h : record.SameStreams rfc3339 other) :
    record.computeHash rfc3339 = other.computeHash rfc3339 := by
  rw [AuditRecord.computeHash_eq, AuditRecord.computeHash_eq, auditDigest_eq, auditDigest_eq,
    auditForward, auditForward, h.1, h.2]

/-- The four texts use characters of the alphabet only. -/
def Over (alphabet : Set Char) (record : AuditRecord) : Prop :=
  ∀ text, ∀ c ∈ (record.text text).toList, c ∈ alphabet

end AuditRecord

/-- The text that `compute_hash` reads right after this one. -/
def AuditText.next : AuditText → Option AuditText
  | actor => some action
  | action => some target
  | target => some detail
  | detail => none

/-! ## Reading the texts back -/

theorem auditStream_eq (parts : List String) :
    auditStream parts = framed 0x1f (parts.map fun part => part.toUTF8.toList) := by
  rw [auditStream, framed, List.flatMap_map]

theorem auditReverse_eq (parts : List String) :
    auditReverse parts = (parts.map fun part => part.toUTF8.toList).reverse.flatten := by
  rw [auditReverse, List.flatMap_def, List.map_reverse]

theorem sep_mem_iff (text : String) : (0x1f : UInt8) ∈ text.toUTF8.toList ↔ '\x1f' ∈ text.toList :=
  ascii_mem_toUTF8 (a := '\x1f') (by decide) text

theorem sep_not_mem_sequence (sequence : UInt64) : '\x1f' ∉ (toString sequence).toList := by
  intro hmem
  have hdigits : (toString sequence).toList = Nat.toDigits 10 sequence.toNat := by
    rw [show toString sequence = toString sequence.toNat from rfl, Nat.toString_eq_ofList_toDigits,
      String.toList_ofList]
  rw [hdigits] at hmem
  exact absurd (Nat.isDigit_of_mem_toDigits (by decide) (by decide) hmem) (by decide)

variable {rfc3339}

/-- Over texts free of the separator the forward stream determines all four. -/
theorem texts_eq_of_auditStream_eq (hclock : ∀ time, '\x1f' ∉ (rfc3339 time).toList)
    {record other : AuditRecord} (hfree : ∀ text, '\x1f' ∉ (record.text text).toList)
    (hfree' : ∀ text, '\x1f' ∉ (other.text text).toList)
    (h : auditStream (record.parts rfc3339) = auditStream (other.parts rfc3339)) (text : AuditText) :
    record.text text = other.text text := by
  -- The six parts before the previous hash, which may hold anything.
  have hsplit : ∀ r : AuditRecord, auditStream (r.parts rfc3339) =
      framed 0x1f (((r.parts rfc3339).take 6).map fun part => part.toUTF8.toList) ++
        framed 0x1f [r.prevHash.toUTF8.toList] := by
    intro r
    rw [auditStream_eq, ← framed_append]
    rfl
  have hparts : ∀ r : AuditRecord, (∀ text, '\x1f' ∉ (r.text text).toList) →
      ∀ part ∈ ((r.parts rfc3339).take 6).map fun part => part.toUTF8.toList,
        (0x1f : UInt8) ∉ part := by
    intro r hr part hpart
    obtain ⟨source, hsource, rfl⟩ := List.mem_map.mp hpart
    rw [sep_mem_iff]
    simp only [AuditRecord.parts, List.take_succ_cons, List.take_zero, List.mem_cons,
      List.not_mem_nil, or_false] at hsource
    obtain rfl | rfl | rfl | rfl | rfl | rfl := hsource
    · exact sep_not_mem_sequence r.sequence
    · exact hclock r.time
    · exact hr .actor
    · exact hr .action
    · exact hr .target
    · exact hr .detail
  rw [hsplit, hsplit] at h
  have hlength : ∀ r : AuditRecord,
      (((r.parts rfc3339).take 6).map fun part => part.toUTF8.toList).length = 6 := fun _ => rfl
  have hsame := (framed_inj ((hlength record).trans (hlength other).symm) (hparts record hfree)
    (hparts other hfree') h).1
  have htexts := List.map_injective_iff.mpr toUTF8_toList_injective hsame
  simp only [AuditRecord.parts, List.take_succ_cons, List.take_zero, List.cons.injEq, and_true]
    at htexts
  obtain ⟨-, -, hactor, haction, htarget, hdetail⟩ := htexts
  cases text
  · exact hactor
  · exact haction
  · exact htarget
  · exact hdetail

/-! ## Text that moves -/

theorem toUTF8_toList_append (u v : String) :
    (u ++ v).toUTF8.toList = u.toUTF8.toList ++ v.toUTF8.toList := by
  rw [toUTF8_toList, toUTF8_toList, toUTF8_toList, String.toList_append, List.flatMap_append]

/-- A text whose bytes are separators has no other character. -/
theorem forall_sep_iff (text : String) :
    (∀ b ∈ text.toUTF8.toList, b = 0x1f) ↔ ∀ c ∈ text.toList, c = '\x1f' := by
  have hencode : String.utf8EncodeChar '\x1f' = [0x1f] := by decide
  rw [toUTF8_toList]
  constructor
  · intro h c hc
    obtain ⟨b, bs, hbytes⟩ := List.exists_cons_of_ne_nil (String.utf8EncodeChar_ne_nil (c := c))
    have hb : b ∈ String.utf8EncodeChar c := by simp [hbytes]
    rw [h b (List.mem_flatMap.mpr ⟨c, hc, hb⟩)] at hb
    exact (ascii_mem_utf8EncodeChar (a := '\x1f') (by decide) c).mp hb
  · intro h b hb
    obtain ⟨c, hc, hb⟩ := List.mem_flatMap.mp hb
    rw [h c hc, hencode] at hb
    exact List.mem_singleton.mp hb

/-- Text moves unseen from a part to the next exactly if everything there is separators. -/
theorem parts_moved_iff (before after : List String) (u v w : String) (hv : v ≠ "") :
    (auditStream (before ++ (u ++ v) :: w :: after) =
        auditStream (before ++ u :: (v ++ w) :: after) ∧
      auditReverse (before ++ (u ++ v) :: w :: after) =
        auditReverse (before ++ u :: (v ++ w) :: after)) ↔
      ∀ c ∈ (u ++ v ++ w).toList, c = '\x1f' := by
  have hempty : "".toUTF8.toList = [] := by rw [toUTF8_toList, String.toList_empty, List.flatMap_nil]
  have hbytes : v.toUTF8.toList ≠ [] := fun h => hv (toUTF8_toList_injective (h.trans hempty.symm))
  rw [← forall_sep_iff, toUTF8_toList_append, toUTF8_toList_append, ← moved_unseen_iff
    (before.map fun part => part.toUTF8.toList) (after.map fun part => part.toUTF8.toList) _ _ _
    hbytes]
  simp only [auditStream_eq, auditReverse_eq, List.map_append, List.map_cons, toUTF8_toList_append]

theorem sameStreams_moved_iff {first second : AuditText} (hnext : first.next = some second)
    (record : AuditRecord) (u v w : String) (hv : v ≠ "") :
    ((record.withText (u ++ v) first).withText w second).SameStreams rfc3339
        ((record.withText u first).withText (v ++ w) second) ↔
      ∀ c ∈ (u ++ v ++ w).toList, c = '\x1f' := by
  cases first <;> cases hnext
  · exact parts_moved_iff [toString record.sequence, rfc3339 record.time]
      [record.target, record.detail, record.prevHash] u v w hv
  · exact parts_moved_iff [toString record.sequence, rfc3339 record.time, record.actor]
      [record.detail, record.prevHash] u v w hv
  · exact parts_moved_iff [toString record.sequence, rfc3339 record.time, record.actor,
      record.action] [record.prevHash] u v w hv

/-- **Framing of the audit digest.** Over an alphabet the two streams tell any two records apart
that differ in a text, exactly if the separator is not in it. Text moves unseen between neighbouring
fields exactly if the two hold nothing but separators. -/
theorem audit_framing (hclock : ∀ time, '\x1f' ∉ (rfc3339 time).toList) :
    (∀ alphabet : Set Char, (∀ record other : AuditRecord, record.Over alphabet →
        other.Over alphabet → (∃ text, record.text text ≠ other.text text) →
          ¬ record.SameStreams rfc3339 other) ↔ '\x1f' ∉ alphabet) ∧
    ∀ (first second : AuditText), first.next = some second →
      ∀ (record : AuditRecord) (u v w : String), v ≠ "" →
        (((record.withText (u ++ v) first).withText w second).SameStreams rfc3339
          ((record.withText u first).withText (v ++ w) second) ↔
            ∀ c ∈ (u ++ v ++ w).toList, c = '\x1f') := by
  refine ⟨fun alphabet => ⟨fun htold hsep => ?_, fun hsep record other hrecord hother hdiffer
    hsame => ?_⟩, fun first second hnext record u v w => sameStreams_moved_iff hnext record u v w⟩
  · let empty : AuditRecord := ⟨1, 0, "", "", "", "", "", ""⟩
    have hover : ∀ text, (empty.withText "\x1f" text).Over alphabet := by
      intro text field c hc
      have hc' : c ∈ "\x1f".toList := by
        cases text <;> cases field <;> first | exact hc | cases hc
      rwa [List.mem_singleton.mp hc']
    refine htold (empty.withText "\x1f" .actor) (empty.withText "\x1f" .action) (hover _) (hover _)
      ⟨.actor, by decide⟩ ?_
    have hnext : AuditText.actor.next = some .action := rfl
    exact (sameStreams_moved_iff hnext empty "" "\x1f" "" (by decide)).mpr (by simp)
  · obtain ⟨text, htext⟩ := hdiffer
    have hfree : ∀ r : AuditRecord, r.Over alphabet → ∀ text, '\x1f' ∉ (r.text text).toList :=
      fun r hr text hmem => hsep (hr text _ hmem)
    exact htext (texts_eq_of_auditStream_eq hclock (hfree record hrecord) (hfree other hother)
      hsame.1 text)

/-- A letter that moves from the action to the actor is seen. -/
theorem audit_framing_epoch :
    ¬ (⟨1, 0, "ada", "approve", "project", "granted", AuditLog.genesis, ""⟩ :
        AuditRecord).SameStreams (fun _ => "1970-01-01T00:00:00+00:00")
      ⟨1, 0, "adaa", "pprove", "project", "granted", AuditLog.genesis, ""⟩ := by
  have hfree : ∀ record : AuditRecord, (∀ text, '\x1f' ∉ (record.text text).toList) →
      record.Over {c | c ≠ '\x1f'} := by
    intro record hrecord text c hc heq
    rw [heq] at hc
    exact hrecord text hc
  refine ((audit_framing fun _ => by decide).1 {c | c ≠ '\x1f'}).mpr (by simp) _ _
    (hfree _ fun text => ?_) (hfree _ fun text => ?_) ⟨.actor, by decide⟩
  · cases text <;> decide
  · cases text <;> decide

/-- A separator as the actor and no action, or the other way about. -/
theorem audit_framing_separator : ¬ ∀ record other : AuditRecord,
    (∃ text, record.text text ≠ other.text text) →
      ¬ record.SameStreams (fun _ => "1970-01-01T00:00:00+00:00") other := by
  intro h
  let blank : AuditRecord := ⟨1, 0, "", "", "project", "granted", AuditLog.genesis, ""⟩
  have hnext : AuditText.actor.next = some .action := rfl
  exact h ⟨1, 0, "\x1f", "", "project", "granted", AuditLog.genesis, ""⟩
    ⟨1, 0, "", "\x1f", "project", "granted", AuditLog.genesis, ""⟩ ⟨.actor, by decide⟩
    ((sameStreams_moved_iff hnext blank "" "\x1f" "" (by decide)).mpr (by simp))

end Labrys.Core
