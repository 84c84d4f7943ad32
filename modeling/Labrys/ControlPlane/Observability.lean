import Labrys.Core.Observability
import Labrys.ControlPlane.AuditAppend
import Labrys.ControlPlane.Store

/-! # What the stores of two crates keep of a caller's text

The durable event and log stores redact the same fields as those in memory, and guard them. With
`append_audit` they are the three durable counterparts.

* `appendEvent`, `appendLog`: the record that is stored and read back.
* `stored_texts_iff`: exactly when a stored record carries none of the secrets. -/

namespace Labrys.ControlPlane
open Foundations Labrys.Core
set_option autoImplicit false

/-- `append_event`, read back by `event_from_row`; the sequence is the one the database assigns. -/
def appendEvent (sequence : ℤ) (draft : EventDraft) (secrets : List String) :
    Except ControlPlaneError PlatformEvent := do
  let stored ← redactEvent draft secrets
  return {
    sequence := UInt64.ofInt sequence
    time := timestamptz stored.time
    actor := stored.actor
    correlation := stored.correlation
    action := stored.action
    resource := stored.resource
    before := stored.before
    after := stored.after
    result := stored.result }

/-- `append_log`, read back by `log_from_row`. -/
def appendLog (sequence : ℤ) (source : LogSource) (level : LogLevel) (correlation : Correlation)
    (message : String) (secrets : List String) (time : DateTime) :
    Except ControlPlaneError LogEntry := do
  let message ← redactGuard "log.message" message secrets
  return {
    sequence := UInt64.ofInt sequence
    time := timestamptz time
    source := source
    level := level
    correlation := correlation
    message := message }

/-- What every text that passed the guard is. -/
theorem carriesNone_of_redactGuard {field text out : String} {secrets : List String}
    (h : redactGuard field text secrets = .ok out) : CarriesNone secrets out := by
  rw [redactGuard_eq] at h
  split_ifs at h with hclear
  obtain rfl := Except.ok.inj h
  exact hclear

theorem carryNone_guarded {field : String} {text : Option String} {out : String}
    {secrets : List String} (h : redactGuard field (text.getD "") secrets = .ok out) :
    CarryNone secrets (text.map fun _ => out).toList := by
  cases text with
  | none => exact carryNone_nil secrets
  | some text =>
    rw [Option.map_some, Option.toList_some, carryNone_cons]
    exact ⟨carriesNone_of_redactGuard h, carryNone_nil secrets⟩

/-- The free texts of a draft that passed the guards carry no secret; the others are as they came. -/
theorem redactEvent_eq_ok {draft stored : EventDraft} {secrets : List String}
    (h : redactEvent draft secrets = .ok stored) :
    CarryNone secrets stored.before.toList ∧ CarryNone secrets stored.after.toList ∧
      CarryNone secrets stored.result.texts ∧ stored.unredacted = draft.unredacted := by
  obtain ⟨before, after, result, hbefore, hafter, hresult, rfl⟩ := redactEvent_cases h
  refine ⟨carryNone_guarded hbefore, carryNone_guarded hafter, ?_, rfl⟩
  obtain ⟨rfl, hother⟩ | ⟨reason, out, hguard, rfl⟩ := hresult
  · cases hdraft : draft.result with
    | failed reason => exact absurd hdraft (hother reason)
    | _ => exact carryNone_nil secrets
  · rw [EventResult.texts, carryNone_cons]
    exact ⟨carriesNone_of_redactGuard hguard, carryNone_nil secrets⟩

theorem appendEvent_iff {sequence : ℤ} {draft : EventDraft} {secrets : List String}
    {event : PlatformEvent} (h : appendEvent sequence draft secrets = .ok event) :
    CarryNone secrets event.texts ↔ CarryNone secrets draft.unredacted := by
  cases hredact : redactEvent draft secrets with
  | error e => rw [appendEvent, hredact] at h; cases h
  | ok stored =>
    obtain ⟨hbefore, hafter, hresult, hkept⟩ := redactEvent_eq_ok hredact
    rw [appendEvent, hredact] at h
    obtain rfl := Except.ok.inj h
    rw [← hkept]
    exact carryNone_event_iff _ hbefore hafter hresult

theorem appendLog_iff {sequence : ℤ} {source : LogSource} {level : LogLevel}
    {correlation : Correlation} {message : String} {secrets : List String} {time : DateTime}
    {entry : LogEntry}
    (h : appendLog sequence source level correlation message secrets time = .ok entry) :
    CarryNone secrets entry.texts ↔ CarriesNone secrets correlation.traceId := by
  cases hguard : redactGuard "log.message" message secrets with
  | error e => rw [appendLog, hguard] at h; cases h
  | ok out =>
    have hclear := carriesNone_of_redactGuard hguard
    rw [appendLog, hguard] at h
    obtain rfl := Except.ok.inj h
    simp [LogEntry.texts, hclear]

theorem buildRecord_iff {rfc3339 : DateTime → String} {call : AuditCall} {time : DateTime}
    {last : Option (ℤ × String)} {sequence : ℤ} {record : AuditRecord}
    (h : buildRecord rfc3339 call time last = .ok (sequence, record)) :
    CarryNone call.secrets record.texts ↔ CarryNone call.secrets call.entry.unredacted := by
  unfold buildRecord at h
  split at h
  · cases h
  · split at h
    · cases h
    · next detail hguard =>
      have hclear := carriesNone_of_redactGuard hguard
      obtain ⟨-, rfl⟩ := Prod.mk.inj (Except.ok.inj h)
      exact carryNone_record_iff _ hclear

/-! ## Secrets apart from the marker -/

section Apart
variable {secrets : List String} (hsecrets : ApartFromMarker secrets)
include hsecrets

theorem redactGuard_eq_ok (field text : String) :
    redactGuard field text secrets = .ok (redactReason text secrets) := by
  rw [redactGuard_eq, if_pos (carriesNone_redactReason hsecrets text)]

theorem redactEvent_of_apart (draft : EventDraft) :
    ∃ stored, redactEvent draft secrets = .ok stored := by
  unfold redactEvent
  rw [redactGuard_eq_ok hsecrets, redactGuard_eq_ok hsecrets]
  cases hresult : draft.result with
  | failed reason =>
    simp only [redactGuard_eq_ok hsecrets]
    exact ⟨_, rfl⟩
  | _ => exact ⟨_, rfl⟩

theorem appendEvent_eq_ok (sequence : ℤ) (draft : EventDraft) :
    ∃ event, appendEvent sequence draft secrets = .ok event := by
  obtain ⟨stored, hstored⟩ := redactEvent_of_apart hsecrets draft
  unfold appendEvent
  rw [hstored]
  exact ⟨_, rfl⟩

theorem appendLog_eq_ok (sequence : ℤ) (source : LogSource) (level : LogLevel)
    (correlation : Correlation) (message : String) (time : DateTime) :
    ∃ entry, appendLog sequence source level correlation message secrets time = .ok entry := by
  unfold appendLog
  rw [redactGuard_eq_ok hsecrets]
  exact ⟨_, rfl⟩

theorem buildRecord_eq_ok (rfc3339 : DateTime → String) (entry : Core.AuditEntry) (time : DateTime)
    {last : Option (ℤ × String)} {sequence : ℤ} (hnext : nextSequence last = some sequence) :
    ∃ record, buildRecord rfc3339 ⟨entry, secrets⟩ time last = .ok (sequence, record) := by
  unfold buildRecord
  rw [hnext, redactGuard_eq_ok hsecrets]
  exact ⟨_, rfl⟩

end Apart

/-- **What a stored record carries.** For secrets apart from the marker, the texts of the record
that each of the six stores keeps carry none of them exactly if the texts that no store redacts
carry none: an event's actor name, trace id, resource kind and resource id; a log line's trace id; an
audit record's actor, action and target. The digests of a log that verifies are hexadecimal, so no
other secret occurs there. -/
theorem stored_texts_iff (rfc3339 : DateTime → String) (secrets : List String)
    (hsecrets : ApartFromMarker secrets) :
    (∀ (log : EventLog) (draft : EventDraft),
      CarryNone secrets (log.append draft secrets).2.texts ↔
        CarryNone secrets draft.unredacted) ∧
    (∀ (store : LogStore) (source : LogSource) (level : LogLevel) (correlation : Correlation)
        (message : String) (time : DateTime),
      CarryNone secrets (store.append source level correlation message secrets time).2.texts ↔
        CarriesNone secrets correlation.traceId) ∧
    (∀ (log : AuditLog) (entry : Core.AuditEntry),
      CarryNone secrets (log.append rfc3339 entry.time entry.actor entry.action entry.target
        entry.detail secrets).2.texts ↔ CarryNone secrets entry.unredacted) ∧
    (∀ (sequence : ℤ) (draft : EventDraft), ∃ event,
      appendEvent sequence draft secrets = .ok event ∧
        (CarryNone secrets event.texts ↔ CarryNone secrets draft.unredacted)) ∧
    (∀ (sequence : ℤ) (source : LogSource) (level : LogLevel) (correlation : Correlation)
        (message : String) (time : DateTime), ∃ entry,
      appendLog sequence source level correlation message secrets time = .ok entry ∧
        (CarryNone secrets entry.texts ↔ CarriesNone secrets correlation.traceId)) ∧
    (∀ (entry : Core.AuditEntry) (time : DateTime) (last : Option (ℤ × String)) (sequence : ℤ),
      nextSequence last = some sequence → ∃ record,
        buildRecord rfc3339 ⟨entry, secrets⟩ time last = .ok (sequence, record) ∧
          (CarryNone secrets record.texts ↔ CarryNone secrets entry.unredacted)) ∧
    ∀ records : List AuditRecord, (AuditLog.restore records).verify rfc3339 = .ok () →
      ∀ record ∈ records, ∀ digest ∈ record.digests, ∀ secret,
        containsText digest secret = true → IsHex secret := by
  refine ⟨EventLog.carryNone_append_iff hsecrets, LogStore.carryNone_append_iff hsecrets,
    AuditLog.carryNone_append_iff hsecrets rfc3339, ?_, ?_, ?_, ?_⟩
  · intro sequence draft
    obtain ⟨event, hevent⟩ := appendEvent_eq_ok hsecrets sequence draft
    exact ⟨event, hevent, appendEvent_iff hevent⟩
  · intro sequence source level correlation message time
    obtain ⟨entry, hentry⟩ :=
      appendLog_eq_ok hsecrets sequence source level correlation message time
    exact ⟨entry, hentry, appendLog_iff hentry⟩
  · intro entry time last sequence hnext
    obtain ⟨record, hrecord⟩ := buildRecord_eq_ok hsecrets rfc3339 entry time hnext
    exact ⟨record, hrecord, buildRecord_iff hrecord⟩
  · intro records hverify record hrecord digest hdigest secret hcontains
    exact (isHex_digests rfc3339 hverify record hrecord digest hdigest).of_containsText hcontains

theorem stored_texts_reason :
    ApartFromMarker ["s3kx"] ∧
      CarryNone ["s3kx"] (EventLog.new.append (.new 0 (.human "ada") (.new "trace-1") .buildFinished
        (.failed "token s3kx refused")) ["s3kx"]).2.texts := by
  have hapart : ApartFromMarker ["s3kx"] := by decide
  refine ⟨hapart, ?_⟩
  exact ((stored_texts_iff (fun _ => "") ["s3kx"] hapart).1 .new _).mpr (by decide)

/-- An actor named by the secret is stored under that name, in memory and in the table. -/
theorem actor_name_stored :
    let draft : EventDraft := .new 0 (.human "s3kx") (.new "trace-1") .buildFinished .succeeded
    ApartFromMarker ["s3kx"] ∧
      ¬ CarryNone ["s3kx"] (EventLog.new.append draft ["s3kx"]).2.texts ∧
      ∃ event, appendEvent 1 draft ["s3kx"] = .ok event ∧ ¬ CarryNone ["s3kx"] event.texts := by
  refine ⟨by decide, by decide, _, rfl, by decide⟩

end Labrys.ControlPlane
