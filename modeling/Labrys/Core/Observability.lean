import Labrys.Core.AuditTamper
import Labrys.Core.Events

/-! # Structured events and logs

The in-memory event log and log store. Both redact what they take for free text; actor names, trace
ids and resources are stored as they come.

* `EventLog.append`, `LogStore.append`.
* `texts` of a record are its fields that hold text; `unredacted` are those of the caller's texts
  that no store redacts.
* `carryNone_append_iff`: a stored record carries no secret exactly if the unredacted texts do not. -/

namespace Labrys.Core
open Foundations
set_option autoImplicit false

structure PlatformEvent where
  sequence : UInt64
  time : DateTime
  actor : EventActor
  correlation : Correlation
  action : EventAction
  resource : Option EventResource
  before : Option String
  after : Option String
  result : EventResult
deriving DecidableEq

structure EventLog where
  events : List PlatformEvent

def EventResult.redacted (secrets : List String) : EventResult → EventResult
  | .failed reason => .failed (redactReason reason secrets)
  | other => other

namespace EventLog

def new : EventLog := ⟨[]⟩

/-- Appends a draft as the next sequence number. -/
def append (log : EventLog) (draft : EventDraft) (secrets : List String) :
    EventLog × PlatformEvent :=
  let event : PlatformEvent := {
    sequence := log.events.length.toUInt64 + 1
    time := draft.time
    actor := draft.actor
    correlation := draft.correlation
    action := draft.action
    resource := draft.resource
    before := draft.before.map fun before => redactReason before secrets
    after := draft.after.map fun after => redactReason after secrets
    result := draft.result.redacted secrets }
  (⟨log.events ++ [event]⟩, event)

end EventLog

inductive LogSource
  | agent
  | build
  | runtime
  | deployment
  | capability
  | resource
deriving DecidableEq

structure LogEntry where
  sequence : UInt64
  time : DateTime
  source : LogSource
  level : LogLevel
  correlation : Correlation
  message : String
deriving DecidableEq

structure LogStore where
  entries : List LogEntry

namespace LogStore

def new : LogStore := ⟨[]⟩

/-- Appends a line with the message redacted against known secrets. -/
def append (store : LogStore) (source : LogSource) (level : LogLevel) (correlation : Correlation)
    (message : String) (secrets : List String) (time : DateTime) : LogStore × LogEntry :=
  let entry : LogEntry := {
    sequence := store.entries.length.toUInt64 + 1
    time, source, level, correlation
    message := redactReason message secrets }
  (⟨store.entries ++ [entry]⟩, entry)

end LogStore

/-! ## The texts of a record -/

def EventActor.name : EventActor → String
  | .agent _ name => name
  | .platform name => name
  | .human name => name
  | .provider name => name

def EventResource.texts (resource : EventResource) : List String := [resource.kind, resource.id]

def EventResult.texts : EventResult → List String
  | .failed reason => [reason]
  | _ => []

def PlatformEvent.texts (event : PlatformEvent) : List String :=
  event.actor.name :: event.correlation.traceId :: (event.resource.toList.flatMap (·.texts) ++
    (event.before.toList ++ (event.after.toList ++ event.result.texts)))

def LogEntry.texts (entry : LogEntry) : List String := [entry.correlation.traceId, entry.message]

/-- The texts that the caller of `append` supplied; the two digests are apart. -/
def AuditRecord.texts (record : AuditRecord) : List String :=
  [record.actor, record.action, record.target, record.detail]

def AuditRecord.digests (record : AuditRecord) : List String := [record.prevHash, record.hash]

/-- What is stored of a draft as it comes. -/
def EventDraft.unredacted (draft : EventDraft) : List String :=
  draft.actor.name :: draft.correlation.traceId :: draft.resource.toList.flatMap (·.texts)

def AuditEntry.unredacted (entry : AuditEntry) : List String :=
  [entry.actor, entry.action, entry.target]

def CarryNone (secrets texts : List String) : Prop := ∀ text ∈ texts, CarriesNone secrets text

instance (secrets texts : List String) : Decidable (CarryNone secrets texts) :=
  inferInstanceAs (Decidable (∀ text ∈ texts, CarriesNone secrets text))

@[simp] theorem carryNone_nil (secrets : List String) : CarryNone secrets [] :=
  fun _ h => by cases h

@[simp] theorem carryNone_cons (secrets texts : List String) (text : String) :
    CarryNone secrets (text :: texts) ↔ CarriesNone secrets text ∧ CarryNone secrets texts :=
  List.forall_mem_cons

@[simp] theorem carryNone_append (secrets texts texts' : List String) :
    CarryNone secrets (texts ++ texts') ↔ CarryNone secrets texts ∧ CarryNone secrets texts' :=
  List.forall_mem_append

/-- An event whose three free texts carry none: what is left are the texts stored as they come. -/
theorem carryNone_event_iff {secrets : List String} (event : PlatformEvent)
    (hbefore : CarryNone secrets event.before.toList)
    (hafter : CarryNone secrets event.after.toList)
    (hresult : CarryNone secrets event.result.texts) :
    CarryNone secrets event.texts ↔
      CarryNone secrets (event.actor.name :: event.correlation.traceId ::
        event.resource.toList.flatMap (·.texts)) := by
  simp only [PlatformEvent.texts, carryNone_cons, carryNone_append, hbefore, hafter, hresult,
    and_true]

/-- A record of an entry with a detail that carries none. -/
theorem carryNone_record_iff {secrets : List String} (record : AuditRecord)
    (hdetail : CarriesNone secrets record.detail) :
    CarryNone secrets record.texts ↔
      CarryNone secrets [record.actor, record.action, record.target] := by
  simp [AuditRecord.texts, hdetail]

section Stores
variable {secrets : List String} (hsecrets : ApartFromMarker secrets)
include hsecrets

theorem carryNone_redacted (text : Option String) :
    CarryNone secrets (text.map fun text => redactReason text secrets).toList := by
  cases text with
  | none => exact carryNone_nil secrets
  | some text =>
    rw [Option.map_some, Option.toList_some, carryNone_cons]
    exact ⟨carriesNone_redactReason hsecrets text, carryNone_nil secrets⟩

theorem carryNone_redacted_result (result : EventResult) :
    CarryNone secrets (result.redacted secrets).texts := by
  cases result with
  | failed reason =>
    rw [EventResult.redacted, EventResult.texts, carryNone_cons]
    exact ⟨carriesNone_redactReason hsecrets reason, carryNone_nil secrets⟩
  | _ => exact carryNone_nil secrets

theorem EventLog.carryNone_append_iff (log : EventLog) (draft : EventDraft) :
    CarryNone secrets (log.append draft secrets).2.texts ↔ CarryNone secrets draft.unredacted :=
  carryNone_event_iff _ (carryNone_redacted hsecrets draft.before)
    (carryNone_redacted hsecrets draft.after) (carryNone_redacted_result hsecrets draft.result)

theorem LogStore.carryNone_append_iff (store : LogStore) (source : LogSource) (level : LogLevel)
    (correlation : Correlation) (message : String) (time : DateTime) :
    CarryNone secrets (store.append source level correlation message secrets time).2.texts ↔
      CarriesNone secrets correlation.traceId := by
  have hmessage := carriesNone_redactReason hsecrets message
  simp [LogEntry.texts, LogStore.append, hmessage]

theorem AuditLog.carryNone_append_iff (rfc3339 : DateTime → String) (log : AuditLog)
    (entry : AuditEntry) :
    CarryNone secrets (log.append rfc3339 entry.time entry.actor entry.action entry.target
      entry.detail secrets).2.texts ↔ CarryNone secrets entry.unredacted :=
  carryNone_record_iff _ (carriesNone_redactReason hsecrets entry.detail)

end Stores

/-! ## The digests of an audit record -/

def isHexDigit (c : Char) : Bool := ('0' ≤ c ∧ c ≤ '9') ∨ ('a' ≤ c ∧ c ≤ 'f')

def IsHex (text : String) : Prop := ∀ c ∈ text.toList, isHexDigit c = true

theorem isHex_hexDigits (width value : ℕ) : IsHex (hexDigits width value) := by
  have hdigit : ∀ n < 16, isHexDigit (Nat.digitChar n) = true := by decide
  intro c hc
  rw [hexDigits, String.toList_ofList, List.mem_map] at hc
  obtain ⟨i, -, rfl⟩ := hc
  exact hdigit _ (Nat.mod_lt _ (by omega))

theorem isHex_auditDigest (parts : List String) : IsHex (auditDigest parts) := by
  intro c hc
  rw [auditDigest, String.toList_append, List.mem_append] at hc
  exact hc.elim (isHex_hexDigits _ _ c) (isHex_hexDigits _ _ c)

/-- Only hexadecimal text occurs in hexadecimal text. -/
theorem IsHex.of_containsText {text secret : String} (htext : IsHex text)
    (h : containsText text secret = true) : IsHex secret := by
  intro c hc
  have hpart : secret.toList <:+: text.toList := of_decide_eq_true h
  exact htext c (hpart.subset hc)

/-- Every digest of a log that verifies is hexadecimal. -/
theorem isHex_digests (rfc3339 : DateTime → String) {records : List AuditRecord}
    (h : (AuditLog.restore records).verify rfc3339 = .ok ()) :
    ∀ record ∈ records, ∀ digest ∈ record.digests, IsHex digest := by
  have hhash : ∀ record ∈ records, IsHex record.hash := by
    intro record hrecord
    obtain ⟨i, hi⟩ := List.mem_iff_getElem?.mp hrecord
    rw [(AuditLog.verify_at rfc3339 h hi).2.2]
    exact isHex_auditDigest _
  intro record hrecord digest hdigest
  obtain rfl | hdigest := List.mem_cons.mp hdigest
  · -- The link is the genesis text or the hash of the record before.
    obtain ⟨i, hi⟩ := List.mem_iff_getElem?.mp hrecord
    rw [(AuditLog.verify_at rfc3339 h hi).2.1, Chain.lastLink]
    cases hlast : (records.take i).getLast? with
    | none =>
      have hgenesis : AuditLog.genesis.toList.all isHexDigit = true := by decide +kernel
      exact List.all_eq_true.mp hgenesis
    | some before => exact hhash before (List.mem_of_mem_take (List.mem_of_getLast? hlast))
  · rw [List.mem_singleton.mp hdigest]
    exact hhash record hrecord

end Labrys.Core
