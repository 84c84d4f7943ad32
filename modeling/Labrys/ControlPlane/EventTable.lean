import Labrys.ControlPlane.Observability
import Labrys.Core.EventJson
import Labrys.Core.Dashboard
import Labrys.Core.Surfaces
import Labrys.Foundations.AppendOnly

/-! # The columns of the event and log tables

The durable stores keep a record in columns of text and JSON and read it back on every query. A
database numbers the rows; a number is never given twice, and writers that overlap may commit in
another order than that of their numbers.

* `insertEvent`, `eventFromRow`, `LogCall.insert`, `logFromRow`: a record to its columns and back.
* `EventTable.forApplication` and its siblings, `LogTable.forSource`, `LogTable.errors`: the queries.
* `event_queries`, `log_queries`: whatever was appended in whatever order, each query finds what the
  same query of the store in memory finds, had the records been appended in the order of their
  numbers. -/

namespace Labrys.ControlPlane
open Foundations Labrys.Core
set_option autoImplicit false

/-! ## What the columns hold -/

/-- A text column, or a text in a `jsonb` one, refuses the character zero. -/
def storableText (text : String) : Bool := text.toList.all fun c => c ≠ '\x00'

mutual

def storableJson : Json → Bool
  | .string text => storableText text
  | .array items => storableItems items
  | .object members => storableMembers members
  | _ => true

def storableItems : List Json → Bool
  | [] => true
  | item :: items => storableJson item && storableItems items

def storableMembers : List (String × Json) → Bool
  | [] => true
  | (name, value) :: members =>
      storableText name && storableJson value && storableMembers members

end

def zeroByte : ControlPlaneError := .database "invalid byte sequence for encoding \"UTF8\": 0x00"

/-- Why a row could not be read: a name that no variant has, or a JSON value of another shape. -/
inductive ReadError
  | mapping (what : String)
  | serialization
deriving DecidableEq

/-- The columns that a correlation is kept in. -/
structure CorrelationColumns where
  traceId : String
  sessionId : Option String
  applicationId : Option String
  environmentId : Option String
deriving DecidableEq

def CorrelationColumns.of (correlation : Correlation) : CorrelationColumns where
  traceId := correlation.traceId
  sessionId := correlation.sessionId.map toString
  applicationId := correlation.applicationId.map toString
  environmentId := correlation.environmentId.map toString

def CorrelationColumns.texts (columns : CorrelationColumns) : List String :=
  columns.traceId :: (columns.sessionId.toList ++ columns.applicationId.toList ++
    columns.environmentId.toList)

section Read
variable (fresh : Uuid)

/-- `parse_session` and its siblings: a text that is no id is read as a fresh one. -/
def parseId (tag : String) (value : String) : TaggedId tag := (TaggedId.parse tag value).getD ⟨fresh⟩

def CorrelationColumns.read (columns : CorrelationColumns) : Correlation where
  traceId := columns.traceId
  sessionId := columns.sessionId.map (parseId fresh "agt")
  applicationId := columns.applicationId.map (parseId fresh "app")
  environmentId := columns.environmentId.map (parseId fresh "env")

theorem read_of (correlation : Correlation) :
    (CorrelationColumns.of correlation).read fresh = correlation := by
  have hid {tag : String} (id : Option (TaggedId tag)) :
      (id.map toString).map (parseId fresh tag) = id := by
    cases id with
    | none => rfl
    | some id =>
      have hparse := TaggedId.parse_toString id
      simp [parseId, hparse]
  obtain ⟨traceId, sessionId, applicationId, environmentId⟩ := correlation
  simp only [CorrelationColumns.of, CorrelationColumns.read, hid]

end Read

/-! ## Events -/

/-- A row of `events`. -/
structure EventRow where
  sequence : ℤ
  time : DateTime
  actor : Json
  correlation : CorrelationColumns
  action : String
  resourceKind : Option String
  resourceId : Option String
  beforeState : Option String
  afterState : Option String
  result : Json
deriving DecidableEq

def EventRow.texts (row : EventRow) : List String :=
  row.correlation.texts ++ row.action :: (row.resourceKind.toList ++ row.resourceId.toList ++
    row.beforeState.toList ++ row.afterState.toList)

def EventRow.storable (row : EventRow) : Bool :=
  storableJson row.actor && storableJson row.result && row.texts.all storableText

/-- The row of a draft whose free text is redacted. -/
def eventRow (sequence : ℤ) (draft : EventDraft) : EventRow where
  sequence := sequence
  time := timestamptz draft.time
  actor := draft.actor.toValue
  correlation := .of draft.correlation
  action := draft.action.canonicalName
  resourceKind := draft.resource.map (·.kind)
  resourceId := draft.resource.map (·.id)
  beforeState := draft.before
  afterState := draft.after
  result := draft.result.toValue

/-- `append_event`, with the number the database assigns. -/
def insertEvent (sequence : ℤ) (draft : EventDraft) (secrets : List String) :
    Except ControlPlaneError EventRow := do
  let stored ← redactEvent draft secrets
  let row := eventRow sequence stored
  if row.storable then return row else throw zeroByte

def actionFromName (name : String) : Except ReadError EventAction :=
  match name with
  | "capability_requested" => .ok .capabilityRequested
  | "capability_decision" => .ok .capabilityDecision
  | "resource_provisioned" => .ok .resourceProvisioned
  | "secret_rotated" => .ok .secretRotated
  | "secret_replaced" => .ok .secretReplaced
  | "build_started" => .ok .buildStarted
  | "build_finished" => .ok .buildFinished
  | "deployment_rolled_out" => .ok .deploymentRolledOut
  | "deployment_rolled_back" => .ok .deploymentRolledBack
  | "domain_changed" => .ok .domainChanged
  | "health_probed" => .ok .healthProbed
  | "reconciled" => .ok .reconciled
  | "verification_finished" => .ok .verificationFinished
  | "approval_requested" => .ok .approvalRequested
  | "approval_decided" => .ok .approvalDecided
  | other => .error (.mapping s!"unknown event action {other}")

def jsonGet {α : Type} (read : Json → Option α) (value : Json) : Except ReadError α :=
  match read value with
  | some a => .ok a
  | none => .error .serialization

def eventFromRow (fresh : Uuid) (row : EventRow) : Except ReadError PlatformEvent := do
  let actor ← jsonGet EventActor.fromValue row.actor
  let result ← jsonGet EventResult.fromValue row.result
  let action ← actionFromName row.action
  return {
    sequence := UInt64.ofInt row.sequence
    time := row.time
    actor := actor
    correlation := row.correlation.read fresh
    action := action
    resource := match row.resourceKind, row.resourceId with
      | some kind, some id => some ⟨kind, id⟩
      | _, _ => none
    before := row.beforeState
    after := row.afterState
    result := result }

theorem actionFromName_canonicalName (action : EventAction) :
    actionFromName action.canonicalName = .ok action := by
  cases action <;> rfl

/-- A row is read back as the draft it is of. -/
theorem eventFromRow_eventRow (fresh : Uuid) (sequence : ℤ) (draft : EventDraft) :
    eventFromRow fresh (eventRow sequence draft) = .ok {
      sequence := UInt64.ofInt sequence
      time := timestamptz draft.time
      actor := draft.actor
      correlation := draft.correlation
      action := draft.action
      resource := draft.resource
      before := draft.before
      after := draft.after
      result := draft.result } := by
  have hactor : jsonGet EventActor.fromValue draft.actor.toValue = .ok draft.actor := by
    rw [jsonGet, EventActor.fromValue_toValue]
  have hresult : jsonGet EventResult.fromValue draft.result.toValue = .ok draft.result := by
    rw [jsonGet, EventResult.fromValue_toValue]
  have haction := actionFromName_canonicalName draft.action
  have hcorrelation := read_of fresh draft.correlation
  unfold eventFromRow eventRow
  dsimp only
  rw [hactor, hresult, haction, hcorrelation]
  cases draft.resource <;> rfl

/-! ## The event table -/

abbrev EventTable := List EventRow

/-- One append: the number it is given, the draft, and the secrets that are known to the caller. -/
structure EventCall where
  sequence : ℤ
  draft : EventDraft
  secrets : List String

def EventCall.insert (call : EventCall) : Except ControlPlaneError EventRow :=
  insertEvent call.sequence call.draft call.secrets

def eventTable : Machine EventTable EventCall (Except ControlPlaneError EventRow) :=
  appending EventCall.insert

namespace EventTable
variable (rows : EventTable) (fresh : Uuid)

/-- `SELECT * FROM events WHERE .. ORDER BY sequence`. -/
def select (wanted : EventRow → Bool) : Except ReadError (List PlatformEvent) :=
  (sortByKey (fun row : EventRow => row.sequence) (rows.filter wanted)).mapM (eventFromRow fresh)

def forApplication (applicationId : String) : Except ReadError (List PlatformEvent) :=
  rows.select fresh fun row => decide (row.correlation.applicationId = some applicationId)

def forEnvironment (environmentId : String) : Except ReadError (List PlatformEvent) :=
  rows.select fresh fun row => decide (row.correlation.environmentId = some environmentId)

def forSession (sessionId : String) : Except ReadError (List PlatformEvent) :=
  rows.select fresh fun row => decide (row.correlation.sessionId = some sessionId)

def forTrace (traceId : String) : Except ReadError (List PlatformEvent) :=
  rows.select fresh fun row => decide (row.correlation.traceId = traceId)

end EventTable

/-! ## The log in memory -/

/-- The log in memory after some appends. -/
def remembered (calls : List EventCall) : EventLog :=
  calls.foldl (fun log call => (log.append call.draft call.secrets).1) .new

/-- The appends that were accepted, in the order of their numbers. -/
def inOrder (calls : List EventCall) : List EventCall :=
  sortByKey (fun call : EventCall => call.sequence) (calls.filter (isAccepted EventCall.insert))

/-- An event without its number, at the time a table keeps. -/
def unnumbered (event : PlatformEvent) : PlatformEvent :=
  { event with sequence := 0, time := timestamptz event.time }

/-- A query returned these events, up to their numbers and what a table keeps of their times. -/
def Finds (query : Except ReadError (List PlatformEvent)) (events : List PlatformEvent) : Prop :=
  ∃ found, query = .ok found ∧
    found.map unnumbered = events.map unnumbered

/-! ## What is stored of an append -/

/-- A draft with its free text redacted. -/
def EventCall.redacted (call : EventCall) : EventDraft :=
  { call.draft with
    before := call.draft.before.map fun before => redactReason before call.secrets
    after := call.draft.after.map fun after => redactReason after call.secrets
    result := call.draft.result.redacted call.secrets }

def EventCall.row (call : EventCall) : EventRow := eventRow call.sequence call.redacted

/-- What the row is read back as, but for its number. -/
def EventCall.event (call : EventCall) : PlatformEvent where
  sequence := 0
  time := timestamptz call.draft.time
  actor := call.redacted.actor
  correlation := call.redacted.correlation
  action := call.redacted.action
  resource := call.redacted.resource
  before := call.redacted.before
  after := call.redacted.after
  result := call.redacted.result

theorem redactGuard_ok {field text out : String} {secrets : List String}
    (h : redactGuard field text secrets = .ok out) : out = redactReason text secrets := by
  rw [redactGuard_eq] at h
  split_ifs at h
  exact (Except.ok.inj h).symm

theorem map_redactGuard {field out : String} {text : Option String} {secrets : List String}
    (h : redactGuard field (text.getD "") secrets = .ok out) :
    (text.map fun _ => out) = text.map fun text => redactReason text secrets := by
  cases text with
  | none => rfl
  | some text => rw [redactGuard_ok h]; rfl

/-- A draft that passes the guards is stored with its free text redacted. -/
theorem redactEvent_redacted {call : EventCall} {stored : EventDraft}
    (h : redactEvent call.draft call.secrets = .ok stored) : stored = call.redacted := by
  unfold redactEvent at h
  obtain ⟨before, hbefore, h⟩ := except_bind_eq_ok h
  obtain ⟨after, hafter, h⟩ := except_bind_eq_ok h
  rw [map_redactGuard hbefore, map_redactGuard hafter] at h
  unfold EventCall.redacted
  cases hresult : call.draft.result with
  | failed reason =>
    simp only [hresult] at h
    obtain ⟨result, hfailed, h⟩ := except_bind_eq_ok h
    obtain ⟨out, hguard, hout⟩ := except_bind_eq_ok hfailed
    rw [← Except.ok.inj h, ← Except.ok.inj hout, redactGuard_ok hguard]
    rfl
  | _ =>
    simp only [hresult] at h
    exact (Except.ok.inj h).symm

theorem insert_ok {call : EventCall} {row : EventRow} (h : call.insert = .ok row) :
    row = call.row := by
  unfold EventCall.insert insertEvent at h
  obtain ⟨stored, hstored, h⟩ := except_bind_eq_ok h
  rw [redactEvent_redacted hstored] at h
  dsimp only at h
  split at h
  · exact (Except.ok.inj h).symm
  · cases h

/-- What a row is read back as. -/
def EventCall.read (call : EventCall) : PlatformEvent :=
  { call.event with sequence := UInt64.ofInt call.sequence }

theorem eventFromRow_row (fresh : Uuid) (call : EventCall) :
    eventFromRow fresh call.row = .ok call.read :=
  eventFromRow_eventRow fresh call.sequence call.redacted

theorem unnumbered_read (call : EventCall) : unnumbered call.read = call.event := by
  unfold unnumbered EventCall.read EventCall.event
  dsimp only
  rw [timestamptz_idem]

/-- What the log in memory remembers. -/
theorem events_remembered (calls : List EventCall) :
    (remembered calls).events.map unnumbered = calls.map EventCall.event := by
  refine map_foldl_append (fun log call => ?_) EventLog.new calls
  rw [EventLog.append, List.map_append]
  rfl

/-! ## Queries of events -/

/-- A query of the table and a query of the log that ask the same of a row and of its event. -/
theorem finds_select {calls : List EventCall} (hfresh : (calls.map (·.sequence)).Nodup)
    (fresh : Uuid) {wanted : EventRow → Bool} {q : PlatformEvent → Bool}
    (hsame : ∀ call : EventCall, wanted call.row = q call.event)
    (hq : ∀ event, q (unnumbered event) = q event) :
    Finds (EventTable.select (eventTable.run [] calls) fresh wanted)
      ((remembered (inOrder calls)).events.filter q) := by
  refine ⟨((inOrder calls).filter fun call => q call.event).map EventCall.read, ?_, ?_⟩
  · exact query_appending (fun _ _ => insert_ok) (fun _ => rfl) (eventFromRow_row fresh) hfresh hsame
  · rw [map_filter_view hq, events_remembered, List.map_map, List.filter_map]
    exact List.map_congr_left fun call _ => unnumbered_read call

/-- **Event queries.** Whatever events were appended, with numbers no two of which are the same and
in whatever order, every query of the table finds what the same query of the log in memory does, when
the events that the table accepted were appended there in the order of their numbers. -/
theorem event_queries (calls : List EventCall) (hfresh : (calls.map (·.sequence)).Nodup)
    (fresh : Uuid) :
    (∀ id : ApplicationId, Finds
      (EventTable.forApplication (eventTable.run [] calls) fresh (toString id))
      ((remembered (inOrder calls)).forApplication id)) ∧
    (∀ id : EnvironmentId, Finds
      (EventTable.forEnvironment (eventTable.run [] calls) fresh (toString id))
      ((remembered (inOrder calls)).forEnvironment id)) ∧
    (∀ id : AgentSessionId, Finds
      (EventTable.forSession (eventTable.run [] calls) fresh (toString id))
      ((remembered (inOrder calls)).forSession id)) ∧
    ∀ traceId, Finds (EventTable.forTrace (eventTable.run [] calls) fresh traceId)
      ((remembered (inOrder calls)).forTrace traceId) := by
  have hid {tag : String} (stored : Option (TaggedId tag)) (id : TaggedId tag) :
      decide (stored.map toString = some (toString id)) = decide (stored = some id) := by
    refine decide_eq_decide.mpr ?_
    cases stored with
    | none => simp
    | some other => simp [TaggedId.toString_injective.eq_iff]
  refine ⟨fun id => ?_, fun id => ?_, fun id => ?_, fun traceId => ?_⟩
  · exact finds_select hfresh fresh (fun call => hid call.draft.correlation.applicationId id)
      fun _ => rfl
  · exact finds_select hfresh fresh (fun call => hid call.draft.correlation.environmentId id)
      fun _ => rfl
  · exact finds_select hfresh fresh (fun call => hid call.draft.correlation.sessionId id)
      fun _ => rfl
  · exact finds_select hfresh fresh (fun _ => rfl) fun _ => rfl

/-- Two appends to one application that commit in the other order than that of their numbers. -/
def overlappingCalls : List EventCall :=
  [⟨7, .new 1500 (.human "ada") { Correlation.new "t" with applicationId := some ⟨1⟩ } .buildFinished
      (.failed "token s3kx refused"), ["s3kx"]⟩,
    ⟨5, .new 0 (.agent ⟨2⟩ "pi") { Correlation.new "t" with applicationId := some ⟨1⟩ } .buildStarted
      .accepted, []⟩]

theorem overlapping_events_found :
    Finds (EventTable.forApplication (eventTable.run [] overlappingCalls) 0
        (toString (⟨1⟩ : ApplicationId)))
      ((remembered (inOrder overlappingCalls)).forApplication ⟨1⟩) :=
  (event_queries overlappingCalls (by decide) 0).1 ⟨1⟩

/-! ## Logs -/

/-- A row of `logs`. -/
structure LogColumns where
  sequence : ℤ
  time : DateTime
  source : String
  level : String
  correlation : CorrelationColumns
  message : String
deriving DecidableEq

def LogColumns.storable (row : LogColumns) : Bool :=
  (row.source :: row.level :: row.message :: row.correlation.texts).all storableText

def levelName : LogLevel → String
  | .info => "info"
  | .warn => "warn"
  | .error => "error"

def logLevelFromName (name : String) : Except ReadError LogLevel :=
  match name with
  | "info" => .ok .info
  | "warn" => .ok .warn
  | "error" => .ok .error
  | other => .error (.mapping s!"unknown log level {other}")

def logSourceFromName (name : String) : Except ReadError LogSource :=
  match name with
  | "agent" => .ok .agent
  | "build" => .ok .build
  | "runtime" => .ok .runtime
  | "deployment" => .ok .deployment
  | "capability" => .ok .capability
  | "resource" => .ok .resource
  | other => .error (.mapping s!"unknown log source {other}")

/-- One append to the logs. -/
structure LogCall where
  sequence : ℤ
  source : LogSource
  level : LogLevel
  correlation : Correlation
  message : String
  secrets : List String
  time : DateTime

/-- The row of a call whose message is redacted. -/
def LogCall.rowWith (call : LogCall) (message : String) : LogColumns where
  sequence := call.sequence
  time := timestamptz call.time
  source := call.source.canonicalName
  level := levelName call.level
  correlation := .of call.correlation
  message := message

/-- `append_log`, with the number the database assigns. -/
def LogCall.insert (call : LogCall) : Except ControlPlaneError LogColumns := do
  let message ← redactGuard "log.message" call.message call.secrets
  if (call.rowWith message).storable then return call.rowWith message else throw zeroByte

def logFromRow (fresh : Uuid) (row : LogColumns) : Except ReadError LogEntry := do
  let source ← logSourceFromName row.source
  let level ← logLevelFromName row.level
  return {
    sequence := UInt64.ofInt row.sequence
    time := row.time
    source := source
    level := level
    correlation := row.correlation.read fresh
    message := row.message }

abbrev LogTable := List LogColumns

def logTable : Machine LogTable LogCall (Except ControlPlaneError LogColumns) :=
  appending LogCall.insert

namespace LogTable
variable (rows : LogTable) (fresh : Uuid)

def select (wanted : LogColumns → Bool) : Except ReadError (List LogEntry) :=
  (sortByKey (fun row : LogColumns => row.sequence) (rows.filter wanted)).mapM (logFromRow fresh)

def forSource (source : LogSource) : Except ReadError (List LogEntry) :=
  rows.select fresh fun row => decide (row.source = source.canonicalName)

def errors : Except ReadError (List LogEntry) :=
  rows.select fresh fun row => decide (row.level = "error")

end LogTable

/-- The log store in memory after some appends. -/
def rememberedLogs (calls : List LogCall) : LogStore :=
  calls.foldl (fun store call => (store.append call.source call.level call.correlation call.message
    call.secrets call.time).1) .new

def logsInOrder (calls : List LogCall) : List LogCall :=
  sortByKey (fun call : LogCall => call.sequence) (calls.filter (isAccepted LogCall.insert))

def unnumberedLog (entry : LogEntry) : LogEntry :=
  { entry with sequence := 0, time := timestamptz entry.time }

def FindsLogs (query : Except ReadError (List LogEntry)) (entries : List LogEntry) : Prop :=
  ∃ found, query = .ok found ∧ found.map unnumberedLog = entries.map unnumberedLog

/-! ### What is stored of a line -/

def LogCall.row (call : LogCall) : LogColumns := call.rowWith (redactReason call.message call.secrets)

def LogCall.read (call : LogCall) : LogEntry where
  sequence := UInt64.ofInt call.sequence
  time := timestamptz call.time
  source := call.source
  level := call.level
  correlation := call.correlation
  message := redactReason call.message call.secrets

def LogCall.entry (call : LogCall) : LogEntry := { call.read with sequence := 0 }

theorem insertLog_ok {call : LogCall} {row : LogColumns} (h : call.insert = .ok row) :
    row = call.row := by
  unfold LogCall.insert at h
  obtain ⟨message, hguard, h⟩ := except_bind_eq_ok h
  rw [redactGuard_ok hguard] at h
  split at h
  · exact (Except.ok.inj h).symm
  · cases h

theorem logFromRow_row (fresh : Uuid) (call : LogCall) :
    logFromRow fresh call.row = .ok call.read := by
  have hsource : logSourceFromName call.source.canonicalName = .ok call.source := by
    cases call.source <;> rfl
  have hlevel : logLevelFromName (levelName call.level) = .ok call.level := by
    cases call.level <;> rfl
  have hcorrelation := read_of fresh call.correlation
  unfold logFromRow LogCall.row LogCall.rowWith
  dsimp only
  rw [hsource, hlevel, hcorrelation]
  rfl

theorem entries_rememberedLogs (calls : List LogCall) :
    (rememberedLogs calls).entries.map unnumberedLog = calls.map LogCall.entry := by
  refine map_foldl_append (fun store call => ?_) LogStore.new calls
  rw [LogStore.append, List.map_append]
  rfl

/-! ### Queries of logs -/

theorem findsLogs_select {calls : List LogCall} (hfresh : (calls.map (·.sequence)).Nodup)
    (fresh : Uuid) {wanted : LogColumns → Bool} {q : LogEntry → Bool}
    (hsame : ∀ call : LogCall, wanted call.row = q call.entry)
    (hq : ∀ entry, q (unnumberedLog entry) = q entry) :
    FindsLogs (LogTable.select (logTable.run [] calls) fresh wanted)
      ((rememberedLogs (logsInOrder calls)).entries.filter q) := by
  refine ⟨((logsInOrder calls).filter fun call => q call.entry).map LogCall.read, ?_, ?_⟩
  · exact query_appending (fun _ _ => insertLog_ok) (fun _ => rfl) (logFromRow_row fresh) hfresh
      hsame
  · have hread : ∀ call : LogCall, unnumberedLog call.read = call.entry := by
      intro call
      unfold unnumberedLog LogCall.entry LogCall.read
      dsimp only
      rw [timestamptz_idem]
    rw [map_filter_view hq, entries_rememberedLogs, List.map_map, List.filter_map]
    exact List.map_congr_left fun call _ => hread call

/-- **Log queries.** Likewise for the streams of the log table and for its errors. -/
theorem log_queries (calls : List LogCall) (hfresh : (calls.map (·.sequence)).Nodup)
    (fresh : Uuid) :
    (∀ source, FindsLogs (LogTable.forSource (logTable.run [] calls) fresh source)
      ((rememberedLogs (logsInOrder calls)).forSource source)) ∧
    FindsLogs (LogTable.errors (logTable.run [] calls) fresh)
      (rememberedLogs (logsInOrder calls)).errors := by
  constructor
  · intro source
    refine findsLogs_select hfresh fresh (fun call => ?_) fun _ => rfl
    exact decide_eq_decide.mpr LogSource.canonicalName_injective.eq_iff
  · refine findsLogs_select hfresh fresh (fun call => ?_) fun _ => rfl
    change decide (levelName call.level = "error") = decide (call.level = .error)
    cases call.level <;> rfl

/-- An error and an earlier line of another stream. -/
def overlappingLines : List LogCall :=
  [⟨9, .build, .error, .new "t", "token s3kx refused", ["s3kx"], 1500⟩,
    ⟨4, .runtime, .info, .new "t", "started", [], 0⟩]

theorem overlapping_lines_found :
    FindsLogs (LogTable.errors (logTable.run [] overlappingLines) 0)
      (rememberedLogs (logsInOrder overlappingLines)).errors :=
  (log_queries overlappingLines (by decide) 0).2

end Labrys.ControlPlane
