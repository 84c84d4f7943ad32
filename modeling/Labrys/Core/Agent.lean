import Mathlib.Data.List.InsertIdx
import Mathlib.Data.List.Nodup
import Labrys.Core.Events
import Labrys.Core.Redact
import Labrys.Foundations.Program
import Labrys.Foundations.Runs

/-! # Agent sessions

The session is the policy boundary between a backend and the event log: a backend drafts events,
the session checks the prompt, asks for approvals, and appends what carries no protected secret. A
backend is any answer to a prompt; one that changes between two prompts is a different backend.
Sequence numbers and the approval counter are natural numbers, since a log that outgrows 64 bits
cannot be stored.

* `AgentWorld.prompt`: one prompt, with the calls that backends were asked kept beside the session.
* `agentMachine`: a session driven by any sequence of its operations.
* `AgentSession.Grows`: what every operation keeps. -/

namespace Labrys.Core
open Foundations
set_option autoImplicit false

def agentProtocolVersion : ℕ := 1

inductive AgentBackendKind
  | native | external
deriving DecidableEq, Repr

structure BackendIdentity where
  kind : AgentBackendKind
  name : String
deriving DecidableEq, Repr

inductive AgentEventKind
  | planning | fileChanged | commandRun | capabilityRequested | build | preview | deployment
  | verification | approvalRequested | denied | interrupted | resumed | timedOut | completed
deriving DecidableEq, Repr

structure AgentEvent where
  sequence : ℕ
  sessionId : AgentSessionId
  backend : BackendIdentity
  kind : AgentEventKind
  detail : String
deriving DecidableEq

structure SecretReference where
  refId : String
  redactedHint : Option String
deriving DecidableEq

def SecretReference.new (refId : String) : SecretReference := ⟨refId, none⟩

def SecretReference.withHint (ref : SecretReference) (hint : String) : SecretReference :=
  { ref with redactedHint := some hint }

inductive ToolTier
  | platformApi | frameworkTool | genericTool | rawShell
deriving DecidableEq, Repr

inductive ActionKind
  | readOnly | previewDeploy | productionDeploy | destructiveResource | destructiveMigration
  | secretReplacement | domainChange | billingChange | externalWrite
deriving DecidableEq, Repr

namespace ActionKind

def requiresApproval : ActionKind → Bool
  | readOnly | previewDeploy => false
  | productionDeploy | destructiveResource | destructiveMigration | secretReplacement
  | domainChange | billingChange | externalWrite => true

def label : ActionKind → String
  | readOnly => "read-only inspection"
  | previewDeploy => "preview deployment"
  | productionDeploy => "production deployment"
  | destructiveResource => "destructive resource action"
  | destructiveMigration => "destructive migration"
  | secretReplacement => "secret replacement"
  | domainChange => "domain change"
  | billingChange => "billing change"
  | externalWrite => "external write"

end ActionKind

structure AgentContext where
  applicationId : ApplicationId
  environmentName : String
  production : Bool
  principal : String
deriving DecidableEq

structure AgentInput where
  text : String
  secretRefs : List SecretReference
  requestedAction : Option ActionKind
  tool : Option ToolTier
deriving DecidableEq

structure ApprovalRequest where
  id : String
  sessionId : AgentSessionId
  action : ActionKind
  reason : String
  requestedBy : String
deriving DecidableEq

inductive SessionStatus
  | active | interrupted | completed | timedOut
deriving DecidableEq, Repr

def SessionStatus.debug : SessionStatus → String
  | active => "Active"
  | interrupted => "Interrupted"
  | completed => "Completed"
  | timedOut => "TimedOut"

structure AgentSession where
  id : AgentSessionId
  context : AgentContext
  backend : BackendIdentity
  status : SessionStatus
  events : List AgentEvent
  nextSequence : ℕ
  deadline : Option DateTime
  pendingApprovals : List ApprovalRequest
  approvalCounter : ℕ
  protectedSecrets : List String
deriving DecidableEq

abbrev Draft := AgentEventKind × String

structure AgentBackend where
  identity : BackendIdentity
  protocolVersion : ℕ
  draftEvents : AgentContext → AgentInput → ℕ → Except CoreError (List Draft)

def ensureProtocolVersion (found : ℕ) : Except CoreError Unit :=
  if found = agentProtocolVersion then .ok ()
  else .error (.protocolVersion found agentProtocolVersion)

/-- `Policy::authorize`: the action has no part in it. -/
def authorize (tool : Option ToolTier) (production : Bool) : Except CoreError Unit :=
  if production ∧ tool = some .rawShell then
    .error (.policyDenied
      "raw shell is denied in production; use a platform, framework, or generic tool")
  else .ok ()

/-! ## The session -/

namespace AgentSession

/-- `open`, with the identifier that it draws. -/
def openSession (id : AgentSessionId) (backend : AgentBackend) (context : AgentContext)
    (protectedSecrets : List String) : Except CoreError AgentSession := do
  ensureProtocolVersion backend.protocolVersion
  return ⟨id, context, backend.identity, .active, [], 0, none, [], 0, protectedSecrets⟩

abbrev Method := Program AgentSession CoreError

def throw {α : Type} (error : CoreError) : Method α := Program.ofExcept (.error error)

def setDeadline (deadline : DateTime) : Method Unit := fun s =>
  ({ s with deadline := some deadline }, .ok ())

def setStatus (status : SessionStatus) : Method Unit := fun s =>
  ({ s with status := status }, .ok ())

def requireStatus (expected : SessionStatus) (operation : String) : Method Unit := fun s =>
  (s, if s.status = expected then .ok ()
    else
      let (found, wanted) := (s.status.debug, expected.debug)
      .error (.sessionState
        s!"cannot {operation} while session is {found} (expected {wanted})"))

def scanText (text : String) : Method Unit := fun s =>
  (s, if (s.protectedSecrets.filter fun p => p ≠ "").any fun p => containsText text p then
      .error (.secretLeak
        "agent context contains a protected secret value; use a secret reference instead")
    else .ok ())

def appendNormalized (kind : AgentEventKind) (detail : String) (backend : BackendIdentity) :
    Method AgentEvent := do
  scanText detail
  fun s =>
    let event := ⟨s.nextSequence, s.id, backend, kind, detail⟩
    ({ s with nextSequence := s.nextSequence + 1, events := s.events ++ [event] }, .ok event)

def appendSystemEvent (kind : AgentEventKind) (detail : String) : Method AgentEvent := fun s =>
  appendNormalized kind detail s.backend s

/-- The status is moved before the event is appended, which may be refused. -/
def checkTimeout (now : DateTime) : Method Unit := fun s =>
  if s.deadline.any fun deadline => deadline < now then
    (do
      setStatus .timedOut
      (appendSystemEvent .timedOut "agent prompt timed out").dropError
      throw (.timeout "agent prompt exceeded its deadline")) s
  else (s, .ok ())

def requestId (id : AgentSessionId) (counter : ℕ) : String := s!"apr_{id}_{counter}"

def pushRequest (action : ActionKind) : Method ApprovalRequest := fun s =>
  let label := action.label
  let request :=
    ⟨requestId s.id (s.approvalCounter + 1), s.id, action,
      s!"{label} requires human approval before execution", s.backend.name⟩
  ({ s with
      approvalCounter := s.approvalCounter + 1
      pendingApprovals := s.pendingApprovals ++ [request] },
    .ok request)

/-- `require_approval`: the error that it makes is thrown. -/
def requireApproval {α : Type} (action : ActionKind) : Method α := do
  let request ← pushRequest action
  let (id, reason) := (request.id, request.reason)
  (appendSystemEvent .approvalRequested s!"approval {id} requested: {reason}").dropError
  let label := action.label
  throw (.approvalRequired s!"{label} blocked until a human approval is recorded")

/-- The hint of a reference is not looked at. -/
def scanRefs : List SecretReference → Method Unit
  | [] => pure ()
  | ref :: refs => do
      scanText ref.refId
      scanRefs refs

/-- A denial is put into the log before it is returned. -/
def checkPolicy (tool : Option ToolTier) : Method Unit := fun s =>
  match authorize tool s.context.production with
  | .ok _ => (s, .ok ())
  | .error denied =>
      let text := denied.display
      (do
        (appendSystemEvent .denied s!"prompt denied: {text}").dropError
        throw denied) s

def checkApproval (requested : Option ActionKind) : Method Unit :=
  match requested.filter ActionKind.requiresApproval with
  | some action => requireApproval action
  | none => pure ()

/-- The checks of `prompt`, up to the approval of the action. -/
def clear (protocolVersion : ℕ) (input : AgentInput) (now : DateTime) : Method Unit := do
  Program.ofExcept (ensureProtocolVersion protocolVersion)
  requireStatus .active "prompt"
  checkTimeout now
  scanText input.text
  scanRefs input.secretRefs
  checkPolicy input.tool

/-- `prompt` up to the call of the backend. -/
def gate (protocolVersion : ℕ) (input : AgentInput) (now : DateTime) : Method Unit := do
  clear protocolVersion input now
  checkApproval input.requestedAction

/-- The events a backend drafted, up to the first that is refused. -/
def appendAll (backend : BackendIdentity) : List Draft → Method (List AgentEvent)
  | [] => pure []
  | (kind, detail) :: drafts => do
      let event ← appendNormalized kind detail backend
      let events ← appendAll backend drafts
      return event :: events

def interrupt : Method AgentEvent := do
  requireStatus .active "interrupt"
  setStatus .interrupted
  appendSystemEvent .interrupted "session interrupted"

def resume : Method (List AgentEvent) := do
  requireStatus .interrupted "resume"
  setStatus .active
  let _ ← appendSystemEvent .resumed "session resumed"
  fun s => (s, .ok s.events)

def complete : Method AgentEvent := do
  requireStatus .active "complete"
  setStatus .completed
  appendSystemEvent .completed "session completed"

def replayChecks (event : AgentEvent) : Method Unit := fun s =>
  (s, if event.sessionId ≠ s.id then
      let (found, own) := (event.sessionId, s.id)
      .error (.sessionState s!"event belongs to session {found}, not {own}")
    else if event.backend ≠ s.backend then
      let (found, own) := (event.backend.name, s.backend.name)
      .error (.sessionState s!"event backend '{found}' does not match session backend '{own}'")
    else if event.sequence ≠ s.nextSequence then
      let (found, expected) := (event.sequence, s.nextSequence)
      .error (.sessionState s!"event out of order: got sequence {found}, expected {expected}")
    else .ok ())

def replayEvent (event : AgentEvent) : Method Unit := do
  replayChecks event
  scanText event.detail
  fun s => ({ s with nextSequence := s.nextSequence + 1, events := s.events ++ [event] }, .ok ())

def removePending (position : ℕ) : Method Unit := fun s =>
  ({ s with pendingApprovals := s.pendingApprovals.eraseIdx position }, .ok ())

def resolveApproval (request : String) (approval : ExplicitApproval) : Method AgentEvent := fun s =>
  match s.pendingApprovals.findIdx? fun r => r.id = request with
  | none => (s, .error (.approvalRequired s!"unknown approval request '{request}'"))
  | some position =>
      let approver := approval.approver
      if approval.approved = false then
        (do
          let event ← appendSystemEvent .denied s!"approval {request} denied by {approver}"
          removePending position
          return event) s
      else if isBlank approver.toList then
        (s, .error (.approvalRequired "approval must name an approver"))
      else
        (do
          let event ← appendSystemEvent .verification s!"approval {request} granted by {approver}"
          removePending position
          return event) s

end AgentSession

/-! ## Sessions and their backends -/

/-- What a backend is asked with. -/
structure AgentCall where
  context : AgentContext
  input : AgentInput
  startSequence : ℕ
deriving DecidableEq

/-- A session, and the calls that backends were asked, oldest first. -/
structure AgentWorld where
  session : AgentSession
  calls : List AgentCall
deriving DecidableEq

namespace AgentWorld

def onSession {α : Type} (m : AgentSession.Method α) : Program AgentWorld CoreError α := fun w =>
  ({ w with session := (m w.session).1 }, (m w.session).2)

def draftEvents (backend : AgentBackend) (input : AgentInput) :
    Program AgentWorld CoreError (List Draft) := fun w =>
  ({ w with calls := w.calls ++ [⟨w.session.context, input, w.session.nextSequence⟩] },
    backend.draftEvents w.session.context input w.session.nextSequence)

def prompt (backend : AgentBackend) (input : AgentInput) (now : DateTime) :
    Program AgentWorld CoreError (List AgentEvent) := do
  onSession (AgentSession.gate backend.protocolVersion input now)
  let drafts ← draftEvents backend input
  onSession (AgentSession.appendAll backend.identity drafts)

end AgentWorld

inductive AgentOp
  | prompt (backend : AgentBackend) (input : AgentInput) (now : DateTime)
  | interrupt
  | resume
  | complete
  | setDeadline (deadline : DateTime)
  | resolveApproval (request : String) (approval : ExplicitApproval)
  | replayEvent (event : AgentEvent)

def AgentOp.perform : AgentOp → Program AgentWorld CoreError (List AgentEvent)
  | prompt backend input now => AgentWorld.prompt backend input now
  | interrupt => AgentWorld.onSession do return [← AgentSession.interrupt]
  | resume => AgentWorld.onSession AgentSession.resume
  | complete => AgentWorld.onSession do return [← AgentSession.complete]
  | setDeadline deadline => AgentWorld.onSession do
      AgentSession.setDeadline deadline
      return []
  | resolveApproval request approval => AgentWorld.onSession do
      return [← AgentSession.resolveApproval request approval]
  | replayEvent event => AgentWorld.onSession do
      AgentSession.replayEvent event
      return []

def agentMachine : Machine AgentWorld AgentOp (Except CoreError (List AgentEvent)) where
  step := fun w op => op.perform w

/-! ## Scanning and appending -/

namespace AgentSession

theorem any_containsText_iff {secrets : List String} {text : String} :
    ((secrets.filter fun p => p ≠ "").any fun p => containsText text p) = true ↔
      ¬ CarriesNone secrets text := by
  simp [CarriesNone, List.any_eq_true]

theorem scanText_of_carriesNone {s : AgentSession} {text : String}
    (h : CarriesNone s.protectedSecrets text) : scanText text s = (s, .ok ()) := by
  unfold scanText
  rw [if_neg fun hany => any_containsText_iff.mp hany h]

theorem scanText_of_leak {s : AgentSession} {text : String}
    (h : ¬ CarriesNone s.protectedSecrets text) : ∃ e, scanText text s = (s, .error e) := by
  unfold scanText
  rw [if_pos (any_containsText_iff.mpr h)]
  exact ⟨_, rfl⟩

theorem scanText_ok {s s' : AgentSession} {text : String} (h : scanText text s = (s', .ok ())) :
    s' = s ∧ CarriesNone s.protectedSecrets text := by
  unfold scanText at h
  obtain ⟨rfl, hresult⟩ := Prod.mk.inj h
  refine ⟨rfl, by_contra fun hcarries => ?_⟩
  rw [if_pos (any_containsText_iff.mpr hcarries)] at hresult
  cases hresult

def appended (s : AgentSession) (event : AgentEvent) : AgentSession :=
  { s with nextSequence := s.nextSequence + 1, events := s.events ++ [event] }

/-- An event is refused and nothing changes, or it carries no secret and is appended. -/
theorem appendNormalized_cases (kind : AgentEventKind) (detail : String)
    (backend : BackendIdentity) (s : AgentSession) :
    (¬ CarriesNone s.protectedSecrets detail ∧
      ∃ e, appendNormalized kind detail backend s = (s, .error e)) ∨
    CarriesNone s.protectedSecrets detail ∧
      ∃ event, appendNormalized kind detail backend s = (s.appended event, .ok event) ∧
        event = ⟨s.nextSequence, s.id, backend, kind, detail⟩ := by
  by_cases hclean : CarriesNone s.protectedSecrets detail
  · exact .inr ⟨hclean, _, Program.bind_of_ok (scanText_of_carriesNone hclean) _, rfl⟩
  · obtain ⟨e, hscan⟩ := scanText_of_leak hclean
    exact .inl ⟨hclean, e, Program.bind_of_error hscan _⟩

theorem replayEvent_of_fits {event : AgentEvent} {s : AgentSession}
    (hsession : event.sessionId = s.id) (hbackend : event.backend = s.backend)
    (hsequence : event.sequence = s.nextSequence)
    (hclean : CarriesNone s.protectedSecrets event.detail) :
    replayEvent event s = (s.appended event, .ok ()) := by
  have hchecks : replayChecks event s = (s, .ok ()) := by
    rw [replayChecks, if_neg (not_not.mpr hsession), if_neg (not_not.mpr hbackend),
      if_neg (not_not.mpr hsequence)]
  exact (Program.bind_of_ok hchecks _).trans
    (Program.bind_of_ok (scanText_of_carriesNone hclean) _)

/-- An event is replayed into the log, or refused and nothing changes. -/
theorem replayEvent_cases (event : AgentEvent) (s : AgentSession) :
    (∃ e, replayEvent event s = (s, .error e)) ∨
    event.sessionId = s.id ∧ event.backend = s.backend ∧ event.sequence = s.nextSequence ∧
      CarriesNone s.protectedSecrets event.detail ∧
      replayEvent event s = (s.appended event, .ok ()) := by
  unfold replayEvent
  by_cases hsession : event.sessionId = s.id
  swap
  · exact .inl ⟨_, Program.bind_of_error (by rw [replayChecks, if_pos hsession]) _⟩
  by_cases hbackend : event.backend = s.backend
  swap
  · exact .inl ⟨_, Program.bind_of_error
      (by rw [replayChecks, if_neg (not_not.mpr hsession), if_pos hbackend]) _⟩
  by_cases hsequence : event.sequence = s.nextSequence
  swap
  · exact .inl ⟨_, Program.bind_of_error (by
      rw [replayChecks, if_neg (not_not.mpr hsession), if_neg (not_not.mpr hbackend),
        if_pos hsequence]) _⟩
  have hchecks : replayChecks event s = (s, .ok ()) := by
    rw [replayChecks, if_neg (not_not.mpr hsession), if_neg (not_not.mpr hbackend),
      if_neg (not_not.mpr hsequence)]
  by_cases hclean : CarriesNone s.protectedSecrets event.detail
  · exact .inr ⟨hsession, hbackend, hsequence, hclean,
      replayEvent_of_fits hsession hbackend hsequence hclean⟩
  · rw [Program.bind_of_ok hchecks]
    obtain ⟨e, hscan⟩ := scanText_of_leak hclean
    exact .inl ⟨e, Program.bind_of_error hscan _⟩

/-! ## What every operation keeps -/

/-- The numbered log of the session, free of secrets, and its distinct requests. -/
structure Sound (s : AgentSession) : Prop where
  numbered : s.events.map AgentEvent.sequence = List.range s.events.length
  next : s.nextSequence = s.events.length
  owned : ∀ event ∈ s.events, event.sessionId = s.id
  clean : ∀ event ∈ s.events, CarriesNone s.protectedSecrets event.detail
  requested : ∃ counters : List ℕ,
    s.pendingApprovals.map ApprovalRequest.id = counters.map (requestId s.id) ∧
      counters.Pairwise (· < ·) ∧ ∀ n ∈ counters, n ≤ s.approvalCounter

/-- Nothing that identifies the session changes, events of its own backend or of those in `B` are
appended to the log, and a sound session stays sound. -/
structure Grows (B : BackendIdentity → Prop) (s s' : AgentSession) : Prop where
  id : s'.id = s.id
  context : s'.context = s.context
  backend : s'.backend = s.backend
  secrets : s'.protectedSecrets = s.protectedSecrets
  events : ∃ added, s'.events = s.events ++ added ∧
    ∀ event ∈ added, event.backend = s.backend ∨ B event.backend
  sound : s.Sound → s'.Sound

section Grows
variable {B : BackendIdentity → Prop}

theorem Grows.log {s s' : AgentSession} (h : Grows B s s') : s.events <+: s'.events := by
  obtain ⟨added, hadded, -⟩ := h.events
  exact ⟨added, hadded.symm⟩

theorem Grows.mono {C : BackendIdentity → Prop} (hBC : ∀ b, B b → C b) {s s' : AgentSession}
    (h : Grows B s s') : Grows C s s' := by
  obtain ⟨added, hadded, hbackend⟩ := h.events
  exact ⟨h.id, h.context, h.backend, h.secrets,
    ⟨added, hadded, fun event hevent => (hbackend event hevent).imp_right (hBC _)⟩, h.sound⟩

theorem Grows.refl (s : AgentSession) : Grows B s s :=
  ⟨rfl, rfl, rfl, rfl, ⟨[], (List.append_nil _).symm, by simp⟩, fun h => h⟩

theorem Grows.trans {s t u : AgentSession} (h : Grows B s t) (h' : Grows B t u) :
    Grows B s u := by
  obtain ⟨added, hadded, hbackend⟩ := h.events
  obtain ⟨added', hadded', hbackend'⟩ := h'.events
  refine ⟨h'.id.trans h.id, h'.context.trans h.context, h'.backend.trans h.backend,
    h'.secrets.trans h.secrets, ⟨added ++ added', by rw [hadded', hadded, List.append_assoc], ?_⟩,
    fun hs => h'.sound (h.sound hs)⟩
  intro event hevent
  obtain hevent | hevent := List.mem_append.mp hevent
  · exact hbackend event hevent
  · rw [← h.backend]
    exact hbackend' event hevent

theorem grows_appended {s : AgentSession} {event : AgentEvent}
    (hsequence : event.sequence = s.nextSequence) (hsession : event.sessionId = s.id)
    (hbackend : event.backend = s.backend ∨ B event.backend)
    (hclean : CarriesNone s.protectedSecrets event.detail) : Grows B s (s.appended event) := by
  refine ⟨rfl, rfl, rfl, rfl, ⟨[event], rfl, by simpa using hbackend⟩,
    fun hs => ⟨?_, ?_, ?_, ?_, hs.requested⟩⟩
  · simp [appended, hs.numbered, hsequence, hs.next, List.range_succ]
  · simp [appended, hs.next]
  · intro other hother
    obtain hother | hother := List.mem_append.mp hother
    · exact hs.owned other hother
    · rwa [List.mem_singleton.mp hother]
  · intro other hother
    obtain hother | hother := List.mem_append.mp hother
    · exact hs.clean other hother
    · rwa [List.mem_singleton.mp hother]

/-- Writing fields that soundness does not read. -/
theorem grows_setDeadline (deadline : DateTime) : (setDeadline deadline).Moves (Grows B) :=
  fun _ => ⟨rfl, rfl, rfl, rfl, ⟨[], (List.append_nil _).symm, by simp⟩,
    fun hs => ⟨hs.numbered, hs.next, hs.owned, hs.clean, hs.requested⟩⟩

theorem grows_setStatus (status : SessionStatus) : (setStatus status).Moves (Grows B) :=
  fun _ => ⟨rfl, rfl, rfl, rfl, ⟨[], (List.append_nil _).symm, by simp⟩,
    fun hs => ⟨hs.numbered, hs.next, hs.owned, hs.clean, hs.requested⟩⟩

theorem grows_appendNormalized_at (kind : AgentEventKind) (detail : String)
    {backend : BackendIdentity} {s : AgentSession} (h : backend = s.backend ∨ B backend) :
    Grows B s (appendNormalized kind detail backend s).1 := by
  obtain ⟨-, e, heq⟩ | ⟨hclean, event, heq, rfl⟩ := appendNormalized_cases kind detail backend s
  · rw [heq]
    exact .refl s
  · rw [heq]
    exact grows_appended rfl rfl h hclean

theorem grows_appendNormalized (kind : AgentEventKind) (detail : String)
    {backend : BackendIdentity} (h : B backend) :
    (appendNormalized kind detail backend).Moves (Grows B) :=
  fun _ => grows_appendNormalized_at kind detail (.inr h)

theorem grows_appendSystemEvent (kind : AgentEventKind) (detail : String) :
    (appendSystemEvent kind detail).Moves (Grows B) :=
  fun _ => grows_appendNormalized_at kind detail (.inl rfl)

theorem grows_replayEvent (event : AgentEvent) : (replayEvent event).Moves (Grows B) := by
  intro s
  obtain ⟨e, heq⟩ | ⟨hsession, hbackend, hsequence, hclean, heq⟩ := replayEvent_cases event s
  · rw [heq]
    exact .refl s
  · rw [heq]
    exact grows_appended hsequence hsession (.inl hbackend) hclean

theorem requestId_injective (id : AgentSessionId) : Function.Injective (requestId id) := by
  intro m n h
  have htail : toString m = toString n := by
    simpa [requestId, String.append_assoc] using h
  exact toString_nat_injective htail

theorem grows_pushRequest (action : ActionKind) : (pushRequest action).Moves (Grows B) := by
  intro s
  refine ⟨rfl, rfl, rfl, rfl, ⟨[], (List.append_nil _).symm, by simp⟩,
    fun hs => ⟨hs.numbered, hs.next, hs.owned, hs.clean, ?_⟩⟩
  obtain ⟨counters, hids, hsorted, hbound⟩ := hs.requested
  refine ⟨counters ++ [s.approvalCounter + 1], ?_, ?_, ?_⟩
  · simp [pushRequest, hids]
  · refine List.pairwise_append.mpr ⟨hsorted, List.pairwise_singleton _ _, ?_⟩
    intro m hm n hn
    rw [List.mem_singleton.mp hn]
    exact Nat.lt_succ_of_le (hbound m hm)
  · intro n hn
    obtain hn | hn := List.mem_append.mp hn
    · exact Nat.le_succ_of_le (hbound n hn)
    · exact (List.mem_singleton.mp hn).le

theorem grows_removePending (position : ℕ) : (removePending position).Moves (Grows B) := by
  intro s
  refine ⟨rfl, rfl, rfl, rfl, ⟨[], (List.append_nil _).symm, by simp⟩,
    fun hs => ⟨hs.numbered, hs.next, hs.owned, hs.clean, ?_⟩⟩
  obtain ⟨counters, hids, hsorted, hbound⟩ := hs.requested
  refine ⟨counters.eraseIdx position, ?_, hsorted.sublist (List.eraseIdx_sublist _ _),
    fun n hn => hbound n (List.mem_of_mem_eraseIdx hn)⟩
  change (s.pendingApprovals.eraseIdx position).map ApprovalRequest.id = _
  rw [← List.eraseIdx_map, hids, List.eraseIdx_map]
  rfl

/-- The requests that wait have different names. -/
theorem Sound.nodup {s : AgentSession} (hs : s.Sound) :
    (s.pendingApprovals.map ApprovalRequest.id).Nodup := by
  obtain ⟨counters, hids, hsorted, -⟩ := hs.requested
  rw [hids]
  exact List.Nodup.map (requestId_injective s.id) (hsorted.imp fun h => h.ne)

/-! ## The operations -/

theorem grows_of_same {α : Type} {m : Method α} (h : ∀ s, (m s).1 = s) : m.Moves (Grows B) := by
  intro s
  rw [h s]
  exact .refl s

theorem grows_throw {α : Type} (error : CoreError) : (throw error : Method α).Moves (Grows B) :=
  Program.moves_ofExcept .refl _

theorem grows_checkTimeout (now : DateTime) : (checkTimeout now).Moves (Grows B) := by
  intro s
  unfold checkTimeout
  split
  · exact ((grows_setStatus .timedOut).bind .trans fun _ =>
      (grows_appendSystemEvent _ _).dropError.bind .trans fun _ => grows_throw _) s
  · exact .refl s

theorem grows_scanRefs (refs : List SecretReference) : (scanRefs refs).Moves (Grows B) := by
  induction refs with
  | nil => exact Program.moves_pure .refl ()
  | cons ref refs ih => exact (grows_of_same fun _ => rfl).bind .trans fun _ => ih

theorem grows_checkPolicy (tool : Option ToolTier) : (checkPolicy tool).Moves (Grows B) := by
  intro s
  unfold checkPolicy
  split
  · exact .refl s
  · exact ((grows_appendSystemEvent _ _).dropError.bind .trans fun _ => grows_throw _) s

theorem grows_checkApproval (requested : Option ActionKind) :
    (checkApproval requested).Moves (Grows B) := by
  unfold checkApproval
  split
  · exact (grows_pushRequest _).bind .trans fun _ =>
      (grows_appendSystemEvent _ _).dropError.bind .trans fun _ => grows_throw _
  · exact Program.moves_pure .refl ()

theorem grows_clear (version : ℕ) (input : AgentInput) (now : DateTime) :
    (clear version input now).Moves (Grows B) :=
  (Program.moves_ofExcept .refl _).bind .trans fun _ =>
    (grows_of_same fun _ => rfl).bind .trans fun _ =>
    (grows_checkTimeout now).bind .trans fun _ =>
    (grows_of_same fun _ => rfl).bind .trans fun _ =>
    (grows_scanRefs _).bind .trans fun _ => grows_checkPolicy _

theorem grows_gate (version : ℕ) (input : AgentInput) (now : DateTime) :
    (gate version input now).Moves (Grows B) :=
  (grows_clear version input now).bind .trans fun _ => grows_checkApproval _

theorem grows_appendAll {backend : BackendIdentity} (h : B backend) (drafts : List Draft) :
    (appendAll backend drafts).Moves (Grows B) := by
  induction drafts with
  | nil => exact Program.moves_pure .refl []
  | cons draft drafts ih =>
    exact (grows_appendNormalized _ _ h).bind .trans fun _ =>
      ih.bind .trans fun _ => Program.moves_pure .refl _

theorem grows_resolveApproval (request : String) (approval : ExplicitApproval) :
    (resolveApproval request approval).Moves (Grows B) := by
  intro s
  have hsettled : ∀ kind detail position, Program.Moves (Grows B) (do
      let event ← appendSystemEvent kind detail
      removePending position
      return event) := fun _ _ _ =>
    (grows_appendSystemEvent _ _).bind .trans fun _ =>
      (grows_removePending _).bind .trans fun _ => Program.moves_pure .refl _
  unfold resolveApproval
  split
  · exact .refl s
  · split
    · exact hsettled _ _ _ s
    · dsimp only
      split_ifs
      · exact .refl s
      · exact hsettled _ _ _ s

end Grows
end AgentSession

namespace AgentWorld

/-- The session grows, and so do the calls that backends were asked. -/
def Grows (B : BackendIdentity → Prop) (w w' : AgentWorld) : Prop :=
  AgentSession.Grows B w.session w'.session ∧ w.calls <+: w'.calls

variable {B : BackendIdentity → Prop}

theorem Grows.trans {w w' w'' : AgentWorld} (h : Grows B w w') (h' : Grows B w' w'') :
    Grows B w w'' :=
  ⟨h.1.trans h'.1, h.2.trans h'.2⟩

theorem grows_onSession {α : Type} {m : AgentSession.Method α}
    (h : m.Moves (AgentSession.Grows B)) : (onSession m).Moves (Grows B) :=
  fun w => ⟨h w.session, List.prefix_rfl⟩

theorem grows_prompt (backend : AgentBackend) (input : AgentInput) (now : DateTime)
    (h : B backend.identity) : (prompt backend input now).Moves (Grows B) :=
  (grows_onSession (AgentSession.grows_gate _ _ _)).bind .trans fun _ =>
    Program.Moves.bind .trans (fun w => ⟨.refl w.session, List.prefix_append _ _⟩) fun _ =>
      grows_onSession (AgentSession.grows_appendAll h _)

end AgentWorld

/-- The backend that an operation is handed. -/
def AgentOp.hands : AgentOp → BackendIdentity → Prop
  | prompt backend _ _ => fun b => b = backend.identity
  | _ => fun _ => False

/-- **What every operation keeps**, whatever it returns. -/
theorem AgentOp.grows_perform (op : AgentOp) : op.perform.Moves (AgentWorld.Grows op.hands) := by
  have hsystem : ∀ {B : BackendIdentity → Prop} (expected operation status kind detail),
      Program.Moves (AgentSession.Grows B) (do
        AgentSession.requireStatus expected operation
        AgentSession.setStatus status
        AgentSession.appendSystemEvent kind detail) := fun _ _ _ _ _ =>
    (AgentSession.grows_of_same fun _ => rfl).bind .trans fun _ =>
      (AgentSession.grows_setStatus _).bind .trans fun _ =>
        AgentSession.grows_appendSystemEvent _ _
  have hreturn : ∀ {B : BackendIdentity → Prop} {β : Type} (b : β),
      Program.Moves (AgentSession.Grows B) (pure b : AgentSession.Method β) :=
    fun _ => Program.moves_pure .refl _
  cases op with
  | prompt backend input now => exact AgentWorld.grows_prompt backend input now rfl
  | interrupt =>
    exact AgentWorld.grows_onSession ((hsystem _ _ _ _ _).bind .trans fun _ => hreturn _)
  | resume =>
    refine AgentWorld.grows_onSession ?_
    exact (AgentSession.grows_of_same fun _ => rfl).bind .trans fun _ =>
      (AgentSession.grows_setStatus _).bind .trans fun _ =>
        (AgentSession.grows_appendSystemEvent _ _).bind .trans fun _ =>
          AgentSession.grows_of_same fun _ => rfl
  | complete =>
    exact AgentWorld.grows_onSession ((hsystem _ _ _ _ _).bind .trans fun _ => hreturn _)
  | setDeadline deadline =>
    exact AgentWorld.grows_onSession
      ((AgentSession.grows_setDeadline deadline).bind .trans fun _ => hreturn _)
  | resolveApproval request approval =>
    exact AgentWorld.grows_onSession
      ((AgentSession.grows_resolveApproval request approval).bind .trans fun _ => hreturn _)
  | replayEvent event =>
    exact AgentWorld.grows_onSession
      ((AgentSession.grows_replayEvent event).bind .trans fun _ => hreturn _)

end Labrys.Core
