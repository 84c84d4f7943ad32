import Labrys.Core.Agent

/-! # Agent sessions over whole runs

* `AgentSession.gate_ok`: what a prompt that reaches the backend has passed.
* `AgentOp.status_perform`: how an operation may move the status.
* `session_invariants`: the log, the requests, the status and the calls of every session that is
  reached, whatever its backends draft. The hint of a secret reference is the one text that reaches
  a backend without having been scanned. -/

namespace Labrys.Core
open Foundations
set_option autoImplicit false

/-! ## The gate -/

namespace AgentSession

/-- What a prompt has to meet before its action is looked at. -/
structure Cleared (s : AgentSession) (version : ℕ) (input : AgentInput) (now : DateTime) :
    Prop where
  version : version = agentProtocolVersion
  active : s.status = .active
  inTime : ∀ deadline ∈ s.deadline, now ≤ deadline
  text : CarriesNone s.protectedSecrets input.text
  refs : ∀ ref ∈ input.secretRefs, CarriesNone s.protectedSecrets ref.refId
  shell : ¬ (s.context.production = true ∧ input.tool = some .rawShell)

theorem requireStatus_ok {expected : SessionStatus} {operation : String} {s s' : AgentSession}
    (h : requireStatus expected operation s = (s', .ok ())) : s' = s ∧ s.status = expected := by
  obtain ⟨rfl, hresult⟩ := Prod.mk.inj h
  refine ⟨rfl, by_contra fun hother => ?_⟩
  rw [if_neg hother] at hresult
  cases hresult

theorem requireStatus_of_eq {expected : SessionStatus} {operation : String} {s : AgentSession}
    (h : s.status = expected) : requireStatus expected operation s = (s, .ok ()) := by
  rw [requireStatus, if_pos h]

theorem requireStatus_of_ne {expected : SessionStatus} (operation : String) {s : AgentSession}
    (h : s.status ≠ expected) : ∃ e, requireStatus expected operation s = (s, .error e) := by
  rw [requireStatus, if_neg h]
  exact ⟨_, rfl⟩

theorem past_iff {now : DateTime} {deadline : Option DateTime} :
    (deadline.any fun deadline => deadline < now) = true ↔ ¬ ∀ d ∈ deadline, now ≤ d := by
  cases deadline <;> simp

theorem checkTimeout_of_inTime {now : DateTime} {s : AgentSession}
    (h : ∀ deadline ∈ s.deadline, now ≤ deadline) : checkTimeout now s = (s, .ok ()) := by
  unfold checkTimeout
  rw [if_neg fun hpast => past_iff.mp hpast h]

theorem checkTimeout_ok {now : DateTime} {s s' : AgentSession}
    (h : checkTimeout now s = (s', .ok ())) :
    s' = s ∧ ∀ deadline ∈ s.deadline, now ≤ deadline := by
  unfold checkTimeout at h
  split_ifs at h with hlate
  · obtain ⟨s₁, _, -, hrest⟩ := Program.bind_eq_ok h
    obtain ⟨s₂, _, -, hthrow⟩ := Program.bind_eq_ok hrest
    cases hthrow
  · obtain ⟨rfl, -⟩ := Prod.mk.inj h
    exact ⟨rfl, by_contra fun hpast => hlate (past_iff.mpr hpast)⟩

theorem scanRefs_of_clean {refs : List SecretReference} {s : AgentSession}
    (h : ∀ ref ∈ refs, CarriesNone s.protectedSecrets ref.refId) :
    scanRefs refs s = (s, .ok ()) := by
  induction refs with
  | nil => rfl
  | cons ref refs ih =>
    obtain ⟨hhead, htail⟩ := List.forall_mem_cons.mp h
    exact (Program.bind_of_ok (scanText_of_carriesNone hhead) _).trans (ih htail)

theorem scanRefs_ok {refs : List SecretReference} {s s' : AgentSession}
    (h : scanRefs refs s = (s', .ok ())) :
    s' = s ∧ ∀ ref ∈ refs, CarriesNone s.protectedSecrets ref.refId := by
  induction refs generalizing s with
  | nil =>
    cases h
    exact ⟨rfl, by simp⟩
  | cons ref refs ih =>
    obtain ⟨s₁, _, hscan, hrest⟩ := Program.bind_eq_ok h
    obtain ⟨rfl, hhead⟩ := scanText_ok hscan
    obtain ⟨rfl, htail⟩ := ih hrest
    exact ⟨rfl, List.forall_mem_cons.mpr ⟨hhead, htail⟩⟩

theorem checkPolicy_of_allowed {tool : Option ToolTier} {s : AgentSession}
    (h : ¬ (s.context.production = true ∧ tool = some .rawShell)) :
    checkPolicy tool s = (s, .ok ()) := by
  rw [checkPolicy, authorize, if_neg h]

theorem checkPolicy_ok {tool : Option ToolTier} {s s' : AgentSession}
    (h : checkPolicy tool s = (s', .ok ())) :
    s' = s ∧ ¬ (s.context.production = true ∧ tool = some .rawShell) := by
  unfold checkPolicy authorize at h
  split_ifs at h with hshell
  · obtain ⟨s₁, _, -, hthrow⟩ := Program.bind_eq_ok h
    cases hthrow
  · obtain ⟨rfl, -⟩ := Prod.mk.inj h
    exact ⟨rfl, hshell⟩

theorem not_requireApproval_ok {α : Type} {action : ActionKind} {s s' : AgentSession} {a : α} :
    requireApproval action s ≠ (s', .ok a) := by
  intro h
  obtain ⟨s₁, _, -, hrest⟩ := Program.bind_eq_ok h
  obtain ⟨s₂, _, -, hthrow⟩ := Program.bind_eq_ok hrest
  cases hthrow

theorem clear_of_cleared {s : AgentSession} {version : ℕ} {input : AgentInput} {now : DateTime}
    (h : s.Cleared version input now) : clear version input now s = (s, .ok ()) := by
  have hversion : ensureProtocolVersion version = .ok () := if_pos h.version
  unfold clear
  rw [hversion]
  refine (Program.bind_of_ok (requireStatus_of_eq h.active) _).trans ?_
  refine (Program.bind_of_ok (checkTimeout_of_inTime h.inTime) _).trans ?_
  refine (Program.bind_of_ok (scanText_of_carriesNone h.text) _).trans ?_
  refine (Program.bind_of_ok (scanRefs_of_clean h.refs) _).trans ?_
  exact checkPolicy_of_allowed h.shell

theorem clear_ok {s s' : AgentSession} {version : ℕ} {input : AgentInput} {now : DateTime}
    (h : clear version input now s = (s', .ok ())) : s' = s ∧ s.Cleared version input now := by
  obtain ⟨s₁, _, hversion, h₁⟩ := Program.bind_eq_ok h
  obtain ⟨rfl, hcurrent⟩ := Prod.mk.inj hversion
  obtain ⟨s₂, _, hstatus, h₂⟩ := Program.bind_eq_ok h₁
  obtain ⟨rfl, hactive⟩ := requireStatus_ok hstatus
  obtain ⟨s₃, _, htimeout, h₃⟩ := Program.bind_eq_ok h₂
  obtain ⟨rfl, hinTime⟩ := checkTimeout_ok htimeout
  obtain ⟨s₄, _, hscan, h₄⟩ := Program.bind_eq_ok h₃
  obtain ⟨rfl, htext⟩ := scanText_ok hscan
  obtain ⟨s₅, _, hscans, hpolicy⟩ := Program.bind_eq_ok h₄
  obtain ⟨rfl, hrefs⟩ := scanRefs_ok hscans
  obtain ⟨rfl, hshell⟩ := checkPolicy_ok hpolicy
  have hversion : version = agentProtocolVersion := by
    unfold ensureProtocolVersion at hcurrent
    by_contra hother
    rw [if_neg hother] at hcurrent
    cases hcurrent
  exact ⟨rfl, hversion, hactive, hinTime, htext, hrefs, hshell⟩

/-- A prompt that is cleared comes to the approval of its action. -/
theorem gate_of_cleared {s : AgentSession} {version : ℕ} {input : AgentInput} {now : DateTime}
    (h : s.Cleared version input now) :
    gate version input now s = checkApproval input.requestedAction s :=
  Program.bind_of_ok (clear_of_cleared h) _

/-- **What reaches the backend**: a prompt that is cleared and whose action needs no approval. It
has changed nothing so far. -/
theorem gate_ok {s s' : AgentSession} {version : ℕ} {input : AgentInput} {now : DateTime}
    (h : gate version input now s = (s', .ok ())) :
    s' = s ∧ s.Cleared version input now ∧
      ∀ action ∈ input.requestedAction, action.requiresApproval = false := by
  obtain ⟨s₁, _, hclear, happroval⟩ := Program.bind_eq_ok h
  obtain ⟨rfl, hcleared⟩ := clear_ok hclear
  unfold checkApproval at happroval
  cases hrisky : input.requestedAction.filter ActionKind.requiresApproval with
  | some action =>
    rw [hrisky] at happroval
    exact absurd happroval not_requireApproval_ok
  | none =>
    rw [hrisky] at happroval
    obtain ⟨rfl, -⟩ := Prod.mk.inj happroval
    refine ⟨rfl, hcleared, fun action haction => ?_⟩
    rw [haction] at hrisky
    simpa [Option.filter] using hrisky

theorem gate_ok_iff (version : ℕ) (input : AgentInput) (now : DateTime) (s : AgentSession) :
    gate version input now s = (s, .ok ()) ↔ s.Cleared version input now ∧
      ∀ action ∈ input.requestedAction, action.requiresApproval = false := by
  refine ⟨fun h => (gate_ok h).2, fun ⟨hcleared, haction⟩ => ?_⟩
  rw [gate_of_cleared hcleared, checkApproval]
  have hnone : input.requestedAction.filter ActionKind.requiresApproval = none := by
    cases hrequested : input.requestedAction with
    | none => rfl
    | some action => simp [Option.filter, haction action hrequested]
  rw [hnone]
  rfl

end AgentSession

/-! ## The status -/

/-- The moves of the lifecycle. -/
def SessionStatus.MovesTo : SessionStatus → SessionStatus → Prop
  | active, interrupted | active, completed | active, timedOut | interrupted, active => True
  | _, _ => False

namespace AgentSession

theorem status_appendNormalized (kind : AgentEventKind) (detail : String)
    (backend : BackendIdentity) : (appendNormalized kind detail backend).Keeps status := by
  intro s
  obtain ⟨-, e, heq⟩ | ⟨-, event, heq, -⟩ := appendNormalized_cases kind detail backend s
  · rw [heq]
  · rw [heq]
    rfl

theorem status_appendSystemEvent (kind : AgentEventKind) (detail : String) :
    (appendSystemEvent kind detail).Keeps status :=
  fun s => status_appendNormalized kind detail s.backend s

theorem status_replayEvent (event : AgentEvent) : (replayEvent event).Keeps status := by
  intro s
  obtain ⟨e, heq⟩ | ⟨-, -, -, -, heq⟩ := replayEvent_cases event s
  · rw [heq]
  · rw [heq]
    rfl

/-- A note in the log before an error. -/
theorem status_noted {α : Type} (kind : AgentEventKind) (detail : String) (error : CoreError) :
    Program.Keeps status (do
      (appendSystemEvent kind detail).dropError
      (throw error : Method α)) :=
  Program.Keeps.bind (status_appendSystemEvent kind detail) fun _ => Program.keeps_ofExcept _

theorem status_scanRefs (refs : List SecretReference) : (scanRefs refs).Keeps status := by
  induction refs with
  | nil => exact Program.keeps_pure ()
  | cons ref refs ih => exact Program.Keeps.bind (fun _ => rfl) fun _ => ih

theorem status_checkPolicy (tool : Option ToolTier) : (checkPolicy tool).Keeps status := by
  intro s
  unfold checkPolicy
  split
  · rfl
  · exact status_noted _ _ _ s

theorem status_checkApproval (requested : Option ActionKind) :
    (checkApproval requested).Keeps status := by
  unfold checkApproval
  split
  · exact Program.Keeps.bind (fun _ => rfl) fun _ => status_noted _ _ _
  · exact Program.keeps_pure ()

theorem status_appendAll (backend : BackendIdentity) (drafts : List Draft) :
    (appendAll backend drafts).Keeps status := by
  induction drafts with
  | nil => exact Program.keeps_pure []
  | cons draft drafts ih =>
    exact (status_appendNormalized _ _ _).bind fun _ => ih.bind fun _ => Program.keeps_pure _

theorem status_resolveApproval (request : String) (approval : ExplicitApproval) :
    (resolveApproval request approval).Keeps status := by
  intro s
  have hsettled : ∀ kind detail position, Program.Keeps status (do
      let event ← appendSystemEvent kind detail
      removePending position
      return event) := fun _ _ _ =>
    (status_appendSystemEvent _ _).bind fun _ =>
      Program.Keeps.bind (fun _ => rfl) fun _ => Program.keeps_pure _
  unfold resolveApproval
  split
  · rfl
  · split
    · exact hsettled _ _ _ s
    · dsimp only
      split_ifs
      · rfl
      · exact hsettled _ _ _ s

theorem status_checkTimeout (now : DateTime) (s : AgentSession) :
    (checkTimeout now s).1.status = s.status ∨ (checkTimeout now s).1.status = .timedOut := by
  unfold checkTimeout
  split
  · exact .inr (Program.Keeps.bind_right status (fun _ => status_noted _ _ _) s)
  · exact .inl rfl

theorem status_clear (version : ℕ) (input : AgentInput) (now : DateTime) (s : AgentSession) :
    (clear version input now s).1.status = s.status ∨
      s.status = .active ∧ (clear version input now s).1.status = .timedOut := by
  have hrest : ∀ _ : Unit, Program.Keeps status (do
      scanText input.text
      scanRefs input.secretRefs
      checkPolicy input.tool) := fun _ =>
    Program.Keeps.bind (fun _ => rfl) fun _ => (status_scanRefs _).bind fun _ =>
      status_checkPolicy _
  cases hversion : ensureProtocolVersion version with
  | error e =>
    have hrefused : clear version input now s = (s, .error e) :=
      Program.bind_of_error (by rw [hversion]; rfl) _
    exact .inl (by rw [hrefused])
  | ok _ =>
    have hcurrent : Program.ofExcept (ensureProtocolVersion version) s = (s, .ok ()) := by
      rw [hversion]
      rfl
    by_cases hactive : s.status = .active
    · have htimed : clear version input now s = (checkTimeout now >>= fun _ => do
          scanText input.text
          scanRefs input.secretRefs
          checkPolicy input.tool) s :=
        (Program.bind_of_ok hcurrent _).trans (Program.bind_of_ok (requireStatus_of_eq hactive) _)
      rw [htimed, Program.Keeps.bind_right status hrest]
      exact (status_checkTimeout now s).imp_right fun h => ⟨hactive, h⟩
    · obtain ⟨e, hrefused⟩ := requireStatus_of_ne "prompt" hactive
      have hstopped : clear version input now s = (s, .error e) :=
        (Program.bind_of_ok hcurrent _).trans (Program.bind_of_error hrefused _)
      exact .inl (by rw [hstopped])

/-- A refused prompt may end an active session by its deadline. -/
theorem status_gate (version : ℕ) (input : AgentInput) (now : DateTime) (s : AgentSession) :
    (gate version input now s).1.status = s.status ∨
      s.status = .active ∧ (gate version input now s).1.status = .timedOut := by
  have hkept : (gate version input now s).1.status = (clear version input now s).1.status :=
    Program.Keeps.bind_right status (fun _ => status_checkApproval _) s
  rw [hkept]
  exact status_clear version input now s

end AgentSession

/-- What an operation of the lifecycle does to the status: nothing, or one move. -/
theorem AgentSession.status_moved {α : Type} {expected status : SessionStatus}
    (hmove : expected.MovesTo status) (operation : String) {m : AgentSession.Method α}
    (hm : m.Keeps AgentSession.status) (s : AgentSession) :
    let moved := (do
      AgentSession.requireStatus expected operation
      AgentSession.setStatus status
      m) s
    moved.1.status = s.status ∨ s.status.MovesTo moved.1.status := by
  by_cases hexpected : s.status = expected
  · right
    rw [Program.bind_of_ok (AgentSession.requireStatus_of_eq hexpected),
      Program.Keeps.bind_right AgentSession.status fun _ => hm, hexpected]
    exact hmove
  · obtain ⟨e, hrefused⟩ := AgentSession.requireStatus_of_ne operation hexpected
    rw [Program.bind_of_error hrefused]
    exact .inl rfl

/-- **How an operation moves the status**, whatever it returns. -/
theorem AgentOp.status_perform (op : AgentOp) (w : AgentWorld) :
    (op.perform w).1.session.status = w.session.status ∨
      w.session.status.MovesTo (op.perform w).1.session.status := by
  have hreturn : ∀ {α β : Type} (m : AgentSession.Method α) (f : α → β) (s : AgentSession),
      ((do return f (← m)) s).1.status = (m s).1.status := fun _ _ s =>
    Program.Keeps.bind_right AgentSession.status (fun _ => Program.keeps_pure _) s
  cases op with
  | prompt backend input now =>
    have hkept : (AgentWorld.prompt backend input now w).1.session.status =
        (AgentSession.gate backend.protocolVersion input now w.session).1.status :=
      Program.Keeps.bind_right (fun w : AgentWorld => w.session.status)
        (fun _ => Program.Keeps.bind (fun _ => rfl) fun drafts w =>
          AgentSession.status_appendAll backend.identity drafts w.session) w
    rw [show ((AgentOp.prompt backend input now).perform w).1.session.status = _ from hkept]
    refine (AgentSession.status_gate _ input now w.session).imp_right fun ⟨hactive, htimed⟩ => ?_
    rw [hactive, htimed]
    trivial
  | interrupt =>
    rw [show (AgentOp.interrupt.perform w).1.session.status = _ from hreturn _ _ w.session]
    exact AgentSession.status_moved
      (show SessionStatus.MovesTo .active .interrupted from trivial) "interrupt"
      (AgentSession.status_appendSystemEvent .interrupted "session interrupted") w.session
  | resume =>
    exact AgentSession.status_moved
      (show SessionStatus.MovesTo .interrupted .active from trivial) "resume"
      (Program.Keeps.bind (AgentSession.status_appendSystemEvent .resumed "session resumed")
        fun _ _ => rfl) w.session
  | complete =>
    rw [show (AgentOp.complete.perform w).1.session.status = _ from hreturn _ _ w.session]
    exact AgentSession.status_moved
      (show SessionStatus.MovesTo .active .completed from trivial) "complete"
      (AgentSession.status_appendSystemEvent .completed "session completed") w.session
  | setDeadline deadline => exact .inl rfl
  | resolveApproval request approval =>
    exact .inl ((hreturn _ _ _).trans (AgentSession.status_resolveApproval request approval _))
  | replayEvent event =>
    exact .inl ((hreturn _ (fun _ => []) _).trans (AgentSession.status_replayEvent event _))

/-! ## Calls of the backend -/

/-- A prompt calls its backend once, and only if it passed the gate. -/
theorem AgentWorld.prompt_cases (backend : AgentBackend) (input : AgentInput) (now : DateTime)
    (w : AgentWorld) :
    (∃ e, (AgentSession.gate backend.protocolVersion input now w.session).2 = .error e ∧
        prompt backend input now w =
          ({ w with session := (AgentSession.gate backend.protocolVersion input now w.session).1 },
            .error e)) ∨
      AgentSession.gate backend.protocolVersion input now w.session = (w.session, .ok ()) ∧
        (prompt backend input now w).1.calls =
          w.calls ++ [⟨w.session.context, input, w.session.nextSequence⟩] := by
  cases hgate : (AgentSession.gate backend.protocolVersion input now w.session).2 with
  | error e => exact .inl ⟨e, rfl, Program.bind_of_error (by rw [onSession, hgate]) _⟩
  | ok _ =>
    have hrun := Program.run_of_snd hgate
    obtain ⟨hsame, -, -⟩ := AgentSession.gate_ok hrun
    rw [hsame] at hrun
    refine .inr ⟨hrun, ?_⟩
    have hpassed : onSession (AgentSession.gate backend.protocolVersion input now) w =
        (w, .ok ()) := by
      rw [onSession, hrun]
    have hprompt : prompt backend input now w = (do
        let drafts ← draftEvents backend input
        onSession (AgentSession.appendAll backend.identity drafts)) w :=
      Program.bind_of_ok hpassed _
    rw [hprompt]
    exact Program.Keeps.bind_right AgentWorld.calls (fun _ _ => rfl) w

theorem AgentOp.prompt_of_calls {op : AgentOp} {w : AgentWorld}
    (h : (agentMachine.next w op).calls ≠ w.calls) :
    ∃ backend input now, op = .prompt backend input now := by
  cases op with
  | prompt backend input now => exact ⟨backend, input, now, rfl⟩
  | _ => exact absurd rfl h

/-! ## Every session that is reached -/

theorem AgentSession.Sound.sequence_eq {s : AgentSession} (h : s.Sound) {i : ℕ}
    {event : AgentEvent} (hevent : s.events[i]? = some event) : event.sequence = i := by
  have hmapped : (s.events.map AgentEvent.sequence)[i]? = some event.sequence := by
    rw [List.getElem?_map, hevent, Option.map_some]
  rw [h.numbered] at hmapped
  obtain ⟨hlt, hvalue⟩ := List.getElem?_eq_some_iff.mp hmapped
  rw [← hvalue, List.getElem_range]

theorem AgentSession.openSession_eq_ok {id : AgentSessionId} {backend : AgentBackend}
    {context : AgentContext} {secrets : List String} {s : AgentSession}
    (h : AgentSession.openSession id backend context secrets = .ok s) :
    s = ⟨id, context, backend.identity, .active, [], 0, none, [], 0, secrets⟩ := by
  unfold AgentSession.openSession ensureProtocolVersion at h
  split_ifs at h with hversion
  · exact (Except.ok.inj h).symm
  · cases h

theorem AgentWorld.grows_run (w : AgentWorld) (ops : List AgentOp) :
    AgentSession.Grows (fun _ => True) w.session (agentMachine.run w ops).session :=
  agentMachine.run_invariant_all
    (fun _ op h => AgentSession.Grows.trans h ((op.grows_perform _).1.mono fun _ _ => trivial))
    w ops (AgentSession.Grows.refl _)

/-- A session that is reached has grown from the opened one, and is sound. -/
theorem AgentSession.reached {id : AgentSessionId} {backend : AgentBackend}
    {context : AgentContext} {secrets : List String} {s : AgentSession}
    (hopen : AgentSession.openSession id backend context secrets = .ok s) (ops : List AgentOp) :
    AgentSession.Grows (fun _ => True) s (agentMachine.run ⟨s, []⟩ ops).session ∧
      (agentMachine.run ⟨s, []⟩ ops).session.Sound := by
  obtain rfl := openSession_eq_ok hopen
  have hgrows := AgentWorld.grows_run
    ⟨⟨id, context, backend.identity, .active, [], 0, none, [], 0, secrets⟩, []⟩ ops
  exact ⟨hgrows, hgrows.sound ⟨rfl, rfl, by simp, by simp, [], rfl, .nil, by simp⟩⟩

/-! ## Whole runs -/

/-- The log of a session is numbered by its places and carries no protected secret, and its waiting
requests have different names. -/
structure AgentSession.Lawful (secrets : List String) (s : AgentSession) : Prop where
  numbered : ∀ (i : ℕ) (event : AgentEvent), s.events[i]? = some event → event.sequence = i
  next : s.nextSequence = s.events.length
  clean : ∀ event ∈ s.events, CarriesNone secrets event.detail
  requests : (s.pendingApprovals.map ApprovalRequest.id).Nodup

/-- A reference with no protected secret in either of its texts. -/
def SecretReference.Clean (secrets : List String) (ref : SecretReference) : Prop :=
  CarriesNone secrets ref.refId ∧ ∀ hint ∈ ref.redactedHint, CarriesNone secrets hint

namespace AgentWorld

/-- A step only appends to the log and moves the status along the lifecycle. -/
def StepKept (w : AgentWorld) (op : AgentOp) : Prop :=
  w.session.events <+: (agentMachine.next w op).session.events ∧
    ((agentMachine.next w op).session.status = w.session.status ∨
      w.session.status.MovesTo (agentMachine.next w op).session.status)

/-- A step that calls a backend is a prompt that the session, the policy and the action allow, and
what it hands over carries no protected secret. -/
def CallAllowed (secrets : List String) (context : AgentContext) (w : AgentWorld) (op : AgentOp) :
    Prop :=
  (agentMachine.next w op).calls ≠ w.calls →
    ∃ asked input now, op = .prompt asked input now ∧
      w.session.Cleared asked.protocolVersion input now ∧
      w.session.protectedSecrets = secrets ∧ w.session.context = context ∧
      (∀ ref ∈ input.secretRefs, ref.Clean secrets) ∧
      ∀ action ∈ input.requestedAction, action.requiresApproval = false

/-- A prompt that the session lets through has no protected secret in the hint of a reference. -/
def HintsClean (w : AgentWorld) : AgentOp → Prop
  | .prompt asked input now =>
      w.session.Cleared asked.protocolVersion input now →
      (∀ action ∈ input.requestedAction, action.requiresApproval = false) →
      ∀ ref ∈ input.secretRefs, ∀ hint ∈ ref.redactedHint,
        CarriesNone w.session.protectedSecrets hint
  | _ => True

/-- **One call.** A step calls its backend with clean references exactly if its hints are clean. -/
theorem callAllowed_iff (w : AgentWorld) (op : AgentOp) :
    w.CallAllowed w.session.protectedSecrets w.session.context op ↔ w.HintsClean op := by
  constructor
  · intro hallowed
    cases op with
    | prompt asked input now =>
      intro hcleared haction ref href hint hhint
      have hgate := (AgentSession.gate_ok_iff asked.protocolVersion input now w.session).mpr
        ⟨hcleared, haction⟩
      have hcalled : (agentMachine.next w (.prompt asked input now)).calls ≠ w.calls := by
        obtain ⟨e, hfailed, -⟩ | ⟨-, hcalls⟩ := prompt_cases asked input now w
        · rw [hgate] at hfailed
          cases hfailed
        · rw [show (agentMachine.next w (.prompt asked input now)).calls = _ from hcalls]
          simp
      obtain ⟨_, _, _, heq, -, -, -, hrefs, -⟩ := hallowed hcalled
      cases heq
      exact (hrefs ref href).2 hint hhint
    | _ => trivial
  · intro hclean hcalls
    obtain ⟨asked, input, now, rfl⟩ := AgentOp.prompt_of_calls hcalls
    obtain ⟨e, -, hrefused⟩ | ⟨hgate, -⟩ := prompt_cases asked input now w
    · exact absurd (congrArg (fun result => result.1.calls) hrefused) hcalls
    · obtain ⟨-, hcleared, haction⟩ := AgentSession.gate_ok hgate
      exact ⟨asked, input, now, rfl, hcleared, rfl, rfl,
        fun ref href => ⟨hcleared.refs ref href, hclean hcleared haction ref href⟩, haction⟩

end AgentWorld

/-- **The session over whole runs.** However a session is opened and driven, whatever its backends
answer: its events are numbered by their places and none carries a protected secret, its waiting
requests have different names, its log is only appended to and its status moves along the lifecycle
only. A backend is called only by a prompt that the session, the policy and the action allow and
whose text and references carry no protected secret, exactly along the runs in which no prompt that
is let through has one in the hint of a reference. -/
theorem session_invariants (id : AgentSessionId) (backend : AgentBackend) (context : AgentContext)
    (secrets : List String) (s : AgentSession)
    (hopen : AgentSession.openSession id backend context secrets = .ok s) (ops : List AgentOp) :
    (∀ n, (agentMachine.run ⟨s, []⟩ (ops.take n)).session.Lawful secrets) ∧
      agentMachine.Guarded AgentWorld.StepKept ⟨s, []⟩ ops ∧
      (agentMachine.Guarded (AgentWorld.CallAllowed secrets context) ⟨s, []⟩ ops ↔
        agentMachine.Guarded AgentWorld.HintsClean ⟨s, []⟩ ops) := by
  have hlawful : ∀ n, (agentMachine.run ⟨s, []⟩ (ops.take n)).session.Lawful secrets := by
    intro n
    obtain ⟨hgrows, hsound⟩ := AgentSession.reached hopen (ops.take n)
    obtain rfl := AgentSession.openSession_eq_ok hopen
    refine ⟨fun i event hevent => hsound.sequence_eq hevent, hsound.next, ?_, hsound.nodup⟩
    intro event hevent
    have hclean := hsound.clean event hevent
    rwa [hgrows.secrets] at hclean
  have hstays : ∀ (w : AgentWorld) (op : AgentOp),
      w.session.protectedSecrets = secrets ∧ w.session.context = context →
      (agentMachine.next w op).session.protectedSecrets = secrets ∧
        (agentMachine.next w op).session.context = context := fun w op h =>
    ⟨(op.grows_perform w).1.secrets.trans h.1, (op.grows_perform w).1.context.trans h.2⟩
  have hstart : s.protectedSecrets = secrets ∧ s.context = context := by
    obtain rfl := AgentSession.openSession_eq_ok hopen
    exact ⟨rfl, rfl⟩
  refine ⟨hlawful, ?_, fun hcalls => ?_, fun hhints => ?_⟩
  · exact agentMachine.guarded_of_forall
      (fun op _ w => ⟨(op.grows_perform w).1.log, op.status_perform w⟩) ⟨s, []⟩
  · refine agentMachine.guarded_of_invariant (fun w op h hallowed => ⟨hstays w op h, ?_⟩) ⟨s, []⟩
      ops hstart hcalls
    obtain ⟨rfl, rfl⟩ := h
    exact (w.callAllowed_iff op).mp hallowed
  · refine agentMachine.guarded_of_invariant (fun w op h hclean => ⟨hstays w op h, ?_⟩) ⟨s, []⟩
      ops hstart hhints
    obtain ⟨rfl, rfl⟩ := h
    exact (w.callAllowed_iff op).mpr hclean

def openedSession : AgentSession :=
  ⟨⟨1⟩, ⟨⟨2⟩, "prod", true, "ada"⟩, ⟨.native, "labrys-native"⟩, .active, [], 0, none, [], 0,
    ["hunter2"]⟩

/-- A backend that drafts one event for every prompt. -/
def planningBackend (name : String) : AgentBackend where
  identity := ⟨.native, name⟩
  protocolVersion := agentProtocolVersion
  draftEvents := fun _ input _ => .ok [(.planning, input.text)]

theorem session_invariants_opened :
    let ops : List AgentOp := [.prompt (planningBackend "labrys-native")
      ⟨"add a page", [(SecretReference.new "sec_db").withHint "v1"], none, none⟩ 1]
    (∀ n, (agentMachine.run ⟨openedSession, []⟩ (ops.take n)).session.Lawful ["hunter2"]) ∧
      agentMachine.Guarded (AgentWorld.CallAllowed ["hunter2"] openedSession.context)
        ⟨openedSession, []⟩ ops := by
  intro ops
  obtain ⟨hlawful, -, hcalls⟩ := session_invariants ⟨1⟩ (planningBackend "labrys-native")
    ⟨⟨2⟩, "prod", true, "ada"⟩ ["hunter2"] openedSession rfl ops
  refine ⟨hlawful, hcalls.mpr ⟨fun _ _ => ?_, trivial⟩⟩
  unfold CarriesNone
  decide +kernel

/-- A reference whose hint has the secret reaches the backend. -/
theorem hint_reaches_backend :
    ¬ agentMachine.Guarded (AgentWorld.CallAllowed ["hunter2"] openedSession.context)
      ⟨openedSession, []⟩ [.prompt (planningBackend "labrys-native")
        ⟨"add a page", [(SecretReference.new "sec_db").withHint "pw is hunter2"], none, none⟩
        1] := by
  rintro ⟨hallowed, -⟩
  obtain ⟨asked, input, now, heq, -, -, -, hrefs, -⟩ := hallowed (by decide +kernel)
  cases heq
  have hcarries := (hrefs _ List.mem_cons_self).2 "pw is hunter2" rfl
  revert hcarries
  unfold CarriesNone
  decide +kernel

end Labrys.Core
