import Labrys.Core.AgentRuns

/-! # Replaying a session log, and granting an approval

A log is replayed event by event into a fresh session of the same identity. Events that a prompt
appends carry the identity of the backend it was passed, which nothing compares with the session's,
and replaying does compare it.

* `log_replayable_iff`: which runs leave a log that can be replayed.
* `grant_never_unblocks`: a granted approval is recorded nowhere that a later prompt looks. -/

namespace Labrys.Core
open Foundations
set_option autoImplicit false

namespace AgentSession

/-! ## Replay -/

/-- A session without events, as `openSession` makes it. -/
def fresh (id : AgentSessionId) (context : AgentContext) (backend : BackendIdentity)
    (protectedSecrets : List String) : AgentSession :=
  ⟨id, context, backend, .active, [], 0, none, [], 0, protectedSecrets⟩

def replayAll (log : List AgentEvent) : Method Unit := Program.sequence (log.map replayEvent)

/-- Events of the session, in order and without secrets, are replayed exactly if they are of its
backend. -/
theorem replayAll_iff (log : List AgentEvent) (s : AgentSession)
    (hnumbered : log.map AgentEvent.sequence = List.range' s.nextSequence log.length)
    (howned : ∀ event ∈ log, event.sessionId = s.id)
    (hclean : ∀ event ∈ log, CarriesNone s.protectedSecrets event.detail) :
    ((replayAll log s).2 = .ok () ∧ (replayAll log s).1.events = s.events ++ log) ↔
      ∀ event ∈ log, event.backend = s.backend := by
  induction log generalizing s with
  | nil => simp [replayAll, Program.sequence, pure]
  | cons event log ih =>
    obtain ⟨hsession, howned⟩ := List.forall_mem_cons.mp howned
    obtain ⟨hdetail, hclean⟩ := List.forall_mem_cons.mp hclean
    rw [List.map_cons, List.length_cons, List.range'_succ, List.cons.injEq] at hnumbered
    rw [List.forall_mem_cons]
    by_cases hbackend : event.backend = s.backend
    · have hrest : replayAll (event :: log) s = replayAll log (s.appended event) :=
        Program.bind_of_ok (replayEvent_of_fits hsession hbackend hnumbered.1 hdetail) _
      have hlog := ih (s.appended event) hnumbered.2 howned hclean
      rw [show (s.appended event).events ++ log = s.events ++ event :: log by
        simp [appended]] at hlog
      rw [hrest, and_iff_right hbackend]
      exact hlog
    · obtain ⟨e, hrefused⟩ | ⟨-, hsame, -⟩ := replayEvent_cases event s
      · have hfailed : replayAll (event :: log) s = (s, .error e) :=
          Program.bind_of_error hrefused _
        simp [hfailed, hbackend]
      · exact absurd hsame hbackend

/-! ## Which prompts keep a log replayable -/

/-- The prompt passes the gate and its backend's first draft goes into the log. -/
def Drafts (backend : AgentBackend) (input : AgentInput) (now : DateTime) (s : AgentSession) :
    Prop :=
  s.Cleared backend.protocolVersion input now ∧
    (∀ action ∈ input.requestedAction, action.requiresApproval = false) ∧
    ∃ kind detail drafts,
      backend.draftEvents s.context input s.nextSequence = .ok ((kind, detail) :: drafts) ∧
        CarriesNone s.protectedSecrets detail

/-- The first of the drafts is in the log, unless it is refused. -/
theorem appendAll_cases (backend : BackendIdentity) (kind : AgentEventKind) (detail : String)
    (drafts : List Draft) (s : AgentSession) :
    (CarriesNone s.protectedSecrets detail ∧
      ⟨s.nextSequence, s.id, backend, kind, detail⟩ ∈
        (appendAll backend ((kind, detail) :: drafts) s).1.events) ∨
    ¬ CarriesNone s.protectedSecrets detail ∧
      (appendAll backend ((kind, detail) :: drafts) s).1 = s := by
  obtain ⟨hleak, e, heq⟩ | ⟨hclean, event, heq, rfl⟩ :=
    appendNormalized_cases kind detail backend s
  · exact .inr ⟨hleak, congrArg Prod.fst (Program.bind_of_error heq _)⟩
  · refine .inl ⟨hclean, ?_⟩
    have hgrows : Grows (fun _ => True)
        (s.appended ⟨s.nextSequence, s.id, backend, kind, detail⟩)
        (appendAll backend ((kind, detail) :: drafts) s).1 := by
      rw [appendAll, Program.bind_of_ok heq]
      exact ((grows_appendAll trivial drafts).bind .trans fun _ => Program.moves_pure .refl _) _
    exact hgrows.log.subset (by simp [appended])

end AgentSession

/-- The prompt was passed the session's own backend, or leaves no event of the backend. -/
def FromOwnBackend (w : AgentWorld) : AgentOp → Prop
  | .prompt backend input now =>
      backend.identity = w.session.backend ∨ ¬ AgentSession.Drafts backend input now w.session
  | _ => True

/-- Every event of the log is of the session's backend. -/
def OwnLog (w : AgentWorld) : Prop := ∀ event ∈ w.session.events, event.backend = w.session.backend

namespace AgentWorld
variable {backend : AgentBackend} {input : AgentInput} {now : DateTime} {w : AgentWorld}

/-- The session after a prompt that passed the gate. -/
theorem session_prompt_of_gate
    (h : AgentSession.gate backend.protocolVersion input now w.session = (w.session, .ok ())) :
    (prompt backend input now w).1.session =
      match backend.draftEvents w.session.context input w.session.nextSequence with
      | .ok drafts => (AgentSession.appendAll backend.identity drafts w.session).1
      | .error _ => w.session := by
  have hpassed : onSession (AgentSession.gate backend.protocolVersion input now) w =
      (w, .ok ()) := by
    rw [onSession, h]
  have hprompt : prompt backend input now w = (do
      let drafts ← draftEvents backend input
      onSession (AgentSession.appendAll backend.identity drafts)) w :=
    Program.bind_of_ok hpassed _
  rw [hprompt]
  cases hdrafts : backend.draftEvents w.session.context input w.session.nextSequence with
  | error e =>
    have hfailed : (draftEvents backend input w).2 = .error e := hdrafts
    rw [Program.bind_of_snd_error hfailed]
    rfl
  | ok drafts =>
    have hanswered : (draftEvents backend input w).2 = .ok drafts := hdrafts
    rw [Program.bind_of_snd_ok hanswered]
    rfl

/-- A prompt that leaves no event of its backend. -/
theorem grows_prompt_of_not_drafts (h : ¬ AgentSession.Drafts backend input now w.session) :
    AgentSession.Grows (fun _ => False) w.session (prompt backend input now w).1.session := by
  obtain ⟨e, -, hrefused⟩ | ⟨hgate, -⟩ := prompt_cases backend input now w
  · rw [hrefused]
    exact AgentSession.grows_gate _ _ _ w.session
  · rw [session_prompt_of_gate hgate]
    cases hdrafts : backend.draftEvents w.session.context input w.session.nextSequence with
    | error e => exact .refl _
    | ok drafts =>
      cases drafts with
      | nil => exact .refl _
      | cons draft drafts =>
        obtain ⟨hclean, -⟩ | ⟨-, hsame⟩ := AgentSession.appendAll_cases backend.identity draft.1
          draft.2 drafts w.session
        · obtain ⟨hcleared, haction⟩ := (AgentSession.gate_ok_iff _ _ _ _).mp hgate
          exact absurd ⟨hcleared, haction, draft.1, draft.2, drafts, hdrafts, hclean⟩ h
        · have hkept : (AgentSession.appendAll backend.identity (draft :: drafts) w.session).1 =
              w.session := hsame
          dsimp only
          rw [hkept]
          exact .refl _

/-- A prompt that does leaves one of its identity. -/
theorem mem_prompt_of_drafts (h : AgentSession.Drafts backend input now w.session) :
    ∃ event ∈ (prompt backend input now w).1.session.events,
      event.backend = backend.identity := by
  obtain ⟨hcleared, haction, kind, detail, drafts, hdrafts, hclean⟩ := h
  have hgate := (AgentSession.gate_ok_iff backend.protocolVersion input now w.session).mpr
    ⟨hcleared, haction⟩
  obtain ⟨-, hmem⟩ | ⟨hleak, -⟩ :=
    AgentSession.appendAll_cases backend.identity kind detail drafts w.session
  · rw [session_prompt_of_gate hgate, hdrafts]
    exact ⟨_, hmem, rfl⟩
  · exact absurd hclean hleak

end AgentWorld

theorem ownLog_of_grows {B : BackendIdentity → Prop} {w w' : AgentWorld}
    (h : AgentSession.Grows B w.session w'.session) (hB : ∀ b, B b → b = w.session.backend)
    (hown : OwnLog w) : OwnLog w' := by
  obtain ⟨added, hadded, hbackend⟩ := h.events
  intro event hevent
  rw [h.backend]
  rw [hadded] at hevent
  obtain hevent | hevent := List.mem_append.mp hevent
  · exact hown event hevent
  · exact (hbackend event hevent).elim (fun hsame => hsame) (hB _)

/-- One step: the log stays the backend's own exactly if the prompt is. -/
theorem ownLog_next_iff {w : AgentWorld} {op : AgentOp} (h : OwnLog w) :
    OwnLog (agentMachine.next w op) ↔ FromOwnBackend w op := by
  have hgrows := (op.grows_perform w).1
  cases op with
  | prompt backend input now =>
    constructor
    · intro hown
      refine or_iff_not_imp_right.mpr fun hdrafts => ?_
      obtain ⟨event, hevent, hidentity⟩ := AgentWorld.mem_prompt_of_drafts (not_not.mp hdrafts)
      rw [← hidentity, ← hgrows.backend]
      exact hown event hevent
    · rintro (hsame | hdrafts)
      · exact ownLog_of_grows hgrows (fun b hb => hb.trans hsame) h
      · exact ownLog_of_grows (AgentWorld.grows_prompt_of_not_drafts hdrafts) (by simp) h
  | _ => exact ⟨fun _ => trivial, fun _ => ownLog_of_grows hgrows (fun _ hb => hb.elim) h⟩

/-- The logs of a run are the backend's own up to its end exactly if the last one is. -/
theorem ownLog_run_iff (w : AgentWorld) (ops : List AgentOp) (h : OwnLog w) :
    OwnLog (agentMachine.run w ops) ↔ agentMachine.Guarded FromOwnBackend w ops := by
  have hexact : (∀ n, OwnLog (agentMachine.run w (ops.take n))) ↔
      agentMachine.Guarded FromOwnBackend w ops :=
    agentMachine.forall_run_take_iff_guarded (H := fun _ _ => True) (I := OwnLog) (fun _ h => h)
      (fun _ _ hown _ hG => (ownLog_next_iff hown).mpr hG)
      (fun _ _ hown _ hnext => (ownLog_next_iff hown).mp hnext) w ops h
      (agentMachine.guarded_true w ops)
  rw [← hexact]
  constructor
  · intro hlast n
    have hrest : AgentSession.Grows (fun _ => True) (agentMachine.run w (ops.take n)).session
        (agentMachine.run w ops).session := by
      conv_rhs => rw [← List.take_append_drop n ops, Machine.run_append]
      exact AgentWorld.grows_run _ _
    intro event hevent
    rw [← hrest.backend]
    exact hlast event (hrest.log.subset hevent)
  · intro hall
    simpa using hall ops.length

/-- **Which logs can be replayed.** However a session is driven, its log is accepted event by event
by a fresh session of the same identifier, backend and secrets, and reproduced there, exactly if
every prompt of the run was passed a backend of the identity the session was opened with or left
no event of the backend. -/
theorem log_replayable_iff (id : AgentSessionId) (backend : AgentBackend)
    (context context' : AgentContext) (secrets : List String) (s : AgentSession)
    (hopen : AgentSession.openSession id backend context secrets = .ok s) (ops : List AgentOp) :
    let log := (agentMachine.run ⟨s, []⟩ ops).session.events
    let replayed := AgentSession.replayAll log
      (AgentSession.fresh id context' backend.identity secrets)
    (replayed.2 = .ok () ∧ replayed.1.events = log) ↔
      agentMachine.Guarded FromOwnBackend ⟨s, []⟩ ops := by
  obtain ⟨hgrows, hsound⟩ := AgentSession.reached hopen ops
  obtain rfl := AgentSession.openSession_eq_ok hopen
  have hnumbered := hsound.numbered
  rw [List.range_eq_range'] at hnumbered
  have howned : ∀ event ∈ (agentMachine.run _ ops).session.events, event.sessionId = id :=
    hgrows.id ▸ hsound.owned
  have hclean := hgrows.secrets ▸ hsound.clean
  refine (AgentSession.replayAll_iff _ (AgentSession.fresh id context' backend.identity secrets)
    hnumbered howned hclean).trans ?_
  rw [← ownLog_run_iff _ ops (by simp [OwnLog]), OwnLog, hgrows.backend]
  rfl

/-- One prompt with the session's own backend. -/
theorem log_replayable_iff_own :
    let log := (agentMachine.run ⟨openedSession, []⟩
      [.prompt (planningBackend "labrys-native") ⟨"add a page", [], none, none⟩ 1]).session.events
    let replayed := AgentSession.replayAll log
      (AgentSession.fresh ⟨1⟩ openedSession.context ⟨.native, "labrys-native"⟩ ["hunter2"])
    replayed.2 = .ok () ∧ replayed.1.events = log :=
  (log_replayable_iff ⟨1⟩ (planningBackend "labrys-native") openedSession.context
    openedSession.context ["hunter2"] openedSession rfl
    [.prompt (planningBackend "labrys-native") ⟨"add a page", [], none, none⟩ 1]).mpr
    ⟨.inl rfl, trivial⟩

/-- One prompt with another backend, whose event is refused. -/
theorem foreign_draft_not_replayed :
    let log := (agentMachine.run ⟨openedSession, []⟩
      [.prompt (planningBackend "opencode") ⟨"add a page", [], none, none⟩ 1]).session.events
    let replayed := AgentSession.replayAll log
      (AgentSession.fresh ⟨1⟩ openedSession.context ⟨.native, "labrys-native"⟩ ["hunter2"])
    AgentSession.openSession ⟨1⟩ (planningBackend "labrys-native") openedSession.context
        ["hunter2"] = .ok openedSession ∧
      log.length = 1 ∧ replayed.2 ≠ .ok () ∧ replayed.1.events ≠ log := by
  decide +kernel

/-! ## Approvals -/

/-- An error that asks for an approval. -/
def CoreError.AsksApproval : CoreError → Prop
  | .approvalRequired _ => True
  | _ => False

namespace AgentSession

theorem raises_noted {α : Type} {Q : CoreError → Prop} {kind : AgentEventKind} {detail : String}
    {error : CoreError} (h : Q error) : Program.Raises Q (do
      (appendSystemEvent kind detail).dropError
      (throw error : Method α)) :=
  (Program.raises_dropError _).bind fun _ => Program.raises_ofExcept fun e he => by
    cases he
    exact h

theorem raises_scanText (text : String) :
    (scanText text).Raises fun e => ¬ e.AsksApproval := by
  intro s s' e h
  unfold scanText at h
  split_ifs at h <;> cases congrArg Prod.snd h
  exact fun hasks => hasks

/-- No check before the last asks for an approval. -/
theorem raises_clear (version : ℕ) (input : AgentInput) (now : DateTime) :
    (clear version input now).Raises fun e => ¬ e.AsksApproval := by
  have hversion : Program.Raises (fun e : CoreError => ¬ e.AsksApproval)
      (Program.ofExcept (ensureProtocolVersion version) : Method Unit) := by
    refine Program.raises_ofExcept fun e he => ?_
    unfold ensureProtocolVersion at he
    split_ifs at he
    cases he
    exact fun hasks => hasks
  have hstatus : (requireStatus .active "prompt").Raises fun e => ¬ e.AsksApproval := by
    intro s s' e h
    unfold requireStatus at h
    split_ifs at h <;> cases congrArg Prod.snd h
    exact fun hasks => hasks
  have htimeout : (checkTimeout now).Raises fun e => ¬ e.AsksApproval := by
    intro s s' e h
    unfold checkTimeout at h
    split_ifs at h
    · exact (Program.Raises.bind (fun _ _ _ hset => by cases congrArg Prod.snd hset) fun _ =>
        raises_noted (Q := fun e => ¬ e.AsksApproval) (by exact fun hasks => hasks)) s s' e h
    · cases congrArg Prod.snd h
  have hrefs : (scanRefs input.secretRefs).Raises fun e => ¬ e.AsksApproval := by
    induction input.secretRefs with
    | nil => exact Program.raises_pure ()
    | cons ref refs ih => exact (raises_scanText _).bind fun _ => ih
  have hpolicy : (checkPolicy input.tool).Raises fun e => ¬ e.AsksApproval := by
    intro s s' e h
    unfold checkPolicy authorize at h
    split_ifs at h
    · exact raises_noted (Q := fun e => ¬ e.AsksApproval) (by exact fun hasks => hasks) s s' e h
    · cases congrArg Prod.snd h
  exact hversion.bind fun _ => hstatus.bind fun _ => htimeout.bind fun _ =>
    (raises_scanText _).bind fun _ => hrefs.bind fun _ => hpolicy

/-- A high-risk action is never let through. -/
theorem not_gate_ok {s s' : AgentSession} {version : ℕ} {input : AgentInput} {now : DateTime}
    {action : ActionKind} (haction : input.requestedAction = some action)
    (hrisky : action.requiresApproval = true) :
    gate version input now s ≠ (s', .ok ()) := by
  intro h
  have hallowed := (gate_ok h).2.2 action haction
  rw [hrisky] at hallowed
  cases hallowed

/-- A prompt that was asked for an approval had passed every other check. -/
theorem cleared_of_asks {s s' : AgentSession} {version : ℕ} {input : AgentInput} {now : DateTime}
    {e : CoreError} (h : gate version input now s = (s', .error e)) (he : e.AsksApproval) :
    s.Cleared version input now := by
  cases hclear : (clear version input now s).2 with
  | ok _ => exact (clear_ok (Program.run_of_snd hclear)).2
  | error e' =>
    have hrun := Program.run_of_snd hclear
    have hstopped : gate version input now s = (_, .error e') := Program.bind_of_error hrun _
    rw [hstopped] at h
    obtain rfl := Except.error.inj (congrArg Prod.snd h)
    exact absurd he (raises_clear version input now s _ e' hrun)

theorem pending_appendSystemEvent (kind : AgentEventKind) (detail : String) :
    (appendSystemEvent kind detail).Keeps pendingApprovals := by
  intro s
  unfold appendSystemEvent
  obtain ⟨-, e, heq⟩ | ⟨-, event, heq, -⟩ := appendNormalized_cases kind detail s.backend s
  · rw [heq]
  · rw [heq]
    rfl

/-- A request is made, whatever the log says to it. -/
theorem requireApproval_run {α : Type} (action : ActionKind) (s : AgentSession) :
    ∃ s' request text,
      (requireApproval action : Method α) s = (s', .error (.approvalRequired text)) ∧
        request.action = action ∧
        s'.pendingApprovals = s.pendingApprovals ++ [request] :=
  ⟨_, _, _, rfl, rfl, pending_appendSystemEvent _ _ _⟩

end AgentSession

/-- **No grant unblocks an action.** A prompt whose action needs an approval never reaches the
backend. After it was asked for one and a named human granted it, whatever happens in between, the
next prompt for the action that meets the same conditions is asked for another one again. -/
theorem grant_never_unblocks (backend : AgentBackend) (input : AgentInput) (action : ActionKind)
    (haction : input.requestedAction = some action) (hrisky : action.requiresApproval = true) :
    (∀ (w : AgentWorld) (now : DateTime),
      (AgentWorld.prompt backend input now w).1.calls = w.calls) ∧
    ∀ (w w₁ w₂ : AgentWorld) (now later : DateTime) (text : String) (request : ApprovalRequest)
        (approval : ExplicitApproval) (events : List AgentEvent) (ops : List AgentOp),
      AgentWorld.prompt backend input now w = (w₁, .error (.approvalRequired text)) →
      w₁.session.pendingApprovals.getLast? = some request →
      approval.isNamedGrant = true →
      (AgentOp.resolveApproval request.id approval).perform w₁ = (w₂, .ok events) →
      (agentMachine.run w₂ ops).session.status = .active →
      (∀ deadline ∈ (agentMachine.run w₂ ops).session.deadline, later ≤ deadline) →
      ∃ w₃ text' request',
        AgentWorld.prompt backend input later (agentMachine.run w₂ ops) =
            (w₃, .error (.approvalRequired text')) ∧
          w₃.calls = (agentMachine.run w₂ ops).calls ∧
          request'.action = action ∧
          w₃.session.pendingApprovals =
            (agentMachine.run w₂ ops).session.pendingApprovals ++ [request'] := by
  refine ⟨fun w now => ?_, ?_⟩
  · obtain ⟨e, -, hrefused⟩ | ⟨hgate, -⟩ := AgentWorld.prompt_cases backend input now w
    · rw [hrefused]
    · exact absurd hgate (AgentSession.not_gate_ok haction hrisky)
  · intro w w₁ w₂ now later text request approval events ops hasked hrequest hgrant hresolved
      hactive hinTime
    have hcleared : w.session.Cleared backend.protocolVersion input now := by
      obtain ⟨e, hgate, hrefused⟩ | ⟨hgate, -⟩ := AgentWorld.prompt_cases backend input now w
      · rw [hrefused] at hasked
        obtain rfl := Except.error.inj (congrArg Prod.snd hasked)
        exact AgentSession.cleared_of_asks (Program.run_of_snd hgate) trivial
      · exact absurd hgate (AgentSession.not_gate_ok haction hrisky)
    -- Nothing the checks read has changed but the status and the deadline.
    have hgrows : AgentSession.Grows (fun _ => True) w.session
        (agentMachine.run w₂ ops).session := by
      have hfirst := ((AgentOp.prompt backend input now).grows_perform w).1
      have hsecond := ((AgentOp.resolveApproval request.id approval).grows_perform w₁).1
      rw [show (AgentOp.prompt backend input now).perform w = _ from hasked] at hfirst
      rw [hresolved] at hsecond
      exact (hfirst.mono fun _ _ => trivial).trans
        ((hsecond.mono fun _ _ => trivial).trans (AgentWorld.grows_run w₂ ops))
    have hagain : (agentMachine.run w₂ ops).session.Cleared backend.protocolVersion input later :=
      ⟨hcleared.version, hactive, hinTime, hgrows.secrets ▸ hcleared.text,
        hgrows.secrets ▸ hcleared.refs, hgrows.context ▸ hcleared.shell⟩
    obtain ⟨s', request', text', hrun, hsame, hpending⟩ :=
      AgentSession.requireApproval_run (α := Unit) action (agentMachine.run w₂ ops).session
    have hgate : AgentSession.gate backend.protocolVersion input later
        (agentMachine.run w₂ ops).session = (s', .error (.approvalRequired text')) := by
      rw [AgentSession.gate_of_cleared hagain, AgentSession.checkApproval, haction,
        Option.filter_some_pos hrisky]
      exact hrun
    refine ⟨{ agentMachine.run w₂ ops with session := s' }, text', request', ?_, rfl, hsame,
      hpending⟩
    exact Program.bind_of_error (by rw [AgentWorld.onSession, hgate]) _

def deployInput : AgentInput := ⟨"ship it", [], some .productionDeploy, none⟩

/-- A session that was asked to deploy to production. -/
def askedWorld : AgentWorld :=
  (AgentWorld.prompt (planningBackend "labrys-native") deployInput 1 ⟨openedSession, []⟩).1

def deployRequest : ApprovalRequest where
  id := AgentSession.requestId ⟨1⟩ 1
  sessionId := ⟨1⟩
  action := .productionDeploy
  reason := "production deployment requires human approval before execution"
  requestedBy := "labrys-native"

/-- The same session after the request was granted. -/
def grantedWorld : AgentWorld :=
  ((AgentOp.resolveApproval deployRequest.id (.granted "ada" "ship it")).perform askedWorld).1

theorem grant_never_unblocks_deploy :
    ∃ w₃ text' request',
      AgentWorld.prompt (planningBackend "labrys-native") deployInput 2 grantedWorld =
          (w₃, .error (.approvalRequired text')) ∧
        w₃.calls = grantedWorld.calls ∧ request'.action = .productionDeploy ∧
        w₃.session.pendingApprovals = grantedWorld.session.pendingApprovals ++ [request'] := by
  have hasked : (AgentWorld.prompt (planningBackend "labrys-native") deployInput 1
      ⟨openedSession, []⟩).2 = .error (.approvalRequired
        "production deployment blocked until a human approval is recorded") := by
    decide +kernel
  have hgranted : ((AgentOp.resolveApproval deployRequest.id
      (.granted "ada" "ship it")).perform askedWorld).2 = .ok [⟨1, ⟨1⟩,
        ⟨.native, "labrys-native"⟩, .verification,
        "approval apr_agt_00000000000000000000000000000001_1 granted by ada"⟩] := by
    decide +kernel
  exact (grant_never_unblocks (planningBackend "labrys-native") deployInput .productionDeploy rfl
    rfl).2 ⟨openedSession, []⟩ askedWorld grantedWorld 1 2 _ deployRequest
    (.granted "ada" "ship it") _ [] (Program.run_of_snd hasked) (by decide +kernel) (by decide)
    (Program.run_of_snd hgranted) (by decide +kernel) (by decide +kernel)

/-- The grant is in the log and no request waits, and the action is blocked as before. -/
theorem granted_deploy_blocked :
    let again := AgentWorld.prompt (planningBackend "labrys-native") deployInput 2 grantedWorld
    grantedWorld.session.events.map AgentEvent.kind = [.approvalRequested, .verification] ∧
      grantedWorld.session.pendingApprovals = [] ∧ again.1.calls = [] ∧
      again.2 = .error
        (.approvalRequired "production deployment blocked until a human approval is recorded") := by
  decide +kernel

end Labrys.Core
