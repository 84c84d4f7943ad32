import Labrys.Core.AgentReplay

/-! # Refused leaks

A text that carries a protected secret is refused by the scan in front of its append. Two things can
have been written by then: the earlier events of one batch, and the status, which is moved before the
event of the move is appended.

* `spares_gate`: no check of a prompt writes before it refuses a leak.
* `leak_atomic_iff`: when a refused leak leaves the session as it was. -/

namespace Labrys.Core
open Foundations
set_option autoImplicit false

def CoreError.IsLeak : CoreError → Prop
  | .secretLeak _ => True
  | _ => False

namespace AgentSession

def leakText : String :=
  "agent context contains a protected secret value; use a secret reference instead"

theorem scanText_leak {s : AgentSession} {text : String}
    (h : ¬ CarriesNone s.protectedSecrets text) :
    scanText text s = (s, .error (.secretLeak leakText)) := by
  unfold scanText
  rw [if_pos (any_containsText_iff.mpr h)]
  rfl

theorem appendNormalized_leak {kind : AgentEventKind} {detail : String}
    {backend : BackendIdentity} {s : AgentSession} (h : ¬ CarriesNone s.protectedSecrets detail) :
    appendNormalized kind detail backend s = (s, .error (.secretLeak leakText)) :=
  Program.bind_of_error (scanText_leak h) _

theorem appendNormalized_clean {kind : AgentEventKind} {detail : String}
    {backend : BackendIdentity} {s : AgentSession} (h : CarriesNone s.protectedSecrets detail) :
    appendNormalized kind detail backend s =
      (s.appended ⟨s.nextSequence, s.id, backend, kind, detail⟩,
        .ok ⟨s.nextSequence, s.id, backend, kind, detail⟩) :=
  Program.bind_of_ok (scanText_of_carriesNone h) _

/-! ## The checks of a prompt -/

theorem spares_checkTimeout (now : DateTime) : (checkTimeout now).Spares CoreError.IsLeak := by
  intro s h
  unfold checkTimeout at h ⊢
  split_ifs at h ⊢ with hlate
  · exact (h (.timeout "agent prompt exceeded its deadline") rfl).elim
  · rfl

theorem spares_scanRefs (refs : List SecretReference) :
    (scanRefs refs).Spares CoreError.IsLeak := by
  induction refs with
  | nil => exact .of_same fun _ => rfl
  | cons ref refs ih => exact (Program.Spares.of_same fun _ => rfl).bind fun _ => ih

theorem spares_checkPolicy (tool : Option ToolTier) :
    (checkPolicy tool).Spares CoreError.IsLeak := by
  intro s h
  unfold checkPolicy authorize at h ⊢
  split_ifs at h ⊢ with hshell
  · exact (h _ rfl).elim
  · rfl

theorem spares_checkApproval (requested : Option ActionKind) :
    (checkApproval requested).Spares CoreError.IsLeak := by
  intro s h
  unfold checkApproval at h ⊢
  cases hrequested : requested.filter ActionKind.requiresApproval with
  | some action =>
    rw [hrequested] at h
    exact (h _ rfl).elim
  | none => rfl

/-- No check writes before it refuses a leak. -/
theorem spares_gate (version : ℕ) (input : AgentInput) (now : DateTime) :
    (gate version input now).Spares CoreError.IsLeak := by
  have hclear : (clear version input now).Spares CoreError.IsLeak :=
    (Program.Spares.of_same fun _ => rfl).bind fun _ =>
      (Program.Spares.of_same fun _ => rfl).bind fun _ =>
        (spares_checkTimeout now).bind fun _ =>
          (Program.Spares.of_same fun _ => rfl).bind fun _ =>
            (spares_scanRefs _).bind fun _ => spares_checkPolicy _
  exact hclear.bind fun _ => spares_checkApproval _

/-! ## A batch -/

theorem appendAll_of_clean (backend : BackendIdentity) {drafts : List Draft} {s : AgentSession}
    (h : ∀ draft ∈ drafts, CarriesNone s.protectedSecrets draft.2) :
    ∃ events, (appendAll backend drafts s).2 = .ok events := by
  induction drafts generalizing s with
  | nil => exact ⟨[], rfl⟩
  | cons draft drafts ih =>
    obtain ⟨hfirst, hrest⟩ := List.forall_mem_cons.mp h
    obtain ⟨events, hevents⟩ :=
      ih (s := s.appended ⟨s.nextSequence, s.id, backend, draft.1, draft.2⟩) hrest
    rw [appendAll, Program.bind_of_ok (appendNormalized_clean hfirst),
      Program.bind_of_snd_ok hevents]
    exact ⟨_, rfl⟩

theorem appendAll_of_leak (backend : BackendIdentity) {drafts : List Draft} {s : AgentSession}
    (h : ¬ ∀ draft ∈ drafts, CarriesNone s.protectedSecrets draft.2) :
    (appendAll backend drafts s).2 = .error (.secretLeak leakText) := by
  induction drafts generalizing s with
  | nil => exact absurd (fun _ hdraft => by cases hdraft) h
  | cons draft drafts ih =>
    by_cases hfirst : CarriesNone s.protectedSecrets draft.2
    · have hlater : ¬ ∀ later ∈ drafts, CarriesNone s.protectedSecrets later.2 :=
        fun hrest => h (List.forall_mem_cons.mpr ⟨hfirst, hrest⟩)
      have hfailed := ih (s := s.appended ⟨s.nextSequence, s.id, backend, draft.1, draft.2⟩) hlater
      rw [appendAll, Program.bind_of_ok (appendNormalized_clean hfirst),
        Program.bind_of_snd_error hfailed]
    · rw [appendAll, Program.bind_of_error (appendNormalized_leak hfirst)]

/-- What comes after a clean first draft does not take it back. -/
theorem length_lt_appendAll (backend : BackendIdentity) {draft : Draft} (drafts : List Draft)
    {s : AgentSession} (h : CarriesNone s.protectedSecrets draft.2) :
    s.events.length < (appendAll backend (draft :: drafts) s).1.events.length := by
  have hgrows : Grows (fun _ => True)
      (s.appended ⟨s.nextSequence, s.id, backend, draft.1, draft.2⟩)
      (appendAll backend (draft :: drafts) s).1 := by
    rw [appendAll, Program.bind_of_ok (appendNormalized_clean h)]
    exact ((grows_appendAll trivial drafts).bind .trans fun _ => Program.moves_pure .refl _) _
  have hlength := hgrows.log.length_le
  rw [appended, List.length_append, List.length_singleton] at hlength
  exact hlength

/-! ## A move of the status -/

/-- What a caller sees of a session. -/
def Unmoved (s s' : AgentSession) : Prop :=
  s'.status = s.status ∧ s'.events = s.events ∧ s'.nextSequence = s.nextSequence

theorem Unmoved.refl (s : AgentSession) : Unmoved s s := ⟨rfl, rfl, rfl⟩

/-- Every leak that the program refuses leaves the session unmoved. -/
def RefusesWhole {α : Type} (m : Method α) (s : AgentSession) : Prop :=
  ∀ s' text, m s = (s', .error (.secretLeak text)) → Unmoved s s'

theorem refusesWhole_bind_iff {α β : Type} {m : Method α} {f : α → Method β}
    (hf : ∀ a s, ∃ b, (f a s).2 = .ok b) (s : AgentSession) :
    RefusesWhole (m >>= f) s ↔ RefusesWhole m s := by
  refine forall₂_congr fun s' text => imp_congr_left ?_
  cases hm : (m s).2 with
  | ok a =>
    rw [Program.bind_of_snd_ok hm]
    obtain ⟨b, hb⟩ := hf a (m s).1
    refine iff_of_false (fun h => ?_) fun h => ?_
    · rw [h] at hb
      cases hb
    · rw [h] at hm
      cases hm
  | error e =>
    rw [Program.bind_of_snd_error hm, Program.run_of_snd hm]
    simp only [Prod.mk.injEq, Except.error.injEq]

/-- The status is moved, and then the event is scanned. -/
theorem refusesWhole_move_iff {expected status : SessionStatus} (hmoves : status ≠ expected)
    (operation : String) (kind : AgentEventKind) (detail : String) (s : AgentSession) :
    RefusesWhole (do
      requireStatus expected operation
      setStatus status
      appendSystemEvent kind detail) s ↔
      (s.status = expected → CarriesNone s.protectedSecrets detail) := by
  by_cases hstatus : s.status = expected
  · have hrun : (do
        requireStatus expected operation
        setStatus status
        appendSystemEvent kind detail) s =
        appendNormalized kind detail s.backend { s with status := status } :=
      Program.bind_of_ok (requireStatus_of_eq hstatus) _
    unfold RefusesWhole
    rw [hrun]
    by_cases hclean : CarriesNone s.protectedSecrets detail
    · refine iff_of_true (fun s' text h => ?_) fun _ => hclean
      rw [appendNormalized_clean (s := { s with status := status }) hclean] at h
      cases congrArg Prod.snd h
    · refine iff_of_false (fun hwhole => ?_) fun h => hclean (h hstatus)
      obtain ⟨hsame, -⟩ :=
        hwhole _ _ (appendNormalized_leak (s := { s with status := status }) hclean)
      exact hmoves (hsame.trans hstatus)
  · refine iff_of_true (fun s' text h => ?_) fun h => absurd h hstatus
    obtain ⟨e, hrefused⟩ := requireStatus_of_ne operation hstatus
    rw [Program.bind_of_error hrefused] at h
    rw [← (Prod.mk.inj h).1]
    exact .refl s

/-- The log that `resume` returns. -/
def wholeLog : Method (List AgentEvent) := fun s => (s, .ok s.events)

theorem resume_eq : resume = (do
    requireStatus .interrupted "resume"
    setStatus .active
    appendSystemEvent .resumed "session resumed") >>= fun _ => wholeLog := by
  have hresume : resume = requireStatus .interrupted "resume" >>= fun _ =>
      setStatus .active >>= fun _ =>
        appendSystemEvent .resumed "session resumed" >>= fun _ => wholeLog := rfl
  rw [hresume, bind_assoc]
  congr 1

theorem resolveApproval_error {request : String} {approval : ExplicitApproval}
    {s s' : AgentSession} {e : CoreError}
    (h : resolveApproval request approval s = (s', .error e)) : s' = s := by
  have hsettled : ∀ kind detail position, (do
      let event ← appendSystemEvent kind detail
      removePending position
      return event) s = (s', .error e) → s' = s := by
    intro kind detail position hrun
    by_cases hclean : CarriesNone s.protectedSecrets detail
    · rw [Program.bind_of_ok (show appendSystemEvent kind detail s = _ from
        appendNormalized_clean hclean)] at hrun
      cases congrArg Prod.snd hrun
    · rw [Program.bind_of_error (show appendSystemEvent kind detail s = _ from
        appendNormalized_leak hclean)] at hrun
      exact (Prod.mk.inj hrun).1.symm
  unfold resolveApproval at h
  split at h
  · exact (Prod.mk.inj h).1.symm
  · dsimp only at h
    split_ifs at h
    · exact hsettled _ _ _ h
    · exact (Prod.mk.inj h).1.symm
    · exact hsettled _ _ _ h

end AgentSession

/-! ## Every operation -/

/-- If the operation returns that a secret leaks, then the status, the log and the counter of the
session are as they were. -/
def AgentOp.Atomic (op : AgentOp) (w : AgentWorld) : Prop :=
  ∀ w' text, op.perform w = (w', .error (.secretLeak text)) → w.session.Unmoved w'.session

/-- A leak, if there is one, comes before the first write: in a batch that the prompt gets to it is in
the first draft, and the event of a move of the status has none. -/
def AgentOp.LeaksFirst (w : AgentWorld) : AgentOp → Prop
  | .prompt backend input now =>
      w.session.Cleared backend.protocolVersion input now →
      (∀ action ∈ input.requestedAction, action.requiresApproval = false) →
      ∀ draft drafts,
        backend.draftEvents w.session.context input w.session.nextSequence =
          .ok (draft :: drafts) →
        CarriesNone w.session.protectedSecrets draft.2 →
        ∀ later ∈ drafts, CarriesNone w.session.protectedSecrets later.2
  | .interrupt => w.session.status = .active →
      CarriesNone w.session.protectedSecrets "session interrupted"
  | .resume => w.session.status = .interrupted →
      CarriesNone w.session.protectedSecrets "session resumed"
  | .complete => w.session.status = .active →
      CarriesNone w.session.protectedSecrets "session completed"
  | .setDeadline _ | .resolveApproval .. | .replayEvent _ => True

section Operations
variable {w : AgentWorld}

theorem AgentWorld.atomic_onSession_iff {op : AgentOp} {m : AgentSession.Method (List AgentEvent)}
    (hop : op.perform = AgentWorld.onSession m) :
    op.Atomic w ↔ AgentSession.RefusesWhole m w.session := by
  unfold AgentOp.Atomic
  rw [hop]
  constructor
  · intro h s' text hrun
    refine h { w with session := s' } text ?_
    rw [AgentWorld.onSession, hrun]
  · intro h w' text hrun
    obtain ⟨rfl, hresult⟩ := Prod.mk.inj hrun
    exact h _ text (Program.run_of_snd hresult)

theorem AgentWorld.prompt_of_gate {backend : AgentBackend} {input : AgentInput} {now : DateTime}
    (h : AgentSession.gate backend.protocolVersion input now w.session = (w.session, .ok ())) :
    (∃ e, backend.draftEvents w.session.context input w.session.nextSequence = .error e ∧
      (prompt backend input now w).1.session = w.session) ∨
    ∃ drafts, backend.draftEvents w.session.context input w.session.nextSequence = .ok drafts ∧
      (prompt backend input now w).1.session =
        (AgentSession.appendAll backend.identity drafts w.session).1 ∧
      (prompt backend input now w).2 =
        (AgentSession.appendAll backend.identity drafts w.session).2 := by
  have hsession := session_prompt_of_gate h
  have hpassed : onSession (AgentSession.gate backend.protocolVersion input now) w =
      (w, .ok ()) := by
    rw [onSession, h]
  cases hdrafts : backend.draftEvents w.session.context input w.session.nextSequence with
  | error e =>
    rw [hdrafts] at hsession
    exact .inl ⟨e, rfl, hsession⟩
  | ok drafts =>
    rw [hdrafts] at hsession
    refine .inr ⟨drafts, rfl, hsession, ?_⟩
    have hanswered : (draftEvents backend input w).2 = .ok drafts := hdrafts
    rw [prompt, Program.bind_of_ok hpassed, Program.bind_of_snd_ok hanswered]
    rfl

theorem AgentOp.prompt_atomic_iff (backend : AgentBackend) (input : AgentInput) (now : DateTime) :
    (AgentOp.prompt backend input now).Atomic w ↔
      (AgentOp.prompt backend input now).LeaksFirst w := by
  obtain ⟨e, hgate, hrefused⟩ | ⟨hgate, -⟩ := AgentWorld.prompt_cases backend input now w
  · refine iff_of_true (fun w' text hrun => ?_) fun hcleared haction => ?_
    · obtain ⟨rfl, hleak⟩ := Prod.mk.inj (hrefused.symm.trans hrun)
      obtain rfl := Except.error.inj hleak
      have hsame := AgentSession.spares_gate backend.protocolVersion input now w.session
        fun e' he' => by
          rw [hgate] at he'
          rw [← Except.error.inj he']
          exact trivial
      dsimp only
      rw [hsame]
      exact .refl _
    · rw [(AgentSession.gate_ok_iff _ _ _ _).mpr ⟨hcleared, haction⟩] at hgate
      cases hgate
  · obtain ⟨hcleared, haction⟩ := (AgentSession.gate_ok_iff _ _ _ _).mp hgate
    obtain ⟨e, hdrafts, hsession⟩ | ⟨drafts, hdrafts, hsession, hresult⟩ :=
      AgentWorld.prompt_of_gate hgate
    · refine iff_of_true (fun w' text hrun => ?_) fun _ _ draft drafts hok => ?_
      · have hkept : w'.session = w.session := by
          rw [← hsession, show AgentWorld.prompt backend input now w = _ from hrun]
        rw [hkept]
        exact .refl _
      · rw [hdrafts] at hok
        cases hok
    · constructor
      · intro hatomic _ _ draft rest hok hfirst later hlater
        obtain rfl := Except.ok.inj (hdrafts.symm.trans hok)
        by_contra hleak
        -- The first draft is in the log when the later one is refused.
        have hsome : ¬ ∀ other ∈ draft :: rest,
            CarriesNone w.session.protectedSecrets other.2 :=
          fun hall => hleak (hall later (List.mem_cons_of_mem _ hlater))
        have hfailed := AgentSession.appendAll_of_leak backend.identity hsome
        obtain ⟨-, hevents, -⟩ := hatomic _ _ (Program.run_of_snd (hresult.trans hfailed))
        have hlonger := AgentSession.length_lt_appendAll backend.identity rest hfirst
        rw [← hsession] at hlonger
        exact hlonger.ne (congrArg List.length hevents).symm
      · intro hfirst w' text hrun
        have hrun' : AgentWorld.prompt backend input now w = (w', .error (.secretLeak text)) := hrun
        rw [hrun'] at hsession hresult
        cases drafts with
        | nil => cases hresult
        | cons draft rest =>
          by_cases hclean : CarriesNone w.session.protectedSecrets draft.2
          · obtain ⟨events, hevents⟩ := AgentSession.appendAll_of_clean backend.identity
              (List.forall_mem_cons.mpr
                ⟨hclean, hfirst hcleared haction draft rest hdrafts hclean⟩)
            rw [hevents] at hresult
            cases hresult
          · have hkept : w'.session = w.session := by
              rw [show w'.session = _ from hsession, AgentSession.appendAll,
                Program.bind_of_error (AgentSession.appendNormalized_leak hclean)]
            rw [hkept]
            exact .refl _

/-- **Which refused leaks are atomic.** For every session, backend and set of secrets: whenever an
operation returns that a secret leaks, the status, the log and the counter are as before the call, if
and only if the leak is the first thing the operation would have written. -/
theorem leak_atomic_iff (op : AgentOp) (w : AgentWorld) : op.Atomic w ↔ op.LeaksFirst w := by
  have hreturn : ∀ {α : Type} (f : α → List AgentEvent) (a : α) (s : AgentSession),
      ∃ b, ((pure (f a) : AgentSession.Method (List AgentEvent)) s).2 = .ok b :=
    fun f a _ => ⟨f a, rfl⟩
  cases op with
  | prompt backend input now => exact AgentOp.prompt_atomic_iff backend input now
  | interrupt =>
    refine (AgentWorld.atomic_onSession_iff rfl).trans ?_
    exact (AgentSession.refusesWhole_bind_iff (hreturn fun event => [event]) _).trans
      (AgentSession.refusesWhole_move_iff (by decide) _ _ _ _)
  | resume =>
    refine (AgentWorld.atomic_onSession_iff rfl).trans ?_
    rw [AgentSession.resume_eq]
    exact (AgentSession.refusesWhole_bind_iff (fun _ s => ⟨s.events, rfl⟩) _).trans
      (AgentSession.refusesWhole_move_iff (by decide) _ _ _ _)
  | complete =>
    refine (AgentWorld.atomic_onSession_iff rfl).trans ?_
    exact (AgentSession.refusesWhole_bind_iff (hreturn fun event => [event]) _).trans
      (AgentSession.refusesWhole_move_iff (by decide) _ _ _ _)
  | setDeadline deadline =>
    refine iff_of_true (fun w' text hrun => ?_) trivial
    cases congrArg Prod.snd hrun
  | resolveApproval request approval =>
    refine iff_of_true ((AgentWorld.atomic_onSession_iff rfl).mpr ?_) trivial
    refine (AgentSession.refusesWhole_bind_iff (hreturn fun event => [event]) _).mpr ?_
    intro s' text hrun
    rw [AgentSession.resolveApproval_error hrun]
    exact .refl _
  | replayEvent event =>
    refine iff_of_true ((AgentWorld.atomic_onSession_iff rfl).mpr ?_) trivial
    refine (AgentSession.refusesWhole_bind_iff (hreturn fun _ => []) _).mpr ?_
    intro s' text hrun
    obtain ⟨e, heq⟩ | ⟨-, -, -, -, heq⟩ := AgentSession.replayEvent_cases event w.session
    · rw [← (Prod.mk.inj (heq.symm.trans hrun)).1]
      exact .refl _
    · cases congrArg Prod.snd (heq.symm.trans hrun)

end Operations

/-! ### A leak behind a clean draft -/

/-- A backend that drafts its plan, and then a command with a password in it. -/
def carelessBackend : AgentBackend where
  identity := ⟨.native, "labrys-native"⟩
  protocolVersion := agentProtocolVersion
  draftEvents := fun _ _ _ => .ok [(.planning, "add a page"), (.commandRun, "login hunter2")]

/-- The second draft is refused and the first stays in the log. Where the secret is a word of the
session's own texts, an interrupt is refused and the session is interrupted. -/
theorem leak_not_atomic :
    let prompted := (AgentOp.prompt carelessBackend ⟨"add a page", [], none, none⟩ 1).perform
      ⟨openedSession, []⟩
    let guarded := { openedSession with protectedSecrets := ["session"] }
    let stopped := AgentOp.interrupt.perform ⟨guarded, []⟩
    prompted.2 = .error (.secretLeak AgentSession.leakText) ∧
      openedSession.events.length = 0 ∧ prompted.1.session.events.length = 1 ∧
      openedSession.nextSequence = 0 ∧ prompted.1.session.nextSequence = 1 ∧
    stopped.2 = .error (.secretLeak AgentSession.leakText) ∧
      guarded.status = .active ∧ stopped.1.session.status = .interrupted := by
  decide +kernel

end Labrys.Core
