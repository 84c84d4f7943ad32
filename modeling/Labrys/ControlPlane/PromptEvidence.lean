import Labrys.ControlPlane.Replays

/-! # What a prompt or a session id leaves behind

`mutate_simple` says in a comment that prompts and session ids shape the detail of its event by
presence only. The detail of `run` holds neither; that of `agent` holds the length of the prompt in
bytes, and that of `preview` the session id itself.

* `evidence_run`: where the body of a request enters what it leaves, for every body.
* `prompt_evidence`: which two bodies cannot be told apart by it. -/

namespace Labrys.ControlPlane
open Foundations Labrys.Core
set_option autoImplicit false

/-- The commands that go through `mutate_simple`. -/
inductive SimpleCommand
  | run | agent | preview
deriving DecidableEq

namespace SimpleCommand

def name : SimpleCommand → String
  | run => "run"
  | agent => "agent"
  | preview => "preview"

def action : SimpleCommand → JobAction
  | run | preview => .provision
  | agent => .verify

def targetSuffix : SimpleCommand → String
  | run => "dev"
  | agent => "agent"
  | preview => "preview"

def call (application : String) (body : MutationBody) : SimpleCommand → ApiCall
  | run => .runDev application body
  | agent => .agent application body
  | preview => .preview application body

theorem endpoint_call (command : SimpleCommand) (api : ApiState) (draws : Draws) (raw : String)
    (body : MutationBody) :
    (command.call raw body).endpoint api draws =
      mutateSimple api draws raw body command.name command.action command.targetSuffix := by
  cases command <;> rfl

/-- The event of the command does not tell the two bodies apart. -/
def Withholds (body body' : MutationBody) : SimpleCommand → Prop
  | run => True
  | agent => (body.prompt.getD "").utf8ByteSize = (body'.prompt.getD "").utf8ByteSize
  | preview => body.sessionId = body'.sessionId

end SimpleCommand

/-- The bodies differ at most in what their prompt and their session id say; each has the ones that
the other has. -/
structure DifferInContent (body body' : MutationBody) : Prop where
  others : body' = { body with prompt := body'.prompt, sessionId := body'.sessionId }
  prompt : body'.prompt.isSome = body.prompt.isSome
  sessionId : body'.sessionId.isSome = body.sessionId.isSome

/-- The events and the stored responses. -/
def ApiDb.evidence (s : ApiDb) : List EventDraft × Table fun record : IdempotencyRecord =>
    record.key :=
  (s.db.events, s.replays)

/-- Both requests leave the same events and the same stored responses. -/
def SameEvidence (api : ApiState) (s : ApiDb) (request request' : ApiRequest) : Prop :=
  ((request.script api).run s).1.evidence = ((request'.script api).run s).1.evidence

variable {api : ApiState} {ctx : ActorContext} {draws : Draws}

/-! ## The detail -/

theorem simpleDetail_agent (body : MutationBody) :
    simpleDetail "agent" body = "agent work requested (prompt " ++
      toString (body.prompt.getD "").utf8ByteSize ++ " chars); converging" := rfl

theorem simpleDetail_preview (body : MutationBody) :
    simpleDetail "preview" body =
      "preview requested" ++ body.sessionId.elim "" (" for session " ++ ·) ++ "; converging" := by
  obtain ⟨_, _, _, _, _, session, _⟩ := body
  cases session <;> rfl

/-- The details of two bodies are equal exactly if the event does not tell the bodies apart. -/
theorem simpleDetail_eq_iff {command : SimpleCommand} {body body' : MutationBody}
    (h : DifferInContent body body') :
    simpleDetail command.name body = simpleDetail command.name body' ↔
      command.Withholds body body' := by
  cases command with
  | run => exact ⟨fun _ => trivial, fun _ => rfl⟩
  | agent =>
    change simpleDetail "agent" body = simpleDetail "agent" body' ↔ _ = _
    rw [simpleDetail_agent, simpleDetail_agent, String.append_left_inj, String.append_right_inj,
      toString_nat_injective.eq_iff]
  | preview =>
    change simpleDetail "preview" body = simpleDetail "preview" body' ↔
      body.sessionId = body'.sessionId
    rw [simpleDetail_preview, simpleDetail_preview, String.append_left_inj,
      String.append_right_inj]
    have hpresent := h.sessionId
    cases hsession : body.sessionId with
    | none =>
      rw [hsession, Option.isSome_none, Option.isSome_eq_false_iff, Option.isNone_iff_eq_none]
        at hpresent
      rw [hpresent, eq_self_iff_true, eq_self_iff_true]
    | some session =>
      rw [hsession, Option.isSome_some, Option.isSome_iff_exists] at hpresent
      obtain ⟨session', hsession'⟩ := hpresent
      rw [hsession', Option.elim_some, Option.elim_some, String.append_right_inj, Option.some_inj]

/-! ## Where the body enters -/

/-- What `mutate_simple` does before it makes up the detail. -/
def scheduled (ctx : ActorContext) (draws : Draws) (raw : String) (action : JobAction)
    (targetSuffix : String) : ApiScript (Application × Job) := do
  let app ← loadApp ctx raw
  let enqueued ← enqueue ctx draws s!"{app.id}:{targetSuffix}" action
  return (app, enqueued.1)

def simpleEvent (ctx : ActorContext) (draws : Draws) (app : Application) (detail : String) :
    EventDraft :=
  eventDraft ctx draws .reconciled ⟨"application", toString app.id⟩ detail

def simpleResponse (ctx : ActorContext) (command : String) (app : Application) (job : Job) : Json :=
  envelope command ctx false (some (resourceValue "application" (toString app.id)))
    (some (.object [("application_id", .string (toString app.id))])) (some job)
    (some "work continues after this response; poll the job for status")

/-- The body enters the work of `mutate_simple` in the detail of its event only. -/
theorem work_mutateSimple (raw : String) (body : MutationBody) (command : String)
    (action : JobAction) (targetSuffix : String) :
    (mutateSimple api draws raw body command action targetSuffix).work ctx =
      scheduled ctx draws raw action targetSuffix >>= fun planned =>
        statement ctx.internal (onDb (PgEventStore.append
          (simpleEvent ctx draws planned.1 (simpleDetail command body)) api.secrets)) >>= fun _ =>
            pure (simpleResponse ctx command planned.1 planned.2) := by
  unfold scheduled
  rw [Script.bind_assoc]
  refine congrArg (loadApp ctx raw >>= ·) (funext fun app => ?_)
  rw [Script.bind_assoc]
  rfl

theorem redactGuard_empty (field : String) (secrets : List String) :
    redactGuard field "" secrets = .ok "" := by
  have hnone : CarriesNone secrets "" := by
    intro secret _ hne
    rw [containsText_eq_false_iff, String.toList_empty, List.infix_nil, String.toList_eq_nil_iff]
    exact hne
  rw [redactGuard_eq, redactReason_of_carriesNone hnone, if_pos hnone]

/-- Only the detail of the event is redacted. -/
theorem redactEvent_simpleEvent (app : Application) (detail : String) (secrets : List String) :
    redactEvent (simpleEvent ctx draws app detail) secrets =
      (redactGuard "event.after" detail secrets).map (simpleEvent ctx draws app) := by
  unfold redactEvent
  change (redactGuard "event.before" "" secrets >>= fun _ =>
    redactGuard "event.after" detail secrets >>= fun after => _) = _
  rw [redactGuard_empty]
  cases redactGuard "event.after" detail secrets <;> rfl

section Record
variable {app : Application} {detail : String} {s : ApiDb}

theorem run_simpleEvent_ok {redacted : String}
    (h : redactGuard "event.after" detail api.secrets = .ok redacted) :
    (statement ctx.internal
        (onDb (PgEventStore.append (simpleEvent ctx draws app detail) api.secrets))).run s =
      ({ s with db := { s.db with
          events := s.db.events ++ [simpleEvent ctx draws app redacted] } }, .ok ()) := by
  rw [run_statement, events_append, redactEvent_simpleEvent, h]
  rfl

theorem run_simpleEvent_error {e : ControlPlaneError}
    (h : redactGuard "event.after" detail api.secrets = .error e) :
    (statement ctx.internal
        (onDb (PgEventStore.append (simpleEvent ctx draws app detail) api.secrets))).run s =
      (s, .error (ctx.internal (.err e))) := by
  rw [run_statement, events_append, redactEvent_simpleEvent, h]
  rfl

end Record

theorem simpleEvent_injective (app : Application) :
    Function.Injective (simpleEvent ctx draws app) := by
  intro detail detail' h
  exact Option.some_inj.mp (congrArg EventDraft.after h)

section Request
variable {command : SimpleCommand} {headers : Headers} {raw : String} {s : ApiDb}

/-- **Where the body of a request enters what it leaves**: a request that is answered anew leaves one
event with its redacted detail and one stored response. With any other body it leaves the same, with
that body's detail, or nothing of the two if the guard refuses the detail. -/
theorem evidence_run {body : MutationBody} {response : Json}
    (h : AnswersAnew api s ⟨headers, command.call raw body, draws⟩ response) :
    (∃ detail, redactGuard "event.after" (simpleDetail command.name body) api.secrets =
      .ok detail) ∧
    ∃ (s₀ : ApiDb) (ctx : ActorContext) (app : Application) (record : IdempotencyRecord), ∀ body',
      (∀ detail, redactGuard "event.after" (simpleDetail command.name body') api.secrets =
          .ok detail →
        ((ApiRequest.script api ⟨headers, command.call raw body', draws⟩).run s).1.evidence =
          (s₀.db.events ++ [simpleEvent ctx draws app detail], s₀.replays.insertNew record)) ∧
      ∀ e, redactGuard "event.after" (simpleDetail command.name body') api.secrets = .error e →
        ((ApiRequest.script api ⟨headers, command.call raw body', draws⟩).run s).1.evidence =
          (s₀.db.events, s₀.replays) := by
  obtain ⟨-, hok, hanew⟩ := h
  obtain ⟨ctx, key, hactor, -, hkey, ⟨⟨record, -, hset⟩, -⟩ |
    ⟨hfree, s₁, stored, hwork, hform, -⟩⟩ := handle_cases (Program.run_of_snd hok)
  · rw [Json.get_set_self hset] at hanew
    cases hanew
  unfold ApiRequest.endpoint at hwork
  rw [SimpleCommand.endpoint_call, work_mutateSimple, Script.run_bind] at hwork
  obtain ⟨s₀, ⟨app, job⟩, hscheduled, hrest⟩ := Program.bind_eq_ok hwork
  rw [Script.run_bind] at hrest
  obtain ⟨s₂, value, hevent, hpure⟩ := Program.bind_eq_ok hrest
  obtain rfl : simpleResponse ctx command.name app job = response :=
    Except.ok.inj (congrArg Prod.snd hpure)
  -- whatever the body, the request comes as far as its event
  have hrun : ∀ body', (ApiRequest.script api ⟨headers, command.call raw body', draws⟩).run s =
      ((statement ctx.internal (onDb (PgEventStore.append
        (simpleEvent ctx draws app (simpleDetail command.name body')) api.secrets))).run >>=
          fun _ => (Endpoint.store api (mutateSimple api draws raw body' command.name
            command.action command.targetSuffix) (ctx, key)
              (simpleResponse ctx command.name app job)).run) s₀ := by
    intro body'
    have hpolicy : (mutateSimple api draws raw body' command.name command.action
      command.targetSuffix).policy ctx = .ok () := rfl
    unfold ApiRequest.script ApiRequest.endpoint
    rw [SimpleCommand.endpoint_call, handle_of_free hactor hpolicy hkey hfree, work_mutateSimple,
      Script.bind_assoc, Script.run_bind, Program.bind_of_ok hscheduled, Script.bind_assoc,
      Script.run_bind]
    rfl
  refine ⟨?_, s₀, ctx, app, ⟨key, command.name, stored⟩, fun body' => ⟨fun detail hguard => ?_,
    fun e hguard => ?_⟩⟩
  · cases hguard : redactGuard "event.after" (simpleDetail command.name body) api.secrets with
    | error e => rw [run_simpleEvent_error hguard] at hevent; cases congrArg Prod.snd hevent
    | ok detail => exact ⟨detail, rfl⟩
  · rw [hrun, Program.bind_of_ok (run_simpleEvent_ok hguard)]
    exact congrArg (fun result => result.1.evidence) (Endpoint.run_store hform _)
  · rw [hrun, Program.bind_of_error (run_simpleEvent_error hguard)]
    rfl

/-- What is answered anew is told apart from another body by its redacted detail. -/
theorem sameEvidence_iff {body : MutationBody} {response : Json}
    (h : AnswersAnew api s ⟨headers, command.call raw body, draws⟩ response)
    (body' : MutationBody) :
    SameEvidence api s ⟨headers, command.call raw body, draws⟩
        ⟨headers, command.call raw body', draws⟩ ↔
      redactGuard "event.after" (simpleDetail command.name body) api.secrets =
        redactGuard "event.after" (simpleDetail command.name body') api.secrets := by
  obtain ⟨⟨detail, hdetail⟩, s₀, ctx, app, record, hrun⟩ := evidence_run h
  unfold SameEvidence
  rw [(hrun body).1 detail hdetail, hdetail]
  cases hdetail' : redactGuard "event.after" (simpleDetail command.name body') api.secrets with
  | error e =>
    rw [(hrun body').2 e hdetail']
    refine iff_of_false (fun hsame => ?_) fun hguard => by cases hguard
    have hevents : s₀.db.events ++ [simpleEvent ctx draws app detail] = s₀.db.events :=
      congrArg Prod.fst hsame
    exact List.cons_ne_nil _ _ (List.append_right_eq_self.mp hevents)
  | ok detail' =>
    rw [(hrun body').1 detail' hdetail', Prod.mk.injEq, List.append_right_inj, List.singleton_inj,
      (simpleEvent_injective app).eq_iff, and_iff_left rfl, Except.ok.injEq]

end Request

theorem smallRequest_answersAnew (command : SimpleCommand) :
    ∃ response, AnswersAnew (smallApi []) smallDb
      (humanRequest 1 "k-1" (command.call (toString smallApplication) emptyBody)) response := by
  have hok : (((humanRequest 1 "k-1" (command.call (toString smallApplication) emptyBody)).script
      (smallApi [])).run smallDb).2.toOption.isSome = true := by
    cases command <;> decide +kernel
  obtain ⟨response, hresponse⟩ := Option.isSome_iff_exists.mp hok
  have hkey : (humanRequest 1 "k-1" (command.call (toString smallApplication)
      emptyBody)).headers.idempotencyOf = some "k-1" := by
    cases command <;> decide +kernel
  exact ⟨response, answersAnew_of_ok (by cases command <;> rfl) hkey rfl (ok_of_toOption hresponse)⟩

/-- **What a prompt or a session id leaves behind**, for two bodies that differ in what these say. No
run of the command tells them apart exactly if the command is `run`, or is `agent` and the prompts
have as many bytes, or is `preview` and the sessions are equal. And a request that is answered anew
tells them apart unless redaction makes one text of their details. -/
theorem prompt_evidence (command : SimpleCommand) (body body' : MutationBody)
    (h : DifferInContent body body') :
    ((∀ (api : ApiState) (s : ApiDb) (headers : Headers) (raw : String) (draws : Draws),
        SameEvidence api s ⟨headers, command.call raw body, draws⟩
          ⟨headers, command.call raw body', draws⟩) ↔ command.Withholds body body') ∧
    ∀ (api : ApiState) (s : ApiDb) (headers : Headers) (raw : String) (draws : Draws)
      (response : Json), AnswersAnew api s ⟨headers, command.call raw body, draws⟩ response →
        (SameEvidence api s ⟨headers, command.call raw body, draws⟩
            ⟨headers, command.call raw body', draws⟩ ↔
          redactGuard "event.after" (simpleDetail command.name body) api.secrets =
            redactGuard "event.after" (simpleDetail command.name body') api.secrets) := by
  refine ⟨⟨fun hsame => ?_, fun hwithholds api s headers raw draws => ?_⟩,
    fun _ _ _ _ _ _ hanew => sameEvidence_iff hanew body'⟩
  · obtain ⟨response, hanew⟩ := smallRequest_answersAnew command
    obtain ⟨-, s₀, ctx, app, record, hrun⟩ := evidence_run hanew
    -- without secrets the details are recorded as they are
    have hevents : s₀.db.events ++
          [simpleEvent ctx (smallDraws 1) app (simpleDetail command.name body)] =
        s₀.db.events ++
          [simpleEvent ctx (smallDraws 1) app (simpleDetail command.name body')] :=
      congrArg Prod.fst ((((hrun body).1 _ (redactGuard_nil _ _)).symm.trans
        (hsame _ _ _ _ _)).trans ((hrun body').1 _ (redactGuard_nil _ _)))
    rw [List.append_right_inj, List.singleton_inj] at hevents
    exact (simpleDetail_eq_iff h).mp (simpleEvent_injective app hevents)
  · have hendpoint : (command.call raw body).endpoint api draws =
        (command.call raw body').endpoint api draws := by
      rw [SimpleCommand.endpoint_call, SimpleCommand.endpoint_call]
      unfold mutateSimple
      rw [(simpleDetail_eq_iff h).mpr hwithholds]
    unfold SameEvidence ApiRequest.script ApiRequest.endpoint
    rw [hendpoint]

/-- Two prompts of as many bytes. -/
theorem prompt_evidence_agent :
    DifferInContent { emptyBody with prompt := some "use hunter2" }
        { emptyBody with prompt := some "use hunter3" } ∧
      ∀ (api : ApiState) (s : ApiDb) (headers : Headers) (raw : String) (draws : Draws),
        SameEvidence api s
          ⟨headers, .agent raw { emptyBody with prompt := some "use hunter2" }, draws⟩
          ⟨headers, .agent raw { emptyBody with prompt := some "use hunter3" }, draws⟩ := by
  have hdiffer : DifferInContent { emptyBody with prompt := some "use hunter2" }
      { emptyBody with prompt := some "use hunter3" } := ⟨rfl, rfl, rfl⟩
  have hsize : SimpleCommand.agent.Withholds { emptyBody with prompt := some "use hunter2" }
      { emptyBody with prompt := some "use hunter3" } := by
    change "use hunter2".utf8ByteSize = "use hunter3".utf8ByteSize
    decide
  exact ⟨hdiffer, (prompt_evidence .agent _ _ hdiffer).1.mpr hsize⟩

/-- Two previews that differ in what their session ids say: each leaves the text of its own. -/
theorem prompt_evidence_preview :
    let request := fun session : String => humanRequest 1 "k-1"
      (.preview (toString smallApplication) { emptyBody with sessionId := some session })
    DifferInContent { emptyBody with sessionId := some "hunter2" }
        { emptyBody with sessionId := some "hunter3" } ∧
      ((((request "hunter2").script (smallApi [])).run smallDb).1.db.events.map (·.after) =
        [some "preview requested for session hunter2; converging"]) ∧
      ((((request "hunter3").script (smallApi [])).run smallDb).1.db.events.map (·.after) =
        [some "preview requested for session hunter3; converging"]) ∧
      ¬ ∀ (command : SimpleCommand) (body body' : MutationBody), DifferInContent body body' →
        ∀ (api : ApiState) (s : ApiDb) (headers : Headers) (raw : String) (draws : Draws),
          SameEvidence api s ⟨headers, command.call raw body, draws⟩
            ⟨headers, command.call raw body', draws⟩ := by
  intro request
  have hdiffer : DifferInContent { emptyBody with sessionId := some "hunter2" }
      { emptyBody with sessionId := some "hunter3" } := ⟨rfl, rfl, rfl⟩
  have hfirst : (((request "hunter2").script (smallApi [])).run smallDb).1.db.events.map (·.after) =
      [some "preview requested for session hunter2; converging"] := by decide +kernel
  have hsecond : (((request "hunter3").script (smallApi [])).run smallDb).1.db.events.map
      (·.after) = [some "preview requested for session hunter3; converging"] := by decide +kernel
  refine ⟨hdiffer, hfirst, hsecond, fun hall => ?_⟩
  have hevents : (((request "hunter2").script (smallApi [])).run smallDb).1.db.events =
      (((request "hunter3").script (smallApi [])).run smallDb).1.db.events :=
    congrArg Prod.fst (hall .preview _ _ hdiffer _ smallDb _ _ _)
  rw [hevents, hsecond] at hfirst
  exact absurd hfirst (by decide)

end Labrys.ControlPlane
