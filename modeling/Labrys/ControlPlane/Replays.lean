import Labrys.ControlPlane.ApiJobs
import Labrys.Core.SurfaceRuns

/-! # Which request a replay answers

Both surfaces keep responses under the idempotency key alone: `check_replay` and `Cli::execute` look
up the key and nothing else. So a replay brings back what the first request of its key was answered
with, whichever command, application or actor that was; and only after the replaying request has
passed the checks of its own command.

* `replays_request`: the one place where the API keeps a response.
* `replay_origin`: where a replayed response comes from, for every history of either surface. -/

namespace Labrys.ControlPlane
open Foundations Labrys.Core
set_option autoImplicit false

variable {api : ApiState}

/-- The application a call names in its path. -/
def ApiCall.application : ApiCall → Option String
  | .import _ => none
  | .runDev application _ | .agent application _ | .preview application _
  | .capability application _ | .build application _ | .deploy application _
  | .rollback application _ => some application

/-- The command a response names. -/
def commandNamed (response : Json) : Option String := (response.get "command").bind Json.asStr

/-- The command, the application and the kind of actor of a request. -/
def ApiRequest.use (api : ApiState) (request : ApiRequest) :
    String × Option String × Option ActorKind :=
  ((request.endpoint api).command, request.call.application,
    (admitActor api.tokens request.headers (request.headers.traceOf request.draws.traceId)
      request.draws.authTime).toOption.map (·.actor.kind))

theorem keepsFailing_store {endpoint : Endpoint} (admitted : ActorContext × String)
    (response : Json) :
    (endpoint.store api admitted response).run.KeepsFailing ApiDb.replays := by
  intro s s' e h
  cases hform : storedResponse api response with
  | error error =>
    have hrun : (statement admitted.1.internal
        (storeReplay api admitted.2 endpoint.command response)).run s =
        (s, .error (admitted.1.internal (.err error))) := by
      rw [run_statement]
      unfold storeReplay
      rw [hform]
      rfl
    unfold Endpoint.store at h
    rw [Script.run_bind, Program.bind_of_error hrun] at h
    obtain ⟨rfl, -⟩ := Prod.mk.inj h
    rfl
  | ok stored =>
    rw [Endpoint.run_store hform] at h
    cases congrArg Prod.snd h

theorem keeps_check (admitted : ActorContext × String) :
    (Endpoint.check admitted).run.Keeps ApiDb.replays := by
  intro s
  change (checkReplay (some admitted.2) s).1.replays = s.replays
  unfold checkReplay
  split
  · rfl
  · split <;> rfl

/-- A request that fails has stored nothing under any key. -/
theorem keepsFailing_script (request : ApiRequest) :
    (request.script api).run.KeepsFailing ApiDb.replays := by
  unfold ApiRequest.script Endpoint.handle
  rw [Script.run_bind]
  have hadmission : ((request.endpoint api).admission api request.headers request.draws).Keeps
      ApiDb.replays := Endpoint.keeps_admission fun _ _ => rfl
  refine hadmission.run.bind_failing fun admitted => ?_
  rw [Script.run_bind]
  refine (keeps_check admitted).bind_failing fun replayed => ?_
  cases replayed with
  | some response => exact (Program.keeps_pure response).failing
  | none =>
    change ((request.endpoint api).work admitted.1 >>=
      (request.endpoint api).store api admitted).run.KeepsFailing ApiDb.replays
    rw [Script.run_bind]
    exact (keeps_replays_work request.call).run.bind_failing fun response =>
      keepsFailing_store admitted response

/-- **The one place where the API keeps a response**: a request stores nothing, or it is answered
with a response of its own under a key that nothing was stored for, and stores that. -/
theorem replays_request (request : ApiRequest) (s : ApiDb) :
    ((request.script api).run s).1.replays = s.replays ∨
    ∃ key own stored, request.headers.idempotencyOf = some key ∧ s.replays.get key = none ∧
      ((request.script api).run s).2 = .ok own ∧ storedResponse api own = .ok stored ∧
      ((request.script api).run s).1.replays =
        s.replays.insertNew ⟨key, (request.endpoint api).command, stored⟩ := by
  cases hresult : ((request.script api).run s).2 with
  | error e => exact .inl (keepsFailing_script request s _ e (Program.run_of_snd hresult))
  | ok response =>
    have hrun : (request.script api).run s = (((request.script api).run s).1, .ok response) :=
      Program.run_of_snd hresult
    obtain ⟨ctx, key, -, -, hkey, ⟨-, hsame⟩ | ⟨hfree, s₁, stored, hwork, hform, hfinal⟩⟩ :=
      handle_cases hrun
    · exact .inl (by rw [hsame])
    · refine .inr ⟨key, response, stored, hkey, hfree, rfl, hform, ?_⟩
      have hwork' : ((request.endpoint api).work ctx).Keeps ApiDb.replays :=
        keeps_replays_work request.call
      have hkeep : s₁.replays = s.replays := by
        rw [← hwork'.run s, hwork]
      rw [hfinal, ← hkeep]

/-- The request is answered with what `checkReplay` finds under its key. -/
def AnswersReplay (api : ApiState) (s : ApiDb) (request : ApiRequest) (key : String)
    (response : Json) : Prop :=
  request.headers.idempotencyOf = some key ∧ ((request.script api).run s).2 = .ok response ∧
    (checkReplay (some key) s).2 = .ok (some response)

/-- The request stores its own response under the key, as the first to do so from `start` on. -/
def StoresFirst (api : ApiState) (start : ApiDb) (before : List ApiInput) (source : ApiRequest)
    (key : String) (stored : Json) : Prop :=
  ∃ own, source.headers.idempotencyOf = some key ∧
    ((apiMachine api).run start before).replays.get key = none ∧
    ((source.script api).run ((apiMachine api).run start before)).2 = .ok own ∧
    storedResponse api own = .ok stored

theorem get_next_of_some {key : String} (s : ApiDb) (input : ApiInput) (record : IdempotencyRecord)
    (h : s.replays.get key = some record) :
    ((apiMachine api).next s input).replays.get key = some record := by
  cases input with
  | worker run => exact h
  | request request =>
    change ((request.script api).run s).1.replays.get key = some record
    obtain hsame | ⟨_, own, stored, -, -, -, -, hinsert⟩ := replays_request request s
    · rw [hsame, h]
    · rw [hinsert, Table.get_insertNew, h, Option.some_or]

theorem request_of_get_next {key : String} {s : ApiDb} {input : ApiInput}
    {record : IdempotencyRecord} (hfree : s.replays.get key = none)
    (h : ((apiMachine api).next s input).replays.get key = some record) :
    ∃ source own, input = .request source ∧ source.headers.idempotencyOf = some key ∧
      ((source.script api).run s).2 = .ok own ∧ storedResponse api own = .ok record.response := by
  cases input with
  | worker run =>
    change s.replays.get key = some record at h
    rw [hfree] at h
    cases h
  | request source =>
    change ((source.script api).run s).1.replays.get key = some record at h
    obtain hsame | ⟨found, own, stored, hkey, -, hown, hform, hinsert⟩ :=
      replays_request source s
    · rw [hsame, hfree] at h
      cases h
    · rw [hinsert, Table.get_insertNew, hfree, Option.none_or] at h
      split_ifs at h with heq
      obtain rfl := Option.some_inj.mp h
      exact ⟨source, own, rfl, heq ▸ hkey, hown, hform⟩

theorem answersReplay_of_replays {s : ApiDb} {request : ApiRequest} {key : String}
    {response : Json} {ctx : ActorContext}
    (hactor : admitActor api.tokens request.headers
      (request.headers.traceOf request.draws.traceId) request.draws.authTime = .ok ctx)
    (hpolicy : (request.endpoint api).policy ctx = .ok ())
    (hkey : request.headers.idempotencyOf = some key) (h : Replays s key response) :
    AnswersReplay api s request key response := by
  refine ⟨hkey, congrArg Prod.snd (handle_of_replays hactor hpolicy hkey h), ?_⟩
  obtain ⟨record, hget, hset⟩ := h
  unfold checkReplay
  rw [Option.bind_some, hget]
  dsimp only
  rw [hset]

/-- What a request of its own is answered with can be replayed from then on. -/
theorem replays_of_ok {s : ApiDb} {source : ApiRequest} {key : String}
    {own stored response : Json} (hkey : source.headers.idempotencyOf = some key)
    (hfree : s.replays.get key = none) (hown : ((source.script api).run s).2 = .ok own)
    (hform : storedResponse api own = .ok stored)
    (hset : stored.set "replayed" (.bool true) = .ok response) :
    Replays ((apiMachine api).next s (.request source)) key response := by
  have hrun : (source.script api).run s = (((source.script api).run s).1, .ok own) :=
    Program.run_of_snd hown
  obtain ⟨ctx, found, -, -, hfound, ⟨⟨record, hget, -⟩, -⟩ | ⟨-, s₁, form, hwork, hform', hfinal⟩⟩ :=
    handle_cases hrun
  · obtain rfl := Option.some_inj.mp (hfound.symm.trans hkey)
    rw [hfree] at hget
    cases hget
  · obtain rfl := Option.some_inj.mp (hfound.symm.trans hkey)
    obtain rfl := Except.ok.inj (hform'.symm.trans hform)
    have hkeeps : ((source.endpoint api).work ctx).Keeps ApiDb.replays :=
      keeps_replays_work source.call
    have hsame : s₁.replays = s.replays := by rw [← hkeeps.run s, hwork]
    refine ⟨⟨found, (source.endpoint api).command, form⟩, ?_, hset⟩
    change ((source.script api).run s).1.replays.get found = _
    rw [hfinal]
    change (s₁.replays.insertNew _).get found = _
    rw [Table.get_insertNew, hsame, hfree, Option.none_or, if_pos rfl]

/-- A replay of the API, traced back to the request that stored it. -/
theorem api_replay_stored {start : ApiDb} (hstart : start.replays = .empty)
    {inputs : List ApiInput} {request : ApiRequest} {key : String} {response : Json}
    (h : AnswersReplay api ((apiMachine api).run start inputs) request key response) :
    ((request.script api).run ((apiMachine api).run start inputs)).1 =
        (apiMachine api).run start inputs ∧
    (∃ ctx, admitActor api.tokens request.headers
        (request.headers.traceOf request.draws.traceId) request.draws.authTime = .ok ctx ∧
      (request.endpoint api).policy ctx = .ok ()) ∧
    ∃ before source after stored, inputs = before ++ .request source :: after ∧
      StoresFirst api start before source key stored ∧
      stored.set "replayed" (.bool true) = .ok response := by
  obtain ⟨hkey, hok, hcheck⟩ := h
  have hrun : (request.script api).run ((apiMachine api).run start inputs) =
      (((request.script api).run ((apiMachine api).run start inputs)).1, .ok response) :=
    Program.run_of_snd hok
  obtain ⟨ctx, found, hactor, hpolicy, hfound, hcases⟩ := handle_cases hrun
  obtain rfl := Option.some_inj.mp (hfound.symm.trans hkey)
  unfold checkReplay at hcheck
  rw [Option.bind_some] at hcheck
  obtain ⟨⟨record, hget, hset⟩, hsame⟩ | ⟨hfree, -⟩ := hcases
  · refine ⟨hsame, ⟨ctx, hactor, hpolicy⟩, ?_⟩
    have hnone : start.replays.get found = none := by rw [hstart, Table.get_empty]
    obtain ⟨before, input, after, rfl, hbefore, hnext⟩ := (apiMachine api).run_origin
      get_next_of_some hnone hget
    obtain ⟨source, own, rfl, hsource, hown, hform⟩ := request_of_get_next hbefore hnext
    exact ⟨before, source, after, record.response, rfl, ⟨own, hsource, hbefore, hown, hform⟩, hset⟩
  · rw [hfree] at hcheck
    cases hcheck

/-- **Where a replayed response comes from**, over every history of either surface. A replay changes
nothing, answers a request that has passed the checks of its own command, and is the stored form of
what the first request of its key was answered with. That request may have been for another command,
application or kind of actor; it was for the same ones if the key was never used for others. -/
theorem replay_origin (api : ApiState) (formats : Formats) (secrets : List String) :
    (∀ (s : ApiDb) (inputs : List ApiInput) (request : ApiRequest) (key : String) (response : Json),
      let start := { s with replays := .empty }
      let found := (apiMachine api).run start inputs
      AnswersReplay api found request key response →
      ((request.script api).run found).1 = found ∧
      (∃ ctx, admitActor api.tokens request.headers
          (request.headers.traceOf request.draws.traceId) request.draws.authTime = .ok ctx ∧
        (request.endpoint api).policy ctx = .ok ()) ∧
      ∃ before source after stored, inputs = before ++ .request source :: after ∧
        StoresFirst api start before source key stored ∧
        stored.set "replayed" (.bool true) = .ok response ∧
        ((∀ other, .request other ∈ inputs → other.headers.idempotencyOf = some key →
            other.use api = request.use api) → source.use api = request.use api)) ∧
    ∀ (state : PlatformState) (events : List CliEvent) (input : CliInput) (response : CliResponse),
      let start := ⟨.new, state⟩
      let found := (cliMachine formats secrets).run start events
      (Cli.execute formats secrets found input).2 = .ok response → response.replayed = true →
      (Cli.execute formats secrets found input).1 = found ∧
      Cli.authorize input.request = none ∧
      ∃ key before source after kept, input.request.idempotencyKey = some key ∧
        events = before ++ .execute source :: after ∧
        KeepsFirst formats secrets start before source key kept ∧
        response = { kept with replayed := true } ∧
        ((∀ other, .execute other ∈ events → other.request.idempotencyKey = some key →
            other.request.use = input.request.use) → source.request.use = input.request.use) := by
  constructor
  · intro s inputs request key response start found h
    have hempty : start.replays = .empty := rfl
    obtain ⟨hsame, hadmitted, before, source, after, stored, hsplit, hfirst, hset⟩ :=
      api_replay_stored hempty h
    refine ⟨hsame, hadmitted, before, source, after, stored, hsplit, hfirst, hset, fun huse => ?_⟩
    obtain ⟨own, hkey, -⟩ := hfirst
    exact huse source (hsplit ▸ List.mem_append_right before List.mem_cons_self) hkey
  · intro state events input response start found hok hreplayed
    obtain ⟨hsame, hallowed, key, before, source, after, kept, hkey, hsplit, hfirst, hresponse⟩ :=
      cli_replay_kept hok hreplayed
    refine ⟨hsame, hallowed, key, before, source, after, kept, hkey, hsplit, hfirst, hresponse,
      fun huse => ?_⟩
    exact huse source (hsplit ▸ List.mem_append_right before List.mem_cons_self) hfirst.1

def smallFormats : Formats where
  rfc3339 := fun _ => "1970-01-01T00:00:00+00:00"
  quoted := fun text => s!"\"{text}\""

def cliInput (command : CliCommand) (actor : CliActor) (application : Option ApplicationId) :
    CliInput where
  request := ⟨command, actor, application, none, ∅, some "k-1", none⟩
  fresh := ⟨7⟩
  now := 0

def smallDeploy (n : ℕ) : ApiRequest :=
  humanRequest n "k-1" (.deploy (toString smallApplication) emptyBody)

def deployReplay : Json :=
  match deployResponse.set "replayed" (.bool true) with
  | .ok response => response
  | .error _ => .null

theorem set_deployResponse :
    deployResponse.set "replayed" (.bool true) = .ok deployReplay := rfl

/-- The one response that is stored is read back as it was. -/
theorem storedResponse_smallApi (response : Json) :
    storedResponse (smallApi [response]) response = .ok response := by
  have hread : (smallApi [response]).fromJson response.compact = some response := by
    simp [smallApi]
  change Except.ok (((smallApi [response]).fromJson response.compact).getD .null) = _
  rw [hread]
  rfl

theorem smallDeploy_ok :
    (((smallDeploy 1).script (smallApi [deployResponse])).run smallDb).2 = .ok deployResponse := by
  have hsome : (((smallDeploy 1).script (smallApi [deployResponse])).run smallDb).2.toOption =
      some deployResponse := by decide +kernel
  exact ok_of_toOption hsome

theorem smallDeploy_replays :
    Replays ((apiMachine (smallApi [deployResponse])).run smallDb [.request (smallDeploy 1)]) "k-1"
      deployReplay :=
  replays_of_ok (by decide +kernel) rfl smallDeploy_ok (storedResponse_smallApi deployResponse)
    set_deployResponse

/-- A deploy and its repetition, and a registration and its repetition. -/
theorem replay_origin_repeated :
    let api := smallApi [deployResponse]
    let found := (apiMachine api).run smallDb [.request (smallDeploy 1)]
    let init := cliInput .init (.human "ada") none
    let world := (cliMachine smallFormats []).run ⟨.new, .new⟩ [.execute init]
    (AnswersReplay api found (smallDeploy 2) "k-1" deployReplay ∧
      (((smallDeploy 2).script api).run found).1 = found) ∧
    ∃ response, (Cli.execute smallFormats [] world init).2 = .ok response ∧
      response.replayed = true ∧ (Cli.execute smallFormats [] world init).1 = world := by
  intro api found init world
  have hactor : admitActor smallTokens (smallDeploy 2).headers "trace-2" 2 =
      .ok ⟨.human "ada", "trace-2", some "k-1"⟩ := by decide +kernel
  have hreplay : AnswersReplay api found (smallDeploy 2) "k-1" deployReplay :=
    answersReplay_of_replays hactor rfl (by decide +kernel) smallDeploy_replays
  have horigin := replay_origin api smallFormats []
  refine ⟨⟨hreplay, (horigin.1 smallDb _ _ _ _ hreplay).1⟩, ?_⟩
  have hcli : ((Cli.execute smallFormats [] world init).2.toOption.map (·.replayed)) =
      some true := by decide +kernel
  obtain ⟨kept, hkept, hreplayed⟩ := Option.map_eq_some_iff.mp hcli
  exact ⟨kept, ok_of_toOption hkept, hreplayed,
    (horigin.2 .new _ _ _ (ok_of_toOption hkept) hreplayed).1⟩

/-- An agent that runs another application under the key of a human's deploy is answered with that
deploy; an agent's command under the key of a human's registration, with that registration. -/
theorem agent_replays_human :
    let api := smallApi [deployResponse]
    let source := smallDeploy 1
    let request := agentRequest 2 "agt_00000000000000000000000000000001" "k-1"
      (.runDev "app_00000000000000000000000000000009" emptyBody)
    let found := (apiMachine api).run smallDb [.request source]
    let init := cliInput .init (.human "ada") none
    let other := cliInput .agent (.agent "s-1" "bob") (some ⟨9⟩)
    let world := (cliMachine smallFormats []).run ⟨.new, .new⟩ [.execute init]
    StoresFirst api smallDb [] source "k-1" deployResponse ∧
    AnswersReplay api found request "k-1" deployReplay ∧
    commandNamed deployReplay = some "deploy" ∧
    source.use api = ("deploy", some (toString smallApplication), some .human) ∧
    request.use api = ("run", some "app_00000000000000000000000000000009", some .agent) ∧
    (Cli.execute smallFormats [] world other).2.toOption.map (fun response =>
      (response.replayed, response.command, response.applicationId)) =
        some (true, "init", some ⟨7⟩) ∧
    init.request.use = (.init, none, .human) ∧ other.request.use = (.agent, some ⟨9⟩, .agent) := by
  intro api source request found init other world
  refine ⟨⟨deployResponse, by decide +kernel, rfl, smallDeploy_ok,
    storedResponse_smallApi deployResponse⟩, ?_, by decide +kernel, by decide +kernel,
    by decide +kernel, by decide +kernel, rfl, rfl⟩
  have hactor : admitActor smallTokens request.headers "trace-2" 2 =
      .ok ⟨.agent "agt_00000000000000000000000000000001" "bob", "trace-2", some "k-1"⟩ := by
    decide +kernel
  exact answersReplay_of_replays hactor rfl (by decide +kernel) smallDeploy_replays

end Labrys.ControlPlane
