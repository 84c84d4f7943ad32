import Labrys.ControlPlane.ApiSteps
import Labrys.ControlPlane.JobsRuns

/-! # The job behind an accepted mutation

Every handler enqueues at version 1, so the key of its job is fixed by what the request is about,
and a key is never free again. A request that comes after the job has ended is answered with that
job.

* `work_schedules`: which job a handler's response names.
* `api_job_live_exact`: along every history of requests and workers, when it is in flight. -/

namespace Labrys.ControlPlane
open Foundations Labrys.Core
set_option autoImplicit false

variable {api : ApiState} {ctx : ActorContext} {draws : Draws}

/-! ## The key of a request's job -/

namespace ApiCall

def isImport : ApiCall → Bool
  | .import _ => true
  | _ => false

def simpleKey (raw : String) (action : JobAction) (targetSuffix : String) :
    Option IdempotencyKey :=
  (TaggedId.parse "app" raw).map fun id => .new s!"{id}:{targetSuffix}" action 1

/-- The key of the job that the call enqueues, if its path and body read. -/
def jobKey : ApiCall → Option IdempotencyKey
  | .import _ => none
  | .runDev raw _ => simpleKey raw .provision "dev"
  | .agent raw _ => simpleKey raw .verify "agent"
  | .preview raw _ => simpleKey raw .provision "preview"
  | .capability raw body => (TaggedId.parse "app" raw).map fun id =>
      let capability := body.capability.getD ""
      .new s!"{id}:capability:{capability}" .provision 1
  | .build raw _ => (TaggedId.parse "app" raw).map fun id => .new s!"{id}:build" .provision 1
  | .deploy raw body => (TaggedId.parse "app" raw).map fun id =>
      let environment := body.environment.getD "production"
      .new s!"{id}:deploy:{environment}" .rollout 1
  | .rollback raw body => (TaggedId.parse "app" raw).bind fun id =>
      (body.target.bind (TaggedId.parse "dep")).map fun target =>
        .new s!"{id}:rollback:{target}" .rollout 1

end ApiCall

/-- The id of the job that a response names. -/
def jobNamed (response : Json) : Option String :=
  ((response.get "job").bind (·.get "id")).bind (·.asStr)

/-! ## What a handler schedules -/

/-- The response names a job of the key: one that was stored before, or one queued just now because
none was. -/
def Schedules (key : IdempotencyKey) (s s' : ApiDb) (response : Json) : Prop :=
  ∃ row : JobRow, s'.db.jobs.get row.id = some row ∧ row.idempotencyKey = key ∧
    jobNamed response = some (toString row.id) ∧
    (s.db.jobs.get row.id = some row ∨
      ((∀ old : JobRow, s.db.jobs.get old.id = some old → old.idempotencyKey ≠ key) ∧
        row.status = .queued))

theorem enqueue_ok {s s' : ApiDb} {target : String} {action : JobAction} {enqueued : Job × Bool}
    (h : (enqueue ctx draws target action).run s = (s', .ok enqueued)) :
    ∃ row : JobRow, row.toJob = enqueued.1 ∧ s'.db.jobs.get row.id = some row ∧
      row.idempotencyKey = .new target action 1 ∧
      (s.db.jobs.get row.id = some row ∨
        ((∀ old : JobRow, s.db.jobs.get old.id = some old →
          old.idempotencyKey ≠ .new target action 1) ∧ row.status = .queued)) := by
  unfold enqueue at h
  rw [Script.run_bind] at h
  obtain ⟨s₁, outcome, hinsert, hrest⟩ := Program.bind_eq_ok h
  rw [Script.run_bind] at hrest
  obtain ⟨s₂, job, hread, hpure⟩ := Program.bind_eq_ok hrest
  obtain ⟨rfl, hpair⟩ := Prod.mk.inj hpure
  have hjob : job = enqueued.1 := congrArg (fun pair => pair.1) (Except.ok.inj hpair)
  obtain ⟨rfl, hfound⟩ := reading_ok hread
  have hrow : ∃ row : JobRow, s₂.db.jobs.get (enqueuedJob outcome) = some row ∧
      row.toJob = job := by
    change found _ ((s₂.db.jobs.get (enqueuedJob outcome)).map (·.toJob)) = .ok job at hfound
    cases hget : s₂.db.jobs.get (enqueuedJob outcome) with
    | none => rw [hget] at hfound; cases hfound
    | some row =>
      rw [hget] at hfound
      exact ⟨row, rfl, Except.ok.inj hfound⟩
  obtain ⟨row, hget, hrow⟩ := hrow
  have hjobs : s₂.db.jobs = (s.db.jobs.enqueue draws.jobId target action 1 RetryPolicy.default
      draws.now).1 := (congrArg (fun result => result.1.db.jobs) hinsert).symm
  have houtcome : (s.db.jobs.enqueue draws.jobId target action 1 RetryPolicy.default
      draws.now).2.mapError ctx.internal = .ok outcome := congrArg Prod.snd hinsert
  obtain ⟨old, hold, hkey, heq⟩ | ⟨hkeys, ⟨e, -, heq⟩ | ⟨hfree, hok, hafter⟩⟩ :=
    s.db.jobs.enqueue_cases draws.jobId target action 1 RetryPolicy.default draws.now
  · -- the key is taken: nothing is written, and the job that has it is read
    rw [heq] at hjobs houtcome
    obtain rfl : EnqueueOutcome.duplicate old.id = outcome := Except.ok.inj houtcome
    have hsame : row = old := by
      rw [hjobs] at hget
      exact Option.some_inj.mp (hget.symm.trans hold)
    subst hsame
    exact ⟨row, hrow.trans hjob, by rw [hjobs]; exact hold, hkey, .inl hold⟩
  · rw [heq] at houtcome
    cases houtcome
  · rw [hok] at houtcome
    obtain rfl : EnqueueOutcome.enqueued draws.jobId = outcome := Except.ok.inj houtcome
    have hfresh : row =
        JobRow.fresh draws.jobId target action 1 RetryPolicy.default draws.now := by
      rw [hjobs] at hget
      have hthere := hafter draws.jobId
      rw [if_pos rfl] at hthere
      exact Option.some_inj.mp (hget.symm.trans hthere)
    subst hfresh
    exact ⟨_, hrow.trans hjob, hget, rfl, .inr ⟨hkeys, rfl⟩⟩

theorem jobs_recordEvent {s s' : ApiDb} {action : EventAction} {resource : EventResource}
    {detail : String} {value : Unit}
    (h : (recordEvent api ctx draws action resource detail).run s = (s', .ok value)) :
    s'.db.jobs = s.db.jobs :=
  (congrArg (fun result => result.1.db.jobs) h).symm.trans
    (PgEventStore.jobs_append (eventDraft ctx draws action resource detail) api.secrets s.db)

/-- What `accept` answers, for data that are computed without touching the jobs. -/
theorem accept_schedules {command : String} {mutation : Mutation} {s s' : ApiDb} {response : Json}
    (h : (accept api ctx draws command mutation).run s = (s', .ok response))
    (hdata : mutation.data.Keeps fun s => s.db.jobs) :
    Schedules (.new mutation.jobTarget mutation.action 1) s s' response ∧
      response.get "replayed" = some (.bool false) := by
  unfold accept at h
  rw [Script.run_bind] at h
  obtain ⟨s₁, enqueued, henqueue, hrest⟩ := Program.bind_eq_ok h
  rw [Script.run_bind] at hrest
  obtain ⟨s₂, value, hevent, hrest⟩ := Program.bind_eq_ok hrest
  rw [Script.run_bind] at hrest
  obtain ⟨s₃, data, hread, hpure⟩ := Program.bind_eq_ok hrest
  obtain ⟨rfl, hresponse⟩ := Prod.mk.inj hpure
  obtain rfl := Except.ok.inj hresponse
  have hjobs : s₃.db.jobs = s₁.db.jobs := by
    rw [← jobs_recordEvent hevent]
    exact (congrArg (fun result => result.1.db.jobs) hread).symm.trans (hdata.run s₂)
  obtain ⟨row, hjob, hget, hkey, hold⟩ := enqueue_ok henqueue
  refine ⟨⟨row, by rw [hjobs]; exact hget, hkey, ?_, hold⟩, rfl⟩
  rw [← hjob]
  rfl

/-- Loading an application writes nothing and finds the one the path names. -/
theorem loadApp_ok {raw : String} {s s' : ApiDb} {app : Application}
    (h : (loadApp ctx raw).run s = (s', .ok app)) :
    s' = s ∧ TaggedId.parse "app" raw = some app.id := by
  unfold loadApp at h
  dsimp only at h
  cases hparse : TaggedId.parse "app" raw with
  | none => rw [hparse] at h; cases congrArg Prod.snd h
  | some id =>
    rw [hparse] at h
    dsimp only [PgApplicationStore.get] at h
    rw [Script.run_bind] at h
    obtain ⟨s₁, row, hrow, hrest⟩ := Program.bind_eq_ok h
    rw [Script.run_bind] at hrest
    obtain ⟨s₂, environments, henvironments, hpure⟩ := Program.bind_eq_ok hrest
    obtain ⟨rfl, hfound⟩ := reading_ok hrow
    obtain ⟨rfl, -⟩ := reading_ok henvironments
    obtain ⟨rfl, happ⟩ := Prod.mk.inj hpure
    obtain rfl := Except.ok.inj happ
    refine ⟨rfl, congrArg some ?_⟩
    change found _ (s₂.applications.get id) = .ok row at hfound
    cases hget : s₂.applications.get id with
    | none => rw [hget] at hfound; cases hfound
    | some stored =>
      rw [hget] at hfound
      obtain rfl := Except.ok.inj hfound
      exact (Table.key_of_get hget).symm

/-- After the application is loaded, the rest of the handler runs in the same state. -/
theorem run_loadApp {raw : String} {rest : Application → ApiScript Json} {s s' : ApiDb}
    {response : Json} (h : (loadApp ctx raw >>= rest).run s = (s', .ok response)) :
    ∃ app, TaggedId.parse "app" raw = some app.id ∧ (rest app).run s = (s', .ok response) := by
  rw [Script.run_bind] at h
  obtain ⟨s₁, app, hload, hrest⟩ := Program.bind_eq_ok h
  obtain ⟨rfl, hparse⟩ := loadApp_ok hload
  exact ⟨app, hparse, hrest⟩

theorem mutateSimple_schedules {raw : String} {body : MutationBody} {command : String}
    {action : JobAction} {targetSuffix : String} {s s' : ApiDb} {response : Json}
    (h : ((mutateSimple api draws raw body command action targetSuffix).work ctx).run s =
      (s', .ok response)) :
    ∃ key, ApiCall.simpleKey raw action targetSuffix = some key ∧
      Schedules key s s' response ∧ response.get "replayed" = some (.bool false) := by
  unfold mutateSimple at h
  dsimp only at h
  obtain ⟨app, hparse, haccept⟩ := run_loadApp h
  rw [ApiCall.simpleKey, hparse]
  have hscheduled := accept_schedules haccept trivial
  exact ⟨_, rfl, hscheduled⟩

theorem rollbackTarget_ok {body : MutationBody} {id : DeploymentId}
    (h : rollbackTarget ctx body = .ok id) :
    body.target.bind (TaggedId.parse "dep") = some id := by
  unfold rollbackTarget at h
  cases hbody : body.target with
  | none => rw [hbody] at h; cases h
  | some text =>
    rw [hbody] at h
    dsimp only at h
    cases hdep : (TaggedId.parse "dep" text : Option DeploymentId) with
    | none => rw [hdep] at h; cases h
    | some found =>
      rw [hdep] at h
      rw [Option.bind_some, hdep]
      exact congrArg some (Except.ok.inj h)

/-- **The job a response names** is the one of the call's key. -/
theorem work_schedules {call : ApiCall} (himport : call.isImport = false) {s s' : ApiDb}
    {response : Json}
    (h : ((call.endpoint api draws).work ctx).run s = (s', .ok response)) :
    ∃ key, call.jobKey = some key ∧ Schedules key s s' response ∧
      response.get "replayed" = some (.bool false) := by
  cases call with
  | «import» body => cases himport
  | runDev raw body =>
    unfold ApiCall.endpoint runDev at h
    exact mutateSimple_schedules h
  | agent raw body =>
    unfold ApiCall.endpoint agent at h
    exact mutateSimple_schedules h
  | preview raw body =>
    unfold ApiCall.endpoint preview at h
    exact mutateSimple_schedules h
  | capability raw body =>
    unfold ApiCall.endpoint capability at h
    dsimp only at h
    obtain ⟨app, hparse, hrest⟩ := run_loadApp h
    dsimp only [ApiCall.jobKey]
    rw [hparse]
    split_ifs at hrest
    · cases congrArg Prod.snd hrest
    · have hscheduled := accept_schedules hrest trivial
      exact ⟨_, rfl, hscheduled⟩
  | build raw body =>
    unfold ApiCall.endpoint build at h
    dsimp only at h
    obtain ⟨app, hparse, haccept⟩ := run_loadApp h
    dsimp only [ApiCall.jobKey]
    rw [hparse]
    have hscheduled := accept_schedules haccept trivial
    exact ⟨_, rfl, hscheduled⟩
  | deploy raw body =>
    unfold ApiCall.endpoint deploy at h
    dsimp only at h
    obtain ⟨app, hparse, hrest⟩ := run_loadApp h
    dsimp only [ApiCall.jobKey]
    rw [hparse]
    split_ifs at hrest
    · cases congrArg Prod.snd hrest
    · have hscheduled := accept_schedules hrest trivial
      exact ⟨_, rfl, hscheduled⟩
  | rollback raw body =>
    unfold ApiCall.endpoint rollback at h
    dsimp only at h
    obtain ⟨app, hparse, hrest⟩ := run_loadApp h
    dsimp only [ApiCall.jobKey]
    rw [hparse]
    rw [Script.run_bind] at hrest
    obtain ⟨s₁, id, htarget, hread⟩ := Program.bind_eq_ok hrest
    have hid : body.target.bind (TaggedId.parse "dep") = some id :=
      rollbackTarget_ok (ok_of_mapError (congrArg Prod.snd htarget))
    obtain rfl : s = s₁ := congrArg Prod.fst htarget
    rw [Script.run_bind] at hread
    obtain ⟨s₂, target, hget, hchecked⟩ := Program.bind_eq_ok hread
    obtain ⟨rfl, -⟩ := reading_ok hget
    rw [Script.run_bind] at hchecked
    obtain ⟨s₃, value, hsafe, haccept⟩ := Program.bind_eq_ok hchecked
    obtain rfl : s₂ = s₃ := congrArg Prod.fst hsafe
    rw [Option.bind_some, hid]
    have hscheduled := accept_schedules haccept trivial
    exact ⟨_, rfl, hscheduled⟩

/-! ## Histories -/

inductive ApiInput
  | request (request : ApiRequest)
  /-- Whatever a worker does to the database between two requests. -/
  | worker (run : Action Unit)

def apiMachine (api : ApiState) :
    Machine ApiDb ApiInput (Option (Except (Fault ApiError) Json)) where
  step := fun s input => match input with
    | .request request =>
        (((request.script api).run s).1, some ((request.script api).run s).2)
    | .worker run => ({ s with db := (run s.db).1 }, none)

/-- The request is answered with a response of its own, which names a job. -/
def AnswersAnew (api : ApiState) (s : ApiDb) (request : ApiRequest) (response : Json) : Prop :=
  request.call.isImport = false ∧ ((request.script api).run s).2 = .ok response ∧
    response.get "replayed" = some (.bool false)

/-- The job that the response names is in flight once the request is accepted. -/
def NamesLive (api : ApiState) (s : ApiDb) (request : ApiRequest) (response : Json) : Prop :=
  ∃ row : JobRow, ((request.script api).run s).1.db.jobs.get row.id = some row ∧
    jobNamed response = some (toString row.id) ∧ row.status.isInFlight = true

/-- No job that has ended has the key of the request's job. -/
def KeyLive (s : ApiDb) (request : ApiRequest) : Prop :=
  ∀ key ∈ request.call.jobKey, ∀ row : JobRow, s.db.jobs.get row.id = some row →
    row.idempotencyKey = key → row.status.isInFlight = true

/-- An answer of the request's own names a live job exactly if no ended job has the key. -/
theorem namesLive_iff {s : ApiDb} {request : ApiRequest} {response : Json}
    (h : AnswersAnew api s request response) :
    NamesLive api s request response ↔ KeyLive s request := by
  obtain ⟨himport, hok, hanew⟩ := h
  have hrun : (request.script api).run s = (((request.script api).run s).1, .ok response) :=
    Program.run_of_snd hok
  obtain ⟨ctx, key, -, -, -, ⟨⟨record, -, hset⟩, -⟩ | ⟨-, s₁, stored, hwork, -, hfinal⟩⟩ :=
    handle_cases hrun
  · rw [Json.get_set_self hset] at hanew
    cases hanew
  obtain ⟨jobKey, hkey, ⟨row, hget, hrowKey, hnamed, hbefore⟩, -⟩ := work_schedules himport hwork
  have hjobs : ((request.script api).run s).1.db.jobs = s₁.db.jobs := by
    rw [hfinal]
  unfold NamesLive KeyLive
  rw [hjobs, hkey]
  constructor
  · rintro ⟨other, hother, hotherNamed, hlive⟩ found hfound old hold holdKey
    obtain rfl := Option.some_inj.mp hfound
    have hid : other.id = row.id := by
      rw [hnamed] at hotherNamed
      exact (TaggedId.toString_injective (Option.some_inj.mp hotherNamed)).symm
    have hsame : other = row := by
      rw [hid, hget] at hother
      exact (Option.some_inj.mp hother).symm
    subst hsame
    obtain hthere | ⟨hfree, -⟩ := hbefore
    · obtain rfl := JobsTable.eq_of_key hold hthere (holdKey.trans hrowKey.symm)
      exact hlive
    · exact absurd holdKey (hfree old hold)
  · intro hlive
    refine ⟨row, hget, hnamed, ?_⟩
    obtain hthere | ⟨-, hqueued⟩ := hbefore
    · exact hlive jobKey rfl row hthere hrowKey
    · rw [hqueued]
      rfl

/-- A request that is answered under a key nothing is stored for is answered anew. -/
theorem answersAnew_of_ok {s : ApiDb} {request : ApiRequest} {response : Json} {key : String}
    (himport : request.call.isImport = false) (hkey : request.headers.idempotencyOf = some key)
    (hfree : s.replays.get key = none)
    (hok : ((request.script api).run s).2 = .ok response) :
    AnswersAnew api s request response := by
  refine ⟨himport, hok, ?_⟩
  have hrun : (request.script api).run s = (((request.script api).run s).1, .ok response) :=
    Program.run_of_snd hok
  obtain ⟨ctx, found, -, -, hfound, ⟨⟨record, hget, -⟩, -⟩ | ⟨-, s₁, stored, hwork, -, -⟩⟩ :=
    handle_cases hrun
  · obtain rfl := Option.some_inj.mp (hfound.symm.trans hkey)
    rw [hfree] at hget
    cases hget
  · obtain ⟨-, -, -, hanew⟩ := work_schedules himport hwork
    exact hanew

/-- **Live work behind an accepted mutation.** Along every history of requests and workers, from any
database: each response of a request's own names a job that is in flight, exactly if no job that has
ended has the key of such a request. In particular it is so in every history in which no request
finds an ended job under its key. -/
theorem api_job_live_exact (api : ApiState) (s : ApiDb) (inputs : List ApiInput) :
    ((apiMachine api).Guarded (fun s input => ∀ request response, input = .request request →
        AnswersAnew api s request response → NamesLive api s request response) s inputs ↔
      (apiMachine api).Guarded (fun s input => ∀ request response, input = .request request →
        AnswersAnew api s request response → KeyLive s request) s inputs) ∧
    ((apiMachine api).Guarded (fun s input => ∀ request, input = .request request →
        KeyLive s request) s inputs →
      (apiMachine api).Guarded (fun s input => ∀ request response, input = .request request →
        AnswersAnew api s request response → NamesLive api s request response) s inputs) := by
  have hexact : (apiMachine api).Guarded (fun s input => ∀ request response,
        input = .request request → AnswersAnew api s request response →
          NamesLive api s request response) s inputs ↔
      (apiMachine api).Guarded (fun s input => ∀ request response, input = .request request →
        AnswersAnew api s request response → KeyLive s request) s inputs := by
    refine (apiMachine api).guarded_congr (fun s input => ?_) s inputs
    refine forall₄_congr fun request response _ hanew => ?_
    exact namesLive_iff hanew
  refine ⟨hexact, fun hlive => hexact.mpr ?_⟩
  exact (apiMachine api).guarded_mono (fun s input h request _ hinput _ => h request hinput) s
    inputs hlive

def deployResponse : Json :=
  envelope "deploy" ⟨.human "ada", "trace-1", some "k-1"⟩ false
    (some (resourceValue "environment" "production"))
    (some (.object [("application_id", .string (toString smallApplication)),
      ("environment", .string "production"), ("revision_sha", .null)]))
    (some (.fresh ⟨1⟩ s!"{smallApplication}:deploy:production" .rollout 1 .default 1))
    (some "deployment is accepted but not healthy until the platform observes health")

/-- A deploy, and a worker that claims its job and completes it. -/
def deployedOnce : List ApiInput :=
  [.request (humanRequest 1 "k-1" (.deploy (toString smallApplication) emptyBody)),
    .worker (do
      let _ ← Action.onJobs fun t => t.claimNext "w-1" 2 (60 * nanosPerSecond) fun _ => false),
    .worker (Action.onJobs fun t => t.complete ⟨1⟩ "w-1" 3)]

/-- A second deploy under a key of its own is accepted, and names the job that has succeeded. -/
theorem second_deploy_names_ended_job :
    let api := smallApi [deployResponse]
    let s := (apiMachine api).run smallDb deployedOnce
    let request := humanRequest 4 "k-2" (.deploy (toString smallApplication) emptyBody)
    ∃ response, AnswersAnew api s request response ∧
      jobNamed response = some "job_00000000000000000000000000000001" ∧
      (((request.script api).run s).1.db.jobs.jobs.rows.map fun row => (row.id, row.status)) =
        [(⟨1⟩, .succeeded)] ∧
      ¬ (apiMachine api).Guarded (fun s input => ∀ request response, input = .request request →
        AnswersAnew api s request response → NamesLive api s request response) smallDb
        (deployedOnce ++ [.request request]) := by
  intro api s request
  have hok : ((request.script api).run s).2.toOption.isSome = true := by decide +kernel
  obtain ⟨response, hresponse⟩ := Option.isSome_iff_exists.mp hok
  have hanswer : ((request.script api).run s).2 = .ok response := ok_of_toOption hresponse
  have hanew : AnswersAnew api s request response := by
    have hfree : (s.replays.get "k-2").isNone = true := by decide +kernel
    have hkey : request.headers.idempotencyOf = some "k-2" := by decide +kernel
    exact answersAnew_of_ok rfl hkey (Option.isNone_iff_eq_none.mp hfree) hanswer
  have hnamed : ((request.script api).run s).2.toOption.bind jobNamed =
      some "job_00000000000000000000000000000001" := by decide +kernel
  rw [hresponse, Option.bind_some] at hnamed
  refine ⟨response, hanew, hnamed, by decide +kernel, fun hguarded => ?_⟩
  obtain ⟨-, -, -, hlast, -⟩ := hguarded
  have hlive := (namesLive_iff hanew).mp (hlast request response rfl hanew)
  have hended : ((s.db.jobs.get ⟨1⟩).map fun row => (row.id, row.idempotencyKey, row.status)) =
      some (⟨1⟩, .new s!"{smallApplication}:deploy:production" .rollout 1, .succeeded) := by
    decide +kernel
  obtain ⟨row, hget, hrow⟩ := Option.map_eq_some_iff.mp hended
  obtain ⟨hid, hkey, hstatus⟩ := Prod.mk.inj hrow |>.imp_right Prod.mk.inj
  have hinFlight := hlive (.new s!"{smallApplication}:deploy:production" .rollout 1)
    (by decide +kernel) row (by rw [hid]; exact hget) hkey
  rw [hstatus] at hinFlight
  cases hinFlight

end Labrys.ControlPlane
