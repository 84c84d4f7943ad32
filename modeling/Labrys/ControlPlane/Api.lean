import Labrys.ControlPlane.Auth
import Labrys.Foundations.Script
import Mathlib.Data.List.Sort

/-! # The mutating endpoints of the API

Each handler is a script of SQL statements: it admits the actor, looks for a stored response of the
request's idempotency key, does its work, and stores the response. `INSERT .. ON CONFLICT` on the
jobs table and the `SELECT` of the job that has the key are one statement here: no row of that table
is ever deleted. The JSON codec is a parameter.

* `Endpoint`: what the eight handlers differ in; `Endpoint.handle` is what they share.
* `ApiCall.endpoint`: the handlers. -/

namespace Labrys.ControlPlane
open Foundations Labrys.Core
set_option autoImplicit false

/-! ## Tables and configuration -/

inductive Origin
  | generated (promptSummary : Option String)
  | importedGit (repositoryUrl branch : String) (commitSha : Option String)
  | importedLocal (path : String)
  | template (templateId : String) (templateVersion : Option String)
  | fork (parentApplicationId : ApplicationId)
  | external (externalRef : String)
deriving DecidableEq

/-- A row of `applications`. -/
structure ApplicationRow where
  id : ApplicationId
  name : String
  origin : Origin
  createdBy : String
deriving DecidableEq

/-- A row of `environments`. -/
structure EnvironmentRow where
  id : EnvironmentId
  applicationId : ApplicationId
  name : String
deriving DecidableEq

structure Application where
  row : ApplicationRow
  environments : List EnvironmentRow
deriving DecidableEq

def Application.id (app : Application) : ApplicationId := app.row.id

/-- A row of `idempotency_records`. -/
structure IdempotencyRecord where
  key : String
  command : String
  response : Json

structure ApiDb where
  db : Db
  applications : Table fun row : ApplicationRow => row.id
  environments : Table fun row : EnvironmentRow => row.id
  deployments : Table fun deployment : Deployment => deployment.id
  replays : Table fun record : IdempotencyRecord => record.key

/-- The tables that handlers work on, without the stored responses and the audit log. -/
structure Platform where
  applications : Table fun row : ApplicationRow => row.id
  environments : Table fun row : EnvironmentRow => row.id
  deployments : Table fun deployment : Deployment => deployment.id
  jobs : JobsTable
  events : List EventDraft

def ApiDb.platform (s : ApiDb) : Platform :=
  ⟨s.applications, s.environments, s.deployments, s.db.jobs, s.db.events⟩

/-- The configuration of the process, and the JSON codec it is linked with. -/
structure ApiState where
  tokens : TokenStore
  secrets : List String
  toJson : Json → String
  fromJson : String → Option Json

/-- What a request draws: two readings of the clock and fresh ids. -/
structure Draws where
  authTime : DateTime
  now : DateTime
  traceId : String
  jobId : JobId
  applicationId : ApplicationId
  developmentId : EnvironmentId
  productionId : EnvironmentId

/-- A statement of the store. -/
abbrev Statement := Program ApiDb (Fault ControlPlaneError)

abbrev ApiScript := Script ApiDb (Fault ApiError)

def onDb {α : Type} (m : Action α) : Statement α := fun s =>
  ({ s with db := (m s.db).1 }, (m s.db).2)

/-- A `SELECT` on the platform's tables. -/
def reading {α : Type} (f : Platform → Outcome ControlPlaneError α) : Statement α := fun s =>
  (s, f s.platform)

def found {α : Type} (id : String) : Option α → Outcome ControlPlaneError α
  | some row => .ok row
  | none => .error (.err (.notFound id))

/-- A statement of a handler, with its error put into the handler's terms. -/
def statement {α : Type} (handler : Fault ControlPlaneError → Fault ApiError) (m : Statement α) :
    ApiScript α :=
  Script.atomic fun s => ((m s).1, (m s).2.mapError handler)

def refuse {α : Type} (error : ApiError) : ApiScript α := .done (.error (.err error))

def settle {α : Type} (x : Except ApiError α) : ApiScript α := .done (x.mapError .err)

def ActorContext.internal (ctx : ActorContext) : Fault ControlPlaneError → Fault ApiError :=
  Fault.map fun error =>
    { status := 500
      code := "api.internal"
      message := redactReason error.display []
      recovery := "retry the request; if it persists, inspect control-plane logs with the trace id"
      traceId := ctx.traceId }

/-! ## Store calls -/

namespace PgApplicationStore

def upsertApplication (row : ApplicationRow)
    (t : Table fun row : ApplicationRow => row.id) : Table fun row : ApplicationRow => row.id :=
  t.upsert row (fun old => { old with name := row.name, origin := row.origin }) fun _ => rfl

def upsertEnvironment (t : Table fun row : EnvironmentRow => row.id) (row : EnvironmentRow) :
    Table fun row : EnvironmentRow => row.id :=
  t.upsert row (fun old => { old with name := row.name }) fun _ => rfl

/-- The transaction of `save`. -/
def save (app : Application) : Statement Unit := fun s =>
  ({ s with
      applications := upsertApplication app.row s.applications
      environments := app.environments.foldl upsertEnvironment s.environments },
    .ok ())

def selectRow (id : ApplicationId) : Statement ApplicationRow :=
  reading fun platform => found (toString id) (platform.applications.get id)

/-- The environments of an application, by name. -/
def loadEnvironments (id : ApplicationId) : Statement (List EnvironmentRow) :=
  reading fun platform =>
    .ok ((platform.environments.rows.filter fun row =>
      decide (row.applicationId = id)).insertionSort fun a b => a.name ≤ b.name)

/-- `get`, less the two state snapshots, which `save` writes together with the row. -/
def get (handler : Fault ControlPlaneError → Fault ApiError) (id : ApplicationId) :
    ApiScript Application := do
  let row ← statement handler (selectRow id)
  let environments ← statement handler (loadEnvironments id)
  return ⟨row, environments⟩

end PgApplicationStore

def PgDeploymentStore.get (id : DeploymentId) : Statement Deployment :=
  reading fun platform => found (toString id) (platform.deployments.get id)

def PgJobQueue.get (id : JobId) : Statement Job :=
  reading fun platform => found (toString id) ((platform.jobs.get id).map (·.toJob))

/-- `PgJobQueue::enqueue` at version 1. -/
def insertJob (draws : Draws) (target : String) (action : JobAction) : Statement EnqueueOutcome :=
  onDb (Action.onJobs fun t =>
    t.enqueue draws.jobId target action 1 RetryPolicy.default draws.now)

def enqueuedJob : EnqueueOutcome → JobId
  | .enqueued id => id
  | .duplicate id => id

/-! ## Envelopes -/

def apiVersion : ℕ := 1
def agentProtocolVersion : ℕ := 1
def pluginProtocolVersion : ℕ := 1

def versionsValue : Json :=
  .object [("api", .number apiVersion), ("agent", .number agentProtocolVersion),
    ("plugin", .number pluginProtocolVersion)]

def jobValue (job : Job) : Json :=
  .object [("id", .string (toString job.id)), ("target", .string job.target),
    ("action", .string job.action.asStr), ("status", .string (statusName job.status)),
    ("attempts", .number job.attempts),
    ("idempotency_key", .string job.idempotencyKey.text)]

def resourceValue (kind id : String) : Json :=
  .object [("kind", .string kind), ("id", .string id)]

def envelope (command : String) (ctx : ActorContext) (replayed : Bool) (resource data : Option Json)
    (job : Option Job) (recovery : Option String) : Json :=
  .object [("ok", .bool true), ("replayed", .bool replayed), ("command", .string command),
    ("correlation", .object [("trace_id", .string ctx.traceId)]),
    ("resource", .ofOption id resource), ("data", .ofOption id data),
    ("job", .ofOption jobValue job), ("recovery", .ofOption .string recovery),
    ("versions", versionsValue)]

/-! ## Replays -/

/-- The stored response of a key, marked as a replay. -/
def checkReplay (key : Option String) : Statement (Option Json) := fun s =>
  match key.bind fun key => s.replays.get key with
  | none => (s, .ok none)
  | some record =>
      match record.response.set "replayed" (.bool true) with
      | .ok response => (s, .ok (some response))
      | .error message => (s, .error (.panic message))

section Handlers
variable (api : ApiState)

/-- What is stored of a response: its redacted text, read back, or `null` if that is not JSON. -/
def storedResponse (response : Json) : Except ControlPlaneError Json := do
  let detail ← redactGuard "idempotency_records.response" (api.toJson response) api.secrets
  return (api.fromJson detail).getD .null

def storeReplay (key command : String) (response : Json) : Statement Unit := fun s =>
  match storedResponse api response with
  | .error error => (s, .error (.err error))
  | .ok stored => ({ s with replays := s.replays.insertNew ⟨key, command, stored⟩ }, .ok ())

/-! ## What handlers call -/

/-- `authorized`: a denial is told to the audit log, whose own failure is dropped. -/
def authorized (headers : Headers) (draws : Draws) (target : String) : ApiScript ActorContext :=
  match admitActor api.tokens headers (headers.traceOf draws.traceId) draws.authTime with
  | .ok ctx => pure ctx
  | .error ⟨error, none⟩ => refuse error
  | .error ⟨error, some detail⟩ => do
      let entry : AuditEntry :=
        ⟨draws.authTime, "platform:api-gate", "auth.rejected", target, detail⟩
      statement (Fault.map fun _ => error) (onDb (PgAuditLog.append entry api.secrets).dropError)
      refuse error

/-- `enqueue`: the version is the same for every request. -/
def enqueue (ctx : ActorContext) (draws : Draws) (target : String) (action : JobAction) :
    ApiScript (Job × Bool) := do
  let outcome ← statement ctx.internal (insertJob draws target action)
  let job ← statement ctx.internal (PgJobQueue.get (enqueuedJob outcome))
  return (job, match outcome with
    | .enqueued _ => false
    | .duplicate _ => true)

def eventDraft (ctx : ActorContext) (draws : Draws) (action : EventAction)
    (resource : EventResource) (detail : String) : EventDraft :=
  { EventDraft.new draws.now ctx.eventActor ctx.correlation action .accepted with
    resource := some resource
    after := some detail }

def recordEvent (ctx : ActorContext) (draws : Draws) (action : EventAction)
    (resource : EventResource) (detail : String) : ApiScript Unit :=
  statement ctx.internal
    (onDb (PgEventStore.append (eventDraft ctx draws action resource detail) api.secrets))

def loadApp (ctx : ActorContext) (raw : String) : ApiScript Application :=
  let missing := ApiError.notFound ctx.traceId s!"application '{raw}' is not registered"
    "run `labrys import` to register this project, then `labrys inspect`"
  match TaggedId.parse "app" raw with
  | none => refuse missing
  | some id => PgApplicationStore.get (Fault.map fun _ => missing) id

def environmentIdOf (app : Application) (name : String) : Option EnvironmentId :=
  (app.environments.find? fun environment => decide (environment.name = name)).map (·.id)

/-! ## The shape of a handler -/

structure Endpoint where
  /-- The command its responses and stored records carry. -/
  command : String
  /-- What a denial names in the audit log. -/
  target : String
  policy : ActorContext → Except ApiError Unit
  work : ActorContext → ApiScript Json

/-- An accepted mutation: its job, its event and the response it is answered with. -/
structure Mutation where
  jobTarget : String
  action : JobAction
  eventAction : EventAction
  eventResource : EventResource
  detail : String
  resource : Json
  data : ApiScript Json
  recovery : String

def accept (ctx : ActorContext) (draws : Draws) (command : String) (mutation : Mutation) :
    ApiScript Json := do
  let enqueued ← enqueue ctx draws mutation.jobTarget mutation.action
  recordEvent api ctx draws mutation.eventAction mutation.eventResource mutation.detail
  let data ← mutation.data
  return envelope command ctx false (some mutation.resource) (some data) (some enqueued.1)
    (some mutation.recovery)

namespace Endpoint
variable (endpoint : Endpoint) (headers : Headers) (draws : Draws)

/-- The checks before the replay: the actor, the policy of the command and the key. -/
def admission : ApiScript (ActorContext × String) := do
  let ctx ← authorized api headers draws endpoint.target
  settle (endpoint.policy ctx)
  let key ← settle (ctx.requireIdempotency endpoint.command)
  return (ctx, key)

def check (admitted : ActorContext × String) : ApiScript (Option Json) :=
  statement admitted.1.internal (checkReplay (some admitted.2))

def store (admitted : ActorContext × String) (response : Json) : ApiScript Json := do
  statement admitted.1.internal (storeReplay api admitted.2 endpoint.command response)
  return response

def answer (admitted : ActorContext × String) : Option Json → ApiScript Json
  | some replayed => pure replayed
  | none => do
      let response ← endpoint.work admitted.1
      endpoint.store api admitted response

def handle : ApiScript Json := do
  let admitted ← endpoint.admission api headers draws
  let replayed ← check admitted
  endpoint.answer api admitted replayed

end Endpoint

/-! ## The handlers -/

structure ImportBody where
  name : Option String
  path : Option String
deriving DecidableEq

/-- A request body; an approval is its approver. -/
structure MutationBody where
  environment : Option String
  approval : Option String
  capability : Option String
  target : Option String
  prompt : Option String
  sessionId : Option String
  revisionSha : Option String
deriving DecidableEq

def policyOf (denied : Option ApiError) : Except ApiError Unit :=
  match denied with
  | some error => .error error
  | none => .ok ()

/-- `Application::new` with the ids drawn for it. -/
def Application.new (draws : Draws) (name : String) (origin : Origin) (createdBy : String) :
    Application where
  row := ⟨draws.applicationId, name, origin, createdBy⟩
  environments := [⟨draws.developmentId, draws.applicationId, "development"⟩,
    ⟨draws.productionId, draws.applicationId, "production"⟩]

def importEndpoint (draws : Draws) (body : ImportBody) : Endpoint where
  command := "import"
  target := "POST /v1/import"
  policy := fun ctx => policyOf (ctx.forbidAgent "import")
  work := fun ctx => do
    let name := body.name.getD "imported-app"
    let path := body.path.getD "."
    let app := Application.new draws name (.importedLocal path) ctx.actor.kindLabel
    let id := toString app.id
    statement ctx.internal (PgApplicationStore.save app)
    accept api ctx draws "import"
      { jobTarget := id
        action := .provision
        eventAction := .resourceProvisioned
        eventResource := ⟨"application", id⟩
        detail := s!"imported from {path}"
        resource := resourceValue "application" id
        data := do
          let saved ← PgApplicationStore.get ctx.internal app.id
          return .object [("application_id", .string (toString saved.id)), ("name", .string name),
            ("path", .string path), ("environments", .strings (saved.environments.map (·.name)))]
        recovery := "run `labrys inspect --application <id>` to see findings" }

/-- The text of the event of `mutate_simple`; a prompt counts by its bytes. -/
def simpleDetail (command : String) (body : MutationBody) : String :=
  if command = "agent" then
    let size := (body.prompt.getD "").utf8ByteSize
    s!"agent work requested (prompt {size} chars); converging"
  else if command = "preview" then
    let session := match body.sessionId with
      | some session => s!" for session {session}"
      | none => ""
    s!"preview requested{session}; converging"
  else s!"{command} accepted; converging"

/-- `mutate_simple`, which names its command where the others name their route. -/
def mutateSimple (draws : Draws) (raw : String) (body : MutationBody) (command : String)
    (action : JobAction) (targetSuffix : String) : Endpoint where
  command := command
  target := command
  policy := fun _ => .ok ()
  work := fun ctx => do
    let app ← loadApp ctx raw
    accept api ctx draws command
      { jobTarget := s!"{app.id}:{targetSuffix}"
        action := action
        eventAction := .reconciled
        eventResource := ⟨"application", toString app.id⟩
        detail := simpleDetail command body
        resource := resourceValue "application" (toString app.id)
        data := pure (.object [("application_id", .string (toString app.id))])
        recovery := "work continues after this response; poll the job for status" }

def runDev (draws : Draws) (raw : String) (body : MutationBody) : Endpoint :=
  mutateSimple api draws raw body "run" .provision "dev"

def agent (draws : Draws) (raw : String) (body : MutationBody) : Endpoint :=
  mutateSimple api draws raw body "agent" .verify "agent"

def preview (draws : Draws) (raw : String) (body : MutationBody) : Endpoint :=
  mutateSimple api draws raw body "preview" .provision "preview"

def capability (draws : Draws) (raw : String) (body : MutationBody) : Endpoint where
  command := "capability"
  target := "POST /v1/applications/\x7bapp\x7d/capabilities"
  policy := fun _ => .ok ()
  work := fun ctx => do
    let app ← loadApp ctx raw
    let capability := body.capability.getD ""
    if isBlank capability.toList then
      refuse (.unprocessable ctx.traceId "capability operations require a capability key"
        ("send \x7b\"capability\": \"database.postgres\"\x7d " ++
          "(secret values stay references only)"))
    else
      accept api ctx draws "capability"
        { jobTarget := s!"{app.id}:capability:{capability}"
          action := .provision
          eventAction := .resourceProvisioned
          eventResource := ⟨"capability", capability⟩
          detail := "capability operation accepted; readiness waits for the platform probe"
          resource := resourceValue "capability" capability
          data := pure (.object [("application_id", .string (toString app.id)),
            ("capability", .string capability)])
          recovery := "capability stays provisioning until the platform observes readiness" }

def build (draws : Draws) (raw : String) : Endpoint where
  command := "build"
  target := "POST /v1/applications/\x7bapp\x7d/build"
  policy := fun ctx => policyOf (ctx.forbidAgent "build")
  work := fun ctx => do
    let app ← loadApp ctx raw
    accept api ctx draws "build"
      { jobTarget := s!"{app.id}:build"
        action := .provision
        eventAction := .reconciled
        eventResource := ⟨"application", toString app.id⟩
        detail := "build accepted; promotion waits for health"
        resource := resourceValue "application" (toString app.id)
        data := pure (.object [("application_id", .string (toString app.id))])
        recovery := "promotion waits for the platform health gate" }

/-- The policy of the two commands that only a named human runs, with the denial of an agent. -/
def humanOnly (command message recovery : String) (ctx : ActorContext) : Except ApiError Unit :=
  if (ctx.forbidAgent command).isSome then .error (.forbidden ctx.traceId message recovery)
  else policyOf (ctx.requireHuman command)

def deploy (draws : Draws) (raw : String) (body : MutationBody) : Endpoint where
  command := "deploy"
  target := "POST /v1/applications/\x7bapp\x7d/deploy"
  policy := humanOnly "deploy"
    "an agent session may not call the production deploy endpoint without approval"
    ("request human approval first: a named human must approve and run " ++
      "`labrys deploy --environment production --approve-by <name>`")
  work := fun ctx => do
    let app ← loadApp ctx raw
    let environment := body.environment.getD "production"
    if environmentIdOf app environment = none then
      refuse (.notFound ctx.traceId
        s!"environment '{environment}' is unknown for this application"
        "list environments with `labrys inspect --application <id>`")
    else
      let approvalNote := body.approval.getD ctx.actor.kindLabel
      accept api ctx draws "deploy"
        { jobTarget := s!"{app.id}:deploy:{environment}"
          action := .rollout
          eventAction := .reconciled
          eventResource := ⟨"application", toString app.id⟩
          detail := s!"deploy to {environment} accepted by {approvalNote}; " ++
            "promotion waits for health"
          resource := resourceValue "environment" environment
          data := pure (.object [("application_id", .string (toString app.id)),
            ("environment", .string environment),
            ("revision_sha", .ofOption .string body.revisionSha)])
          recovery :=
            "deployment is accepted but not healthy until the platform observes health" }

def ApiError.approvalRequired (traceId : String) : ApiError where
  status := 400
  code := "api.approval_required"
  message := "rollback requires a granted, named human approval"
  recovery := "re-send with \x7b\"approval\": \x7b\"approver\": \"<name>\"\x7d\x7d " ++
    "and --target <deployment>"
  traceId := traceId

/-- The approver a rollback must name. -/
def namedApprover (body : MutationBody) : Option String :=
  body.approval.filter fun approver => !isBlank approver.toList

def rollbackTarget (ctx : ActorContext) (body : MutationBody) : Except ApiError DeploymentId :=
  match body.target with
  | none => .error (.unprocessable ctx.traceId "rollback requires an explicit target deployment"
      "list candidates with `labrys deployments --application <id>` and pass --target <id>")
  | some text =>
      match TaggedId.parse "dep" text with
      | some id => .ok id
      | none => .error (.unprocessable ctx.traceId "rollback target is not a valid deployment id"
          "list candidates with `labrys deployments --application <id>`")

/-- A target must have an image, and be healthy or have been. -/
def safeTarget (ctx : ActorContext) (id : DeploymentId) (target : Deployment) :
    Except ApiError Unit :=
  if target.image = none then
    .error (.unprocessable ctx.traceId s!"rollback target {id} has no built image"
      "choose a deployment with a verified OCI artifact")
  else if target.phase ∉ [.healthy, .superseded, .rolledBack] then
    .error (.unprocessable ctx.traceId
      s!"rollback target {id} is {target.phase.debug}, not a safe target"
      "choose a healthy, superseded, or previously rolled-back deployment")
  else .ok ()

def rollback (draws : Draws) (raw : String) (body : MutationBody) : Endpoint where
  command := "rollback"
  target := "POST /v1/applications/\x7bapp\x7d/rollback"
  policy := fun ctx => do
    humanOnly "rollback"
      "an agent session may not invoke rollback without named human approval"
      ("rollback requires a granted, named human approval: a human must run " ++
        "`labrys rollback --approve-by <name> --target <deployment>`") ctx
    match namedApprover body with
    | some _ => .ok ()
    | none => .error (.approvalRequired ctx.traceId)
  work := fun ctx => do
    let approver := (namedApprover body).getD ""
    let app ← loadApp ctx raw
    let id ← settle (rollbackTarget ctx body)
    let missing := ApiError.notFound ctx.traceId s!"rollback target {id} does not exist"
      "list candidates with `labrys deployments --application <id>`"
    let target ← statement (Fault.map fun _ => missing) (PgDeploymentStore.get id)
    settle (safeTarget ctx id target)
    accept api ctx draws "rollback"
      { jobTarget := s!"{app.id}:rollback:{id}"
        action := .rollout
        eventAction := .reconciled
        eventResource := ⟨"deployment", toString id⟩
        detail := s!"rollback to {id} approved by {approver}; " ++ databaseDataWarning
        resource := resourceValue "deployment" (toString id)
        data := pure (.object [("application_id", .string (toString app.id)),
          ("target", .string (toString id)), ("approved_by", .string approver),
          ("database_data_restored", .bool false), ("warning", .string databaseDataWarning)])
        recovery := "traffic moves when the controller converges; " ++
          "database data is never restored by rollback" }

/-- A mutating request's route, with what its path and its body say. -/
inductive ApiCall
  | «import» (body : ImportBody)
  | runDev (application : String) (body : MutationBody)
  | agent (application : String) (body : MutationBody)
  | preview (application : String) (body : MutationBody)
  | capability (application : String) (body : MutationBody)
  | build (application : String) (body : MutationBody)
  | deploy (application : String) (body : MutationBody)
  | rollback (application : String) (body : MutationBody)
deriving DecidableEq

def ApiCall.endpoint (draws : Draws) : ApiCall → Endpoint
  | .import body => importEndpoint api draws body
  | .runDev raw body => ControlPlane.runDev api draws raw body
  | .agent raw body => ControlPlane.agent api draws raw body
  | .preview raw body => ControlPlane.preview api draws raw body
  | .capability raw body => ControlPlane.capability api draws raw body
  | .build raw _ => ControlPlane.build api draws raw
  | .deploy raw body => ControlPlane.deploy api draws raw body
  | .rollback raw body => ControlPlane.rollback api draws raw body

structure ApiRequest where
  headers : Headers
  call : ApiCall
  draws : Draws

def ApiRequest.endpoint (request : ApiRequest) : Endpoint := request.call.endpoint api request.draws

def ApiRequest.script (request : ApiRequest) : ApiScript Json :=
  (request.endpoint api).handle api request.headers request.draws

end Handlers

/-! ## A small installation -/

/-- One token of each scope, with SHA-256 of their secrets. -/
def smallTokens : TokenStore where
  sha256 := fun bytes =>
    if bytes = "human-token-0001".toUTF8.toList then
      #v[0x6e, 0xc7, 0x8a, 0x8b, 0x92, 0xb0, 0x72, 0x0d, 0xc6, 0x88, 0xdf, 0x59, 0x62, 0x9d, 0x4b,
        0xb3, 0xca, 0x67, 0x86, 0x31, 0x65, 0xf0, 0x64, 0x33, 0x54, 0x2c, 0x32, 0x00, 0x30, 0x95,
        0x7a, 0x00]
    else
      #v[0x2c, 0xa8, 0x8c, 0xff, 0x0e, 0xfa, 0xca, 0xf5, 0x0d, 0x5d, 0x8c, 0x9c, 0x8a, 0x03, 0xd1,
        0xca, 0x41, 0x98, 0xb1, 0x89, 0xca, 0x04, 0x51, 0x11, 0x3d, 0x84, 0x97, 0x9f, 0xac, 0xc9,
        0x0f, 0x4b]
  tokens := [⟨"ops", "ops", .human, none, false, "human-token-0001".toUTF8.toList⟩,
    ⟨"runner", "runner", .agent, none, false, "agent-token-0001".toUTF8.toList⟩]

/-- No secrets; the codec reads back the responses it is told of. -/
def smallApi (responses : List Json) : ApiState where
  tokens := smallTokens
  secrets := []
  toJson := Json.compact
  fromJson := fun text => responses.find? fun response => decide (response.compact = text)

def smallApplication : ApplicationId := ⟨1⟩

/-- One application with its two environments. -/
def smallDb : ApiDb where
  db := ⟨.empty, .empty, [], .empty, [], []⟩
  applications := ⟨[⟨smallApplication, "web", .importedLocal ".", "human"⟩], by decide⟩
  environments := ⟨[⟨⟨1⟩, smallApplication, "development"⟩, ⟨⟨2⟩, smallApplication, "production"⟩],
    by decide⟩
  deployments := .empty
  replays := .empty

/-- The draws of the request number `n`, which no other one shares. -/
def smallDraws (n : ℕ) : Draws where
  authTime := n
  now := n
  traceId := s!"trace-{n}"
  jobId := ⟨n⟩
  applicationId := ⟨100 + n⟩
  developmentId := ⟨200 + n⟩
  productionId := ⟨300 + n⟩

def emptyBody : MutationBody := ⟨none, none, none, none, none, none, none⟩

def humanRequest (n : ℕ) (key : String) (call : ApiCall) : ApiRequest where
  headers := ⟨some "Bearer human-token-0001", some "human:ada", none, some key⟩
  call := call
  draws := smallDraws n

def agentRequest (n : ℕ) (session key : String) (call : ApiCall) : ApiRequest where
  headers := ⟨some "Bearer agent-token-0001", some s!"agent:{session}:bob", none, some key⟩
  call := call
  draws := smallDraws n

end Labrys.ControlPlane
