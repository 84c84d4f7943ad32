import Labrys.ControlPlane.RollbackScope
import Labrys.Core.Dashboard
import Labrys.Foundations.Selection

/-! # The reading endpoints of the API

`logs`, `health` and `doctor` admit the actor and load the application as the mutating handlers do;
what follows are `SELECT`s, so each one is a program that leaves the tables as they are. Rows that a
query leaves in no particular order stay in the order of the table.

* `ReadDb`: the tables and columns that only these handlers read, with those of `ApiDb`.
* `Reads`: the request is admitted and its application registered; `Reads.logs`, `Reads.health` and
  `Reads.doctor` say what it is answered then. -/

namespace Labrys.ControlPlane
open Foundations Labrys.Core
set_option autoImplicit false

/-! ## Tables -/

/-- A row of `evidence`. `append` leaves `application_id` null. -/
structure EvidenceRow where
  evidence : VerificationEvidence
  applicationId : Option ApplicationId
deriving DecidableEq

structure ReadDb where
  api : ApiDb
  /-- The column `created_at` of `deployments`: when a deployment was first saved. -/
  createdAt : DeploymentId → DateTime
  logs : Table fun entry : LogEntry => entry.sequence
  evidence : Table fun row : EvidenceRow => row.evidence.id
  plugins : List PluginReport

abbrev ReadProgram := Program ReadDb (Fault ApiError)

def onApi {α : Type} (m : ApiScript α) : ReadProgram α := fun s =>
  ({ s with api := (m.run s.api).1 }, (m.run s.api).2)

def select {α : Type} (f : ReadDb → α) : ReadProgram α := fun s => (s, .ok (f s))

/-! ## Queries -/

/-- `ORDER BY created_at, id`. -/
def ReadDb.listsBefore (s : ReadDb) (a b : Deployment) : Prop :=
  s.createdAt a.id < s.createdAt b.id ∨
    (s.createdAt a.id = s.createdAt b.id ∧ toString a.id ≤ toString b.id)

instance (s : ReadDb) : DecidableRel s.listsBefore := fun a b =>
  inferInstanceAs (Decidable (s.createdAt a.id < s.createdAt b.id ∨
    (s.createdAt a.id = s.createdAt b.id ∧ toString a.id ≤ toString b.id)))

def PgDeploymentStore.listForEnvironment (applicationId : ApplicationId)
    (environmentId : EnvironmentId) (s : ReadDb) : List Deployment :=
  (s.api.deployments.rows.filter fun d =>
    decide (d.applicationId = applicationId ∧ d.environmentId = environmentId)).insertionSort
      s.listsBefore

/-- `ORDER BY updated_at DESC, enqueued_at DESC LIMIT 1`. -/
def PgJobQueue.latestForTarget (target : String) (s : ReadDb) : Option Job :=
  let rows := s.api.db.jobs.jobs.rows.filter fun row => decide (row.target = target)
  (rows.insertionSort fun a b => b.updatedAt < a.updatedAt ∨
    (b.updatedAt = a.updatedAt ∧ b.enqueuedAt ≤ a.enqueuedAt)).head?.map (·.toJob)

def PgJobQueue.deadLetters (s : ReadDb) : List JobId :=
  (sortByKey (fun row : JobRow => row.updatedAt)
    (s.api.db.jobs.jobs.rows.filter fun row => decide (row.status = .dead))).map (·.id)

def PgLogStore.forSource (source : LogSource) (s : ReadDb) : List LogEntry :=
  sortByKey (fun entry : LogEntry => entry.sequence.toNat)
    (s.logs.rows.filter fun entry => decide (entry.source = source))

def PgEvidenceStore.all (s : ReadDb) : List VerificationEvidence :=
  sortByKey (fun evidence : VerificationEvidence => evidence.time)
    (s.evidence.rows.map (·.evidence))

/-! ## Pages -/

structure PageQuery where
  limit : Option ℤ
  offset : Option ℤ
  source : Option String
  environment : Option String

def clampPage (query : PageQuery) : ℕ × ℕ :=
  ((max 1 (min 500 (query.limit.getD 50))).toNat, (max 0 (query.offset.getD 0)).toNat)

section Handlers
variable (api : ApiState) (headers : Headers) (draws : Draws) (raw : String) (query : PageQuery)

/-- What every handler begins with. -/
def admittedApp (target : String) : ReadProgram (ActorContext × Application) := do
  let ctx ← onApi (authorized api headers draws target)
  let app ← onApi (loadApp ctx raw)
  return (ctx, app)

/-! ## `GET /v1/applications/{app}/logs` -/

/-- The sources a query asks for; a name that is none of them asks for nothing. -/
def PageQuery.wanted : List LogSource :=
  match query.source with
  | none => LogSource.all
  | some name => (LogSource.all.find? fun source => decide (source.canonicalName = name)).toList

def logItem (entry : LogEntry) : Json :=
  .object [("sequence", .number entry.sequence.toNat),
    ("source", .string entry.source.canonicalName), ("level", .string entry.level.lowercase),
    ("message", .string entry.message), ("trace", .string entry.correlation.traceId)]

def wantedEntries (s : ReadDb) : List LogEntry :=
  sortByKey (fun entry : LogEntry => entry.sequence.toNat)
    (query.wanted.flatMap fun source => PgLogStore.forSource source s)

def logsData (entries : List LogEntry) : Json :=
  .object [("total", .number entries.length), ("limit", .number (clampPage query).1),
    ("offset", .number (clampPage query).2),
    ("items", .array ((page (clampPage query).1 (clampPage query).2 entries).map logItem))]

/-- The application is loaded and then not used. -/
def logs : ReadProgram Json := do
  let (ctx, _) ← admittedApp api headers draws raw "GET /v1/applications/\x7bapp\x7d/logs"
  if query.source.isSome ∧ query.wanted = [] then
    let name := query.source.getD ""
    Program.ofExcept (.error (.err (.unprocessable ctx.traceId s!"unknown log source '{name}'"
      "use one of agent, build, runtime, deployment, capability, resource")))
  else
    let entries ← select (wantedEntries query)
    return envelope "logs" ctx false (some (resourceValue "application" raw))
      (some (logsData query entries)) none none

/-! ## `GET /v1/applications/{app}/health` -/

inductive ReportedState
  | unknown | inProgress | healthy | degraded | failed | superseded
deriving DecidableEq

namespace ReportedState

def text : ReportedState → String
  | unknown => "unknown"
  | inProgress => "in_progress"
  | healthy => "healthy"
  | degraded => "degraded"
  | failed => "failed"
  | superseded => "superseded"

def ofPhase : DeploymentPhase → ReportedState
  | .healthy => healthy
  | .pending | .building | .deploying => inProgress
  | .degraded => degraded
  | .failed => failed
  | .superseded | .rolledBack => superseded

/-- The overall state after an environment with a deployment. -/
def worse (overall entry : ReportedState) : ReportedState :=
  if entry = failed ∨ overall = failed then failed
  else if entry = degraded ∨ overall = degraded then degraded
  else if entry = inProgress ∨ overall = inProgress then inProgress
  else if entry = healthy then healthy
  else overall

end ReportedState

/-- What is found for one environment: the deployment that moved last, or none, and the job that is
shown with it. -/
inductive EnvironmentHealth
  | unobserved (job : Option Job)
  | deployed (deployment : Deployment) (job : Option Job)

def deployTarget (app : Application) (environment : EnvironmentRow) : String :=
  s!"{app.id}:deploy:{environment.name}"

/-- The deployment whose last transition is the latest; of several, the one listed last. -/
def currentDeployment (app : Application) (environment : EnvironmentRow) (s : ReadDb) :
    Option Deployment :=
  lastMaxBy (fun d : Deployment => d.lastTransition.time)
    (PgDeploymentStore.listForEnvironment app.id environment.id s)

def environmentHealth (app : Application) (environment : EnvironmentRow) (s : ReadDb) :
    EnvironmentHealth :=
  match currentDeployment app environment s with
  | none => .unobserved (PgJobQueue.latestForTarget (deployTarget app environment) s)
  | some d => .deployed d
      (if ReportedState.ofPhase d.phase = .inProgress then
        PgJobQueue.latestForTarget (deployTarget app environment) s
      else none)

namespace EnvironmentHealth

def value (environment : EnvironmentRow) : EnvironmentHealth → Json
  | unobserved job => .object [("environment", .string environment.name),
      ("state", .string (if job.isSome then "in_progress" else "unknown")),
      ("job", .ofOption jobValue job),
      ("detail", .string "no platform health observation recorded")]
  | deployed d job => .object [("environment", .string environment.name),
      ("state", .string (ReportedState.ofPhase d.phase).text),
      ("deployment", .string (toString d.id)),
      ("digest", .ofOption .string (d.image.map (·.digest))), ("job", .ofOption jobValue job)]

/-- An environment without a deployment counts only while nothing else is known. -/
def merge (overall : ReportedState) : EnvironmentHealth → ReportedState
  | unobserved job =>
      if job.isSome = true ∧ overall = .unknown then .inProgress else overall
  | deployed d _ => overall.worse (.ofPhase d.phase)

end EnvironmentHealth

def PageQuery.environments (app : Application) : List EnvironmentRow :=
  match query.environment with
  | none => app.environments
  | some name => app.environments.filter fun environment => decide (environment.name = name)

def overallHealth (found : List EnvironmentHealth) : ReportedState :=
  found.foldl EnvironmentHealth.merge .unknown

def healthResponse (ctx : ActorContext) (app : Application) (s : ReadDb) : Json :=
  let environments := query.environments app
  let found := environments.map fun environment => environmentHealth app environment s
  let overall := overallHealth found
  envelope "health" ctx false (some (resourceValue "application" (toString app.id)))
    (some (.object [("state", .string overall.text),
      ("environments", .array (environments.map fun environment =>
        (environmentHealth app environment s).value environment))]))
    none
    (if overall = .unknown then some "run `labrys doctor` to see which probe is missing" else none)

def health : ReadProgram Json := do
  let (ctx, app) ← admittedApp api headers draws raw "GET /v1/applications/\x7bapp\x7d/health"
  select (healthResponse query ctx app)

/-! ## `GET /v1/applications/{app}/doctor` -/

def healthFinding (app : Application) (s : ReadDb) (environment : EnvironmentRow) : Json :=
  let deployments := PgDeploymentStore.listForEnvironment app.id environment.id s
  if deployments.any fun d => decide (d.phase = .healthy) then
    .object [("code", .string "doctor.health"), ("severity", .string "info"),
      ("message", .string s!"environment '{environment.name}' has a healthy deployment")]
  else
    .object [("code", .string "doctor.no_health_evidence"), ("severity", .string "warning"),
      ("message", .string
        s!"no platform health observation recorded for '{environment.name}'"),
      ("recovery", .string "run a health probe or wait for the controller")]

def errorFinding (code message recovery : String) : Json :=
  .object [("code", .string code), ("severity", .string "error"), ("message", .string message),
    ("recovery", .string recovery)]

/-- Jobs that ran out of attempts, whoever asked for them. -/
def deadFindings (dead : List JobId) : List Json :=
  if dead = [] then []
  else [errorFinding "doctor.dead_letters" s!"{dead.length} job(s) exhausted retries"
    "inspect the job error, fix the cause, then requeue the job"]

def evidenceFinding (record : VerificationEvidence) : Json :=
  errorFinding "doctor.failed_evidence" record.toEventDetail
    (record.recovery.getD "inspect the failing check and re-run verification")

def pluginFinding (report : PluginReport) : Json :=
  if report.state = .active then
    .object [("code", .string "doctor.plugin"), ("severity", .string "info"),
      ("message", .string s!"{report.name} ({report.family.canonicalName}) active")]
  else
    errorFinding "doctor.plugin_unavailable"
      s!"{report.name} ({report.family.canonicalName}) is {report.state.debug}" report.detail

def failedEvidence (s : ReadDb) : List VerificationEvidence :=
  (PgEvidenceStore.all s).filter fun record => !record.passed

def doctorOk (s : ReadDb) : Bool :=
  decide (PgJobQueue.deadLetters s = []) && decide (failedEvidence s = []) &&
    s.plugins.all fun report => decide (report.state = .active)

def doctorFindings (app : Application) (s : ReadDb) : List Json :=
  app.environments.map (healthFinding app s) ++ deadFindings (PgJobQueue.deadLetters s) ++
    (failedEvidence s).map evidenceFinding ++ s.plugins.map pluginFinding

def doctorResponse (ctx : ActorContext) (app : Application) (s : ReadDb) : Json :=
  envelope "doctor" ctx false (some (resourceValue "application" (toString app.id)))
    (some (.object [("ok", .bool (doctorOk s)), ("checks", .array (doctorFindings app s))]))
    none none

def doctor : ReadProgram Json := do
  let (ctx, app) ← admittedApp api headers draws raw "GET /v1/applications/\x7bapp\x7d/doctor"
  select (doctorResponse ctx app)

end Handlers

/-! ## What an admitted request is answered -/

section Admitted
variable {api : ApiState} {headers : Headers} {draws : Draws} {raw : String} {ctx : ActorContext}
  {app : Application} {s : ReadDb}

/-- The request is admitted and its application is registered. -/
structure Reads (api : ApiState) (headers : Headers) (draws : Draws) (raw : String)
    (ctx : ActorContext) (app : Application) (s : ReadDb) : Prop where
  actor : admitActor api.tokens headers (headers.traceOf draws.traceId) draws.authTime = .ok ctx
  loaded : ((loadApp ctx raw).run s.api).2 = .ok app

theorem Reads.admittedApp (h : Reads api headers draws raw ctx app s) (target : String) :
    admittedApp api headers draws raw target s = (s, .ok (ctx, app)) := by
  have hactor : onApi (authorized api headers draws target) s = (s, .ok ctx) := by
    rw [authorized_of_ok target h.actor]
    rfl
  have hrun : (loadApp ctx raw).run s.api = (s.api, .ok app) := by
    have hloaded : (loadApp ctx raw).run s.api = (((loadApp ctx raw).run s.api).1, .ok app) :=
      Program.run_of_snd h.loaded
    rwa [(loadApp_ok hloaded).1] at hloaded
  have happ : onApi (loadApp ctx raw) s = (s, .ok app) := by
    unfold onApi
    rw [hrun]
  unfold ControlPlane.admittedApp
  rw [Program.bind_of_ok hactor, Program.bind_of_ok happ]
  rfl

theorem Reads.health (h : Reads api headers draws raw ctx app s) (query : PageQuery) :
    health api headers draws raw query s = (s, .ok (healthResponse query ctx app s)) := by
  unfold ControlPlane.health
  rw [Program.bind_of_ok (h.admittedApp _)]
  rfl

theorem Reads.doctor (h : Reads api headers draws raw ctx app s) :
    doctor api headers draws raw s = (s, .ok (doctorResponse ctx app s)) := by
  unfold ControlPlane.doctor
  rw [Program.bind_of_ok (h.admittedApp _)]
  rfl

/-- A page of the logs names every line of the wanted sources. -/
theorem Reads.logs (h : Reads api headers draws raw ctx app s) {query : PageQuery}
    (hsource : ¬ (query.source.isSome ∧ query.wanted = [])) :
    logs api headers draws raw query s =
      (s, .ok (envelope "logs" ctx false (some (resourceValue "application" raw))
        (some (logsData query (wantedEntries query s))) none none)) := by
  unfold ControlPlane.logs
  rw [Program.bind_of_ok (h.admittedApp _)]
  simp only [hsource, if_false]
  rfl

/-- A source that there is none of is refused, whatever the log holds. -/
theorem Reads.logs_refused (h : Reads api headers draws raw ctx app s) {query : PageQuery}
    {name : String} (hname : query.source = some name) (hwanted : query.wanted = []) :
    ControlPlane.logs api headers draws raw query s =
      (s, .error (.err (.unprocessable ctx.traceId s!"unknown log source '{name}'"
        "use one of agent, build, runtime, deployment, capability, resource"))) := by
  unfold ControlPlane.logs
  rw [Program.bind_of_ok (h.admittedApp _)]
  simp only [hname, hwanted, Option.isSome_some, and_self, if_true, Option.getD_some]
  rfl

end Admitted

end Labrys.ControlPlane
