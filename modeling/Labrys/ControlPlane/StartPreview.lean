import Labrys.ControlPlane.ContainerExecutor
import Labrys.Core.Observability
import Labrys.Core.Verifier

/-! # Starting a preview

`start_preview` builds an image, starts a container from it, probes it, and records each step. The
call returns at the first record that is refused, by the guard of its text or by the database, and a
container that runs by then keeps running: only an unhealthy one is cleaned up.

* `PreviewRuntime.Abandons`: the call leaves a container that it does not hand over.
* `start_preview_leaks_iff`: it leaks nothing exactly if it abandons none. -/

namespace Labrys.ControlPlane
open Foundations Labrys.Core
set_option autoImplicit false

/-! ## The stores -/

/-- A row of `executions`. -/
structure ExecutionRow where
  id : Uuid
  identity : ExecutionIdentity
  kind : String
  image : Option String
  containerId : Option String
  containerName : Option String
  limits : EffectiveLimits
  status : String
  detail : String
  time : DateTime
deriving DecidableEq

/-- A row of `logs`, without the number that the database gives it. -/
structure LogRow where
  time : DateTime
  source : LogSource
  level : LogLevel
  correlation : Correlation
  message : String
deriving DecidableEq

structure PreviewStores where
  events : List EventDraft
  previews : Table fun row : PreviewRow => row.id
  executions : List ExecutionRow
  logs : List LogRow
  evidence : Table fun evidence : VerificationEvidence => evidence.id

/-- The statements of one call, each of which is run at most once. -/
inductive PreviewStatement
  | buildStarted | buildExecution | buildFinished | runExecution | healthProbed
  | previewState | terminalLog | terminalEvidence | healthEvidence
deriving DecidableEq

/-- The stores, and the containers that the call has started and that run. -/
structure PreviewWorld where
  stores : PreviewStores
  running : Containers

def PreviewWorld.enter (stores : PreviewStores) : PreviewWorld := ⟨stores, []⟩

abbrev StartAction := Program PreviewWorld ControlPlaneError

/-- What a statement comes to: what it writes, or the error of its guard or of the database. -/
abbrev Submission := Except ControlPlaneError (PreviewStores → PreviewStores)

def submit (submission : Submission) : StartAction Unit := fun w =>
  match submission with
  | .ok write => ({ w with stores := write w.stores }, .ok ())
  | .error error => (w, .error error)

def onContainers {α : Type} (m : Program Containers ControlPlaneError α) : StartAction α := fun w =>
  ({ w with running := (m w.running).1 }, (m w.running).2)

/-! ## A call -/

/-- The arguments of `start_preview`, and the times and ids that it draws. -/
structure StartCall where
  workspace : SessionWorkspace
  config : RuntimePlan
  dockerfile : String
  context : String
  image : String
  identity : ExecutionIdentity
  expiresAt : Option DateTime
  previewId : PreviewId
  now : PreviewStatement → DateTime
  drawn : PreviewStatement → Uuid

structure StartedPreview where
  preview : WebPreview
  workspace : SessionWorkspace
  containerId : Option String
  containerName : Option String
  limits : EffectiveLimits
deriving DecidableEq

/-- The preview manager over an executor; `refuses` are the statements that the database refuses. -/
structure PreviewRuntime extends PreviewManager where
  executor : ContainerExecutor
  refuses : PreviewStatement → Option ControlPlaneError

def unavailableBuildResult (config : RuntimePlan) (reason : String) : BuildResult :=
  { BuildResult.failed
      s!"preview blocked: runtime unavailable ({reason}); no image was produced" with
    limitEnforced := some s!"timeout_secs={config.limits.timeoutSecs}"
    recovery := some
      "provision a container runtime, then retry; this is an environment blocker" }

def executionStatus : BuildStatus → String
  | .succeeded => "succeeded"
  | .failed => "failed"
  | .cancelled => "cancelled"

namespace StartCall
variable (call : StartCall)

def limits : EffectiveLimits := .fromConfig call.config

def preview : WebPreview :=
  .new call.previewId call.workspace.id call.workspace.sessionId .private call.expiresAt

def containerName : String :=
  String.ofList ((s!"labrys-{call.workspace.sessionId}-{call.previewId}").toList.map fun c =>
    if c = '_' then '-' else c)

end StartCall

namespace PreviewRuntime
variable (runtime : PreviewRuntime) (call : StartCall)

/-- The database's answer to a statement whose texts have passed the guard. -/
def accept (statement : PreviewStatement) (write : PreviewStores → PreviewStores) : Submission :=
  match runtime.refuses statement with
  | some error => .error error
  | none => .ok write

def recordEvent (statement : PreviewStatement) (action : EventAction) (result : EventResult)
    (detail : String) : Submission := do
  let draft := { EventDraft.new (call.now statement) (.platform "preview-runtime")
      call.identity.correlation action result with
    resource := some ⟨"preview", toString call.previewId⟩
    after := some detail }
  let stored ← redactEvent draft runtime.secrets
  runtime.accept statement fun s => { s with events := s.events ++ [stored] }

/-- `PgExecutionStore::record`. -/
def recordExecution (statement : PreviewStatement) (kind : String) (build : BuildResult)
    (containerId containerName : Option String) : Submission :=
  let status := executionStatus build.status
  if kind ∉ ["build", "run"] then
    .error (.execution s!"unknown execution kind {kind}")
  else if status ∉ ["running", "succeeded", "failed", "cancelled"] then
    .error (.execution s!"unknown execution status {status}")
  else do
    let detail ← redactGuard "execution.detail" build.detail runtime.secrets
    runtime.accept statement fun s => { s with
      executions := s.executions ++ [⟨call.drawn statement, call.identity, kind, some call.image,
        containerId, containerName, call.limits, status, detail, call.now statement⟩] }

def persistPreviewState (preview : WebPreview) (containerId containerName : Option String) :
    Submission := do
  match preview.temporaryUrl with
  | some url => discard (redactGuard "preview.url" url runtime.secrets)
  | none => pure ()
  let row : PreviewRow := {
    id := preview.id
    workspaceId := call.workspace.id
    sessionId := call.workspace.sessionId
    applicationId := call.identity.applicationId
    environmentId := call.identity.environmentId
    status := previewStatusName preview.status
    url := preview.temporaryUrl
    containerId := containerId
    containerName := containerName
    expiresAt := preview.expiresAt
    updatedAt := call.now .previewState }
  runtime.accept .previewState fun s => { s with previews := PgPreviewStore.write row s.previews }

def recordLog (statement : PreviewStatement) (message : String) : Submission := do
  let message ← redactGuard "log.message" message runtime.secrets
  runtime.accept statement fun s => { s with
    logs := s.logs ++ [⟨call.now statement, .runtime, .error, call.identity.correlation, message⟩] }

/-- `PgEvidenceStore::append`, whose answer both callers drop. -/
def appendEvidence (statement : PreviewStatement) (evidence : VerificationEvidence) :
    Submission := do
  let summary ← redactGuard "evidence.summary" evidence.summary runtime.secrets
  runtime.accept statement fun s => { s with
    evidence := s.evidence.insertNew { evidence with summary := summary } }

/-! ## start_preview -/

/-- `record_terminal`. -/
def recordTerminal (preview : WebPreview) (detail : String) : StartAction Unit := do
  submit (runtime.recordLog call .terminalLog (preview.toEventDetail runtime.quoted))
  (submit (runtime.appendEvidence .terminalEvidence (.new s!"preview-{preview.id}-terminal"
    .buildTest "preview-terminal" false detail runtime.secrets
    (call.now .terminalEvidence)))).dropError

/-- How the call ends when no container is to serve: the preview is persisted, and the reason
recorded. -/
def concludeUnserved (preview : WebPreview) (containerName : Option String) (detail : String) :
    StartAction StartedPreview := do
  submit (runtime.persistPreviewState call preview none containerName)
  runtime.recordTerminal call preview detail
  return ⟨preview, call.workspace, none, containerName, call.limits⟩

/-! The records of a call, in their order. -/

def announceBuild : Submission :=
  runtime.recordEvent call .buildStarted .buildStarted .accepted
    s!"preview {call.previewId} build started under {call.limits.summary}"

def recordBuild (build : BuildResult) : Submission :=
  runtime.recordExecution call .buildExecution "build" build none none

def recordBuildFinished (build : BuildResult) : Submission :=
  runtime.recordEvent call .buildFinished .buildFinished
    (if build.isSuccess then .succeeded else .failed (redactReason build.detail runtime.secrets))
    build.detail

def recordRun (container : RunningContainer) : Submission :=
  runtime.recordExecution call .runExecution "run"
    (.succeeded s!"container {container.id} started from image {call.image}")
    (some container.id) (some call.containerName)

def recordProbe (preview : WebPreview) (health : HealthStatus) : Submission :=
  runtime.recordEvent call .healthProbed .healthProbed
    (match health with
      | .healthy => .succeeded
      | .starting => .accepted
      | .unhealthy reason | .unknown reason => .failed (redactReason reason runtime.secrets))
    (preview.toEventDetail runtime.quoted)

def recordHealthEvidence (preview : WebPreview) (health : HealthStatus) : Submission :=
  runtime.appendEvidence .healthEvidence (.new s!"preview-{preview.id}-health" .health
    "preview-health-gate" health.isHealthy (preview.toEventDetail runtime.quoted) runtime.secrets
    (call.now .healthEvidence))

/-- What the platform finds of a container that was started. -/
def probe (container : RunningContainer) : HealthStatus :=
  runtime.executor.health call.config "127.0.0.1" (container.hostPort.getD call.config.port)

/-- What follows the records of a probe: a healthy container is handed over, and another one cleaned
up. -/
def handOver (preview : WebPreview) (container : RunningContainer) (health : HealthStatus) :
    StartAction StartedPreview :=
  let name := call.containerName
  if health.isHealthy then do
    submit (runtime.persistPreviewState call preview (some container.id) (some name))
    return ⟨preview, call.workspace, some container.id, some name, call.limits⟩
  else do
    (onContainers (runtime.executor.cleanup container.id)).dropError
    submit (runtime.persistPreviewState call preview none (some name))
    return ⟨preview, call.workspace, none, some name, call.limits⟩

/-- What follows the start of a container. -/
def serve (built : WebPreview) (container : RunningContainer) : StartAction StartedPreview := do
  let health := runtime.probe call container
  submit (runtime.recordRun call container)
  let preview := (built.recordHealth health).1
  submit (runtime.recordProbe call preview health)
  (submit (runtime.recordHealthEvidence call preview health)).dropError
  runtime.handOver call preview container health

/-- What follows a build that succeeded. -/
def startContainer (built : WebPreview) : StartAction StartedPreview := do
  let name := call.containerName
  match ← (onContainers
    (runtime.executor.run call.config call.image name call.identity)).attempt with
  | .ok container => runtime.serve call built container
  | .error error =>
      let reason := error.display
      let failed := built.recordBuild runtime.quoted (.failed s!"preview run failed: {reason}")
      runtime.concludeUnserved call failed.1 (some name) reason

def build : BuildResult :=
  runtime.executor.build call.dockerfile call.context call.image call.config.limits call.identity

/-- What follows the check of an available runtime. -/
def buildImage (building : WebPreview) : StartAction StartedPreview := do
  let build := runtime.build call
  let built := (building.recordBuild runtime.quoted build).1
  submit (runtime.recordBuild call build)
  submit (runtime.recordBuildFinished call build)
  if build.isSuccess then runtime.startContainer call built
  else runtime.concludeUnserved call built none build.detail

def startPreview : StartAction StartedPreview := do
  Program.ofExcept (enforceLimitsBeforeSchedule call.config)
  let started := call.preview.notifyBuildStarted runtime.quoted
  Program.ofExcept (started.2.mapError .core)
  submit (runtime.announceBuild call)
  match runtime.executor.checkAvailable with
  | .unavailable reason =>
      let blocked := unavailableBuildResult call.config reason
      runtime.concludeUnserved call (started.1.recordBuild runtime.quoted blocked).1 none
        blocked.detail
  | .available _ => runtime.buildImage call started.1

/-! ## What a call leaves behind -/

/-- The call gets to `run`. -/
structure Runs : Prop where
  limits : enforceLimitsBeforeSchedule call.config = .ok ()
  announced : (runtime.announceBuild call).isOk
  available : ∃ version, runtime.executor.checkAvailable = .available version
  recorded : (runtime.recordBuild call (runtime.build call)).isOk
  finished : (runtime.recordBuildFinished call (runtime.build call)).isOk
  succeeded : (runtime.build call).isSuccess

/-- The preview of a build that succeeded, once it was probed. -/
def probed (container : RunningContainer) : WebPreview :=
  let building := (call.preview.notifyBuildStarted runtime.quoted).1
  ((building.recordBuild runtime.quoted (runtime.build call)).1.recordHealth
    (runtime.probe call container)).1

/-- What `run` does leaves a container that is not handed over: `run` fails all the same, or the record
of the run is refused, or that of the probe or, if the probe was healthy, the preview's row. -/
def AbandonedBy : RunAnswer → Prop
  | .failed _ left => left.isSome = true
  | .started container =>
    ¬ (runtime.recordRun call container).isOk ∨
    ¬ (runtime.recordProbe call (runtime.probed call container)
        (runtime.probe call container)).isOk ∨
    (runtime.probe call container).isHealthy ∧
      ¬ (runtime.persistPreviewState call (runtime.probed call container) (some container.id)
          (some call.containerName)).isOk

instance : ∀ answer, Decidable (runtime.AbandonedBy call answer)
  | .failed _ left => inferInstanceAs (Decidable (left.isSome = true))
  | .started _ => inferInstanceAs (Decidable (_ ∨ _ ∨ _))

def runAnswer : RunAnswer :=
  runtime.executor.answerRun call.config call.image call.containerName call.identity

def Abandons : Prop := runtime.Runs call ∧ runtime.AbandonedBy call (runtime.runAnswer call)

end PreviewRuntime

/-- If the call fails, or returns a preview without a container, then none that it started runs. -/
def LeaksNothing (result : PreviewWorld × Except ControlPlaneError StartedPreview) : Prop :=
  (∀ started, result.2 = .ok started → started.containerId = none) → result.1.running = []

theorem leaksNothing_of_error {w : PreviewWorld} {error : ControlPlaneError} :
    LeaksNothing (w, .error error) ↔ w.running = [] := by
  refine ⟨fun h => h fun started hstarted => ?_, fun h _ => h⟩
  cases hstarted

/-- Where no container can be handed over, none may run to the end. -/
theorem leaksNothing_of_unserved {m : StartAction StartedPreview}
    (hkeeps : m.Keeps PreviewWorld.running)
    (hreturns : m.Returns fun started => started.containerId = none) (w : PreviewWorld) :
    LeaksNothing (m w) ↔ w.running = [] := by
  have hnone : ∀ started, (m w).2 = .ok started → started.containerId = none :=
    fun started h => hreturns w (m w).1 started (Program.run_of_snd h)
  unfold LeaksNothing
  rw [hkeeps w]
  exact ⟨fun h => h hnone, fun h _ => h⟩

/-! ### The statements -/

theorem running_submit (submission : Submission) : (submit submission).Keeps PreviewWorld.running := by
  intro w
  unfold submit
  split <;> rfl

/-- A program after a statement leaks nothing if the statement is refused and nothing runs, or if it
leaks nothing itself. -/
theorem leaksNothing_submit {submission : Submission} {m : StartAction StartedPreview}
    {w : PreviewWorld} {P : Prop}
    (hm : ∀ w' : PreviewWorld, w'.running = w.running → (LeaksNothing (m w') ↔ P)) :
    LeaksNothing ((submit submission >>= fun _ => m) w) ↔
      (submission.isOk → P) ∧ (¬ submission.isOk → w.running = []) := by
  cases submission with
  | ok write =>
    rw [Program.bind_of_ok (m := submit (.ok write)) rfl]
    exact Iff.trans (hm _ rfl) ⟨fun h => ⟨fun _ => h, fun hrefused => absurd rfl hrefused⟩,
      fun h => h.1 rfl⟩
  | error error =>
    rw [Program.bind_of_error (m := submit (.error error)) rfl]
    exact Iff.trans leaksNothing_of_error ⟨fun h => ⟨nofun, fun _ => h⟩, fun h => h.2 nofun⟩

/-- While a container runs, a refused statement leaks it. -/
theorem leaksNothing_submit_running (submission : Submission) {m : StartAction StartedPreview}
    {w : PreviewWorld} {P : Prop} (hw : w.running ≠ [])
    (hm : ∀ w' : PreviewWorld, w'.running = w.running → (LeaksNothing (m w') ↔ P)) :
    LeaksNothing ((submit submission >>= fun _ => m) w) ↔ submission.isOk ∧ P := by
  rw [leaksNothing_submit hm]
  constructor
  · intro h
    have hok : submission.isOk := by_contra fun hrefused => hw (h.2 hrefused)
    exact ⟨hok, h.1 hok⟩
  · exact fun h => ⟨fun _ => h.2, fun hrefused => absurd h.1 hrefused⟩

/-- While none runs, it leaks nothing. -/
theorem leaksNothing_submit_idle {submission : Submission} {m : StartAction StartedPreview}
    {w : PreviewWorld} {P : Prop} (hw : w.running = [])
    (hm : ∀ w' : PreviewWorld, w'.running = [] → (LeaksNothing (m w') ↔ P)) :
    LeaksNothing ((submit submission >>= fun _ => m) w) ↔ (submission.isOk → P) := by
  rw [leaksNothing_submit fun w' hw' => hm w' (hw'.trans hw)]
  exact and_iff_left fun _ => hw

theorem keeps_concludeUnserved (runtime : PreviewRuntime) (call : StartCall) (preview : WebPreview)
    (containerName : Option String) (detail : String) :
    (runtime.concludeUnserved call preview containerName detail).Keeps PreviewWorld.running :=
  (running_submit _).bind fun _ =>
    Program.Keeps.bind ((running_submit _).bind fun _ => running_submit _) fun _ =>
      Program.keeps_pure _

theorem concludeUnserved_leaks_iff (runtime : PreviewRuntime) (call : StartCall)
    (preview : WebPreview) (containerName : Option String) (detail : String) (w : PreviewWorld) :
    LeaksNothing (runtime.concludeUnserved call preview containerName detail w) ↔ w.running = [] :=
  leaksNothing_of_unserved (keeps_concludeUnserved runtime call preview containerName detail)
    (Program.Returns.bind fun _ => Program.Returns.bind fun _ => Program.returns_pure rfl) w

section Leaks
variable (runtime : PreviewRuntime) (call : StartCall)
  (hcleanup : ∀ id running, (runtime.executor.cleanup id running).2 = .ok ())
include hcleanup

/-- After the records of its probe, a container leaks exactly if it is healthy and the preview's row
is refused. -/
theorem handOver_leaks_iff (preview : WebPreview) (container : RunningContainer)
    (health : HealthStatus) {w : PreviewWorld} (hw : w.running = [container.id]) :
    LeaksNothing (runtime.handOver call preview container health w) ↔
      ¬ (health.isHealthy ∧ ¬ (runtime.persistPreviewState call preview (some container.id)
        (some call.containerName)).isOk) := by
  unfold PreviewRuntime.handOver
  split_ifs with hhealthy
  · have hserved : ∀ w' : PreviewWorld, w'.running = w.running →
        (LeaksNothing ((pure ⟨preview, call.workspace, some container.id, some call.containerName,
          call.limits⟩ : StartAction StartedPreview) w') ↔ True) := by
      refine fun w' _ => iff_true_intro fun h => ?_
      cases h _ rfl
    refine (leaksNothing_submit hserved).trans ?_
    rw [hw]
    simp [hhealthy]
  · have hrest : ∀ w' : PreviewWorld, LeaksNothing ((submit (runtime.persistPreviewState call preview
        none (some call.containerName)) >>= fun _ => (pure ⟨preview, call.workspace, none,
          some call.containerName, call.limits⟩ : StartAction StartedPreview)) w') ↔
        w'.running = [] :=
      leaksNothing_of_unserved ((running_submit _).bind fun _ => Program.keeps_pure _)
        (Program.Returns.bind fun _ => Program.returns_pure rfl)
    have hclean := runtime.executor.cleanup_ok (hcleanup container.id w.running)
    rw [Program.bind_of_ok (m := (onContainers (runtime.executor.cleanup container.id)).dropError)
      rfl]
    refine (hrest _).trans (iff_of_true ?_ fun h => hhealthy h.1)
    change (runtime.executor.cleanup container.id w.running).1 = []
    rw [hclean, hw]
    simp

/-- A container that is started leaks exactly if a record before its cleanup or its handing over is
refused. -/
theorem serve_leaks_iff (built : WebPreview) (container : RunningContainer) {w : PreviewWorld}
    (hw : w.running = [container.id]) :
    LeaksNothing (runtime.serve call built container w) ↔
      ¬ (¬ (runtime.recordRun call container).isOk ∨
        ¬ (runtime.recordProbe call (built.recordHealth (runtime.probe call container)).1
            (runtime.probe call container)).isOk ∨
        (runtime.probe call container).isHealthy ∧
          ¬ (runtime.persistPreviewState call
            (built.recordHealth (runtime.probe call container)).1 (some container.id)
            (some call.containerName)).isOk) := by
  set health := runtime.probe call container with hhealth
  set preview := (built.recordHealth health).1 with hpreview
  have hevidence : ∀ w' : PreviewWorld, w'.running = [container.id] →
      (LeaksNothing (((submit (runtime.recordHealthEvidence call preview health)).dropError >>=
          fun _ => runtime.handOver call preview container health) w') ↔
        ¬ (health.isHealthy ∧ ¬ (runtime.persistPreviewState call preview (some container.id)
          (some call.containerName)).isOk)) := by
    intro w' hw'
    rw [Program.bind_of_ok (m := (submit (runtime.recordHealthEvidence call preview
      health)).dropError) rfl]
    exact handOver_leaks_iff runtime call hcleanup preview container health
      ((running_submit _ w').trans hw')
  have hsome : ∀ {w' : PreviewWorld}, w'.running = [container.id] → w'.running ≠ [] :=
    fun h => h ▸ List.cons_ne_nil _ _
  have hrecords : LeaksNothing (runtime.serve call built container w) ↔ _ :=
    leaksNothing_submit_running (runtime.recordRun call container) (hsome hw) fun w₁ hw₁ =>
      leaksNothing_submit_running (runtime.recordProbe call preview health)
        (hsome (hw₁.trans hw)) fun w₂ hw₂ => hevidence w₂ (hw₂.trans (hw₁.trans hw))
  rw [hrecords]
  tauto

theorem startContainer_leaks_iff {w : PreviewWorld} (hw : w.running = []) :
    let building := (call.preview.notifyBuildStarted runtime.quoted).1
    LeaksNothing (runtime.startContainer call
        (building.recordBuild runtime.quoted (runtime.build call)).1 w) ↔
      ¬ runtime.AbandonedBy call (runtime.runAnswer call) := by
  intro building
  set run := onContainers (runtime.executor.run call.config call.image call.containerName
    call.identity) with hrun
  have hstart : runtime.startContainer call
      (building.recordBuild runtime.quoted (runtime.build call)).1 w = _ :=
    Program.bind_attempt run _ w
  rw [hstart]
  cases hanswer : runtime.runAnswer call with
  | failed error left =>
    have hfailed : run w = ({ w with running := left.toList ++ w.running }, .error error) := by
      rw [PreviewRuntime.runAnswer] at hanswer
      simp only [hrun, onContainers, ContainerExecutor.run, hanswer]
    rw [hfailed]
    refine (concludeUnserved_leaks_iff runtime call _ _ _ _).trans ?_
    rw [hw]
    cases left <;> simp [PreviewRuntime.AbandonedBy]
  | started container =>
    have hstarted : run w = ({ w with running := container.id :: w.running }, .ok container) := by
      rw [PreviewRuntime.runAnswer] at hanswer
      simp only [hrun, onContainers, ContainerExecutor.run, hanswer]
    rw [hstarted]
    exact serve_leaks_iff runtime call hcleanup _ container (by rw [hw])

theorem buildImage_leaks_iff {w : PreviewWorld} (hw : w.running = []) :
    LeaksNothing (runtime.buildImage call (call.preview.notifyBuildStarted runtime.quoted).1 w) ↔
      ((runtime.recordBuild call (runtime.build call)).isOk →
        (runtime.recordBuildFinished call (runtime.build call)).isOk →
        (runtime.build call).isSuccess → ¬ runtime.AbandonedBy call (runtime.runAnswer call)) := by
  set build := runtime.build call with hbuild
  refine leaksNothing_submit_idle hw fun w₁ hw₁ => leaksNothing_submit_idle hw₁ fun w₂ hw₂ => ?_
  split_ifs with hsuccess
  · exact (startContainer_leaks_iff runtime call hcleanup hw₂).trans
      ⟨fun h _ => h, fun h => h hsuccess⟩
  · refine (concludeUnserved_leaks_iff runtime call _ none build.detail w₂).trans ?_
    exact iff_of_true hw₂ fun h => absurd h hsuccess

/-- **Starting a preview leaks no container** exactly if the call abandons none: for every executor
whose cleanups succeed and every choice of refused statements. -/
theorem start_preview_leaks_iff (stores : PreviewStores) :
    LeaksNothing (runtime.startPreview call (.enter stores)) ↔ ¬ runtime.Abandons call := by
  have hnotified : (call.preview.notifyBuildStarted runtime.quoted).2 = .ok () := rfl
  unfold PreviewRuntime.startPreview
  cases hlimits : enforceLimitsBeforeSchedule call.config with
  | error error =>
    refine (leaksNothing_of_error (w := .enter stores)).trans (iff_of_true rfl fun h => ?_)
    cases hlimits.symm.trans h.1.limits
  | ok value =>
    rw [Program.bind_of_ok (m := Program.ofExcept (.ok value)) rfl, hnotified]
    rw [Program.bind_of_ok (m := Program.ofExcept ((Except.ok ()).mapError ControlPlaneError.core))
      rfl]
    cases havailable : runtime.executor.checkAvailable with
    | unavailable reason =>
      refine (leaksNothing_submit_idle rfl fun w hw => (concludeUnserved_leaks_iff runtime call _
        none _ w).trans (iff_of_true hw trivial)).trans (iff_of_true (fun _ => trivial) fun h => ?_)
      obtain ⟨version, hversion⟩ := h.1.available
      cases havailable.symm.trans hversion
    | available version =>
      refine (leaksNothing_submit_idle rfl fun w hw =>
        buildImage_leaks_iff runtime call hcleanup hw).trans ?_
      constructor
      · rintro h ⟨hruns, habandoned⟩
        exact h hruns.announced hruns.recorded hruns.finished hruns.succeeded habandoned
      · intro h hannounced hrecorded hfinished hsucceeded habandoned
        exact h ⟨⟨hlimits, hannounced, ⟨version, havailable⟩, hrecorded, hfinished, hsucceeded⟩,
          habandoned⟩

end Leaks

/-- A runtime whose containers are found as given, over a database that refuses one statement. -/
def smallRuntime (health : HealthStatus) (refused : Option PreviewStatement) : PreviewRuntime where
  secrets := []
  quoted := fun text => text
  executor := {
    checkAvailable := .available "27.0"
    build := fun _ _ _ _ _ => .succeeded "built"
    answerRun := fun _ _ name _ => .started ⟨"c1", name, none⟩
    health := fun _ _ _ => health
    answerStop := fun _ => .ok ()
    answerRemove := fun _ => .ok () }
  refuses := fun statement => if some statement = refused then some (.database "closed") else none

def smallStart : StartCall where
  workspace := ⟨⟨2⟩, ⟨3⟩⟩
  config := ⟨⟨.node, .development, none⟩, .tier0, 8080, none, none, ["npm", "start"],
    .dockerDefault⟩
  dockerfile := "Dockerfile"
  context := "."
  image := "preview:1"
  identity := ⟨"app_00000000000000000000000000000001", none, none, none, "trace-1"⟩
  expiresAt := none
  previewId := ⟨1⟩
  now := fun _ => 1
  drawn := fun _ => 7

def PreviewStores.empty : PreviewStores := ⟨[], .empty, [], [], .empty⟩

/-- An unhealthy container is cleaned up, so it may be that the preview's row is refused. -/
theorem start_preview_leaks_unhealthy :
    let runtime := smallRuntime (.unhealthy "exit 1") (some .previewState)
    (∀ id running, (runtime.executor.cleanup id running).2 = .ok ()) ∧
      LeaksNothing (runtime.startPreview smallStart (.enter .empty)) := by
  refine ⟨fun _ _ => rfl, (start_preview_leaks_iff _ smallStart (fun _ _ => rfl) .empty).mpr ?_⟩
  rintro ⟨-, habandoned⟩
  revert habandoned
  decide +kernel

/-- The record of the run is refused, or that of a healthy preview: the call fails, and the container
that it has started runs on. -/
theorem started_container_leaked :
    (∀ id running,
      ((smallRuntime .healthy none).executor.cleanup id running).2 = .ok ()) ∧
    ∀ refused ∈ [PreviewStatement.runExecution, .healthProbed, .previewState],
      let after := (smallRuntime .healthy (some refused)).startPreview smallStart (.enter .empty)
      after.1.running = ["c1"] ∧ after.2.isOk = false ∧ ¬ LeaksNothing after := by
  refine ⟨fun _ _ => rfl, ?_⟩
  have hleft : ∀ refused ∈ [PreviewStatement.runExecution, .healthProbed, .previewState],
      let after := (smallRuntime .healthy (some refused)).startPreview smallStart (.enter .empty)
      after.1.running = ["c1"] ∧ after.2.isOk = false := by decide +kernel
  intro refused hrefused after
  obtain ⟨hrunning, hfailed⟩ := hleft refused hrefused
  refine ⟨hrunning, hfailed, fun hleaks => ?_⟩
  have hnone : after.1.running = [] := hleaks fun started hstarted => by
    rw [hstarted] at hfailed
    cases hfailed
  rw [hrunning] at hnone
  cases hnone

end Labrys.ControlPlane
