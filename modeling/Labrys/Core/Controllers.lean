import Labrys.Core.JobQueue
import Labrys.Core.ResourceRuns

/-! # Controllers

A controller compares what is desired with what was last observed, reports the drift between them
and enqueues jobs for it. Four of them converge one entity each: a resource, a capability bound to
a resource, a preview, a deployment. A pass draws the id of the job it may enqueue from outside, and
enqueues at most one. Health is reported apart from drift, by rules of its own, and at the end the
two are compared. -/

namespace Labrys.Core
set_option autoImplicit false

/-! ## Health and drift -/

inductive HealthState
  | unknown | provisioning | healthy | degraded | failed | paused
deriving DecidableEq, Repr

namespace ResourcePhase

def health : ResourcePhase → HealthState
  | requested | provisioning => .provisioning
  | ready => .healthy
  | degraded => .degraded
  | failed => .failed
  | deleting | deleted => .unknown

/-- `phase as u64`. -/
def index : ResourcePhase → ℕ
  | requested => 0
  | provisioning => 1
  | ready => 2
  | degraded => 3
  | failed => 4
  | deleting => 5
  | deleted => 6

end ResourcePhase

inductive DriftKind
  | missing | stale | unhealthy | terminated
deriving DecidableEq, Repr

structure Drift where
  kind : DriftKind
  detail : String
deriving DecidableEq, Repr

structure Reconciliation where
  controller : String
  target : String
  desiredVersion : ℕ
  observedVersion : ℕ
  inSync : Bool
  drift : List Drift
  actions : List IdempotencyKey
  time : DateTime
deriving DecidableEq

def result (controller target : String) (desiredVersion observedVersion : ℕ) (inSync : Bool)
    (drift : List Drift) (actions : List IdempotencyKey) (time : DateTime) : Reconciliation :=
  ⟨controller, target, desiredVersion, observedVersion, inSync, drift, actions, time⟩

/-- The queue after a pass that wants a job with the default policy, or none. -/
def JobQueue.demand (queue : JobQueue) (wanted : Bool) (id : JobId) (target : String)
    (action : JobAction) (version : ℕ) (now : DateTime) : JobQueue :=
  if wanted then (queue.enqueue id target action version .default now).1 else queue

/-! ## Resources -/

/-- `convergence_version`, from the desired version and the failure generation. -/
def convergenceVersion (desiredVersion generation : ℕ) : ℕ :=
  min (min (desiredVersion * 1000) u64Max + generation) u64Max

def Resource.convergenceVersion (resource : Resource) : ℕ :=
  Core.convergenceVersion resource.desiredVersion resource.generation

structure ResourceController where
  resource : Resource
  desiredPresent : Bool
  observedPresent : Option Bool
deriving DecidableEq

namespace ResourceController

def new (resource : Resource) : ResourceController := ⟨resource, true, none⟩

variable (c : ResourceController)

/-- The presence is recorded before the phase is tried. -/
def observe (present : Bool) (phase : Option ResourcePhase) (observedBy : ObservationSource)
    (reason : Option String) (time : DateTime) : ResourceController × Outcome CoreError Unit :=
  let seen := { c with observedPresent := some present }
  match phase with
  | none => (seen, .ok ())
  | some phase =>
      if phase ≠ c.resource.phase then
        let observed := c.resource.observeInPlace phase observedBy reason time
        ({ seen with resource := observed.1 }, observed.2)
      else (seen, .ok ())

def health : HealthState :=
  if c.observedPresent = some false then .unknown else c.resource.phase.health

def presenceDebug : Option Bool → String
  | none => "None"
  | some present => s!"Some({present})"

def missing : Bool := c.desiredPresent && c.observedPresent ≠ some true

def unwanted : Bool := !c.desiredPresent && c.resource.phase ≠ .deleted

def drift : List Drift :=
  (if c.missing then
    [⟨.missing, s!"desired {c.resource.kind} present at v{c.resource.desiredVersion} but observed " ++
      presenceDebug c.observedPresent⟩] else []) ++
  (c.resource.failure.toList.map fun failure =>
    ⟨.terminated,
      s!"attempt {failure.attempts}/{failure.policy.maxAttempts} failed: {failure.reason}"⟩) ++
  (if c.desiredPresent && c.observedPresent = some true && c.resource.phase ≠ .ready &&
      !c.missing then
    [⟨.unhealthy, s!"resource phase {c.resource.phase.debug}"⟩] else []) ++
  (if c.unwanted then
    [⟨.stale, s!"resource should be deleted but is {c.resource.phase.debug}"⟩] else [])

def reconcile (queue : JobQueue) (id : JobId) (now : DateTime) : JobQueue × Reconciliation :=
  let target := toString c.resource.id
  let version := c.resource.convergenceVersion
  ((queue.demand c.missing id target .provision version now).demand c.unwanted id target .delete
      version now,
    result "resource" target c.resource.desiredVersion
      (c.observedPresent.elim 0 fun _ => c.resource.desiredVersion) c.drift.isEmpty c.drift
      ((if c.missing then [.new target .provision version] else []) ++
        if c.unwanted then [.new target .delete version] else []) now)

end ResourceController

/-! ## Capabilities -/

structure CapabilityController where
  capability : String
  resourceId : ResourceId
  desiredReady : Bool
  phase : ResourcePhase
  agentClaimsIgnored : ℕ
deriving DecidableEq

namespace CapabilityController

def new (capability : String) (resourceId : ResourceId) : CapabilityController :=
  ⟨capability, resourceId, true, .provisioning, 0⟩

variable (c : CapabilityController)

def observeReadiness (phase : ResourcePhase) : CapabilityController := { c with phase := phase }

def acceptAgentCompletion : CapabilityController :=
  { c with agentClaimsIgnored := c.agentClaimsIgnored + 1 }

def health : HealthState := c.phase.health

def unready : Bool := c.desiredReady && c.phase ≠ .ready

def drift : List Drift :=
  if c.unready then [⟨.unhealthy, s!"capability '{c.capability}' phase {c.phase.debug}"⟩] else []

def reconcile (queue : JobQueue) (id : JobId) (now : DateTime) : JobQueue × Reconciliation :=
  let target := toString c.resourceId
  (queue.demand c.unready id target .provision 1 now,
    result "capability" target c.desiredReady.toNat c.phase.index c.drift.isEmpty c.drift
      (if c.unready then [.new target .provision 1] else []) now)

end CapabilityController

/-! ## Previews -/

structure PreviewController where
  previewId : PreviewId
  desiredLive : Bool
  observedLive : Bool
  observedHealthy : Bool
deriving DecidableEq

namespace PreviewController

def new (previewId : PreviewId) : PreviewController := ⟨previewId, true, false, false⟩

variable (c : PreviewController)

def observe (live healthy : Bool) : PreviewController :=
  { c with observedLive := live, observedHealthy := healthy }

def health : HealthState :=
  if c.desiredLive = false then .paused
  else
    match c.observedLive, c.observedHealthy with
    | false, _ => .provisioning
    | true, true => .healthy
    | true, false => .degraded

def missing : Bool := c.desiredLive && !c.observedLive

def failing : Bool := c.desiredLive && c.observedLive && !c.observedHealthy

def drift : List Drift :=
  (if c.missing then [⟨.missing, "preview desired live but not running"⟩] else []) ++
    if c.failing then [⟨.unhealthy, "preview failing health checks"⟩] else []

def reconcile (queue : JobQueue) (id : JobId) (now : DateTime) : JobQueue × Reconciliation :=
  let target := toString c.previewId
  ((queue.demand c.missing id target .provision 1 now).demand c.failing id target .verify 1 now,
    result "preview" target c.desiredLive.toNat c.observedLive.toNat c.drift.isEmpty c.drift
      ((if c.missing then [.new target .provision 1] else []) ++
        if c.failing then [.new target .verify 1] else []) now)

end PreviewController

/-! ## Deployments -/

structure DeploymentController where
  key : String
  desiredArtifact : String
  observedArtifact : Option String
  observedReady : Bool
deriving DecidableEq

namespace DeploymentController

def new (key desiredArtifact : String) : DeploymentController := ⟨key, desiredArtifact, none, false⟩

variable (c : DeploymentController)

def observe (artifact : String) (ready : Bool) : DeploymentController :=
  { c with observedArtifact := some artifact, observedReady := ready }

def health : HealthState :=
  match c.observedArtifact, c.observedReady with
  | some artifact, true => if artifact = c.desiredArtifact then .healthy else .degraded
  | some _, false => .provisioning
  | none, _ => .unknown

def outdated : Bool := c.observedArtifact ≠ some c.desiredArtifact

/-- The drift of a deployment. Its detail prints a text the way `Debug` does, which is left to the
argument. -/
def drift (debugText : String → String) : List Drift :=
  if c.outdated then
    [⟨.stale, "observed " ++
      c.observedArtifact.elim "None" (fun artifact => "Some(" ++ debugText artifact ++ ")") ++
      s!" != desired '{c.desiredArtifact}'"⟩] else []

def reconcile (debugText : String → String) (queue : JobQueue) (id : JobId) (now : DateTime) :
    JobQueue × Reconciliation :=
  (queue.demand c.outdated id c.key .rollout 1 now,
    result "deployment" c.key 1 c.observedArtifact.isSome.toNat (c.drift debugText).isEmpty
      (c.drift debugText) (if c.outdated then [.new c.key .rollout 1] else []) now)

end DeploymentController

/-! ## In sync and healthy -/

/-- The controllers that converge an entity of their own. -/
inductive Controller
  | resource (c : ResourceController)
  | capability (c : CapabilityController)
  | preview (c : PreviewController)
  | deployment (c : DeploymentController)

namespace Controller

/-- Whether the entity is desired; a deployment always has a desired artifact. -/
def desired : Controller → Bool
  | resource c => c.desiredPresent
  | capability c => c.desiredReady
  | preview c => c.desiredLive
  | deployment _ => true

def health : Controller → HealthState
  | resource c => c.health
  | capability c => c.health
  | preview c => c.health
  | deployment c => c.health

def reconcile (debugText : String → String) (queue : JobQueue) (id : JobId) (now : DateTime) :
    Controller → JobQueue × Reconciliation
  | resource c => c.reconcile queue id now
  | capability c => c.reconcile queue id now
  | preview c => c.reconcile queue id now
  | deployment c => c.reconcile debugText queue id now

/-- A deployment that runs the desired artifact and is not ready. -/
def Unready (c : Controller) : Prop :=
  ∃ d, c = deployment d ∧ d.observedArtifact = some d.desiredArtifact ∧ d.observedReady = false

/-- What a pass says about health: in sync means healthy, and what is not healthy drifts. -/
def Agrees (c : Controller) (pass : Reconciliation) : Prop :=
  (pass.inSync = true → c.health = .healthy) ∧ (c.health ≠ .healthy → pass.drift ≠ [])

end Controller

theorem ResourceController.health_of_drift {c : ResourceController}
    (hdesired : c.desiredPresent = true) (h : c.drift = []) : c.health = .healthy := by
  simp only [drift, missing, unwanted, hdesired, List.append_eq_nil_iff] at h
  obtain ⟨⟨⟨hpresent, -⟩, hphase⟩, -⟩ := h
  have hobserved : c.observedPresent = some true := by simpa using hpresent
  have hready : c.resource.phase = .ready := by simpa [hobserved] using hphase
  simp [health, hobserved, hready, ResourcePhase.health]

theorem CapabilityController.health_of_drift {c : CapabilityController}
    (hdesired : c.desiredReady = true) (h : c.drift = []) : c.health = .healthy := by
  have hready : c.phase = .ready := by simpa [drift, unready, hdesired] using h
  rw [health, hready]
  rfl

theorem PreviewController.health_of_drift {c : PreviewController}
    (hdesired : c.desiredLive = true) (h : c.drift = []) : c.health = .healthy := by
  simp only [drift, missing, failing, hdesired, List.append_eq_nil_iff] at h
  have hlive : c.observedLive = true := by simpa using h.1
  have hhealthy : c.observedHealthy = true := by simpa [hlive] using h.2
  simp [health, hdesired, hlive, hhealthy]

theorem DeploymentController.drift_eq_nil_iff (c : DeploymentController)
    (debugText : String → String) :
    c.drift debugText = [] ↔ c.observedArtifact = some c.desiredArtifact := by
  simp [drift, outdated]

theorem DeploymentController.health_eq_healthy_iff {c : DeploymentController}
    (h : c.observedArtifact = some c.desiredArtifact) :
    c.health = .healthy ↔ c.observedReady = true := by
  cases hready : c.observedReady <;> simp [health, h, hready]

namespace Controller

/-- A pass is in sync when it has no drift, so the two directions are one. -/
theorem agrees_iff {c : Controller} {pass : Reconciliation}
    (hpass : pass.inSync = pass.drift.isEmpty) :
    c.Agrees pass ↔ (pass.drift = [] → c.health = .healthy) := by
  unfold Agrees
  rw [hpass, List.isEmpty_iff]
  constructor
  · exact fun h => h.1
  · exact fun h => ⟨h, fun hhealth hdrift => hhealth (h hdrift)⟩

theorem inSync_reconcile (debugText : String → String) (queue : JobQueue) (id : JobId)
    (now : DateTime) (c : Controller) :
    (c.reconcile debugText queue id now).2.inSync =
      (c.reconcile debugText queue id now).2.drift.isEmpty := by
  cases c <;> rfl

end Controller

/-- **In sync means healthy.** For a controller whose entity is desired, in any state, a pass that is
in sync has a healthy entity and an entity that is not healthy drifts, exactly unless the controller
is of a deployment that runs the desired artifact and is not ready. -/
theorem reconcile_agrees_iff (debugText : String → String) (queue : JobQueue) (id : JobId)
    (now : DateTime) (c : Controller) (hdesired : c.desired = true) :
    c.Agrees (c.reconcile debugText queue id now).2 ↔ ¬ c.Unready := by
  rw [Controller.agrees_iff (c.inSync_reconcile debugText queue id now)]
  cases c with
  | resource c =>
    refine iff_of_true (ResourceController.health_of_drift hdesired) ?_
    rintro ⟨d, hd, -⟩
    cases hd
  | capability c =>
    refine iff_of_true (CapabilityController.health_of_drift hdesired) ?_
    rintro ⟨d, hd, -⟩
    cases hd
  | preview c =>
    refine iff_of_true (PreviewController.health_of_drift hdesired) ?_
    rintro ⟨d, hd, -⟩
    cases hd
  | deployment c =>
    change (c.drift debugText = [] → c.health = .healthy) ↔ _
    rw [c.drift_eq_nil_iff]
    constructor
    · rintro h ⟨d, hd, hartifact, hready⟩
      cases hd
      rw [(c.health_eq_healthy_iff hartifact).mp (h hartifact)] at hready
      cases hready
    · intro h hartifact
      rw [c.health_eq_healthy_iff hartifact]
      by_contra hready
      exact h ⟨c, rfl, hartifact, by simpa using hready⟩

/-- `Debug` of a text in which nothing has to be escaped. -/
def quoted (text : String) : String := "\"" ++ text ++ "\""

/-- A capability that has been observed ready is in sync and healthy. -/
theorem reconcile_agrees_capability :
    let c := Controller.capability ((CapabilityController.new "database" ⟨1⟩).observeReadiness .ready)
    c.desired = true ∧ (c.reconcile quoted .new ⟨1⟩ 0).2.inSync = true ∧
      c.Agrees (c.reconcile quoted .new ⟨1⟩ 0).2 := by
  refine ⟨rfl, by decide +kernel, (reconcile_agrees_iff quoted .new ⟨1⟩ 0 _ rfl).mpr ?_⟩
  rintro ⟨d, hd, -⟩
  cases hd

/-- A deployment that is observed with the desired artifact before it is ready: in sync, no drift,
and still provisioning. -/
theorem inSync_unready :
    let c := Controller.deployment ((DeploymentController.new "web" "app@sha256:1").observe
      "app@sha256:1" false)
    (c.reconcile quoted .new ⟨1⟩ 0).2.inSync = true ∧ c.health = .provisioning ∧
      ¬ c.Agrees (c.reconcile quoted .new ⟨1⟩ 0).2 := by
  refine ⟨rfl, rfl, fun h => ?_⟩
  cases h.1 rfl

end Labrys.Core
