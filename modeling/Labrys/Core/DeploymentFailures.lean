import Labrys.Core.DeploymentRollback

/-! # What a refused observation leaves of a deployment

`record_build` and `record_health` write what they were told before they try the step that may be
refused: the artifact of a build that succeeded, and the move that an observation asks for. What they
have written by then stays. -/

namespace Labrys.Core
open Foundations
set_option autoImplicit false

/-- The stored form of an observation. -/
def HealthStatus.redacted (secrets : List String) : HealthStatus → HealthStatus
  | .unhealthy reason => .unhealthy (redactReason reason secrets)
  | health => health

namespace Deployment
variable (d : Deployment)

/-- A call that fails has left the deployment as it was. -/
def FailsUnchanged (result : Deployment × Except CoreError Unit) : Prop :=
  ∀ e, result.2 = .error e → result.1 = d

/-- The lifecycle has the move that the observation asks for. -/
def permits : HealthStatus → Bool
  | .healthy => d.phase.canTransitionTo .healthy
  | .unhealthy _ => d.phase.canTransitionTo (if d.phase = .deploying then .failed else .degraded)
  | .starting | .unknown _ => true

/-- A build that succeeds and can not be minted is one that the deployment has recorded before. -/
def MintsOrRecorded (build : BuildResult) (secrets : List String) : Prop :=
  d.phase = .building → build.isSuccess = true →
    (buildImage d.runtime build d.revision secrets).isOk = true ∨ d.build = some build

/-- The move is in the lifecycle, or the observation is the one that is stored. -/
def PermitsOrObserved (health : HealthStatus) (secrets : List String) : Prop :=
  d.permits health = true ∨ d.health = health.redacted secrets

variable {d}

theorem failsUnchanged_of_ok {result : Deployment × Except CoreError Unit}
    (h : result.2 = .ok ()) : d.FailsUnchanged result := by
  intro e herror
  rw [h] at herror
  cases herror

theorem failsUnchanged_error_iff {left : Deployment} {e : CoreError} :
    d.FailsUnchanged (left, .error e) ↔ left = d :=
  ⟨fun h => h e rfl, fun h _ _ => h⟩

theorem moveTo_ok {next : DeploymentPhase} (h : d.phase.canTransitionTo next = true)
    (reason : Option String) (time : DateTime) : (d.moveTo next reason time).2 = .ok () := by
  obtain ⟨e, -, hrefused⟩ | ⟨-, hok, -⟩ := d.moveTo_cases next reason time
  · rw [h] at hrefused
    cases hrefused
  · exact hok

theorem withBuild_eq_iff (build : Option BuildResult) :
    { d with build := build } = d ↔ d.build = build :=
  ⟨fun h => (congrArg Deployment.build h).symm, fun h => by rw [← h]⟩

/-- A move with a new observation is refused only where the lifecycle has none. -/
theorem moveTo_withHealth_iff (health : HealthStatus) (next : DeploymentPhase)
    (reason : Option String) (time : DateTime) :
    d.FailsUnchanged ({ d with health := health }.moveTo next reason time) ↔
      d.phase.canTransitionTo next = true ∨ d.health = health := by
  obtain ⟨e, heq, hrefused⟩ | ⟨hallowed, hok, -⟩ :=
    { d with health := health }.moveTo_cases next reason time
  · change d.phase.canTransitionTo next = false at hrefused
    rw [heq, failsUnchanged_error_iff, hrefused]
    refine ⟨fun h => .inr (congrArg Deployment.health h).symm, fun h => ?_⟩
    rw [← h.resolve_left nofun]
  · exact iff_of_true (failsUnchanged_of_ok hok) (.inl hallowed)

theorem recordBuild_failsUnchanged_iff (build : BuildResult) (secrets : List String)
    (time : DateTime) :
    d.FailsUnchanged (d.recordBuild build secrets time) ↔ d.MintsOrRecorded build secrets := by
  unfold recordBuild MintsOrRecorded
  by_cases hphase : d.phase = .building
  swap
  · rw [if_pos hphase]
    exact iff_of_true (failsUnchanged_error_iff.mpr rfl) fun h => absurd h hphase
  -- A deployment that is building can fail, and can deploy.
  have hmoves : ∀ (left : Deployment) (next : DeploymentPhase) (reason : Option String),
      left.phase = d.phase → next = .failed ∨ next = .deploying →
        (left.moveTo next reason time).2 = .ok () := by
    intro left next reason hleft hnext
    refine moveTo_ok ?_ reason time
    rw [hleft, hphase]
    obtain rfl | rfl := hnext <;> rfl
  rw [if_neg (not_not.mpr hphase)]
  by_cases hsuccess : build.isSuccess = false
  · rw [if_pos hsuccess]
    refine iff_of_true (failsUnchanged_of_ok (hmoves _ _ _ rfl (.inl rfl))) fun _ h => ?_
    rw [hsuccess] at h
    cases h
  rw [if_neg hsuccess]
  cases hmint : buildImage d.runtime build d.revision secrets with
  | error e =>
    refine failsUnchanged_error_iff.trans ((withBuild_eq_iff _).trans ?_)
    exact ⟨fun h _ _ => .inr h, fun h => (h hphase (by simpa using hsuccess)).resolve_left nofun⟩
  | ok image =>
    exact iff_of_true (failsUnchanged_of_ok (hmoves _ _ _ rfl (.inr rfl))) fun _ _ => .inl rfl

theorem recordHealth_failsUnchanged_iff (health : HealthStatus) (secrets : List String)
    (time : DateTime) :
    d.FailsUnchanged (d.recordHealth health secrets time) ↔
      d.PermitsOrObserved health secrets := by
  cases health with
  | healthy => exact moveTo_withHealth_iff .healthy .healthy none time
  | unhealthy reason => exact moveTo_withHealth_iff (.unhealthy (redactReason reason secrets)) _ _ time
  | starting => exact iff_of_true (failsUnchanged_of_ok rfl) (.inl rfl)
  | unknown reason => exact iff_of_true (failsUnchanged_of_ok rfl) (.inl rfl)

end Deployment

/-- **A refused observation changes nothing** exactly if what it says is stored already, or, for a
build, if the artifact of a build that succeeded can be minted and, for a probe, if the lifecycle has
the move: for every deployment, every build result and every health status. -/
theorem failed_observation_unchanged_iff (d : Deployment) (secrets : List String)
    (time : DateTime) :
    (∀ build, d.FailsUnchanged (d.recordBuild build secrets time) ↔
      d.MintsOrRecorded build secrets) ∧
    ∀ health, d.FailsUnchanged (d.recordHealth health secrets time) ↔
      d.PermitsOrObserved health secrets :=
  ⟨fun build => Deployment.recordBuild_failsUnchanged_iff build secrets time,
    fun health => Deployment.recordHealth_failsUnchanged_iff health secrets time⟩

/-- A deployment whose runtime has no image reference is being built. -/
def buildingWithoutImage : List RolloutOp :=
  [.begin ⟨1⟩ ⟨1⟩ ⟨1⟩ (.new "4f2a" "c0" none) ⟨.expo, .production, none⟩ [] 0,
    .onDeployment ⟨1⟩ (.startBuild 1)]

/-- A build that can not be minted is recorded all the same, and so is the late failure of a
deployment that was superseded. -/
theorem refused_observation_written :
    (∃ d, (rollout.run .new buildingWithoutImage).get ⟨1⟩ = some d ∧
      ¬ d.FailsUnchanged (d.recordBuild (.succeeded "built") [] 2)) ∧
    ∃ d, (rollout.run .new promotedTwice).get ⟨1⟩ = some d ∧
      ¬ d.FailsUnchanged (d.recordHealth (.unhealthy "slow") [] 9) := by
  have hbuilding : ((rollout.run .new buildingWithoutImage).get ⟨1⟩).map (fun d =>
      decide (d.phase = .building ∧ d.build = none ∧
        (buildImage d.runtime (.succeeded "built") d.revision []).isOk = false)) = some true := by
    decide +kernel
  have hsuperseded : ((rollout.run .new promotedTwice).get ⟨1⟩).map (fun d =>
      (d.phase, d.health)) = some (.superseded, .healthy) := by decide +kernel
  obtain ⟨building, hget, hfacts⟩ := Option.map_eq_some_iff.mp hbuilding
  obtain ⟨superseded, hget', hobserved⟩ := Option.map_eq_some_iff.mp hsuperseded
  obtain ⟨hphase, hbuild, hmint⟩ := of_decide_eq_true hfacts
  obtain ⟨hphase', hhealth⟩ := Prod.mk.inj hobserved
  refine ⟨⟨building, hget, fun h => ?_⟩, superseded, hget', fun h => ?_⟩
  · obtain hok | hrecorded :=
      (Deployment.recordBuild_failsUnchanged_iff _ [] 2).mp h hphase rfl
    · rw [hmint] at hok
      cases hok
    · cases hbuild.symm.trans hrecorded
  · obtain hpermits | hsame := (Deployment.recordHealth_failsUnchanged_iff _ [] 9).mp h
    · simp [Deployment.permits, hphase', DeploymentPhase.canTransitionTo] at hpermits
    · cases hhealth.symm.trans hsame

end Labrys.Core
