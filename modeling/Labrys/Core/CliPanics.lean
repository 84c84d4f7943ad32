import Labrys.Core.Surfaces

/-! # The panics of the CLI

An arm unwraps what the checks before it have seen. Which fields are checked is decided for each
command by itself, and `build` shares the arm of `deploy` without its check of the environment.

* `calm_perform_iff`: which arm panics behind the checks.
* `execute_returns_iff`: which requests are answered. -/

namespace Labrys.Core
open Foundations
set_option autoImplicit false

namespace Cli

/-- The result is no panic. -/
def Calm {α : Type} (result : Outcome Finding α) : Prop :=
  ∀ message, result ≠ .error (.panic message)

theorem calm_ok {α : Type} (a : α) : Calm (.ok a) := fun _ h => by cases h

theorem calm_err {α : Type} (finding : Finding) : Calm (.error (.err finding) : Outcome Finding α) :=
  fun _ h => by cases h

section Arms
variable {formats : Formats} {secrets : List String} {request : CliRequest} {id : ApplicationId}
  {now : DateTime}

theorem expected_bind {α β : Type} {value : Option α} {a : α} (h : value = some a)
    (f : α → Outcome Finding β) : (expected value >>= f) = f a := by
  rw [h]
  rfl

theorem calm_inspect (hid : request.applicationId = some id) (state : PlatformState) :
    Calm (inspect request state) := by
  unfold inspect
  rw [expected_bind hid]
  exact calm_ok _

theorem calm_doctor (hid : request.applicationId = some id) (state : PlatformState) :
    Calm (doctor request now state) := by
  unfold doctor
  rw [expected_bind hid]
  exact calm_ok _

theorem calm_logs (hid : request.applicationId = some id) (state : PlatformState) :
    Calm (logs request state) := by
  unfold logs
  rw [expected_bind hid]
  exact calm_ok _

theorem calm_health (hid : request.applicationId = some id) (state : PlatformState) :
    Calm (health formats request now state) := by
  unfold health
  rw [expected_bind hid]
  split
  · exact calm_ok _
  · exact calm_ok _

theorem calm_rollback (hid : request.applicationId = some id) (state : PlatformState) :
    Calm (rollback formats secrets request now state) := by
  unfold rollback
  rw [expected_bind hid]
  split
  · exact calm_err _
  · exact calm_ok _

theorem calm_list (hid : request.applicationId = some id) (state : PlatformState) :
    Calm (list formats secrets request now state) := by
  unfold list
  rw [expected_bind hid]
  exact calm_ok _

/-- The arm of `deploy` and `build` unwraps the environment too. -/
theorem calm_deploy_iff (hid : request.applicationId = some id) (state : PlatformState) :
    Calm (deploy formats secrets request now state) ↔ request.environment ≠ none := by
  unfold deploy
  rw [expected_bind hid]
  cases henvironment : request.environment with
  | none => exact iff_of_false (fun hcalm => hcalm "validated above" rfl) fun h => h rfl
  | some environment =>
    refine iff_of_true ?_ (Option.some_ne_none environment)
    rw [expected_bind rfl]
    split_ifs
    · exact calm_err _
    · exact calm_ok _

end Arms

/-! ## Behind the checks -/

theorem application_of_findings {state : PlatformState} {request : CliRequest}
    (hrequired : request.command.requiresApplication = true) :
    applicationFindings state request = [] ↔
      ∃ id, request.applicationId = some id ∧ state.knows id = true := by
  unfold applicationFindings
  rw [if_neg (by rw [hrequired]; exact Bool.true_eq_false.mp)]
  cases request.applicationId with
  | none => simp
  | some id => simp

theorem environment_of_findings {formats : Formats} {state : PlatformState} {request : CliRequest}
    (hrequired : request.command.requiresEnvironment = true)
    (h : environmentFindings formats state request = []) : request.environment ≠ none := by
  intro hnone
  unfold environmentFindings at h
  rw [if_neg (by rw [hrequired]; exact Bool.true_eq_false.mp), hnone] at h
  simp at h

/-- Behind the checks one arm panics: `build` without an environment. -/
theorem calm_perform_iff {formats : Formats} {secrets : List String} {request : CliRequest}
    {state : PlatformState} (happlication : applicationFindings state request = [])
    (henvironment : environmentFindings formats state request = []) (fresh : ApplicationId)
    (now : DateTime) :
    Calm (perform formats secrets request fresh now state) ↔
      ¬ (request.command = .build ∧ request.environment = none) := by
  have hid : request.command.requiresApplication = true →
      ∃ id, request.applicationId = some id := fun hrequired =>
    ((application_of_findings hrequired).mp happlication).imp fun _ h => h.1
  unfold perform
  cases hcommand : request.command with
  | init | «import» => exact iff_of_true (calm_ok _) (by simp)
  | inspect =>
    obtain ⟨id, hid⟩ := hid (by rw [hcommand]; rfl)
    exact iff_of_true (calm_inspect hid state) (by simp)
  | doctor =>
    obtain ⟨id, hid⟩ := hid (by rw [hcommand]; rfl)
    exact iff_of_true (calm_doctor hid state) (by simp)
  | logs =>
    obtain ⟨id, hid⟩ := hid (by rw [hcommand]; rfl)
    exact iff_of_true (calm_logs hid state) (by simp)
  | health =>
    obtain ⟨id, hid⟩ := hid (by rw [hcommand]; rfl)
    exact iff_of_true (calm_health hid state) (by simp)
  | rollback =>
    obtain ⟨id, hid⟩ := hid (by rw [hcommand]; rfl)
    exact iff_of_true (calm_rollback hid state) (by simp)
  | deploy =>
    obtain ⟨id, hid⟩ := hid (by rw [hcommand]; rfl)
    exact iff_of_true ((calm_deploy_iff hid state).mpr
      (environment_of_findings (by rw [hcommand]; rfl) henvironment)) (by simp)
  | build =>
    obtain ⟨id, hid⟩ := hid (by rw [hcommand]; rfl)
    rw [calm_deploy_iff hid state]
    simp
  | capability | resources | deployments | preview | dev | agent =>
    obtain ⟨id, hid⟩ := hid (by rw [hcommand]; rfl)
    exact iff_of_true (calm_list hid state) (by simp)

/-! ## Every request -/

/-- A build past the boundary, under a key that is free, for a known application, that names no
environment. -/
structure BuildsNowhere (world : CliWorld) (request : CliRequest) : Prop where
  command : request.command = .build
  actor : request.actor.kind ≠ .agent
  key : ∃ key, request.idempotencyKey = some key ∧ world.cli.executed[key]? = none
  application : ∃ id, request.applicationId = some id ∧ world.state.knows id = true
  environment : request.environment = none

theorem authorize_build_iff {request : CliRequest} (h : request.command = .build) :
    authorize request = none ↔ request.actor.kind ≠ .agent := by
  unfold authorize
  rw [h]
  by_cases hagent : request.actor.kind = .agent
  · rw [if_pos ⟨hagent, by decide⟩]
    simp [hagent]
  · have hrollback : CliCommand.build ≠ .rollback := by decide
    have hautomatic : CliCommand.build ∉ [CliCommand.deploy, .rollback] := by decide
    rw [if_neg fun h => hagent h.1, if_neg fun h => hrollback h.1, if_neg fun h => hautomatic h.2]
    simp [hagent]

theorem replay_eq_none_iff {cli : Cli} {request : CliRequest} {key : String}
    (h : request.idempotencyKey = some key) :
    cli.replay request = none ↔ cli.executed[key]? = none := by
  unfold replay
  rw [h, Option.bind_some]

/-- Such a build passes every check. -/
theorem BuildsNowhere.checked {world : CliWorld} {request : CliRequest}
    (h : BuildsNowhere world request) (formats : Formats) :
    authorize request = none ∧
      ¬ (request.command.isMutating = true ∧ request.idempotencyKey = none) ∧
      world.cli.replay request = none ∧
      applicationFindings world.state request ++
        environmentFindings formats world.state request = [] := by
  obtain ⟨key, hkey, hfree⟩ := h.key
  refine ⟨(authorize_build_iff h.command).mpr h.actor, fun hboth => ?_,
    (replay_eq_none_iff hkey).mpr hfree, ?_⟩
  · rw [hkey] at hboth
    cases hboth.2
  · have hrequired : request.command.requiresApplication = true := by
      rw [h.command]
      rfl
    have hunchecked : request.command.requiresEnvironment = false := by
      rw [h.command]
      rfl
    have hnone : environmentFindings formats world.state request = [] := by
      unfold environmentFindings
      rw [if_pos hunchecked]
    rw [(application_of_findings hrequired).mpr h.application, hnone]
    rfl

end Cli

/-- **Which requests are answered.** For every state of the platform and of the CLI and every request:
a response is returned if and only if the request is not a build that passes the boundary, has a key
that is free and a known application, and names no environment; that one panics. -/
theorem execute_returns_iff (formats : Formats) (secrets : List String) (world : CliWorld)
    (input : CliInput) :
    (∃ response, (Cli.execute formats secrets world input).2 = .ok response) ↔
      ¬ Cli.BuildsNowhere world input.request := by
  unfold Cli.execute
  dsimp only
  split
  · next denied hdenied =>
    refine iff_of_true ⟨_, rfl⟩ fun h => ?_
    rw [(h.checked formats).1] at hdenied
    cases hdenied
  next hallowed =>
  split_ifs with hkey
  · exact iff_of_true ⟨_, rfl⟩ fun h => (h.checked formats).2.1 hkey
  split
  · next kept hkept =>
    refine iff_of_true ⟨_, rfl⟩ fun h => ?_
    rw [(h.checked formats).2.2.1] at hkept
    cases hkept
  next hfree =>
  split
  · next finding rest hfindings =>
    refine iff_of_true ⟨_, rfl⟩ fun h => ?_
    rw [(h.checked formats).2.2.2] at hfindings
    cases hfindings
  next hfindings =>
  obtain ⟨happlication, henvironment⟩ := List.append_eq_nil_iff.mp hfindings
  have hcalm : Cli.Calm (Cli.perform formats secrets input.request input.fresh input.now
      world.state) ↔ ¬ (input.request.command = .build ∧ input.request.environment = none) :=
    Cli.calm_perform_iff happlication henvironment input.fresh input.now
  -- Past the checks such a build is a build without an environment.
  have hbuild : Cli.BuildsNowhere world input.request ↔
      input.request.command = .build ∧ input.request.environment = none := by
    refine ⟨fun h => ⟨h.command, h.environment⟩, fun ⟨hcommand, hnone⟩ => ?_⟩
    cases hgiven : input.request.idempotencyKey with
    | none => exact absurd ⟨by rw [hcommand]; rfl, hgiven⟩ hkey
    | some key =>
      exact ⟨hcommand, (Cli.authorize_build_iff hcommand).mp hallowed,
        ⟨key, hgiven, (Cli.replay_eq_none_iff hgiven).mp hfree⟩,
        (Cli.application_of_findings (by rw [hcommand]; rfl)).mp happlication, hnone⟩
  rw [hbuild, ← hcalm]
  split
  · next message hpanic =>
    refine iff_of_false (fun h => ?_) fun hcalm => hcalm message hpanic
    obtain ⟨response, hresponse⟩ := h
    cases hresponse
  · next finding herror =>
    rw [herror]
    exact iff_of_true ⟨_, rfl⟩ (Cli.calm_err finding)
  · next state performed hok =>
    rw [hok]
    exact iff_of_true ⟨_, rfl⟩ (Cli.calm_ok _)

/-- A human builds a registered application and names no environment. -/
theorem build_without_environment_panics :
    let formats : Formats := ⟨fun _ => "1970-01-01T00:00:00+00:00", fun text => text⟩
    let state := PlatformState.new.addApplication ⟨1⟩ ["development", "production"]
    let request : CliRequest :=
      ⟨.build, .human "ada", some ⟨1⟩, none, ∅, some "build-1", none⟩
    (Cli.execute formats [] ⟨.new, state⟩ ⟨request, ⟨2⟩, 0⟩).2 =
      .error (.panic "validated above") := by
  intro formats state request
  rfl

end Labrys.Core
