import Labrys.Core.Deployment
import Labrys.Foundations.Runs

/-! # What the operations of a rollout do to a deployment

The rollout as a machine over its operations. `DeploymentOp.course` takes the operations on one
deployment apart: it is left in its phase or enters another along an edge of `DeploymentOp.Edge`,
which is smaller than the graph of `can_transition_to`. `promote_cases` and
`executeRollback_cases` reduce the two operations that move traffic to those. -/

namespace Labrys.Core
open Foundations
set_option autoImplicit false

/-! ## The rollout as a machine -/

inductive DeploymentOp
  | startBuild (time : DateTime)
  | recordBuild (build : BuildResult) (secrets : List String) (time : DateTime)
  | recordHealth (health : HealthStatus) (secrets : List String) (time : DateTime)
  | markSuperseded (time : DateTime)
  | markRolledBack (reason : String) (time : DateTime)

def DeploymentOp.apply (d : Deployment) : DeploymentOp → Deployment × Except CoreError Unit
  | .startBuild time => d.startBuild time
  | .recordBuild build secrets time => d.recordBuild build secrets time
  | .recordHealth health secrets time => d.recordHealth health secrets time
  | .markSuperseded time => d.markSuperseded time
  | .markRolledBack reason time => d.markRolledBack reason time

/-- An operation on the deployment that `get_mut` finds; there is no answer when it finds none. -/
def Rollout.onDeployment (r : Rollout) (id : DeploymentId) (op : DeploymentOp) :
    Rollout × Option (Except CoreError Unit) :=
  match r.get id with
  | none => (r, none)
  | some d => (r.replace (op.apply d).1, some (op.apply d).2)

inductive RolloutOp
  | begin (id : DeploymentId) (applicationId : ApplicationId) (environmentId : EnvironmentId)
      (revision : Revision) (runtime : RuntimeConfig) (resources : List ResourceId)
      (time : DateTime)
  | onDeployment (id : DeploymentId) (op : DeploymentOp)
  | promote (id : DeploymentId) (time : DateTime)
  | executeRollback (plan : RollbackPlan) (approval : ExplicitApproval) (domains : List Domain)
      (time : DateTime)

inductive RolloutAnswer
  | begun (outcome : Except CoreError DeploymentId)
  | operated (outcome : Option (Except CoreError Unit))
  | promoted (outcome : Except CoreError Unit)
  | rolledBack (domains : List Domain) (outcome : Except CoreError RollbackOutcome)

def Rollout.step (r : Rollout) : RolloutOp → Rollout × RolloutAnswer
  | .begin id applicationId environmentId revision runtime resources time =>
      answered .begun (r.begin id applicationId environmentId revision runtime resources time)
  | .onDeployment id op => answered .operated (r.onDeployment id op)
  | .promote id time => answered .promoted (r.promote id time)
  | .executeRollback plan approval domains time =>
      let result := executeRollback r plan approval domains time
      (result.1.1, .rolledBack result.1.2 result.2)

def rollout : Machine Rollout RolloutOp RolloutAnswer := ⟨Rollout.step⟩

/-! ## One deployment -/

namespace Deployment

@[simp] theorem id_entered (d : Deployment) (source next : DeploymentPhase)
    (reason : Option String) (time : DateTime) : (d.entered source next reason time).id = d.id := rfl

@[simp] theorem phase_entered (d : Deployment) (source next : DeploymentPhase)
    (reason : Option String) (time : DateTime) :
    (d.entered source next reason time).phase = next := rfl

@[simp] theorem lastTransition_entered (d : Deployment) (source next : DeploymentPhase)
    (reason : Option String) (time : DateTime) :
    (d.entered source next reason time).lastTransition = ⟨source, next, time, reason⟩ := by
  simp [lastTransition, entered]

/-- The same place in the lifecycle, with the same evidence. -/
structure SameCourse (d d' : Deployment) : Prop where
  id : d'.id = d.id
  phase : d'.phase = d.phase
  transitions : d'.transitions = d.transitions

theorem SameCourse.lastTransition {d d' : Deployment} (h : SameCourse d d') :
    d'.lastTransition = d.lastTransition := by
  simp only [Deployment.lastTransition, h.transitions]

/-- A new phase, with one more evidence entry that starts where the last one ended. -/
structure Enters (d d' : Deployment) (next : DeploymentPhase) : Prop where
  id : d'.id = d.id
  phase : d'.phase = next
  transitions : ∃ time reason,
    d'.transitions = d.transitions ++ [⟨d.lastTransition.target, next, time, reason⟩]

theorem Enters.lastTransition {d d' : Deployment} {next : DeploymentPhase} (h : Enters d d' next) :
    d'.lastTransition.source = d.lastTransition.target ∧ d'.lastTransition.target = next := by
  obtain ⟨time, reason, htransitions⟩ := h.transitions
  simp only [Deployment.lastTransition, htransitions, List.getLast_append_singleton, and_self]

theorem moveTo_cases (d : Deployment) (next : DeploymentPhase) (reason : Option String)
    (time : DateTime) :
    (∃ e, d.moveTo next reason time = (d, .error e) ∧ d.phase.canTransitionTo next = false) ∨
      (d.phase.canTransitionTo next = true ∧ (d.moveTo next reason time).2 = .ok () ∧
        Enters d (d.moveTo next reason time).1 next) := by
  have hself : ∀ phase : DeploymentPhase, phase.canTransitionTo phase = false := by
    intro phase
    cases phase <;> rfl
  unfold moveTo
  by_cases hallowed : d.phase.canTransitionTo next = false
  · exact .inl ⟨_, if_pos hallowed, hallowed⟩
  · have hne : next ≠ d.phase := by
      rintro rfl
      exact hallowed (hself d.phase)
    rw [if_neg hallowed, if_neg hne]
    exact .inr ⟨by simpa using hallowed, rfl, rfl, rfl, time, reason, rfl⟩

/-- `move_to` of a record that differs from `d` in other fields only. -/
theorem SameCourse.moveTo_cases {d e : Deployment} (h : SameCourse d e) (next : DeploymentPhase)
    (reason : Option String) (time : DateTime) :
    (∃ err, (e.moveTo next reason time).2 = .error err ∧
      SameCourse d (e.moveTo next reason time).1 ∧ d.phase.canTransitionTo next = false) ∨
      (d.phase.canTransitionTo next = true ∧ (e.moveTo next reason time).2 = .ok () ∧
        Enters d (e.moveTo next reason time).1 next) := by
  rw [← h.phase]
  obtain ⟨err, heq, hrefused⟩ | ⟨hallowed, hok, hid, hphase, time', reason', htransitions⟩ :=
    e.moveTo_cases next reason time
  · exact .inl ⟨err, by rw [heq], by rw [heq]; exact h, hrefused⟩
  · refine .inr ⟨hallowed, hok, hid.trans h.id, hphase, time', reason', ?_⟩
    rw [htransitions, h.transitions, h.lastTransition]

end Deployment

namespace DeploymentOp

def observesHealthy : DeploymentOp → Bool
  | .recordHealth .healthy _ _ => true
  | _ => false

/-- The edges the operations take. Only an observation leads to `healthy`, and `failed` is entered
from a deployment that never was. -/
inductive Edge : DeploymentOp → DeploymentPhase → DeploymentPhase → Prop
  | startBuild (time : DateTime) : Edge (.startBuild time) .pending .building
  | buildFailed (build : BuildResult) (secrets : List String) (time : DateTime) :
      Edge (.recordBuild build secrets time) .building .failed
  | built (build : BuildResult) (secrets : List String) (time : DateTime) :
      Edge (.recordBuild build secrets time) .building .deploying
  | observed (phase : DeploymentPhase) (secrets : List String) (time : DateTime)
      (h : phase = .deploying ∨ phase = .degraded) :
      Edge (.recordHealth .healthy secrets time) phase .healthy
  | unready (reason : String) (secrets : List String) (time : DateTime) :
      Edge (.recordHealth (.unhealthy reason) secrets time) .deploying .failed
  | degraded (reason : String) (secrets : List String) (time : DateTime) :
      Edge (.recordHealth (.unhealthy reason) secrets time) .healthy .degraded
  | superseded (time : DateTime) : Edge (.markSuperseded time) .healthy .superseded
  | rolledBack (phase : DeploymentPhase) (reason : String) (time : DateTime)
      (h : phase = .healthy ∨ phase = .degraded ∨ phase = .failed ∨ phase = .superseded) :
      Edge (.markRolledBack reason time) phase .rolledBack

/-- What an operation does to its deployment: it stays where it is, and then a healthy observation
was refused, or it takes an edge. -/
def Course (op : DeploymentOp) (d : Deployment) : Prop :=
  (Deployment.SameCourse d (op.apply d).1 ∧
    (op.observesHealthy = true → (op.apply d).2 ≠ .ok ())) ∨
  ∃ next, op.Edge d.phase next ∧ (op.apply d).2 = .ok () ∧
    Deployment.Enters d (op.apply d).1 next

theorem course_of_moveTo {op : DeploymentOp} {d e : Deployment} {next : DeploymentPhase}
    {reason : Option String} {time : DateTime} (hop : op.apply d = e.moveTo next reason time)
    (hsame : Deployment.SameCourse d e)
    (hedge : d.phase.canTransitionTo next = true → op.Edge d.phase next) : op.Course d := by
  unfold Course
  rw [hop]
  obtain ⟨err, herr, hstays, -⟩ | ⟨hallowed, hok, henters⟩ := hsame.moveTo_cases next reason time
  · exact .inl ⟨hstays, fun _ hok => by cases herr.symm.trans hok⟩
  · exact .inr ⟨next, hedge hallowed, hok, henters⟩

/-- **What an operation does**, whichever it is. -/
theorem course (op : DeploymentOp) (d : Deployment) : op.Course d := by
  cases op with
  | startBuild time =>
    refine course_of_moveTo rfl ⟨rfl, rfl, rfl⟩ fun hallowed => ?_
    cases hphase : d.phase <;> simp [hphase, DeploymentPhase.canTransitionTo] at hallowed
    exact .startBuild time
  | recordBuild build secrets time =>
    have hop : apply d (.recordBuild build secrets time) = d.recordBuild build secrets time := rfl
    unfold Deployment.recordBuild at hop
    dsimp only at hop
    split at hop
    · exact .inl ⟨by rw [hop]; exact ⟨rfl, rfl, rfl⟩, nofun⟩
    · next hbuilding =>
      have hphase : d.phase = .building := not_not.mp hbuilding
      split at hop
      · refine course_of_moveTo hop ⟨rfl, rfl, rfl⟩ fun _ => ?_
        rw [hphase]
        exact .buildFailed build secrets time
      · split at hop
        · exact .inl ⟨by rw [hop]; exact ⟨rfl, rfl, rfl⟩, nofun⟩
        · refine course_of_moveTo hop ⟨rfl, rfl, rfl⟩ fun _ => ?_
          rw [hphase]
          exact .built build secrets time
  | recordHealth health secrets time =>
    cases health with
    | starting => exact .inl ⟨⟨rfl, rfl, rfl⟩, nofun⟩
    | unknown reason => exact .inl ⟨⟨rfl, rfl, rfl⟩, nofun⟩
    | healthy =>
      refine course_of_moveTo rfl ⟨rfl, rfl, rfl⟩ fun hallowed => .observed d.phase secrets time ?_
      cases hphase : d.phase <;> simp [hphase, DeploymentPhase.canTransitionTo] at hallowed ⊢
    | unhealthy reason =>
      refine course_of_moveTo rfl ⟨rfl, rfl, rfl⟩ fun hallowed => ?_
      cases hphase : d.phase <;> simp [hphase, DeploymentPhase.canTransitionTo] at hallowed ⊢
      · exact .unready reason secrets time
      · exact .degraded reason secrets time
  | markSuperseded time =>
    refine course_of_moveTo rfl ⟨rfl, rfl, rfl⟩ fun hallowed => ?_
    cases hphase : d.phase <;> simp [hphase, DeploymentPhase.canTransitionTo] at hallowed
    exact .superseded time
  | markRolledBack reason time =>
    refine course_of_moveTo rfl ⟨rfl, rfl, rfl⟩ fun hallowed => .rolledBack d.phase reason time ?_
    cases hphase : d.phase <;> simp [hphase, DeploymentPhase.canTransitionTo] at hallowed ⊢

end DeploymentOp

/-! ## Reading a rollout after a change -/

namespace Rollout
variable {r : Rollout}

theorem get_id {id : DeploymentId} {d : Deployment} (h : r.get id = some d) : d.id = id := by
  simpa using List.find?_some h

theorem mem_of_get {id : DeploymentId} {d : Deployment} (h : r.get id = some d) :
    d ∈ r.deployments :=
  List.mem_of_find?_eq_some h

theorem get_replace (d : Deployment) (id : DeploymentId) :
    (r.replace d).get id = if id = d.id then (r.get id).map fun _ => d else r.get id := by
  unfold get replace
  split
  · next hid =>
    subst hid
    exact find?_replaceFirst (by simp) r.deployments
  · next hid =>
    refine find?_replaceFirst_of_disjoint (by simpa using Ne.symm hid) (fun e he => ?_) _
    simp only [decide_eq_true_eq] at he
    simpa [he] using Ne.symm hid

theorem get_replace_self {d d' : Deployment} (hget : r.get d.id = some d) (hid : d'.id = d.id)
    (id : DeploymentId) : (r.replace d').get id = if id = d.id then some d' else r.get id := by
  rw [get_replace, hid]
  split
  · next h => rw [h, hget, Option.map_some]
  · rfl

theorem mem_replace {d e : Deployment} (h : e ∈ (r.replace d).deployments) :
    e = d ∨ e ∈ r.deployments :=
  mem_replaceFirst h

theorem onDeployment_of_some {id : DeploymentId} {d : Deployment} (h : r.get id = some d)
    (op : DeploymentOp) :
    r.onDeployment id op = (r.replace (op.apply d).1, some (op.apply d).2) := by
  simp only [onDeployment, h]

theorem begin_cases (r : Rollout) (id : DeploymentId) (applicationId : ApplicationId)
    (environmentId : EnvironmentId) (revision : Revision) (runtime : RuntimeConfig)
    (resources : List ResourceId) (time : DateTime) :
    (∃ e, r.begin id applicationId environmentId revision runtime resources time =
      (r, .error e)) ∨
      ∃ d : Deployment, d.id = id ∧ d.phase = .pending ∧ d.image = none ∧
        d.transitions = [⟨.pending, .pending, time, none⟩] ∧
        d.rollbackTarget = r.rollbackTarget ∧
        r.begin id applicationId environmentId revision runtime resources time =
          ({ r with deployments := r.deployments ++ [d] }, .ok id) := by
  unfold begin Deployment.new
  by_cases hprofile : runtime.profile = .production
  · rw [if_neg (not_not.mpr hprofile)]
    exact .inr ⟨_, rfl, rfl, rfl, rfl, rfl, rfl⟩
  · rw [if_pos hprofile]
    exact .inl ⟨_, rfl⟩

/-! A change replaces deployments, so an id that is there stays. -/

theorem isSome_get_replace (d : Deployment) (id : DeploymentId) :
    ((r.replace d).get id).isSome = (r.get id).isSome := by
  rw [get_replace]
  split
  · rw [Option.isSome_map]
  · rfl

theorem isSome_get_onDeployment (id : DeploymentId) (op : DeploymentOp) (k : DeploymentId) :
    ((r.onDeployment id op).1.get k).isSome = (r.get k).isSome := by
  unfold onDeployment
  split
  · rfl
  · exact isSome_get_replace _ k

theorem isSome_get_restore (id : DeploymentId) (phase : DeploymentPhase) (time : DateTime)
    (k : DeploymentId) : ((r.restore id phase time).get k).isSome = (r.get k).isSome := by
  unfold restore
  split
  · rfl
  · split
    · exact isSome_get_replace _ k
    · rfl

/-! ## The operations that move traffic -/

theorem supersede_cases (r : Rollout) (previous : DeploymentId) (time : DateTime) :
    (r.supersede previous time).2 = .ok () ∧
      (((r.supersede previous time).1 = r ∧
          ∀ old, r.get previous = some old → old.phase ≠ .healthy) ∨
        (r.supersede previous time).1 = (r.onDeployment previous (.markSuperseded time)).1) := by
  unfold supersede
  cases hget : r.get previous with
  | none => exact ⟨rfl, .inl ⟨rfl, fun _ h => by cases h⟩⟩
  | some old =>
    dsimp only
    by_cases hphase : old.phase = .healthy
    · rw [if_pos hphase, onDeployment_of_some hget]
      obtain ⟨e, -, hrefused⟩ | ⟨-, hok, -⟩ :=
        old.moveTo_cases .superseded (some "newer revision promoted") time
      · rw [hphase] at hrefused
        cases hrefused
      · exact ⟨hok, .inr rfl⟩
    · rw [if_neg hphase]
      exact ⟨rfl, .inl ⟨rfl, fun _ h => by cases h; exact hphase⟩⟩

theorem retire_cases (r : Rollout) (plan : RollbackPlan) (approver : String) (time : DateTime) :
    (r.retire plan approver time).2 = .ok () ∧
      (((r.retire plan approver time).1 = r ∧
          ∀ source, r.get plan.source = some source →
            ¬ (source.phase = .healthy ∨ source.phase = .degraded)) ∨
        (r.retire plan approver time).1 = (r.onDeployment plan.source (.markRolledBack
          s!"rolled back to {plan.target} by {approver}" time)).1) := by
  unfold retire
  cases hget : r.get plan.source with
  | none => exact ⟨rfl, .inl ⟨rfl, fun _ h => by cases h⟩⟩
  | some source =>
    dsimp only
    by_cases hphase : source.phase = .healthy ∨ source.phase = .degraded
    · rw [if_pos hphase, onDeployment_of_some hget]
      obtain ⟨e, -, hrefused⟩ | ⟨-, hok, -⟩ := source.moveTo_cases .rolledBack
        (some s!"rolled back to {plan.target} by {approver}") time
      · obtain hphase | hphase := hphase <;> rw [hphase] at hrefused <;> cases hrefused
      · exact ⟨hok, .inr rfl⟩
    · rw [if_neg hphase]
      exact ⟨rfl, .inl ⟨rfl, fun _ h => by cases h; exact hphase⟩⟩

/-- `promote` is refused and changes nothing, or makes a healthy deployment current, after a
`mark_superseded` of another one that was current and healthy. -/
theorem promote_cases (r : Rollout) (id : DeploymentId) (time : DateTime) :
    (∃ e, r.promote id time = (r, .error e)) ∨
      ∃ d left, r.get id = some d ∧ d.phase = .healthy ∧
        ((left = r ∧ ∀ previous old, r.current = some previous → r.get previous = some old →
            old.phase = .healthy → previous = id) ∨
          ∃ previous, r.current = some previous ∧ previous ≠ id ∧
            left = (r.onDeployment previous (.markSuperseded time)).1) ∧
        r.promote id time = (left.repoint id, .ok ()) := by
  unfold promote
  cases hget : r.get id with
  | none => exact .inl ⟨_, rfl⟩
  | some d =>
    dsimp only
    by_cases hphase : d.phase = .healthy
    · rw [if_neg (not_not.mpr hphase)]
      refine .inr ?_
      cases hcurrent : r.current with
      | none => exact ⟨d, r, rfl, hphase, .inl ⟨rfl, fun _ _ h => by cases h⟩, rfl⟩
      | some previous =>
        dsimp only
        by_cases hsame : previous = id
        · rw [if_pos hsame]
          exact ⟨d, r, rfl, hphase, .inl ⟨rfl, fun _ _ h _ _ => by cases h; exact hsame⟩, rfl⟩
        · rw [if_neg hsame]
          obtain ⟨hok, hleft⟩ := r.supersede_cases previous time
          refine ⟨d, (r.supersede previous time).1, rfl, hphase, ?_, ?_⟩
          · refine hleft.imp (fun h => ⟨h.1, fun _ old hcurrent hold hhealthy => ?_⟩)
              fun h => ⟨previous, rfl, hsame, h⟩
            cases hcurrent
            exact absurd hhealthy (h.2 old hold)
          rw [show r.supersede previous time = ((r.supersede previous time).1, .ok ()) from
            Prod.ext rfl hok]
          rfl
    · rw [if_pos hphase]
      exact .inl ⟨_, rfl⟩

/-- An approved plan of kind deployment whose target is in a phase a rollback accepts. -/
def Accepts (r : Rollout) (plan : RollbackPlan) (approval : ExplicitApproval)
    (target : Deployment) : Prop :=
  approval.isNamedGrant = true ∧ plan.kind = .deployment ∧ r.get plan.target = some target ∧
    target.phase.isSafeTarget = true

/-- `execute_rollback` moves no traffic and changes nothing, or it restores an accepted target and
makes it current, after a `mark_rolled_back` of a source that is healthy or degraded. -/
theorem executeRollback_cases (r : Rollout) (plan : RollbackPlan) (approval : ExplicitApproval)
    (domains : List Domain) (time : DateTime) :
    ((executeRollback r plan approval domains time).1 = (r, domains) ∧
      ∀ target, ¬ r.Accepts plan approval target) ∨
      ∃ target left, r.Accepts plan approval target ∧
        ((left = r ∧ ∀ source, r.get plan.source = some source →
            ¬ (source.phase = .healthy ∨ source.phase = .degraded)) ∨ ∃ reason,
          left = (r.onDeployment plan.source (.markRolledBack reason time)).1) ∧
        executeRollback r plan approval domains time =
          (((left.restore plan.target target.phase time).repoint plan.target,
              repointDomains plan.source plan.target domains),
            .ok ⟨plan.kind, plan.source, plan.target, true, databaseDataWarning⟩) := by
  unfold executeRollback
  by_cases happroval : approval.isNamedGrant = false
  · rw [if_pos happroval]
    exact .inl ⟨rfl, fun _ h => by cases happroval.symm.trans h.1⟩
  rw [if_neg happroval]
  by_cases hkind : plan.kind = .deployment
  swap
  · rw [if_pos hkind]
    exact .inl ⟨rfl, fun _ h => hkind h.2.1⟩
  rw [if_neg (not_not.mpr hkind)]
  cases hget : r.get plan.target with
  | none => exact .inl ⟨rfl, fun _ h => by cases hget.symm.trans h.2.2.1⟩
  | some target =>
    dsimp only
    by_cases hsafe : target.phase.isSafeTarget = false
    · rw [if_pos hsafe]
      refine .inl ⟨rfl, fun found h => ?_⟩
      obtain rfl := Option.some_inj.mp (hget.symm.trans h.2.2.1)
      rw [h.2.2.2] at hsafe
      cases hsafe
    · rw [if_neg hsafe]
      obtain ⟨hok, hleft⟩ := r.retire_cases plan approval.approver time
      refine .inr ⟨target, (r.retire plan approval.approver time).1,
        ⟨by simpa using happroval, hkind, hget, by simpa using hsafe⟩,
        hleft.imp_right fun h => ⟨_, h⟩, ?_⟩
      rw [show r.retire plan approval.approver time =
        ((r.retire plan approval.approver time).1, .ok ()) from Prod.ext rfl hok]

end Rollout
end Labrys.Core
