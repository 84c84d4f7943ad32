import Labrys.Core.DeploymentHistory
import Labrys.Foundations.Trail

/-! # The evidence a deployment keeps

`move_to` appends to the evidence what it does to the phase; `execute_rollback` writes both itself,
from the phase it read when it checked its target. They agree as long as a rollback has a target
other than its source, which `plan_rollback` sees to. It also checks that the target has an image,
and an image is never taken away, so it is still there when the plan is executed, however much
later. Rollouts are run here with the plans made for them. -/

namespace Labrys.Core
open Foundations
set_option autoImplicit false

/-! ## Rollouts with their plans -/

def RolloutOp.plan : RolloutOp → Option RollbackPlan
  | .executeRollback plan _ _ _ => some plan
  | _ => none

/-- A rollout and the plans that `plan_rollback` has made from its deployments. -/
structure PlannedRollout where
  rollout : Rollout
  plans : List RollbackPlan

/-- A rollback is planned between two deployments of the rollout, and executed from the plans made
so far. -/
inductive PlannedOp
  | operate (op : RolloutOp) (h : op.plan = none)
  | plan (kind : RollbackKind) (source target : DeploymentId)
  | execute (index : ℕ) (approval : ExplicitApproval) (domains : List Domain) (time : DateTime)

inductive PlannedAnswer
  | stepped (answer : RolloutAnswer)
  | planned (outcome : Option (Except CoreError RollbackPlan))
  | noPlan

namespace PlannedRollout
variable (s : PlannedRollout)

def planned (kind : RollbackKind) (source target : DeploymentId) :
    Option (Except CoreError RollbackPlan) :=
  (s.rollout.get source).bind fun source =>
    (s.rollout.get target).map fun target => planRollback kind source target

def apply (op : RolloutOp) : PlannedRollout × PlannedAnswer :=
  (⟨Core.rollout.next s.rollout op, s.plans⟩, .stepped (Core.rollout.answer s.rollout op))

def step : PlannedOp → PlannedRollout × PlannedAnswer
  | .operate op _ => s.apply op
  | .plan kind source target =>
      (⟨s.rollout, s.plans ++ ((s.planned kind source target).bind (·.toOption)).toList⟩,
        .planned (s.planned kind source target))
  | .execute index approval domains time =>
      match s.plans[index]? with
      | none => (s, .noPlan)
      | some plan => s.apply (.executeRollback plan approval domains time)

end PlannedRollout

def plannedRollout : Machine PlannedRollout PlannedOp PlannedAnswer := ⟨PlannedRollout.step⟩

theorem planRollback_ok {kind : RollbackKind} {source target : Deployment} {plan : RollbackPlan}
    (h : planRollback kind source target = .ok plan) :
    plan.kind = kind ∧ plan.source = source.id ∧ plan.target = target.id ∧
      source.id ≠ target.id ∧ target.image ≠ none := by
  unfold planRollback at h
  split at h
  · cases h
  · next hne =>
    split at h
    · cases h
    · next himage =>
      cases h
      exact ⟨rfl, rfl, rfl, hne, himage⟩

/-- **What a step does**: an operation of the rollout that executes none but the plans that were
made, or another plan. -/
theorem PlannedRollout.next_cases (s : PlannedRollout) (op : PlannedOp) :
    (∃ o : RolloutOp, (∀ plan, o.plan = some plan → plan ∈ s.plans) ∧
      plannedRollout.next s op = ⟨Core.rollout.next s.rollout o, s.plans⟩) ∨
    (∃ kind source target plan, s.rollout.get source.id = some source ∧
      s.rollout.get target.id = some target ∧ planRollback kind source target = .ok plan ∧
      plannedRollout.next s op = ⟨s.rollout, s.plans ++ [plan]⟩) ∨
    plannedRollout.next s op = s := by
  cases op with
  | operate op hplan =>
    refine .inl ⟨op, fun plan h => ?_, rfl⟩
    cases hplan.symm.trans h
  | plan kind source target =>
    refine .inr ?_
    have hnext : plannedRollout.next s (.plan kind source target) =
        ⟨s.rollout, s.plans ++ ((s.planned kind source target).bind (·.toOption)).toList⟩ := rfl
    rw [hnext]
    cases hsource : s.rollout.get source with
    | none => exact .inr (by simp [planned, hsource])
    | some a =>
      cases htarget : s.rollout.get target with
      | none => exact .inr (by simp [planned, hsource, htarget])
      | some b =>
        cases hplan : planRollback kind a b with
        | error e => exact .inr (by simp [planned, hsource, htarget, hplan, Except.toOption])
        | ok plan =>
          refine .inl ⟨kind, a, b, plan, ?_, ?_, hplan, ?_⟩
          · rw [Rollout.get_id hsource, hsource]
          · rw [Rollout.get_id htarget, htarget]
          · simp [planned, hsource, htarget, hplan, Except.toOption]
  | execute index approval domains time =>
    have hnext : plannedRollout.next s (.execute index approval domains time) =
        (s.step (.execute index approval domains time)).1 := rfl
    rw [hnext, step]
    cases hplan : s.plans[index]? with
    | none => exact .inr (.inr rfl)
    | some plan =>
      refine .inl ⟨.executeRollback plan approval domains time, fun other h => ?_, rfl⟩
      cases h
      exact List.mem_of_getElem? hplan

/-! ## What the evidence says -/

/-- An edge of the graph, or the one a rollback restores its target along. -/
def DeploymentTransition.Legal (t : DeploymentTransition) : Prop :=
  t.source.canTransitionTo t.target = true ∨
    ((t.source = .superseded ∨ t.source = .rolledBack) ∧ t.target = .healthy ∧
      t.reason = some "restored by rollback")

def DeploymentPhase.isBuilt : DeploymentPhase → Bool
  | deploying | healthy | degraded | superseded => true
  | _ => false

namespace Deployment

/-- The evidence of a deployment: how it got where it is, and the artifact it serves from. -/
structure Evident (d : Deployment) : Prop where
  trail : Trail (·.source) (·.target) DeploymentTransition.Legal d.transitions d.phase
  artifact : d.phase.isBuilt = true →
    ∃ image, d.image = some image ∧ image.revisionSha = d.revision.sourceSha

theorem Pristine.evident {d : Deployment} (h : d.Pristine) : d.Evident where
  trail := by
    obtain ⟨time, htransitions⟩ := h.transitions
    rw [htransitions, h.phase]
    exact Trail.singleton _ _ _ (⟨.pending, .pending, time, none⟩ : DeploymentTransition)
  artifact := fun hbuilt => by
    rw [h.phase] at hbuilt
    cases hbuilt

theorem Evident.target_lastTransition {d : Deployment} (h : d.Evident) :
    d.lastTransition.target = d.phase :=
  h.trail.target_getLast d.evidence

end Deployment

theorem DeploymentOp.Edge.canTransitionTo {op : DeploymentOp} {source next : DeploymentPhase}
    (h : op.Edge source next) : source.canTransitionTo next = true := by
  cases h with
  | observed phase secrets time h => obtain rfl | rfl := h <;> rfl
  | rolledBack phase reason time h => obtain rfl | rfl | rfl | rfl := h <;> rfl
  | _ => rfl

/-- A built phase other than `deploying` is entered from a built phase. -/
theorem DeploymentOp.Edge.isBuilt {op : DeploymentOp} {source next : DeploymentPhase}
    (h : op.Edge source next) (hnext : next.isBuilt = true) :
    source.isBuilt = true ∨ next = .deploying := by
  cases h with
  | observed phase secrets time h => obtain rfl | rfl := h <;> simp [DeploymentPhase.isBuilt]
  | _ => simp [DeploymentPhase.isBuilt] at hnext ⊢

namespace Deployment
variable {d : Deployment}

theorem Evident.apply (h : d.Evident) (op : DeploymentOp) : (op.apply d).1.Evident where
  trail := by
    obtain ⟨hsame, -⟩ | ⟨next, hedge, -, henters⟩ := op.course d
    · rw [hsame.transitions, hsame.phase]
      exact h.trail
    · obtain ⟨time, reason, htransitions⟩ := henters.transitions
      rw [htransitions, henters.phase]
      refine h.trail.append (t := ⟨d.lastTransition.target, next, time, reason⟩)
        h.target_lastTransition (.inl ?_)
      rw [h.target_lastTransition]
      exact hedge.canTransitionTo
  artifact := fun hbuilt => by
    obtain ⟨hrevision, ⟨himage, hdeploying⟩ | ⟨-, minted⟩⟩ := op.artifact d
    · rw [himage, hrevision]
      refine h.artifact ?_
      obtain ⟨hsame, -⟩ | ⟨next, hedge, -, henters⟩ := op.course d
      · rwa [hsame.phase] at hbuilt
      · rw [henters.phase] at hbuilt hdeploying
        obtain hbefore | rfl := hedge.isBuilt hbuilt
        · exact hbefore
        · rw [hdeploying rfl]
          rfl
    · rw [hrevision]
      exact minted

/-- A superseded or rolled back deployment with an image, restored. -/
theorem Evident.restored (h : d.Evident) (hstamped : d.Stamped) (himage : d.image ≠ none)
    (hsafe : d.phase.isSafeTarget = true) (hphase : d.phase ≠ .healthy) (time : DateTime) :
    (d.entered d.phase .healthy (some "restored by rollback") time).Evident where
  trail := by
    refine h.trail.append (t := ⟨d.phase, .healthy, time, some "restored by rollback"⟩) rfl
      (.inr ⟨?_, rfl, rfl⟩)
    cases hd : d.phase <;> simp [hd, DeploymentPhase.isSafeTarget] at hsafe hphase ⊢
  artifact := fun _ => by
    obtain ⟨image, hsome⟩ := Option.ne_none_iff_exists'.mp himage
    exact ⟨image, hsome, (hstamped image hsome).1⟩

end Deployment

/-! ## Plans stay executable -/

/-- The deployment of this id has an image. -/
def Rollout.HasImage (r : Rollout) (id : DeploymentId) : Prop :=
  ∃ d, r.get id = some d ∧ d.image ≠ none

/-- An image is never taken away. -/
theorem Rollout.HasImage.next {r : Rollout} {id : DeploymentId} (h : r.HasImage id)
    (op : RolloutOp) : (rollout.next r op).HasImage id := by
  refine next_of_moves r op (I := fun r => r.HasImage id) ?_ ?_ ?_ (fun _ _ h _ => h) h
  · rintro r e ⟨d, hget, himage⟩ -
    exact ⟨d, get_append_of_some hget e, himage⟩
  · rintro r k op ⟨d, hget, himage⟩
    by_cases hk : id = k
    · subst hk
      refine ⟨(op.apply d).1, by rw [get_onDeployment hget, if_pos rfl], ?_⟩
      obtain ⟨-, ⟨hsame, -⟩ | ⟨-, image, hminted, -⟩⟩ := op.artifact d
      · rwa [hsame]
      · rw [hminted]
        exact Option.some_ne_none image
    · exact ⟨d, by rw [get_onDeployment_of_ne hk, hget], himage⟩
  · rintro plan - - time target left - - - ⟨d, hget, himage⟩
    by_cases hk : id = plan.target
    · subst hk
      obtain ⟨restored, hrestored, -, hsame⟩ := get_restore_self hget target.phase time
      exact ⟨restored, hrestored, hsame ▸ himage⟩
    · exact ⟨d, by rw [get_restore_of_ne hk, hget], himage⟩

namespace PlannedRollout

/-- Plans go between two deployments and their targets have images; every deployment is evident. -/
structure Inv (s : PlannedRollout) : Prop where
  orderly : s.rollout.Orderly
  plans : ∀ plan ∈ s.plans, plan.source ≠ plan.target ∧ s.rollout.HasImage plan.target
  evident : ∀ d ∈ s.rollout.deployments, d.Evident

variable {s : PlannedRollout}

theorem inv_new : Inv ⟨.new, []⟩ where
  orderly := Rollout.orderly_new
  plans := fun _ h => by cases h
  evident := fun _ h => by cases h

theorem Inv.evident_next (h : s.Inv) (op : RolloutOp)
    (hop : ∀ plan, op.plan = some plan → plan ∈ s.plans) :
    ∀ d ∈ (Core.rollout.next s.rollout op).deployments, d.Evident := by
  refine Rollout.next_of_moves s.rollout op (I := fun r => ∀ d ∈ r.deployments, d.Evident)
    ?_ ?_ ?_ (fun _ _ h _ => h) h.evident
  · intro r d hr hd e he
    obtain he | he := List.mem_append.mp he
    · exact hr e he
    · rw [List.mem_singleton.mp he]
      exact hd.evident
  · intro r id op hr e he
    unfold Rollout.onDeployment at he
    split at he
    · exact hr e he
    · next d hget =>
      obtain rfl | he := Rollout.mem_replace he
      · exact (hr d (Rollout.mem_of_get hget)).apply op
      · exact hr e he
  · rintro plan approval domains time target left rfl haccepts htarget hleft
    obtain ⟨hne, planned, hplanned, himage⟩ := h.plans plan (hop plan rfl)
    obtain rfl := Option.some_inj.mp (hplanned.symm.trans haccepts.2.2.1)
    have hget := htarget hne
    intro e he
    simp only [Rollout.restore, hget] at he
    split at he
    · next hphase =>
      obtain rfl | he := Rollout.mem_replace he
      · exact (hleft planned (Rollout.mem_of_get hget)).restored
          (h.orderly.stamped planned (Rollout.mem_of_get hplanned)) himage haccepts.2.2.2 hphase time
      · exact hleft e he
    · exact hleft e he

theorem Inv.next (h : s.Inv) (op : PlannedOp) : (plannedRollout.next s op).Inv := by
  obtain ⟨o, ho, heq⟩ | ⟨kind, source, target, plan, -, htarget, hplan, heq⟩ | heq :=
    s.next_cases op
  · rw [heq]
    exact ⟨h.orderly.next o,
      fun plan hplan => ⟨(h.plans plan hplan).1, (h.plans plan hplan).2.next o⟩,
      h.evident_next o ho⟩
  · rw [heq]
    refine ⟨h.orderly, fun other hother => ?_, h.evident⟩
    obtain hother | hother := List.mem_append.mp hother
    · exact h.plans other hother
    · obtain ⟨-, hsource, htarget', hne, himage⟩ := planRollback_ok hplan
      rw [List.mem_singleton.mp hother, hsource, htarget']
      exact ⟨hne, target, htarget, himage⟩
  · rw [heq]
    exact h

theorem inv_run (ops : List PlannedOp) : (plannedRollout.run ⟨.new, []⟩ ops).Inv :=
  plannedRollout.run_invariant_all (fun _ op h => h.next op) ⟨.new, []⟩ ops inv_new

end PlannedRollout

/-- **Deployment evidence.** In every history of a rollout that executes the plans made from its
deployments, the transitions of each deployment lead to its phase, edge by legal edge, and what is
deploying, healthy, degraded or superseded has an image of its own revision. -/
theorem evident_history (ops : List PlannedOp) :
    ∀ d ∈ (plannedRollout.run ⟨.new, []⟩ ops).rollout.deployments,
      d.transitions ≠ [] ∧ d.Evident :=
  fun d hd => ⟨d.evidence, (PlannedRollout.inv_run ops).evident d hd⟩

/-- One deployment from its birth to its first health observation. -/
def comesUpHealthy : List PlannedOp :=
  let revision := Revision.new "4f2a" "c0" none
  let runtime : RuntimeConfig := ⟨.node, .production, some "registry.local/app"⟩
  [.operate (.begin ⟨1⟩ ⟨1⟩ ⟨1⟩ revision runtime [] 0) rfl,
    .operate (.onDeployment ⟨1⟩ (.startBuild 1)) rfl,
    .operate (.onDeployment ⟨1⟩ (.recordBuild (.succeeded "built") [] 2)) rfl,
    .operate (.onDeployment ⟨1⟩ (.recordHealth .healthy [] 3)) rfl]

theorem evident_history_healthy :
    ∃ d ∈ (plannedRollout.run ⟨.new, []⟩ comesUpHealthy).rollout.deployments,
      d.phase = .healthy ∧ d.transitions ≠ [] ∧ d.Evident := by
  have hhealthy : ∃ d ∈ (plannedRollout.run ⟨.new, []⟩ comesUpHealthy).rollout.deployments,
      d.phase = .healthy := by decide +kernel
  obtain ⟨d, hd, hphase⟩ := hhealthy
  exact ⟨d, hd, hphase, evident_history comesUpHealthy d hd⟩

end Labrys.Core
