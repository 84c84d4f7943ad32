import Labrys.Core.DeploymentRuns

/-! # The health gate over whole rollouts

The rollout graph leads to `healthy` through a healthy observation only, but `execute_rollback`
writes the phase itself. A deployment that failed before it ever was healthy can be marked rolled
back, and from there a rollback makes it healthy and current. Next to the rollout we keep the
deployments whose healthy observation was accepted; the gate holds along a history exactly if no
rollback restores a deployment that was rolled back out of `failed`. -/

namespace Labrys.Core
open Foundations
set_option autoImplicit false

structure GatedRollout where
  rollout : Rollout
  gated : List DeploymentId

def acceptedHealthy : RolloutOp → RolloutAnswer → Option DeploymentId
  | .onDeployment id op, .operated (some (.ok _)) => if op.observesHealthy then some id else none
  | _, _ => none

theorem mem_acceptedHealthy (id k : DeploymentId) (op : DeploymentOp)
    (outcome : Except CoreError Unit) :
    k ∈ (acceptedHealthy (.onDeployment id op) (.operated (some outcome))).toList ↔
      k = id ∧ op.observesHealthy = true ∧ outcome = .ok () := by
  cases outcome with
  | error e => simp [acceptedHealthy]
  | ok u =>
    cases hop : op.observesHealthy <;> simp [acceptedHealthy, hop]

def gatedRollout : Machine GatedRollout RolloutOp RolloutAnswer where
  step := fun s op =>
    (⟨rollout.next s.rollout op,
        (acceptedHealthy op (rollout.answer s.rollout op)).toList ++ s.gated⟩,
      rollout.answer s.rollout op)

/-- The gate: what is healthy or current has had a healthy observation accepted. -/
def GatedRollout.Gate (s : GatedRollout) : Prop :=
  ∀ d ∈ s.rollout.deployments, d.phase = .healthy ∨ s.rollout.current = some d.id →
    d.id ∈ s.gated

namespace Deployment

/-- Rolled back out of `failed`. -/
def failedBefore (d : Deployment) : Bool :=
  d.phase = .rolledBack && d.lastTransition.source = .failed

/-- What the lifecycle says about the gate: healthy, or left from there. -/
def passedGate (d : Deployment) : Bool :=
  match d.phase with
  | .healthy | .degraded | .superseded => true
  | .rolledBack => d.lastTransition.source ≠ .failed
  | _ => false

theorem SameCourse.passedGate {d d' : Deployment} (h : SameCourse d d') :
    d'.passedGate = d.passedGate := by
  simp only [Deployment.passedGate, h.phase, h.lastTransition]

theorem passedGate_of_isSafeTarget {d : Deployment} (h : d.phase.isSafeTarget = true) :
    d.passedGate = !d.failedBefore := by
  unfold Deployment.passedGate failedBefore
  cases hphase : d.phase <;> simp [hphase, DeploymentPhase.isSafeTarget] at h ⊢

end Deployment

/-! ## One operation on one deployment -/

/-- An operation on a deployment whose evidence ends in its phase: the evidence still does, and
the deployment has passed the gate exactly if it had before or the operation is an accepted healthy
observation. -/
theorem DeploymentOp.passedGate_apply (op : DeploymentOp) (d : Deployment)
    (hlast : d.lastTransition.target = d.phase) :
    (op.apply d).1.id = d.id ∧
      (op.apply d).1.lastTransition.target = (op.apply d).1.phase ∧
      ((op.apply d).1.passedGate = true ↔ d.passedGate = true ∨
        (op.observesHealthy = true ∧ (op.apply d).2 = .ok ())) := by
  obtain ⟨hsame, hrefused⟩ | ⟨next, hedge, hok, henters⟩ := op.course d
  · refine ⟨hsame.id, by rw [hsame.lastTransition, hsame.phase, hlast], ?_⟩
    rw [hsame.passedGate, iff_self_or]
    exact fun haccepted => absurd haccepted.2 (hrefused haccepted.1)
  · refine ⟨henters.id, by rw [henters.lastTransition.2, henters.phase], ?_⟩
    rw [hok]
    have hsource := henters.lastTransition.1.trans hlast
    unfold Deployment.passedGate
    rw [henters.phase, hsource]
    generalize d.phase = phase at hedge ⊢
    cases hedge with
    | rolledBack phase reason time h => obtain rfl | rfl | rfl | rfl := h <;> simp [observesHealthy]
    | observed phase secrets time h => simp [observesHealthy]
    | _ => simp [observesHealthy]

/-! ## The invariant -/

namespace GatedRollout

/-- The record of accepted observations agrees with the lifecycle: `members` and `exact` say so in
both directions, the second for the deployment an id finds. -/
structure Inv (s : GatedRollout) : Prop where
  last : ∀ d ∈ s.rollout.deployments, d.lastTransition.target = d.phase
  members : ∀ d ∈ s.rollout.deployments, d.passedGate = true → d.id ∈ s.gated
  exact : ∀ id d, s.rollout.get id = some d → id ∈ s.gated → d.passedGate = true
  known : ∀ id ∈ s.gated, s.rollout.get id ≠ none
  current : ∀ id, s.rollout.current = some id → id ∈ s.gated

variable {s : GatedRollout}

theorem Inv.gate (h : s.Inv) : s.Gate := by
  rintro d hd (hhealthy | hcurrent)
  · exact h.members d hd (by simp [Deployment.passedGate, hhealthy])
  · exact h.current d.id hcurrent

theorem Inv.passedGate_iff (h : s.Inv) {id : DeploymentId} {d : Deployment}
    (hget : s.rollout.get id = some d) : d.passedGate = true ↔ id ∈ s.gated := by
  refine ⟨fun hpassed => ?_, h.exact id d hget⟩
  rw [← Rollout.get_id hget]
  exact h.members d (Rollout.mem_of_get hget) hpassed

/-- One deployment changes, keeps having passed the gate, and is recorded when it now has. -/
theorem Inv.replace (h : s.Inv) {d d' : Deployment} (hget : s.rollout.get d.id = some d)
    (hid : d'.id = d.id) (hlast : d'.lastTransition.target = d'.phase)
    (hkeep : d.passedGate = true → d'.passedGate = true) {gated : List DeploymentId}
    (hgated : ∀ id, id ∈ gated ↔ id ∈ s.gated ∨ (id = d.id ∧ d'.passedGate = true)) :
    Inv ⟨s.rollout.replace d', gated⟩ where
  last := fun e he => by
    obtain rfl | he := Rollout.mem_replace he
    · exact hlast
    · exact h.last e he
  members := fun e he hpassed => by
    rw [hgated]
    obtain rfl | he := Rollout.mem_replace he
    · exact .inr ⟨hid, hpassed⟩
    · exact .inl (h.members e he hpassed)
  exact := fun id e hfound hmem => by
    dsimp only at hfound
    rw [Rollout.get_replace_self hget hid] at hfound
    obtain hmem | ⟨rfl, hpassed⟩ := (hgated id).mp hmem
    · split at hfound
      · next heq =>
        cases hfound
        exact hkeep (h.exact d.id d hget (heq ▸ hmem))
      · exact h.exact id e hfound hmem
    · rw [if_pos rfl] at hfound
      cases hfound
      exact hpassed
  known := fun id hmem => by
    dsimp only
    rw [Rollout.get_replace_self hget hid]
    obtain hmem | ⟨rfl, -⟩ := (hgated id).mp hmem
    · split
      · exact Option.some_ne_none d'
      · exact h.known id hmem
    · rw [if_pos rfl]
      exact Option.some_ne_none d'
  current := fun id hcurrent => (hgated id).mpr (.inl (h.current id hcurrent))

/-- An operation on one deployment, with its observation recorded when it is accepted. -/
theorem Inv.onDeployment (h : s.Inv) (id : DeploymentId) (op : DeploymentOp) :
    Inv ⟨(s.rollout.onDeployment id op).1,
      (acceptedHealthy (.onDeployment id op)
        (.operated (s.rollout.onDeployment id op).2)).toList ++ s.gated⟩ := by
  cases hget : s.rollout.get id with
  | none =>
    simp only [Rollout.onDeployment, hget]
    exact h
  | some d =>
    obtain rfl := Rollout.get_id hget
    obtain ⟨hid, hlast, hpassed⟩ := op.passedGate_apply d (h.last d (Rollout.mem_of_get hget))
    rw [Rollout.onDeployment_of_some hget]
    refine h.replace hget hid hlast (fun hd => hpassed.mpr (.inl hd)) fun id => ?_
    rw [List.mem_append, mem_acceptedHealthy, hpassed, h.passedGate_iff hget]
    constructor
    · rintro (⟨rfl, hobserved⟩ | hmem)
      · exact .inr ⟨rfl, .inr hobserved⟩
      · exact .inl hmem
    · rintro (hmem | ⟨rfl, hmem | hobserved⟩)
      · exact .inr hmem
      · exact .inr hmem
      · exact .inl ⟨rfl, hobserved⟩

theorem Inv.onDeployment_unrecorded (h : s.Inv) (id : DeploymentId) {op : DeploymentOp}
    (hop : op.observesHealthy = false) : Inv ⟨(s.rollout.onDeployment id op).1, s.gated⟩ := by
  have hnone : acceptedHealthy (.onDeployment id op)
      (.operated (s.rollout.onDeployment id op).2) = none := by
    unfold acceptedHealthy
    split
    · next heq _ =>
      cases heq
      simp [hop]
    · rfl
  have hop := h.onDeployment id op
  rw [hnone] at hop
  exact hop

theorem Inv.repoint (h : s.Inv) {id : DeploymentId} (hid : id ∈ s.gated) :
    Inv ⟨s.rollout.repoint id, s.gated⟩ where
  last := h.last
  members := h.members
  exact := h.exact
  known := h.known
  current := fun k hk => by
    cases hk
    exact hid

theorem Inv.restore (h : s.Inv) {id : DeploymentId} (hid : id ∈ s.gated) (phase : DeploymentPhase)
    (time : DateTime) : Inv ⟨s.rollout.restore id phase time, s.gated⟩ := by
  unfold Rollout.restore
  split
  · exact h
  · next target hget =>
    obtain rfl := Rollout.get_id hget
    split
    · refine h.replace hget (target.id_entered phase .healthy _ time) (by simp) (fun _ => rfl)
        fun k => ⟨.inl, ?_⟩
      rintro (hk | ⟨rfl, -⟩)
      · exact hk
      · exact hid
    · exact h

theorem Inv.begin (h : s.Inv) (id : DeploymentId) (applicationId : ApplicationId)
    (environmentId : EnvironmentId) (revision : Revision) (runtime : RuntimeConfig)
    (resources : List ResourceId) (time : DateTime) :
    Inv ⟨(s.rollout.begin id applicationId environmentId revision runtime resources time).1,
      s.gated⟩ := by
  obtain ⟨e, heq⟩ | ⟨d, hid, hphase, -, htransitions, -, heq⟩ :=
    s.rollout.begin_cases id applicationId environmentId revision runtime resources time
  · rw [heq]
    exact h
  · have hpassed : d.passedGate = false := by simp [Deployment.passedGate, hphase]
    have hlast : d.lastTransition.target = d.phase := by
      simp [Deployment.lastTransition, htransitions, hphase]
    -- A new deployment under an id that is taken stays behind the one that has it.
    have hget : ∀ k old, s.rollout.get k = some old →
        (⟨s.rollout.deployments ++ [d], s.rollout.current⟩ : Rollout).get k = some old := by
      intro k old hold
      rw [Rollout.get, List.find?_append, show List.find? _ s.rollout.deployments = _ from hold]
      rfl
    rw [heq]
    refine ⟨fun e he => ?_, fun e he hgate => ?_, fun k e hfound hmem => ?_, fun k hmem => ?_,
      h.current⟩
    · obtain he | rfl := List.mem_append.mp he |>.imp_right List.mem_singleton.mp
      · exact h.last e he
      · exact hlast
    · obtain he | rfl := List.mem_append.mp he |>.imp_right List.mem_singleton.mp
      · exact h.members e he hgate
      · rw [hpassed] at hgate
        cases hgate
    · obtain ⟨old, hold⟩ := Option.ne_none_iff_exists'.mp (h.known k hmem)
      cases (hget k old hold).symm.trans hfound
      exact h.exact k _ hold hmem
    · obtain ⟨old, hold⟩ := Option.ne_none_iff_exists'.mp (h.known k hmem)
      rw [hget k old hold]
      exact Option.some_ne_none old

/-! ## One operation on the rollout -/

/-- A rollback that is carried out does not restore a deployment that failed before. -/
def RestoresGated (s : GatedRollout) : RolloutOp → Prop
  | .executeRollback plan approval _ _ =>
      ∀ target, s.rollout.Accepts plan approval target → target.failedBefore = false
  | _ => True

theorem Inv.next (h : s.Inv) (op : RolloutOp) (hop : s.RestoresGated op) :
    (gatedRollout.next s op).Inv := by
  cases op with
  | begin id applicationId environmentId revision runtime resources time =>
    exact h.begin id applicationId environmentId revision runtime resources time
  | onDeployment id op => exact h.onDeployment id op
  | promote id time =>
    change Inv ⟨(s.rollout.promote id time).1, s.gated⟩
    obtain ⟨e, heq⟩ | ⟨d, left, hget, hhealthy, hleft, heq⟩ := s.rollout.promote_cases id time
    · rw [heq]
      exact h
    · have hid : id ∈ s.gated :=
        (h.passedGate_iff hget).mp (by simp [Deployment.passedGate, hhealthy])
      have hleft : Inv ⟨left, s.gated⟩ := by
        obtain ⟨hleft, -⟩ | ⟨previous, -, -, hleft⟩ := hleft
        · exact hleft ▸ h
        · exact hleft ▸ h.onDeployment_unrecorded previous rfl
      rw [heq]
      exact hleft.repoint hid
  | executeRollback plan approval domains time =>
    change Inv ⟨(executeRollback s.rollout plan approval domains time).1.1, s.gated⟩
    obtain ⟨heq, -⟩ | ⟨target, left, haccepts, hleft, heq⟩ :=
      s.rollout.executeRollback_cases plan approval domains time
    · rw [heq]
      exact h
    · have htarget : plan.target ∈ s.gated := by
        rw [← h.passedGate_iff haccepts.2.2.1,
          Deployment.passedGate_of_isSafeTarget haccepts.2.2.2, hop target haccepts]
        rfl
      have hleft : Inv ⟨left, s.gated⟩ := by
        obtain ⟨hleft, -⟩ | ⟨reason, hleft⟩ := hleft
        · exact hleft ▸ h
        · exact hleft ▸ h.onDeployment_unrecorded plan.source rfl
      rw [heq]
      exact (hleft.restore htarget target.phase time).repoint htarget

/-- A rollback after which the gate holds did not restore a deployment that failed before. -/
theorem Inv.restoresGated (h : s.Inv) (op : RolloutOp) (hnext : (gatedRollout.next s op).Gate) :
    s.RestoresGated op := by
  cases op with
  | executeRollback plan approval domains time =>
    intro target haccepts
    obtain ⟨-, hnone⟩ | ⟨found, left, -, hleft, heq⟩ :=
      s.rollout.executeRollback_cases plan approval domains time
    · exact absurd haccepts (hnone target)
    have hrollout : (gatedRollout.next s (.executeRollback plan approval domains time)).rollout =
        (left.restore plan.target found.phase time).repoint plan.target :=
      congrArg (fun result => result.1.1) heq
    have hsome : ((left.restore plan.target found.phase time).get plan.target).isSome := by
      rw [Rollout.isSome_get_restore]
      obtain ⟨rfl, -⟩ | ⟨reason, rfl⟩ := hleft
      · rw [haccepts.2.2.1]
        rfl
      · rw [Rollout.isSome_get_onDeployment, haccepts.2.2.1]
        rfl
    obtain ⟨restored, hrestored⟩ := Option.isSome_iff_exists.mp hsome
    have hid : restored.id = plan.target := Rollout.get_id hrestored
    have hgated : plan.target ∈ s.gated := by
      rw [← hid]
      refine hnext restored ?_ (.inr ?_)
      · rw [hrollout]
        exact Rollout.mem_of_get hrestored
      · rw [hrollout, hid]
        rfl
    have hpassed := h.exact plan.target target haccepts.2.2.1 hgated
    rw [Deployment.passedGate_of_isSafeTarget haccepts.2.2.2] at hpassed
    simpa using hpassed
  | _ => trivial

theorem inv_new : Inv ⟨.new, []⟩ where
  last := fun _ hd => by cases hd
  members := fun _ hd => by cases hd
  exact := fun _ _ _ hmem => by cases hmem
  known := fun _ hmem => by cases hmem
  current := fun _ hcurrent => by cases hcurrent

end GatedRollout

/-! ## Whole histories -/

/-- **The health gate.** Along a history of a rollout, what is healthy or current has had a healthy
observation accepted in every state exactly if no rollback restores a deployment that was rolled
back out of `failed`. -/
theorem healthGate_history (ops : List RolloutOp) :
    (∀ n, (gatedRollout.run ⟨.new, []⟩ (ops.take n)).Gate) ↔
      gatedRollout.Guarded GatedRollout.RestoresGated ⟨.new, []⟩ ops :=
  gatedRollout.forall_run_take_iff_guarded (fun _ h => h.gate)
    (fun _ op h _ hop => h.next op hop) (fun _ op h _ hnext => h.restoresGated op hnext)
    ⟨.new, []⟩ ops GatedRollout.inv_new (gatedRollout.guarded_true _ ops)

/-- A deployment that fails its readiness check and is marked rolled back, and a second one. -/
def failedThenRolledBack : List RolloutOp :=
  let revision := Revision.new "4f2a" "c0" none
  let runtime : RuntimeConfig := ⟨.node, .production, some "registry.local/app"⟩
  [.begin ⟨1⟩ ⟨1⟩ ⟨1⟩ revision runtime [] 0, .onDeployment ⟨1⟩ (.startBuild 1),
    .onDeployment ⟨1⟩ (.recordBuild (.succeeded "built") [] 2),
    .onDeployment ⟨1⟩ (.recordHealth (.unhealthy "crash loop") [] 3),
    .onDeployment ⟨1⟩ (.markRolledBack "abandoned" 4),
    .begin ⟨2⟩ ⟨1⟩ ⟨1⟩ revision runtime [] 5]

/-- The rollback from the second deployment selects the first and plans for it, and the approved
plan makes it healthy and current, without a single healthy observation. -/
theorem rollback_restores_failed :
    let s := gatedRollout.run ⟨.new, []⟩ failedThenRolledBack
    let plan : RollbackPlan := ⟨.deployment, ⟨2⟩, ⟨1⟩, [databaseDataWarning], false, true⟩
    let s' := gatedRollout.next s (.executeRollback plan (.granted "ops" "roll back") [] 6)
    selectRollbackTarget s.rollout ⟨2⟩ = some ⟨1⟩ ∧
      (s.rollout.get ⟨2⟩).bind (fun source => (s.rollout.get ⟨1⟩).bind fun target =>
        (planRollback .deployment source target).toOption) = some plan ∧
      (s'.rollout.get ⟨1⟩).map (·.phase) = some .healthy ∧ s'.rollout.current = some ⟨1⟩ ∧
      ¬ s'.Gate := by
  refine ⟨by decide +kernel, by decide +kernel, by decide +kernel, by decide +kernel, ?_⟩
  intro hgate
  have hunobserved : (gatedRollout.next (gatedRollout.run ⟨.new, []⟩ failedThenRolledBack)
      (.executeRollback ⟨.deployment, ⟨2⟩, ⟨1⟩, [databaseDataWarning], false, true⟩
        (.granted "ops" "roll back") [] 6)).rollout.deployments.all
        (fun d => d.phase ≠ .healthy) = true := by
    rw [List.all_eq_true]
    intro d hd
    simp only [ne_eq, decide_not, Bool.not_eq_true', decide_eq_false_iff_not]
    intro hhealthy
    have hmem := hgate d hd (.inl hhealthy)
    cases hmem
  revert hunobserved
  decide +kernel

end Labrys.Core
