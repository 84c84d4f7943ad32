import Labrys.Core.DeploymentRuns

/-! # What every history of a rollout keeps

A rollout changes in four ways only: a deployment is appended, one is operated on, one is restored,
and the current one is chosen among those that are there (`Rollout.next_of_moves`). Ids are drawn
outside of the model, so two deployments may share one; `get` then finds the older, and the younger
stays as it was appended. That, and where images come from, is `Rollout.Orderly`. -/

namespace Labrys.Core
open Foundations
set_option autoImplicit false

/-! ## Images -/

namespace Deployment

/-- As `begin` appends it. -/
structure Pristine (d : Deployment) : Prop where
  phase : d.phase = .pending
  image : d.image = none
  transitions : ∃ time, d.transitions = [⟨.pending, .pending, time, none⟩]

/-- An image is of the deployment's own revision, and there is none before the build. -/
def Stamped (d : Deployment) : Prop :=
  ∀ image, d.image = some image → image.revisionSha = d.revision.sourceSha ∧
    d.phase ≠ .pending ∧ d.phase ≠ .building

theorem moveTo_artifact (d : Deployment) (next : DeploymentPhase) (reason : Option String)
    (time : DateTime) :
    (d.moveTo next reason time).1.image = d.image ∧
      (d.moveTo next reason time).1.revision = d.revision := by
  unfold moveTo
  split
  · exact ⟨rfl, rfl⟩
  · split
    · exact ⟨rfl, rfl⟩
    · exact ⟨rfl, rfl⟩

theorem Pristine.stamped {d : Deployment} (h : d.Pristine) : d.Stamped := by
  intro image himage
  rw [h.image] at himage
  cases himage

end Deployment

theorem revisionSha_of_buildImage {config : RuntimeConfig} {build : BuildResult}
    {revision : Revision} {secrets : List String} {image : Image}
    (h : buildImage config build revision secrets = .ok image) :
    image.revisionSha = revision.sourceSha := by
  unfold buildImage at h
  split at h
  · cases h
  · split at h
    · cases h
    · split at h
      · cases h
      · cases h
        rfl

/-- Only a build leads to `deploying`. -/
theorem DeploymentOp.deploying_of_apply {op : DeploymentOp} {d : Deployment}
    (hop : ∀ build secrets time, op ≠ .recordBuild build secrets time)
    (h : (op.apply d).1.phase = .deploying) : d.phase = .deploying := by
  obtain ⟨hsame, -⟩ | ⟨next, hedge, -, henters⟩ := op.course d
  · exact hsame.phase.symm.trans h
  · obtain rfl := henters.phase.symm.trans h
    generalize d.phase = phase at hedge ⊢
    cases hedge with
    | built build secrets time => exact absurd rfl (hop build secrets time)

/-- Every operation but a build is a `move_to` of a record with the same image and revision. -/
theorem DeploymentOp.artifact_of_moveTo {op : DeploymentOp} {d e : Deployment}
    {next : DeploymentPhase} {reason : Option String} {time : DateTime}
    (hop : ∀ build secrets time, op ≠ .recordBuild build secrets time)
    (heq : op.apply d = e.moveTo next reason time) (himage : e.image = d.image)
    (hrevision : e.revision = d.revision) :
    (op.apply d).1.revision = d.revision ∧ (op.apply d).1.image = d.image ∧
      ((op.apply d).1.phase = .deploying → d.phase = .deploying) := by
  obtain ⟨hsame, hsame'⟩ := e.moveTo_artifact next reason time
  refine ⟨?_, ?_, DeploymentOp.deploying_of_apply hop⟩
  · rw [heq, hsame', hrevision]
  · rw [heq, hsame, himage]

/-- The artifact after an operation: the one from before, with the deployment not just entering
`deploying`, or the one a build has just minted. -/
theorem DeploymentOp.artifact (op : DeploymentOp) (d : Deployment) :
    (op.apply d).1.revision = d.revision ∧
      (((op.apply d).1.image = d.image ∧
          ((op.apply d).1.phase = .deploying → d.phase = .deploying)) ∨
        ((op.apply d).1.phase = .deploying ∧ ∃ image, (op.apply d).1.image = some image ∧
          image.revisionSha = d.revision.sourceSha)) := by
  cases op with
  | startBuild time => exact (artifact_of_moveTo (by simp) rfl rfl rfl).imp_right .inl
  | markSuperseded time => exact (artifact_of_moveTo (by simp) rfl rfl rfl).imp_right .inl
  | markRolledBack reason time => exact (artifact_of_moveTo (by simp) rfl rfl rfl).imp_right .inl
  | recordHealth health secrets time =>
    cases health with
    | starting => exact ⟨rfl, .inl ⟨rfl, id⟩⟩
    | unknown reason => exact ⟨rfl, .inl ⟨rfl, id⟩⟩
    | healthy =>
      exact (artifact_of_moveTo (d := d) (e := { d with health := .healthy }) (by simp) rfl rfl
        rfl).imp_right .inl
    | unhealthy reason =>
      exact (artifact_of_moveTo (d := d)
        (e := { d with health := .unhealthy (redactReason reason secrets) }) (by simp) rfl rfl
        rfl).imp_right .inl
  | recordBuild build secrets time =>
    simp only [DeploymentOp.apply, Deployment.recordBuild]
    split
    · exact ⟨rfl, .inl ⟨rfl, id⟩⟩
    · next hbuilding =>
      have hphase : d.phase = .building := not_not.mp hbuilding
      split
      · obtain ⟨himage, hrevision⟩ := Deployment.moveTo_artifact
          ({ d with build := some build }.pushLog .error (redactReason build.detail secrets) time)
          .failed (some (redactReason build.detail secrets)) time
        refine ⟨hrevision, .inl ⟨himage, fun hdeploying => ?_⟩⟩
        simp [Deployment.moveTo, Deployment.pushLog, hphase, DeploymentPhase.canTransitionTo]
          at hdeploying
      · split
        · exact ⟨rfl, .inl ⟨rfl, id⟩⟩
        · next image himage =>
          refine ⟨(Deployment.moveTo_artifact _ _ _ _).2, .inr ⟨?_, image,
            (Deployment.moveTo_artifact _ _ _ _).1, revisionSha_of_buildImage himage⟩⟩
          simp [Deployment.moveTo, Deployment.pushLog, hphase, DeploymentPhase.canTransitionTo]

/-- An operation leads to `pending` from nowhere and to `building` from `pending` only. -/
theorem DeploymentOp.Edge.ne_pending {op : DeploymentOp} {source next : DeploymentPhase}
    (h : op.Edge source next) : next ≠ .pending ∧ (next = .building → source = .pending) := by
  cases h <;> simp

theorem Deployment.Stamped.apply {d : Deployment} (h : d.Stamped) (op : DeploymentOp) :
    (op.apply d).1.Stamped := by
  intro image himage
  obtain ⟨hrevision, ⟨hsame, -⟩ | ⟨hdeploying, minted, hminted, hsha⟩⟩ := op.artifact d
  · rw [hsame] at himage
    obtain ⟨hsha, hpending, hbuilding⟩ := h image himage
    rw [hrevision]
    refine ⟨hsha, ?_⟩
    obtain ⟨hstays, -⟩ | ⟨next, hedge, -, henters⟩ := op.course d
    · rw [hstays.phase]
      exact ⟨hpending, hbuilding⟩
    · rw [henters.phase]
      exact ⟨hedge.ne_pending.1, fun heq => hpending (hedge.ne_pending.2 heq)⟩
  · obtain rfl := Option.some_inj.mp (hminted.symm.trans himage)
    rw [hrevision, hdeploying]
    exact ⟨hsha, by simp⟩

/-! ## How a rollout changes -/

namespace Rollout

variable {r : Rollout}

theorem get_onDeployment {id : DeploymentId} {d : Deployment} (h : r.get id = some d)
    (op : DeploymentOp) (k : DeploymentId) :
    (r.onDeployment id op).1.get k = if k = id then some (op.apply d).1 else r.get k := by
  have hid : (op.apply d).1.id = d.id := by
    obtain ⟨hsame, -⟩ | ⟨next, -, -, henters⟩ := op.course d
    · exact hsame.id
    · exact henters.id
  obtain rfl := get_id h
  rw [onDeployment_of_some h]
  exact get_replace_self h hid k

theorem get_onDeployment_of_ne {id k : DeploymentId} (h : k ≠ id) (op : DeploymentOp) :
    (r.onDeployment id op).1.get k = r.get k := by
  cases hget : r.get id with
  | none => simp only [onDeployment, hget]
  | some d => rw [get_onDeployment hget, if_neg h]

theorem get_restore_of_ne {id k : DeploymentId} (h : k ≠ id) (phase : DeploymentPhase)
    (time : DateTime) : (r.restore id phase time).get k = r.get k := by
  unfold restore
  split
  · rfl
  · next target hget =>
    obtain rfl := get_id hget
    split
    · rw [get_replace_self hget (target.id_entered _ _ _ _), if_neg h]
    · rfl

theorem get_restore_self {id : DeploymentId} {target : Deployment} (hget : r.get id = some target)
    (phase : DeploymentPhase) (time : DateTime) :
    ∃ d, (r.restore id phase time).get id = some d ∧ d.phase = .healthy ∧
      d.image = target.image := by
  obtain rfl := get_id hget
  simp only [restore, hget]
  split
  · rw [get_replace_self hget (target.id_entered _ _ _ _), if_pos rfl]
    exact ⟨_, rfl, rfl, rfl⟩
  · next hhealthy => exact ⟨target, hget, not_not.mp hhealthy, rfl⟩

def append (r : Rollout) (d : Deployment) : Rollout := { r with deployments := r.deployments ++ [d] }

/-- **What a step of a rollout can do.** What a rollback restores is the target it has checked, when
its plan has another source. -/
theorem next_of_moves {I : Rollout → Prop} (r : Rollout) (op : RolloutOp)
    (hnew : ∀ r d, I r → d.Pristine → I (r.append d))
    (hop : ∀ r id op, I r → I (r.onDeployment id op).1)
    (hrestore : ∀ plan approval domains time target left,
      op = .executeRollback plan approval domains time → r.Accepts plan approval target →
      (plan.source ≠ plan.target → left.get plan.target = some target) → I left →
      I (left.restore plan.target target.phase time))
    (hrepoint : ∀ r id, I r → (r.get id).isSome → I (r.repoint id)) (h : I r) :
    I (rollout.next r op) := by
  cases op with
  | begin id applicationId environmentId revision runtime resources time =>
    change I (r.begin id applicationId environmentId revision runtime resources time).1
    obtain ⟨e, heq⟩ | ⟨d, -, hphase, himage, htransitions, -, heq⟩ :=
      r.begin_cases id applicationId environmentId revision runtime resources time
    · rw [heq]
      exact h
    · rw [heq]
      exact hnew r d h ⟨hphase, himage, time, htransitions⟩
  | onDeployment id op => exact hop r id op h
  | promote id time =>
    change I (r.promote id time).1
    obtain ⟨e, heq⟩ | ⟨d, left, hget, -, hleft, heq⟩ := r.promote_cases id time
    · rw [heq]
      exact h
    · rw [heq]
      obtain ⟨rfl, -⟩ | ⟨previous, -, -, rfl⟩ := hleft
      · exact hrepoint left id h (by rw [hget]; rfl)
      · refine hrepoint _ id (hop r previous _ h) ?_
        rw [isSome_get_onDeployment, hget]
        rfl
  | executeRollback plan approval domains time =>
    change I (executeRollback r plan approval domains time).1.1
    obtain ⟨heq, -⟩ | ⟨target, left, haccepts, hleft, heq⟩ :=
      r.executeRollback_cases plan approval domains time
    · rw [heq]
      exact h
    · have hknown : (r.get plan.target).isSome := by
        rw [haccepts.2.2.1]
        rfl
      rw [heq]
      obtain ⟨rfl, -⟩ | ⟨reason, rfl⟩ := hleft
      · refine hrepoint _ plan.target (hrestore plan approval domains time target left rfl haccepts
          (fun _ => haccepts.2.2.1) h) ?_
        rwa [isSome_get_restore]
      · refine hrepoint _ plan.target (hrestore plan approval domains time target _ rfl haccepts
          (fun hne => ?_) (hop r plan.source _ h)) ?_
        · rw [get_onDeployment_of_ne hne.symm, haccepts.2.2.1]
        · rwa [isSome_get_restore, isSome_get_onDeployment]

/-! ## Orderly rollouts -/

structure Orderly (r : Rollout) : Prop where
  first : r.deployments.Pairwise fun d e => d.id = e.id → e.Pristine
  stamped : ∀ d ∈ r.deployments, d.Stamped
  current : ∀ id, r.current = some id → (r.get id).isSome

theorem orderly_new : Orderly .new where
  first := List.Pairwise.nil
  stamped := fun _ h => by cases h
  current := fun _ h => by cases h

theorem get_append (r : Rollout) (d : Deployment) (id : DeploymentId) :
    (r.append d).get id = (r.get id).or (if d.id = id then some d else none) := by
  rw [get, append, List.find?_append, List.find?_singleton]
  simp only [decide_eq_true_eq]
  rfl

theorem get_append_of_some {id : DeploymentId} {old : Deployment} (h : r.get id = some old)
    (d : Deployment) : (r.append d).get id = some old := by
  rw [get_append, h, Option.some_or]

/-- A deployment that is not as it was appended is the one its id finds. -/
theorem Orderly.get_of_mem (h : r.Orderly) {d : Deployment} (hd : d ∈ r.deployments)
    (hd' : ¬ d.Pristine) : r.get d.id = some d := by
  unfold get
  have hfirst := h.first
  generalize r.deployments = deployments at hd hfirst
  induction deployments with
  | nil => cases hd
  | cons a as ih =>
    obtain ⟨hhead, htail⟩ := List.pairwise_cons.mp hfirst
    obtain rfl | hd := List.mem_cons.mp hd
    · rw [List.find?_cons_of_pos (by simp)]
    · rw [List.find?_cons_of_neg (by simpa using fun heq => hd' (hhead d hd heq))]
      exact ih hd htail

theorem Orderly.get_of_phase (h : r.Orderly) {d : Deployment} (hd : d ∈ r.deployments)
    (hphase : d.phase ≠ .pending) : r.get d.id = some d :=
  h.get_of_mem hd fun hpristine => hphase hpristine.phase

theorem Orderly.append (h : r.Orderly) {d : Deployment} (hd : d.Pristine) :
    (r.append d).Orderly where
  first := List.pairwise_append.mpr ⟨h.first, List.pairwise_singleton _ _, fun a _ e he _ => by
    rw [List.mem_singleton.mp he]
    exact hd⟩
  stamped := fun e he => by
    obtain he | he := List.mem_append.mp he
    · exact h.stamped e he
    · rw [List.mem_singleton.mp he]
      exact hd.stamped
  current := fun id hid => by
    obtain ⟨old, hold⟩ := Option.isSome_iff_exists.mp (h.current id hid)
    rw [get_append_of_some hold]
    rfl

theorem Orderly.replace (h : r.Orderly) {d : Deployment} (hd : d.Stamped) :
    (r.replace d).Orderly where
  first := by
    refine pairwise_replaceFirst (fun a b ha hab => ?_) (fun a ha hid => ?_) h.first
    · have hid : a.id = d.id := of_decide_eq_true ha
      rwa [← hid]
    · exact absurd hid (of_decide_eq_false ha)
  stamped := fun e he => by
    obtain rfl | he := mem_replace he
    · exact hd
    · exact h.stamped e he
  current := fun id hid => by
    rw [isSome_get_replace]
    exact h.current id hid

theorem Orderly.onDeployment (h : r.Orderly) (id : DeploymentId) (op : DeploymentOp) :
    (r.onDeployment id op).1.Orderly := by
  unfold Rollout.onDeployment
  split
  · exact h
  · next d hget => exact h.replace ((h.stamped d (mem_of_get hget)).apply op)

theorem Orderly.restore (h : r.Orderly) (id : DeploymentId) (phase : DeploymentPhase)
    (time : DateTime) : (r.restore id phase time).Orderly := by
  unfold Rollout.restore
  split
  · exact h
  · next target hget =>
    split
    · refine h.replace fun image himage => ⟨?_, by simp⟩
      exact (h.stamped target (mem_of_get hget) image himage).1
    · exact h

theorem Orderly.repoint (h : r.Orderly) {id : DeploymentId} (hid : (r.get id).isSome) :
    (r.repoint id).Orderly where
  first := h.first
  stamped := h.stamped
  current := fun k hk => by
    cases hk
    exact hid

theorem Orderly.next (h : r.Orderly) (op : RolloutOp) : (rollout.next r op).Orderly :=
  next_of_moves r op (fun _ _ h hd => h.append hd) (fun _ id op h => h.onDeployment id op)
    (fun plan _ _ time target _ _ _ _ h => h.restore plan.target target.phase time)
    (fun _ _ h hid => h.repoint hid) h

/-- **Every history of a rollout is orderly.** -/
theorem orderly_run (ops : List RolloutOp) : (rollout.run .new ops).Orderly :=
  rollout.run_invariant_all (fun _ op h => h.next op) .new ops orderly_new

end Rollout
end Labrys.Core
