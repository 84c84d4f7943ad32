import Labrys.Core.DeploymentEvidence
import Labrys.Core.DeploymentTraffic

/-! # Choosing a rollback target

Two functions look back through the history for a target. `select_rollback_target` takes the newest
other deployment that is built and not failed, and so finds one that is still deploying or that has
degraded, which `execute_rollback` then refuses. `rollback_target`, which `begin` stores, takes the
newest healthy or superseded one, and after a rollback that is not the current deployment but the
one the rollback skipped. -/

namespace Labrys.Core
open Foundations
set_option autoImplicit false

/-! ## Selection, planning and execution -/

/-- Built, not failed, and another deployment than `current`. -/
def Deployment.Candidate (current : DeploymentId) (d : Deployment) : Prop :=
  d.id ≠ current ∧ d.image ≠ none ∧ d.phase ≠ .failed

/-- The rollback from `current` to `target` can be planned, and the plan is carried out whoever
approves it by name. -/
def Rollout.RollsBack (r : Rollout) (current target : DeploymentId) : Prop :=
  ∃ source d plan, r.get current = some source ∧ r.get target = some d ∧
    planRollback .deployment source d = .ok plan ∧
    ∀ (approval : ExplicitApproval) (domains : List Domain) (time : DateTime),
      approval.isNamedGrant = true →
        ∃ outcome, (executeRollback r plan approval domains time).2 = .ok outcome

theorem selectRollbackTarget_eq_some_iff (r : Rollout) (current target : DeploymentId) :
    selectRollbackTarget r current = some target ↔
      ∃ d, LastWith (Deployment.Candidate current) r.deployments d ∧ d.id = target := by
  refine map_find?_reverse_eq_some_iff (fun d _ => ?_) Deployment.id target
  simp [Deployment.Candidate, Option.isSome_iff_ne_none, and_assoc]

namespace Rollout
variable {r : Rollout}

/-- A plan of kind deployment is carried out exactly if its target is in a phase a rollback
accepts. -/
theorem executeRollback_ok_iff {plan : RollbackPlan} {approval : ExplicitApproval}
    (happroval : approval.isNamedGrant = true) (hkind : plan.kind = .deployment)
    {target : Deployment} (hget : r.get plan.target = some target) (domains : List Domain)
    (time : DateTime) :
    (∃ outcome, (executeRollback r plan approval domains time).2 = .ok outcome) ↔
      target.phase.isSafeTarget = true := by
  constructor
  · rintro ⟨outcome, hok⟩
    by_contra hunsafe
    rw [Bool.not_eq_true] at hunsafe
    simp [executeRollback, happroval, hkind, hget, hunsafe] at hok
  · intro hsafe
    obtain ⟨-, hnone⟩ | ⟨found, left, -, -, heq⟩ :=
      r.executeRollback_cases plan approval domains time
    · exact absurd ⟨happroval, hkind, hget, hsafe⟩ (hnone target)
    · rw [heq]
      exact ⟨_, rfl⟩

/-- A candidate has been built, so it is in a phase a rollback accepts unless it is deploying or
degraded. -/
theorem Orderly.isSafeTarget_iff (h : r.Orderly) {current : DeploymentId} {d : Deployment}
    (hd : d ∈ r.deployments) (hcandidate : d.Candidate current) :
    d.phase.isSafeTarget = true ↔ d.phase ≠ .deploying ∧ d.phase ≠ .degraded := by
  obtain ⟨-, himage, hfailed⟩ := hcandidate
  obtain ⟨image, hsome⟩ := Option.ne_none_iff_exists'.mp himage
  obtain ⟨-, hpending, hbuilding⟩ := h.stamped d hd image hsome
  cases hphase : d.phase <;> simp [hphase, DeploymentPhase.isSafeTarget] at *

theorem Orderly.get_candidate (h : r.Orderly) {current : DeploymentId} {d : Deployment}
    (hd : d ∈ r.deployments) (hcandidate : d.Candidate current) : r.get d.id = some d :=
  h.get_of_mem hd fun hpristine => hcandidate.2.1 hpristine.image

theorem planRollback_candidate {current : DeploymentId} {source d : Deployment}
    (hsource : r.get current = some source) (hcandidate : d.Candidate current) :
    ∃ plan, planRollback .deployment source d = .ok plan ∧ plan.kind = .deployment ∧
      plan.target = d.id := by
  have hne : source.id ≠ d.id := by
    rw [get_id hsource]
    exact hcandidate.1.symm
  have hok : ∃ plan, planRollback .deployment source d = .ok plan := by
    rw [planRollback, if_neg hne, if_neg hcandidate.2.1]
    exact ⟨_, rfl⟩
  obtain ⟨plan, hplan⟩ := hok
  obtain ⟨hkind, -, htarget, -, -⟩ := planRollback_ok hplan
  exact ⟨plan, hplan, hkind, htarget⟩

theorem Orderly.rollsBack_iff (h : r.Orderly) {current : DeploymentId} {d : Deployment}
    (hcurrent : r.current = some current) (hd : d ∈ r.deployments)
    (hcandidate : d.Candidate current) :
    r.RollsBack current d.id ↔ d.phase ≠ .deploying ∧ d.phase ≠ .degraded := by
  have hget := h.get_candidate hd hcandidate
  obtain ⟨source, hsource⟩ := Option.isSome_iff_exists.mp (h.current current hcurrent)
  obtain ⟨plan, hplan, hkind, htarget⟩ := planRollback_candidate hsource hcandidate
  rw [← h.isSafeTarget_iff hd hcandidate]
  constructor
  · rintro ⟨source', d', plan', hsource', hd', hplan', hexecute⟩
    obtain rfl := Option.some_inj.mp (hsource.symm.trans hsource')
    obtain rfl := Option.some_inj.mp (hget.symm.trans hd')
    cases hplan.symm.trans hplan'
    have hok := hexecute (.granted "operator" "roll back") [] 0 (by decide)
    exact (executeRollback_ok_iff (by decide) hkind (htarget ▸ hget) [] 0).mp hok
  · intro hsafe
    refine ⟨source, d, plan, hsource, hget, hplan, fun approval domains time happroval => ?_⟩
    exact (executeRollback_ok_iff happroval hkind (htarget ▸ hget) domains time).mpr hsafe

end Rollout

/-- **Selection agrees with execution.** In every history of a rollout, from the deployment that is
current, the rollback to the selected target is planned and carried out exactly if the newest other
deployment that is built and not failed is neither deploying nor degraded. -/
theorem selected_rollsBack_iff (ops : List RolloutOp) (current : DeploymentId)
    (hcurrent : (rollout.run .new ops).current = some current) :
    (∀ target, selectRollbackTarget (rollout.run .new ops) current = some target →
        (rollout.run .new ops).RollsBack current target) ↔
      ∀ d, LastWith (Deployment.Candidate current) (rollout.run .new ops).deployments d →
        d.phase ≠ .deploying ∧ d.phase ≠ .degraded := by
  have horderly := Rollout.orderly_run ops
  constructor
  · intro hagrees d hlast
    have hselected := (selectRollbackTarget_eq_some_iff _ current d.id).mpr ⟨d, hlast, rfl⟩
    exact (horderly.rollsBack_iff hcurrent hlast.mem hlast.holds).mp (hagrees d.id hselected)
  · intro hphase target hselected
    obtain ⟨d, hlast, rfl⟩ := (selectRollbackTarget_eq_some_iff _ current target).mp hselected
    exact (horderly.rollsBack_iff hcurrent hlast.mem hlast.holds).mpr (hphase d hlast)

/-- Two deployments are promoted one after the other. -/
def promotedTwice : List RolloutOp :=
  deployed ⟨1⟩ 0 ++ [.promote ⟨1⟩ 1] ++ deployed ⟨2⟩ 2 ++ [.promote ⟨2⟩ 3]

theorem selected_rollsBack_promotedTwice :
    ∃ target, selectRollbackTarget (rollout.run .new promotedTwice) ⟨2⟩ = some target ∧
      (rollout.run .new promotedTwice).RollsBack ⟨2⟩ target := by
  have hselected : selectRollbackTarget (rollout.run .new promotedTwice) ⟨2⟩ = some ⟨1⟩ := by
    decide +kernel
  have hphases : ∀ d ∈ (rollout.run .new promotedTwice).deployments,
      d.phase ≠ .deploying ∧ d.phase ≠ .degraded := by decide +kernel
  have hagrees := (selected_rollsBack_iff promotedTwice ⟨2⟩ (by decide +kernel)).mpr
    fun d hlast => hphases d hlast.mem
  exact ⟨⟨1⟩, hselected, hagrees ⟨1⟩ hselected⟩

/-- The second deployment is built and still waits for its health observation. -/
def deployingSecond : List RolloutOp :=
  deployed ⟨1⟩ 0 ++ [.promote ⟨1⟩ 1] ++ (deployed ⟨2⟩ 2).take 3

/-- It is selected as the target of a rollback from the first, and refused. -/
theorem selected_deploying :
    let r := rollout.run .new deployingSecond
    r.current = some ⟨1⟩ ∧ selectRollbackTarget r ⟨1⟩ = some ⟨2⟩ ∧ ¬ r.RollsBack ⟨1⟩ ⟨2⟩ := by
  refine ⟨by decide +kernel, by decide +kernel, ?_⟩
  rintro ⟨source, d, plan, -, hget, hplan, hexecute⟩
  obtain ⟨hkind, -, htarget, -, -⟩ := planRollback_ok hplan
  have hphase : ∀ d, (rollout.run .new deployingSecond).get ⟨2⟩ = some d →
      d.phase = .deploying := by
    intro d hd
    have hfound : ((rollout.run .new deployingSecond).get ⟨2⟩).map (·.phase) =
        some .deploying := by decide +kernel
    rw [hd] at hfound
    exact Option.some_inj.mp hfound
  have hplanned : (rollout.run .new deployingSecond).get plan.target = some d := by
    rw [htarget, Rollout.get_id hget, hget]
  have hok := hexecute (.granted "operator" "roll back") [] 9 (by decide)
  rw [Rollout.executeRollback_ok_iff (by decide) hkind hplanned [] 9, hphase d hget] at hok
  cases hok

/-! ## The target that `begin` stores -/

/-- Every deployment that `begin` appends gets this id as its rollback target. -/
def Rollout.BeginStores (r : Rollout) (target : DeploymentId) : Prop :=
  ∀ id applicationId environmentId revision runtime resources time left begun,
    r.begin id applicationId environmentId revision runtime resources time = (left, .ok begun) →
      ∃ d, left.deployments = r.deployments ++ [d] ∧ d.id = begun ∧ d.rollbackTarget = some target

theorem Rollout.beginStores_iff (r : Rollout) (target : DeploymentId) :
    r.BeginStores target ↔ r.rollbackTarget = some target := by
  constructor
  · intro hstores
    let revision := Revision.new "4f2a" "c0" none
    let runtime : RuntimeConfig := ⟨.generic, .production, none⟩
    have hbegin : r.begin ⟨0⟩ ⟨0⟩ ⟨0⟩ revision runtime [] 0 =
        ((r.begin ⟨0⟩ ⟨0⟩ ⟨0⟩ revision runtime [] 0).1, .ok ⟨0⟩) := rfl
    obtain ⟨d, hdeployments, -, htarget⟩ := hstores ⟨0⟩ ⟨0⟩ ⟨0⟩ revision runtime [] 0 _ _ hbegin
    have hd := List.append_cancel_left hdeployments
    rw [← htarget, ← (List.cons.inj hd).1]
  · intro htarget id applicationId environmentId revision runtime resources time left begun hbegin
    obtain ⟨e, heq⟩ | ⟨d, hid, -, -, -, hd, heq⟩ :=
      r.begin_cases id applicationId environmentId revision runtime resources time
    · cases heq.symm.trans hbegin
    · cases heq.symm.trans hbegin
      exact ⟨d, rfl, hid, hd.trans htarget⟩

/-- Healthy, or it was until a newer deployment was promoted. -/
def Deployment.Served (d : Deployment) : Prop := d.phase = .healthy ∨ d.phase = .superseded

namespace PlannedRollout
variable {s : PlannedRollout}

/-- What is healthy or superseded is built, so the scan stops at the newest of them. -/
theorem Inv.rollbackTarget_eq_some_iff (h : s.Inv) (target : DeploymentId) :
    s.rollout.rollbackTarget = some target ↔
      ∃ d, LastWith Deployment.Served s.rollout.deployments d ∧ d.id = target := by
  have hserved : ∀ d ∈ s.rollout.deployments,
      ((d.phase = .healthy || d.phase = .superseded) && d.image.isSome) = true ↔ d.Served := by
    intro d hd
    have hbuilt : d.Served → d.image.isSome = true := by
      intro hserved
      have hphase : d.phase.isBuilt = true := by
        obtain hphase | hphase := hserved <;> rw [hphase] <;> rfl
      obtain ⟨image, himage, -⟩ := (h.evident d hd).artifact hphase
      rw [himage]
      rfl
    simpa [Deployment.Served] using hbuilt
  exact map_find?_reverse_eq_some_iff hserved Deployment.id target

end PlannedRollout

/-- **The rollback target of a new deployment.** In every history of a rollout that executes the
plans made from its deployments, when the current deployment is healthy, `begin` stores its id
exactly if no deployment after it in the history is healthy or superseded. -/
theorem beginStores_current_iff (ops : List PlannedOp) (current : DeploymentId) (d : Deployment)
    (hcurrent : (plannedRollout.run ⟨.new, []⟩ ops).rollout.current = some current)
    (hget : (plannedRollout.run ⟨.new, []⟩ ops).rollout.get current = some d)
    (hhealthy : d.phase = .healthy) :
    (plannedRollout.run ⟨.new, []⟩ ops).rollout.BeginStores current ↔
      ∃ older newer, (plannedRollout.run ⟨.new, []⟩ ops).rollout.deployments = older ++ d :: newer ∧
        ∀ e ∈ newer, ¬ (e.phase = .healthy ∨ e.phase = .superseded) := by
  have hinv := PlannedRollout.inv_run ops
  rw [Rollout.beginStores_iff, hinv.rollbackTarget_eq_some_iff]
  constructor
  · rintro ⟨found, hlast, rfl⟩
    -- The deployment that was found has served, so it is the one its id finds.
    have hserved : found.phase ≠ .pending := by
      intro hpending
      obtain hphase | hphase := hlast.holds <;> rw [hpending] at hphase <;> cases hphase
    have hfound := hinv.orderly.get_of_phase hlast.mem hserved
    obtain rfl := Option.some_inj.mp (hfound.symm.trans hget)
    obtain ⟨older, newer, hsplit, -, hnewer⟩ := hlast
    exact ⟨older, newer, hsplit, hnewer⟩
  · rintro ⟨older, newer, hsplit, hnewer⟩
    exact ⟨d, ⟨older, newer, hsplit, .inl hhealthy, hnewer⟩, Rollout.get_id hget⟩

/-- The operations that execute no rollback, as steps of a rollout with plans. -/
def unplanned (ops : List RolloutOp) : List PlannedOp :=
  ops.filterMap fun op => if h : op.plan = none then some (.operate op h) else none

theorem beginStores_promotedTwice :
    (plannedRollout.run ⟨.new, []⟩ (unplanned promotedTwice)).rollout.BeginStores ⟨2⟩ := by
  have hsome : ((plannedRollout.run ⟨.new, []⟩ (unplanned promotedTwice)).rollout.get
      ⟨2⟩).map (·.phase) = some .healthy := by decide +kernel
  obtain ⟨d, hget, hhealthy⟩ := Option.map_eq_some_iff.mp hsome
  refine (beginStores_current_iff (unplanned promotedTwice) ⟨2⟩ d (by decide +kernel) hget
    hhealthy).mpr ?_
  have hlast : (plannedRollout.run ⟨.new, []⟩ (unplanned promotedTwice)).rollout.deployments.getLast? =
      (plannedRollout.run ⟨.new, []⟩ (unplanned promotedTwice)).rollout.get ⟨2⟩ := by decide +kernel
  rw [hget] at hlast
  obtain ⟨older, hsplit⟩ := List.getLast?_eq_some_iff.mp hlast
  exact ⟨older, [], hsplit, by simp⟩

/-- Three deployments are promoted, and a planned rollback goes from the third to the first. -/
def rolledBackPastSecond : List PlannedOp :=
  unplanned (promotedTwice ++ deployed ⟨3⟩ 4 ++ [.promote ⟨3⟩ 5]) ++
    [.plan .deployment ⟨3⟩ ⟨1⟩, .execute 0 (.granted "operator" "roll back") [] 6]

/-- The first deployment is current and healthy again, and the next one gets the second as its
rollback target. -/
theorem beginStores_skipped :
    let r := (plannedRollout.run ⟨.new, []⟩ rolledBackPastSecond).rollout
    r.current = some ⟨1⟩ ∧ (r.get ⟨1⟩).map (·.phase) = some .healthy ∧
      r.rollbackTarget = some ⟨2⟩ ∧ ¬ r.BeginStores ⟨1⟩ := by
  refine ⟨by decide +kernel, by decide +kernel, by decide +kernel, fun hstores => ?_⟩
  rw [Rollout.beginStores_iff] at hstores
  revert hstores
  decide +kernel

end Labrys.Core
