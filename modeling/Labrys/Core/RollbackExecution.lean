import Labrys.Core.DeploymentRollback

/-! # What a rollback plan says and what its execution does

`plan_rollback` reads the two deployments it is given and nothing between them. `execute_rollback`
checks before it writes, and the one step that could fail after the first write cannot, so it moves
the traffic as a whole or not at all.

* `TrafficMoved`: what an executed plan of kind deployment leaves.
* `execute_rollback_atomic`: every execution of a plan.
* `migration_flagged_iff`: when the warning covers what the rollback skips. -/

namespace Labrys.Core
open Foundations
set_option autoImplicit false

/-! ## Rollouts with distinct ids -/

namespace Rollout
variable {r : Rollout}

theorem get_of_nodup (h : (r.deployments.map (·.id)).Nodup) {d : Deployment}
    (hd : d ∈ r.deployments) : r.get d.id = some d := by
  have hsome : (r.get d.id).isSome := by
    rw [get, List.find?_isSome]
    exact ⟨d, hd, by simp⟩
  obtain ⟨found, hfound⟩ := Option.isSome_iff_exists.mp hsome
  rw [hfound, List.inj_on_of_nodup_map h (mem_of_get hfound) hd (get_id hfound)]

theorem ids_replace (d : Deployment) :
    (r.replace d).deployments.map (·.id) = r.deployments.map (·.id) :=
  map_replaceFirst fun _ _ he => (of_decide_eq_true he).symm

theorem ids_onDeployment (id : DeploymentId) (op : DeploymentOp) :
    (r.onDeployment id op).1.deployments.map (·.id) = r.deployments.map (·.id) := by
  unfold onDeployment
  split
  · rfl
  · exact ids_replace _

theorem ids_restore (id : DeploymentId) (phase : DeploymentPhase) (time : DateTime) :
    (r.restore id phase time).deployments.map (·.id) = r.deployments.map (·.id) := by
  unfold restore
  split
  · rfl
  · split
    · exact ids_replace _
    · rfl

/-- Whatever was marked rolled back does not serve. -/
theorem get_markRolledBack {id : DeploymentId} {d : Deployment} (hget : r.get id = some d)
    (reason : String) (time : DateTime) :
    ∃ retired, (r.onDeployment id (.markRolledBack reason time)).1.get id = some retired ∧
      retired.phase.servesTraffic = false := by
  rw [get_onDeployment hget, if_pos rfl]
  refine ⟨_, rfl, ?_⟩
  change (d.moveTo .rolledBack (some reason) time).1.phase.servesTraffic = false
  obtain ⟨e, heq, hrefused⟩ | ⟨-, -, henters⟩ := d.moveTo_cases .rolledBack (some reason) time
  · rw [heq]
    cases hphase : d.phase <;> rw [hphase] at hrefused <;> first | rfl | cases hrefused
  · rw [henters.phase]
    rfl

end Rollout

/-! ## Executing a plan -/

/-- The traffic went from the plan's source to its target, and nothing else has changed. -/
structure TrafficMoved (plan : RollbackPlan) (before after : Rollout × List Domain) : Prop where
  current : after.1.current = some plan.target
  restored : ∃ d, after.1.get plan.target = some d ∧ d.phase = .healthy
  retired : ∃ d, after.1.get plan.source = some d ∧ d.phase.servesTraffic = false
  unpointed : ∀ domain ∈ after.2, domain.deployment ≠ some plan.source
  domains : List.Forall₂ (fun domain domain' : Domain =>
    (domain.deployment = some plan.source →
      domain' = { domain with deployment := some plan.target }) ∧
    (domain.deployment ≠ some plan.source → domain' = domain)) before.2 after.2
  ids : after.1.deployments.map (·.id) = before.1.deployments.map (·.id)
  others : ∀ id, id ≠ plan.source → id ≠ plan.target → after.1.get id = before.1.get id

theorem repointDomains_forall₂ (source target : DeploymentId) (domains : List Domain) :
    List.Forall₂ (fun domain domain' : Domain =>
      (domain.deployment = some source →
        domain' = { domain with deployment := some target }) ∧
      (domain.deployment ≠ some source → domain' = domain))
      domains (repointDomains source target domains) := by
  unfold repointDomains
  rw [List.forall₂_map_right_iff, List.forall₂_same]
  intro domain _
  exact ⟨fun h => if_pos h, fun h => if_neg h⟩

theorem deployment_repointDomains {source target : DeploymentId} (hne : source ≠ target)
    {domains : List Domain} : ∀ domain ∈ repointDomains source target domains,
      domain.deployment ≠ some source := by
  intro domain hdomain
  obtain ⟨before, -, rfl⟩ := List.mem_map.mp hdomain
  split_ifs with hpointed
  · exact fun h => hne (Option.some_inj.mp h).symm
  · exact hpointed

section Execution
variable {r : Rollout} {plan : RollbackPlan} {approval : ExplicitApproval} {domains : List Domain}
  {time : DateTime} {outcome : RollbackOutcome}

/-- What an execution that succeeds has found. -/
theorem executeRollback_granted
    (h : (executeRollback r plan approval domains time).2 = .ok outcome) :
    approval.isNamedGrant = true ∧
      (plan.kind = .deployment → ∃ target, r.Accepts plan approval target) := by
  unfold executeRollback at h
  split at h
  · cases h
  · next hgranted =>
    have happroval : approval.isNamedGrant = true := by simpa using hgranted
    refine ⟨happroval, fun hkind => ?_⟩
    rw [if_neg (not_not.mpr hkind)] at h
    cases hget : r.get plan.target with
    | none =>
      rw [hget] at h
      cases h
    | some target =>
      simp only [hget] at h
      split at h
      · cases h
      · next hsafe => exact ⟨target, happroval, hkind, hget, by simpa using hsafe⟩

theorem trafficMoved_of_accepts (hne : plan.source ≠ plan.target)
    (hsource : (r.get plan.source).isSome) {target : Deployment}
    (haccepts : r.Accepts plan approval target) :
    TrafficMoved plan (r, domains) (executeRollback r plan approval domains time).1 := by
  obtain ⟨-, hnone⟩ | ⟨found, left, hfound, hleft, heq⟩ :=
    r.executeRollback_cases plan approval domains time
  · exact absurd haccepts (hnone target)
  obtain ⟨source, hsource⟩ := Option.isSome_iff_exists.mp hsource
  have hothers : ∀ id, id ≠ plan.source → left.get id = r.get id := by
    intro id hid
    obtain ⟨rfl, -⟩ | ⟨reason, rfl⟩ := hleft
    · rfl
    · exact Rollout.get_onDeployment_of_ne hid _
  have hretired : ∃ d, left.get plan.source = some d ∧ d.phase.servesTraffic = false := by
    obtain ⟨rfl, hidle⟩ | ⟨reason, rfl⟩ := hleft
    · refine ⟨source, hsource, ?_⟩
      have hphase := hidle source hsource
      rw [not_or] at hphase
      exact decide_eq_false hphase.1
    · exact Rollout.get_markRolledBack hsource reason time
  have hids : left.deployments.map (·.id) = r.deployments.map (·.id) := by
    obtain ⟨rfl, -⟩ | ⟨reason, rfl⟩ := hleft
    · rfl
    · exact Rollout.ids_onDeployment _ _
  rw [heq]
  have htarget : left.get plan.target = some found :=
    (hothers plan.target hne.symm).trans hfound.2.2.1
  obtain ⟨restored, hget, hphase, -⟩ := Rollout.get_restore_self htarget found.phase time
  obtain ⟨retired, hretiredGet, hserves⟩ := hretired
  exact {
    current := rfl
    restored := ⟨restored, hget, hphase⟩
    retired := ⟨retired, (Rollout.get_restore_of_ne hne _ _).trans hretiredGet, hserves⟩
    unpointed := deployment_repointDomains hne
    domains := repointDomains_forall₂ plan.source plan.target domains
    ids := (Rollout.ids_restore _ _ _).trans hids
    others := fun id hid hid' => (Rollout.get_restore_of_ne hid' _ _).trans (hothers id hid) }

end Execution

/-- **Executing a rollback is atomic and exact.** In a rollout of distinct deployments, a plan made
from one of them to another is executed only with a granted approval of someone named; an error, and
a rollback of another kind, leave everything as it was, and a rollback of a deployment moves the
traffic. -/
theorem execute_rollback_atomic (r : Rollout) (hids : (r.deployments.map (·.id)).Nodup)
    (kind : RollbackKind) (source target : Deployment) (hsource : source ∈ r.deployments)
    (plan : RollbackPlan) (hplan : planRollback kind source target = .ok plan)
    (approval : ExplicitApproval) (domains : List Domain) (time : DateTime) :
    let after := executeRollback r plan approval domains time
    plan.source = source.id ∧ plan.target = target.id ∧
    (∀ e, after.2 = .error e → after.1 = (r, domains)) ∧
    ∀ outcome, after.2 = .ok outcome →
      approval.approved = true ∧ isBlank approval.approver.toList = false ∧
      (kind ≠ .deployment → after.1 = (r, domains)) ∧
      (kind = .deployment → TrafficMoved plan (r, domains) after.1) := by
  intro after
  obtain ⟨rfl, hplanSource, hplanTarget, hne, -⟩ := planRollback_ok hplan
  refine ⟨hplanSource, hplanTarget, fun e herror => ?_, fun outcome hok => ?_⟩
  · obtain ⟨hsame, -⟩ | ⟨found, left, -, -, heq⟩ :=
      r.executeRollback_cases plan approval domains time
    · exact hsame
    · cases (congrArg Prod.snd heq).symm.trans herror
  · obtain ⟨hgranted, haccepts⟩ := executeRollback_granted hok
    have hnamed : approval.approved = true ∧ isBlank approval.approver.toList = false := by
      simpa [ExplicitApproval.isNamedGrant] using hgranted
    refine ⟨hnamed.1, hnamed.2, fun hkind => ?_, fun hkind => ?_⟩
    · obtain ⟨hsame, -⟩ | ⟨found, left, hfound, -, -⟩ :=
        r.executeRollback_cases plan approval domains time
      · exact hsame
      · exact absurd hfound.2.1 hkind
    · obtain ⟨found, hfound⟩ := haccepts hkind
      refine trafficMoved_of_accepts ?_ ?_ hfound
      · rw [hplanSource, hplanTarget]
        exact hne
      · rw [hplanSource, Rollout.get_of_nodup hids hsource]
        rfl

/-- The domain of the second deployment follows the traffic back to the first. -/
theorem execute_rollback_atomic_promotedTwice :
    let r := rollout.run .new promotedTwice
    let plan : RollbackPlan :=
      ⟨.deployment, ⟨2⟩, ⟨1⟩, [databaseDataWarning], false, true⟩
    let domains : List Domain := [⟨⟨5⟩, ⟨1⟩, "app.test", true, some ⟨2⟩⟩]
    TrafficMoved plan (r, domains)
      (executeRollback r plan (.granted "operator" "roll back") domains 9).1 := by
  intro r plan domains
  have hplan : planRollback .deployment
      ((rollout.run .new promotedTwice).deployments.get ⟨1, by decide +kernel⟩)
      ((rollout.run .new promotedTwice).deployments.get ⟨0, by decide +kernel⟩) =
      .ok ⟨.deployment, ⟨2⟩, ⟨1⟩, [databaseDataWarning], false, true⟩ := by decide +kernel
  have hrun := execute_rollback_atomic r (by decide +kernel) .deployment _ _
    (List.get_mem _ _) plan hplan (.granted "operator" "roll back") domains 9
  have hok : (executeRollback r plan (.granted "operator" "roll back") domains 9).2 =
      .ok ⟨.deployment, ⟨2⟩, ⟨1⟩, true, databaseDataWarning⟩ := by decide +kernel
  exact (hrun.2.2.2 _ hok).2.2.2 rfl

/-! ## What a plan says of migrations -/

/-- The plan says that its delta has a migration, and warns of it. -/
def RollbackPlan.FlagsMigration (plan : RollbackPlan) : Prop :=
  plan.migrationInDelta = true ∧ migrationWarning ∈ plan.warnings

instance (plan : RollbackPlan) : Decidable plan.FlagsMigration :=
  inferInstanceAs (Decidable (_ ∧ _))

theorem flagsMigration_iff {kind : RollbackKind} {source target : Deployment} {plan : RollbackPlan}
    (hkind : kind ≠ .configuration) (hplan : planRollback kind source target = .ok plan) :
    plan.FlagsMigration ↔ source.revision.introducesMigration = true := by
  unfold planRollback at hplan
  split at hplan
  · cases hplan
  · split at hplan
    · cases hplan
    · obtain rfl := Except.ok.inj hplan
      refine ⟨And.left, fun hmigration => ⟨hmigration, ?_⟩⟩
      simp [hmigration, hkind]

/-- Some deployment of the history after the place `i`, up to and including the place `j`, introduces
a migration. -/
def Rollout.MigratesWithin (r : Rollout) (i j : ℕ) : Prop :=
  ∃ k d, i < k ∧ k ≤ j ∧ r.deployments[k]? = some d ∧ d.revision.introducesMigration = true

/-- **The migration warning** is exact for a rollback exactly if the deployment it leaves has a
migration of its own, or none that it skips has one: for every history and every two places in it,
the earlier of which a plan returns to. -/
theorem migration_flagged_iff (r : Rollout) (i j : ℕ) (hij : i < j)
    (hj : j < r.deployments.length) (kind : RollbackKind) (hkind : kind ≠ .configuration)
    (plan : RollbackPlan)
    (hplan : planRollback kind r.deployments[j] r.deployments[i] = .ok plan) :
    (plan.FlagsMigration ↔ r.MigratesWithin i j) ↔
      r.deployments[j].revision.introducesMigration = true ∨
        ∀ k d, i < k → k < j → r.deployments[k]? = some d →
          d.revision.introducesMigration = false := by
  have hlast : r.deployments[j]? = some r.deployments[j] := List.getElem?_eq_getElem hj
  rw [flagsMigration_iff hkind hplan]
  constructor
  · intro hexact
    refine or_iff_not_imp_left.mpr fun hown k d hik hkj hd => ?_
    rw [Bool.eq_false_iff]
    exact fun hmigration => hown (hexact.mpr ⟨k, d, hik, hkj.le, hd, hmigration⟩)
  · rintro hcondition
    refine ⟨fun hown => ⟨j, _, hij, le_rfl, hlast, hown⟩, ?_⟩
    rintro ⟨k, d, hik, hkj, hd, hmigration⟩
    obtain hown | hskipped := hcondition
    · exact hown
    · obtain rfl | hlt := hkj.eq_or_lt
      · obtain rfl := Option.some_inj.mp (hlast.symm.trans hd)
        exact hmigration
      · rw [hskipped k d hik hlt hd] at hmigration
        cases hmigration

/-- Of two deployments without a migration, none is skipped and nothing is flagged. -/
theorem migration_flagged_promotedTwice :
    ∃ plan, planRollback .deployment
        ((rollout.run .new promotedTwice).deployments.get ⟨1, by decide +kernel⟩)
        ((rollout.run .new promotedTwice).deployments.get ⟨0, by decide +kernel⟩) = .ok plan ∧
      (plan.FlagsMigration ↔ (rollout.run .new promotedTwice).MigratesWithin 0 1) := by
  refine ⟨⟨.deployment, ⟨2⟩, ⟨1⟩, [databaseDataWarning], false, true⟩, by decide +kernel, ?_⟩
  refine (migration_flagged_iff (rollout.run .new promotedTwice) 0 1 (by decide) (by decide +kernel)
    .deployment (by decide) _ (by decide +kernel)).mpr (.inr fun k d hik hkj => ?_)
  exact absurd hkj (by omega)

/-- Three deployments are promoted, the second of which introduces a migration. -/
def migratedInBetween : List RolloutOp :=
  deployed ⟨1⟩ 0 ++ [.promote ⟨1⟩ 1] ++
    (.begin ⟨2⟩ ⟨1⟩ ⟨1⟩ ((Revision.new "5b3c" "c0" none).withMigration true)
      ⟨.node, .production, some "registry.local/app"⟩ [] 2 :: (deployed ⟨2⟩ 2).tail) ++
    [.promote ⟨2⟩ 3] ++ deployed ⟨3⟩ 4 ++ [.promote ⟨3⟩ 5]

/-- A rollback from the third to the first does not warn of the migration that it skips. -/
theorem skipped_migration_unflagged :
    ∃ plan, planRollback .deployment
        ((rollout.run .new migratedInBetween).deployments.get ⟨2, by decide +kernel⟩)
        ((rollout.run .new migratedInBetween).deployments.get ⟨0, by decide +kernel⟩) = .ok plan ∧
      ¬ plan.FlagsMigration ∧ (rollout.run .new migratedInBetween).MigratesWithin 0 2 := by
  refine ⟨⟨.deployment, ⟨3⟩, ⟨1⟩, [databaseDataWarning], false, true⟩, by decide +kernel,
    by decide, ?_⟩
  have hmigrates : ((rollout.run .new migratedInBetween).deployments[1]?.map
      (·.revision.introducesMigration)) = some true := by decide +kernel
  obtain ⟨d, hd, hmigration⟩ := Option.map_eq_some_iff.mp hmigrates
  exact ⟨1, d, by decide, by decide, hd, hmigration⟩

end Labrys.Core
