import Labrys.Core.DeploymentHistory

/-! # Who serves traffic

Next to the rollout we keep the ids that have ever been current. Promotion supersedes the deployment
that was current only if it is healthy at that moment, and a rollback retires the deployment its plan
names, so an earlier server comes back when it recovers after the traffic has left it, or when the
traffic moved on between planning and execution. There is a single server along a history exactly
if no step does either. -/

namespace Labrys.Core
open Foundations
set_option autoImplicit false

structure ServedRollout where
  rollout : Rollout
  served : List DeploymentId

def servedRollout : Machine ServedRollout RolloutOp RolloutAnswer where
  step := fun s op =>
    (⟨rollout.next s.rollout op, (rollout.next s.rollout op).current.toList ++ s.served⟩,
      rollout.answer s.rollout op)

namespace ServedRollout

/-- The deployments that have ever been current and are healthy. -/
def servers (s : ServedRollout) : List Deployment :=
  s.rollout.deployments.filter fun d => d.id ∈ s.served && d.phase.servesTraffic

def SingleServer (s : ServedRollout) : Prop :=
  s.servers.length ≤ 1 ∧ ∀ d ∈ s.servers, s.rollout.current = some d.id

/-- An earlier server recovers only while it is current, and a rollback that is carried out takes
the traffic from the healthy deployment that is current, unless it goes there. -/
def KeepsSingle (s : ServedRollout) : RolloutOp → Prop
  | .onDeployment id (.recordHealth .healthy _ _) =>
      ∀ d, s.rollout.get id = some d → d.phase = .degraded → id ∈ s.served →
        s.rollout.current = some id
  | .executeRollback plan approval _ _ =>
      ∀ target, s.rollout.Accepts plan approval target → ∀ id d, s.rollout.current = some id →
        s.rollout.get id = some d → d.phase = .healthy → id = plan.source ∨ id = plan.target
  | _ => True

end ServedRollout

/-! ## Phases after service -/

def DeploymentPhase.hasServed : DeploymentPhase → Bool
  | healthy | degraded | superseded | rolledBack => true
  | _ => false

theorem DeploymentPhase.hasServed_of_isSafeTarget {phase : DeploymentPhase}
    (h : phase.isSafeTarget = true) : phase.hasServed = true := by
  cases phase <;> simp [isSafeTarget, hasServed] at h ⊢

theorem DeploymentOp.hasServed_apply (op : DeploymentOp) {d : Deployment}
    (h : d.phase.hasServed = true) : (op.apply d).1.phase.hasServed = true := by
  obtain ⟨hsame, -⟩ | ⟨next, hedge, -, henters⟩ := op.course d
  · rw [hsame.phase]
    exact h
  · rw [henters.phase]
    generalize d.phase = phase at hedge h
    cases hedge <;> simp [DeploymentPhase.hasServed] at h ⊢

/-- What enters `healthy` after service was degraded, and a healthy observation let it. -/
theorem DeploymentOp.healthy_apply (op : DeploymentOp) {d : Deployment}
    (h : d.phase.hasServed = true) (hhealthy : (op.apply d).1.phase = .healthy) :
    d.phase = .healthy ∨
      d.phase = .degraded ∧ ∃ secrets time, op = .recordHealth .healthy secrets time := by
  obtain ⟨hsame, -⟩ | ⟨next, hedge, -, henters⟩ := op.course d
  · exact .inl (hsame.phase.symm.trans hhealthy)
  · obtain rfl := henters.phase.symm.trans hhealthy
    refine .inr ?_
    generalize d.phase = phase at hedge h
    cases hedge with
    | observed phase secrets time hphase =>
      obtain rfl | rfl := hphase
      · cases h
      · exact ⟨rfl, secrets, time, rfl⟩

/-- A move out of `healthy` does not leave a deployment there. -/
theorem Deployment.phase_moveTo_ne_healthy (d : Deployment) {next : DeploymentPhase}
    (hnext : next ≠ .healthy) (hallowed : DeploymentPhase.healthy.canTransitionTo next = true)
    (reason : Option String) (time : DateTime) :
    (d.moveTo next reason time).1.phase ≠ .healthy := by
  intro hhealthy
  obtain ⟨e, heq, hrefused⟩ | ⟨-, -, henters⟩ := d.moveTo_cases next reason time
  · rw [heq] at hhealthy
    rw [show d.phase = .healthy from hhealthy, hallowed] at hrefused
    cases hrefused
  · exact hnext (henters.phase.symm.trans hhealthy)

/-! ## The current deployment -/

namespace Rollout
variable {r : Rollout}

theorem current_onDeployment (r : Rollout) (id : DeploymentId) (op : DeploymentOp) :
    (r.onDeployment id op).1.current = r.current := by
  unfold onDeployment
  split
  · rfl
  · rfl

theorem current_restore (r : Rollout) (id : DeploymentId) (phase : DeploymentPhase)
    (time : DateTime) : (r.restore id phase time).current = r.current := by
  unfold restore
  split
  · rfl
  · split
    · rfl
    · rfl

theorem restore_repoint (r : Rollout) (id : DeploymentId) (phase : DeploymentPhase)
    (time : DateTime) :
    (r.restore id phase time).repoint id = (r.repoint id).restore id phase time := by
  unfold restore
  rw [show (r.repoint id).get id = r.get id from rfl]
  split
  · rfl
  · split
    · rfl
    · rfl

end Rollout

/-! ## The invariant -/

namespace ServedRollout

/-- Whoever has been current has served, and is healthy only while it is current. -/
structure Inv (s : ServedRollout) : Prop where
  orderly : s.rollout.Orderly
  past : ∀ id ∈ s.served, ∃ d, s.rollout.get id = some d ∧ d.phase.hasServed = true
  current : ∀ id, s.rollout.current = some id → id ∈ s.served
  single : ∀ id ∈ s.served, ∀ d, s.rollout.get id = some d → d.phase = .healthy →
    s.rollout.current = some id

variable {s : ServedRollout}

theorem mem_servers {d : Deployment} :
    d ∈ s.servers ↔ d ∈ s.rollout.deployments ∧ d.id ∈ s.served ∧ d.phase = .healthy := by
  simp [servers, DeploymentPhase.servesTraffic]

theorem Inv.singleServer (h : s.Inv) : s.SingleServer := by
  have hcurrent : ∀ d ∈ s.servers, s.rollout.current = some d.id := by
    intro d hd
    obtain ⟨hmem, hserved, hhealthy⟩ := mem_servers.mp hd
    have hget := h.orderly.get_of_phase hmem (by simp [hhealthy])
    exact h.single d.id hserved d hget hhealthy
  refine ⟨?_, hcurrent⟩
  -- Two servers would share the current id, and the younger of them is as it was appended.
  have hfirst : s.servers.Pairwise fun d e => d.id = e.id → e.Pristine :=
    h.orderly.first.sublist List.filter_sublist
  rcases hservers : s.servers with _ | ⟨a, _ | ⟨b, rest⟩⟩
  · simp
  · simp
  · rw [hservers] at hfirst
    have ha : a ∈ s.servers := by simp [hservers]
    have hb : b ∈ s.servers := by simp [hservers]
    have hsame : a.id = b.id := Option.some_inj.mp ((hcurrent a ha).symm.trans (hcurrent b hb))
    have hpristine : b.Pristine := (List.pairwise_cons.mp hfirst).1 b (by simp) hsame
    have hhealthy : b.phase = .healthy := (mem_servers.mp hb).2.2
    rw [hpristine.phase] at hhealthy
    cases hhealthy

theorem SingleServer.current_of_get (h : s.SingleServer) {id : DeploymentId} {d : Deployment}
    (hserved : id ∈ s.served) (hget : s.rollout.get id = some d) (hhealthy : d.phase = .healthy) :
    s.rollout.current = some id := by
  obtain rfl := Rollout.get_id hget
  exact h.2 d (mem_servers.mpr ⟨Rollout.mem_of_get hget, hserved, hhealthy⟩)

theorem inv_new : Inv ⟨.new, []⟩ where
  orderly := Rollout.orderly_new
  past := fun _ h => by cases h
  current := fun _ h => by cases h
  single := fun _ h => by cases h

/-! ## The moves of a step -/

theorem Inv.append (h : s.Inv) {d : Deployment} (hd : d.Pristine) :
    Inv ⟨s.rollout.append d, s.served⟩ where
  orderly := h.orderly.append hd
  past := fun id hid => by
    obtain ⟨old, hold, hphase⟩ := h.past id hid
    exact ⟨old, Rollout.get_append_of_some hold d, hphase⟩
  current := h.current
  single := fun id hid e hget hhealthy => by
    obtain ⟨old, hold, -⟩ := h.past id hid
    obtain rfl := Option.some_inj.mp ((Rollout.get_append_of_some hold d).symm.trans hget)
    exact h.single id hid old hold hhealthy

/-- An operation on one deployment, which makes an earlier server healthy only while it is
current. -/
theorem Inv.onDeployment (h : s.Inv) (id : DeploymentId) (op : DeploymentOp)
    (hop : ∀ d, s.rollout.get id = some d → d.phase = .degraded → id ∈ s.served →
      (∃ secrets time, op = .recordHealth .healthy secrets time) → s.rollout.current = some id) :
    Inv ⟨(s.rollout.onDeployment id op).1, s.served⟩ where
  orderly := h.orderly.onDeployment id op
  past := fun k hk => by
    obtain ⟨d, hget, hphase⟩ := h.past k hk
    dsimp only
    by_cases hkid : k = id
    · subst hkid
      rw [Rollout.get_onDeployment hget, if_pos rfl]
      exact ⟨_, rfl, op.hasServed_apply hphase⟩
    · rw [Rollout.get_onDeployment_of_ne hkid]
      exact ⟨d, hget, hphase⟩
  current := fun k hk => by
    rw [Rollout.current_onDeployment] at hk
    exact h.current k hk
  single := fun k hk e hget hhealthy => by
    obtain ⟨d, hd, hphase⟩ := h.past k hk
    dsimp only at hget ⊢
    rw [Rollout.current_onDeployment]
    by_cases hkid : k = id
    · subst hkid
      rw [Rollout.get_onDeployment hd, if_pos rfl] at hget
      cases hget
      obtain hwas | ⟨hdegraded, hobserved⟩ := op.healthy_apply hphase hhealthy
      · exact h.single k hk d hd hwas
      · exact hop d hd hdegraded hk hobserved
    · rw [Rollout.get_onDeployment_of_ne hkid] at hget
      exact h.single k hk e hget hhealthy

/-- The traffic goes to a deployment that serves or has served, and no other one is left healthy
where it comes from. -/
theorem Inv.repoint (h : s.Inv) {id : DeploymentId} {d : Deployment}
    (hget : s.rollout.get id = some d) (hphase : d.phase.hasServed = true)
    (hfree : ∀ k e, s.rollout.current = some k → s.rollout.get k = some e → e.phase = .healthy →
      k = id) : Inv ⟨s.rollout.repoint id, id :: s.served⟩ where
  orderly := h.orderly.repoint (by rw [hget]; rfl)
  past := fun k hk => by
    obtain rfl | hk := List.mem_cons.mp hk
    · exact ⟨d, hget, hphase⟩
    · exact h.past k hk
  current := fun k hk => by
    cases hk
    exact List.mem_cons_self
  single := fun k hk e hfound hhealthy => by
    obtain rfl | hk := List.mem_cons.mp hk
    · rfl
    · rw [hfree k e (h.single k hk e hfound hhealthy) hfound hhealthy]
      rfl

/-- The same after an operation that leaves no healthy deployment behind at `source`. -/
theorem Inv.handOver (h : s.Inv) {source id : DeploymentId} {op : DeploymentOp} {d : Deployment}
    (hget : s.rollout.get id = some d) (hphase : d.phase.hasServed = true)
    (hop : op.observesHealthy = false) (hleaves : ∀ e, (op.apply e).1.phase ≠ .healthy)
    (hfree : ∀ k e, s.rollout.current = some k → s.rollout.get k = some e → e.phase = .healthy →
      k = source ∨ k = id) :
    Inv ⟨(s.rollout.onDeployment source op).1.repoint id, id :: s.served⟩ := by
  have hleft := h.onDeployment source op fun _ _ _ _ hobserved => by
    obtain ⟨_, _, rfl⟩ := hobserved
    cases hop
  have htarget : ∃ left, (s.rollout.onDeployment source op).1.get id = some left ∧
      left.phase.hasServed = true := by
    by_cases hsame : id = source
    · rw [← hsame, Rollout.get_onDeployment hget, if_pos rfl]
      exact ⟨_, rfl, op.hasServed_apply hphase⟩
    · rw [Rollout.get_onDeployment_of_ne hsame]
      exact ⟨d, hget, hphase⟩
  obtain ⟨left, hfound, hserved⟩ := htarget
  refine hleft.repoint hfound hserved fun k e hk hke hhealthy => ?_
  dsimp only at hk hke
  rw [Rollout.current_onDeployment] at hk
  by_cases hsource : k = source
  · subst hsource
    obtain ⟨old, hold⟩ := Option.isSome_iff_exists.mp (h.orderly.current k hk)
    rw [Rollout.get_onDeployment hold, if_pos rfl] at hke
    cases hke
    exact absurd hhealthy (hleaves old)
  · rw [Rollout.get_onDeployment_of_ne hsource] at hke
    exact (hfree k e hk hke hhealthy).resolve_left hsource

theorem Inv.restore (h : s.Inv) {id : DeploymentId} (hid : s.rollout.current = some id)
    (phase : DeploymentPhase) (time : DateTime) :
    Inv ⟨s.rollout.restore id phase time, s.served⟩ where
  orderly := h.orderly.restore id phase time
  past := fun k hk => by
    obtain ⟨d, hget, hphase⟩ := h.past k hk
    dsimp only
    by_cases hkid : k = id
    · subst hkid
      obtain ⟨restored, hrestored, hhealthy, -⟩ := Rollout.get_restore_self hget phase time
      exact ⟨restored, hrestored, by simp [hhealthy, DeploymentPhase.hasServed]⟩
    · rw [Rollout.get_restore_of_ne hkid]
      exact ⟨d, hget, hphase⟩
  current := fun k hk => by
    rw [Rollout.current_restore] at hk
    exact h.current k hk
  single := fun k hk e hget hhealthy => by
    dsimp only at hget ⊢
    rw [Rollout.current_restore]
    by_cases hkid : k = id
    · exact hkid ▸ hid
    · rw [Rollout.get_restore_of_ne hkid] at hget
      exact h.single k hk e hget hhealthy

/-! ## One step -/

/-- Recording the current deployment once more. -/
theorem Inv.recorded (h : s.Inv) :
    Inv ⟨s.rollout, s.rollout.current.toList ++ s.served⟩ := by
  have hmem : ∀ id ∈ s.rollout.current.toList ++ s.served, id ∈ s.served := by
    intro id hid
    obtain hid | hid := List.mem_append.mp hid
    · exact h.current id (Option.mem_toList.mp hid)
    · exact hid
  exact ⟨h.orderly, fun id hid => h.past id (hmem id hid),
    fun id hid => List.mem_append_right _ (h.current id hid),
    fun id hid => h.single id (hmem id hid)⟩

theorem Inv.promote (h : s.Inv) (id : DeploymentId) (time : DateTime) :
    (servedRollout.next s (.promote id time)).Inv := by
  change Inv ⟨(s.rollout.promote id time).1,
    (s.rollout.promote id time).1.current.toList ++ s.served⟩
  obtain ⟨e, heq⟩ | ⟨d, left, hget, hhealthy, hleft, heq⟩ := s.rollout.promote_cases id time
  · rw [heq]
    exact h.recorded
  · have hserved : d.phase.hasServed = true := by simp [hhealthy, DeploymentPhase.hasServed]
    rw [heq]
    obtain ⟨rfl, hfree⟩ | ⟨previous, hcurrent, -, rfl⟩ := hleft
    · exact h.repoint hget hserved hfree
    · refine h.handOver hget hserved rfl (fun e => ?_) fun k e hk _ _ => .inl ?_
      · exact e.phase_moveTo_ne_healthy (by simp) rfl _ _
      · exact Option.some_inj.mp (hk.symm.trans hcurrent)

theorem Inv.executeRollback (h : s.Inv) (plan : RollbackPlan) (approval : ExplicitApproval)
    (domains : List Domain) (time : DateTime)
    (hop : s.KeepsSingle (.executeRollback plan approval domains time)) :
    (servedRollout.next s (.executeRollback plan approval domains time)).Inv := by
  change Inv ⟨(Core.executeRollback s.rollout plan approval domains time).1.1,
    (Core.executeRollback s.rollout plan approval domains time).1.1.current.toList ++ s.served⟩
  obtain ⟨heq, -⟩ | ⟨target, left, haccepts, hleft, heq⟩ :=
    s.rollout.executeRollback_cases plan approval domains time
  · rw [heq]
    exact h.recorded
  · have hkeeps := hop target haccepts
    have hserved := DeploymentPhase.hasServed_of_isSafeTarget haccepts.2.2.2
    rw [heq]
    dsimp only
    rw [Rollout.restore_repoint]
    have hmoved : Inv ⟨left.repoint plan.target, plan.target :: s.served⟩ := by
      obtain ⟨rfl, hsource⟩ | ⟨reason, rfl⟩ := hleft
      · refine h.repoint haccepts.2.2.1 hserved fun k e hk hget hhealthy => ?_
        obtain rfl | rfl := hkeeps k e hk hget hhealthy
        · exact absurd (.inl hhealthy) (hsource e hget)
        · rfl
      · refine h.handOver haccepts.2.2.1 hserved rfl (fun e => ?_) hkeeps
        exact e.phase_moveTo_ne_healthy (by simp) rfl _ _
    have hcurrent : (left.repoint plan.target).current = some plan.target := rfl
    have hrestored := hmoved.restore hcurrent target.phase time
    rw [Rollout.current_restore]
    exact hrestored

theorem Inv.next (h : s.Inv) (op : RolloutOp) (hop : s.KeepsSingle op) :
    (servedRollout.next s op).Inv := by
  cases op with
  | begin id applicationId environmentId revision runtime resources time =>
    change Inv ⟨(s.rollout.begin id applicationId environmentId revision runtime resources time).1,
      (s.rollout.begin id applicationId environmentId revision runtime resources
        time).1.current.toList ++ s.served⟩
    obtain ⟨e, heq⟩ | ⟨d, -, hphase, himage, htransitions, -, heq⟩ :=
      s.rollout.begin_cases id applicationId environmentId revision runtime resources time
    · rw [heq]
      exact h.recorded
    · rw [heq]
      exact (h.append ⟨hphase, himage, time, htransitions⟩).recorded
  | onDeployment id op =>
    refine (h.onDeployment id op ?_).recorded
    rintro d hget hdegraded hserved ⟨secrets, time, rfl⟩
    exact hop d hget hdegraded hserved
  | promote id time => exact h.promote id time
  | executeRollback plan approval domains time =>
    exact h.executeRollback plan approval domains time hop

/-- A step after which there is a single server is one of those that keep it. -/
theorem Inv.keepsSingle (h : s.Inv) (op : RolloutOp)
    (hnext : (servedRollout.next s op).SingleServer) : s.KeepsSingle op := by
  unfold KeepsSingle
  split
  · next id secrets time =>
    intro d hget hdegraded hserved
    have hfound := Rollout.get_onDeployment hget (.recordHealth .healthy secrets time) id
    rw [if_pos rfl] at hfound
    have hhealthy : (d.recordHealth .healthy secrets time).1.phase = .healthy := by
      simp [Deployment.recordHealth, Deployment.moveTo, hdegraded, DeploymentPhase.canTransitionTo]
    have hcurrent := hnext.current_of_get (List.mem_append_right _ hserved) hfound hhealthy
    exact (s.rollout.current_onDeployment id _).symm.trans hcurrent
  · next plan approval domains time =>
    intro target haccepts id d hid hget hhealthy
    by_contra hother
    obtain ⟨hsource, htarget⟩ := not_or.mp hother
    obtain ⟨-, hnone⟩ | ⟨found, left, -, hleft, heq⟩ :=
      s.rollout.executeRollback_cases plan approval domains time
    · exact hnone target haccepts
    have hrollout : (servedRollout.next s (.executeRollback plan approval domains time)).rollout =
        (left.restore plan.target found.phase time).repoint plan.target :=
      congrArg (fun result => result.1.1) heq
    have hstill : left.get id = some d := by
      obtain ⟨rfl, -⟩ | ⟨reason, rfl⟩ := hleft
      · exact hget
      · rw [Rollout.get_onDeployment_of_ne hsource, hget]
    have hfound : (servedRollout.next s
        (.executeRollback plan approval domains time)).rollout.get id = some d := by
      rw [hrollout]
      exact (Rollout.get_restore_of_ne htarget found.phase time).trans hstill
    have hcurrent :=
      hnext.current_of_get (List.mem_append_right _ (h.current id hid)) hfound hhealthy
    rw [hrollout] at hcurrent
    exact htarget (Option.some_inj.mp hcurrent).symm
  · trivial

end ServedRollout

/-! ## Whole histories -/

/-- **A single server of traffic.** Along a history of a rollout, at most one deployment that has
ever been current is healthy, and it is the current one, exactly if every step keeps it so. -/
theorem singleServer_history (ops : List RolloutOp) :
    (∀ n, (servedRollout.run ⟨.new, []⟩ (ops.take n)).SingleServer) ↔
      servedRollout.Guarded ServedRollout.KeepsSingle ⟨.new, []⟩ ops :=
  servedRollout.forall_run_take_iff_guarded (fun _ h => h.singleServer)
    (fun _ op h _ hop => h.next op hop) (fun _ op h _ hnext => h.keepsSingle op hnext)
    ⟨.new, []⟩ ops ServedRollout.inv_new (servedRollout.guarded_true _ ops)

/-- A deployment that is begun, built and observed healthy. -/
def deployed (id : DeploymentId) (time : DateTime) : List RolloutOp :=
  let revision := Revision.new "4f2a" "c0" none
  let runtime : RuntimeConfig := ⟨.node, .production, some "registry.local/app"⟩
  [.begin id ⟨1⟩ ⟨1⟩ revision runtime [] time, .onDeployment id (.startBuild time),
    .onDeployment id (.recordBuild (.succeeded "built") [] time),
    .onDeployment id (.recordHealth .healthy [] time)]

/-- The first deployment is promoted and degrades, the second is promoted, and the first
recovers. -/
def recoversAfterPromotion : List RolloutOp :=
  deployed ⟨1⟩ 0 ++ [.promote ⟨1⟩ 1, .onDeployment ⟨1⟩ (.recordHealth (.unhealthy "slow") [] 2)] ++
    deployed ⟨2⟩ 3 ++ [.promote ⟨2⟩ 4, .onDeployment ⟨1⟩ (.recordHealth .healthy [] 5)]

theorem two_servers :
    let s := servedRollout.run ⟨.new, []⟩ recoversAfterPromotion
    s.servers.map (·.id) = [⟨1⟩, ⟨2⟩] ∧ s.rollout.current = some ⟨2⟩ ∧ ¬ s.SingleServer := by
  refine ⟨by decide +kernel, by decide +kernel, fun h => absurd h.1 (by decide +kernel)⟩

end Labrys.Core
