import Labrys.ControlPlane.HealthEndpoint

/-! # The overall state of the health endpoint

The endpoint folds the environments of an application into one state. Deployments that failed, are
degraded or in progress are summed up by the worst of them. Below that the order counts: a healthy
deployment covers what is unknown before and after it, and a job without a deployment counts only
while nothing else has.

* `weight_foldl_le`, `le_weight_foldl`: a deployment that weighs is never outweighed.
* `overall_health`: when the overall state is the worst one, in every order. -/

namespace Labrys.ControlPlane
open Foundations Labrys.Core
set_option autoImplicit false

/-! ## States and their ranks -/

namespace ReportedState

/-- failed > degraded > in_progress > unknown > healthy; a superseded deployment has no rank. -/
def rank : ReportedState → Option ℕ
  | healthy => some 0
  | unknown => some 1
  | inProgress => some 2
  | degraded => some 3
  | failed => some 4
  | superseded => none

/-- What a deployment in the state weighs in the fold. -/
def weight : ReportedState → ℕ
  | inProgress => 1
  | degraded => 2
  | failed => 3
  | _ => 0

theorem eq_of_weight_eq {a b : ReportedState} (h : a.weight = b.weight) (ha : 1 ≤ a.weight) :
    a = b := by
  cases a <;> cases b <;> simp_all [weight]

@[simp] theorem weight_worse (overall entry : ReportedState) :
    (overall.worse entry).weight = max overall.weight entry.weight := by
  cases overall <;> cases entry <;> decide

/-- What weighs at most as much as a state that weighs something ranks at most as high. -/
theorem rank_le_of_weight {a b : ReportedState} {i j : ℕ} (h : a.weight ≤ b.weight)
    (hb : 1 ≤ b.weight) (hi : a.rank = some i) (hj : b.rank = some j) : i ≤ j := by
  cases a <;> cases b <;> simp_all [weight, rank] <;> omega

end ReportedState

namespace EnvironmentHealth

/-- The state that is reported for the environment. -/
def state : EnvironmentHealth → ReportedState
  | unobserved job => if job.isSome then .inProgress else .unknown
  | deployed d _ => .ofPhase d.phase

/-- One step of the fold never makes the state lighter. -/
theorem weight_le_merge (overall : ReportedState) (found : EnvironmentHealth) :
    overall.weight ≤ (merge overall found).weight := by
  cases found with
  | unobserved job =>
    rw [merge]
    split_ifs with h
    · rw [h.2]
      exact Nat.zero_le _
    · exact le_refl _
  | deployed d job =>
    rw [merge, ReportedState.weight_worse]
    exact le_max_left _ _

theorem weight_le_foldl (overall : ReportedState) (found : List EnvironmentHealth) :
    overall.weight ≤ (found.foldl merge overall).weight := by
  induction found generalizing overall with
  | nil => exact le_refl _
  | cons first rest ih => exact (weight_le_merge overall first).trans (ih _)

/-- No deployment outweighs the outcome. -/
theorem deployed_weight_le_foldl (overall : ReportedState) {found : List EnvironmentHealth}
    {d : Deployment} {job : Option Job} (h : deployed d job ∈ found) :
    (ReportedState.ofPhase d.phase).weight ≤ (found.foldl merge overall).weight := by
  obtain ⟨before, after, rfl⟩ := List.append_of_mem h
  rw [List.foldl_append, List.foldl_cons]
  refine le_trans ?_ (weight_le_foldl _ after)
  rw [merge, ReportedState.weight_worse]
  exact le_max_right _ _

/-- The outcome weighs as much as some deployment, if not at most as the start or a job. -/
theorem foldl_weight_cases (overall : ReportedState) (found : List EnvironmentHealth) :
    (found.foldl merge overall).weight ≤ max 1 overall.weight ∨
      ∃ d job, deployed d job ∈ found ∧
        (found.foldl merge overall).weight = (ReportedState.ofPhase d.phase).weight := by
  induction found generalizing overall with
  | nil => exact .inl (le_max_right _ _)
  | cons first rest ih =>
    rw [List.foldl_cons]
    obtain hle | ⟨d, job, hmem, heq⟩ := ih (merge overall first)
    · cases first with
      | unobserved job =>
        refine .inl (hle.trans (max_le (le_max_left _ _) ?_))
        rw [merge]
        split_ifs
        · exact le_max_left _ _
        · exact le_max_right _ _
      | deployed d job =>
        have hstep : (merge overall (deployed d job)).weight =
            max overall.weight (ReportedState.ofPhase d.phase).weight :=
          ReportedState.weight_worse _ _
        rw [hstep] at hle
        have hreached := deployed_weight_le_foldl overall
          (List.mem_cons_self (a := deployed d job) (l := rest))
        rw [List.foldl_cons] at hreached
        by_cases hlight : (ReportedState.ofPhase d.phase).weight ≤ max 1 overall.weight
        · exact .inl (hle.trans (max_le (le_max_left _ _) (max_le (le_max_right _ _) hlight)))
        · refine .inr ⟨d, job, List.mem_cons_self, le_antisymm ?_ hreached⟩
          omega
    · exact .inr ⟨d, job, List.mem_cons_of_mem _ hmem, heq⟩

/-! ## Below what weighs -/

/-- A deployment that weighs nothing, or no deployment. -/
def Light (found : EnvironmentHealth) : Prop :=
  ∀ d job, found = .deployed d job → (ReportedState.ofPhase d.phase).weight = 0

theorem Light.state_weight_le {found : EnvironmentHealth} (h : found.Light) :
    found.state.weight ≤ 1 := by
  cases found with
  | unobserved job =>
    cases job with
    | none => exact Nat.zero_le _
    | some job => exact le_refl _
  | deployed d job => exact (h d job rfl).le.trans (Nat.zero_le _)

/-- A healthy state stays, whatever else is found. -/
theorem foldl_healthy {found : List EnvironmentHealth} (h : ∀ e ∈ found, e.Light) :
    found.foldl merge .healthy = .healthy := by
  induction found with
  | nil => rfl
  | cons first rest ih =>
    have hstep : merge .healthy first = .healthy := by
      cases first with
      | unobserved job => exact if_neg (by simp)
      | deployed d job =>
        have hlight := h _ List.mem_cons_self d job rfl
        rw [merge]
        cases hstate : ReportedState.ofPhase d.phase <;>
          first | rfl | (rw [hstate] at hlight; cases hlight)
    rw [List.foldl_cons, hstep]
    exact ih fun e he => h e (List.mem_cons_of_mem first he)

/-- Without a healthy deployment a job without one decides. -/
theorem foldl_of_none_healthy {found : List EnvironmentHealth} (h : ∀ e ∈ found, e.Light)
    (hnone : ∀ d job, deployed d job ∈ found → ReportedState.ofPhase d.phase ≠ .healthy) :
    found.foldl merge .inProgress = .inProgress ∧
      found.foldl merge .unknown =
        if .inProgress ∈ found.map state then .inProgress else .unknown := by
  induction found with
  | nil => exact ⟨rfl, rfl⟩
  | cons first rest ih =>
    obtain ⟨hbusy, hidle⟩ := ih (fun e he => h e (List.mem_cons_of_mem first he))
      fun d job hmem => hnone d job (List.mem_cons_of_mem first hmem)
    -- An environment that does not count leaves both the outcome and the jobs as they are.
    have hskip : ∀ {e : EnvironmentHealth}, merge .inProgress e = .inProgress →
        merge .unknown e = .unknown → e.state ≠ .inProgress →
          (e :: rest).foldl merge .inProgress = .inProgress ∧
            (e :: rest).foldl merge .unknown =
              if .inProgress ∈ (e :: rest).map state then .inProgress else .unknown := by
      intro e hstays hstays' hstate
      rw [List.foldl_cons, List.foldl_cons, hstays, hstays', List.map_cons]
      refine ⟨hbusy, hidle.trans (if_congr ?_ rfl rfl)⟩
      rw [List.mem_cons, or_iff_right fun heq => hstate heq.symm]
    cases first with
    | unobserved job =>
      have hstays : merge .inProgress (unobserved job) = .inProgress := if_neg (by simp)
      cases job with
      | none => exact hskip hstays rfl (by decide)
      | some job =>
        refine ⟨by rwa [List.foldl_cons, hstays], ?_⟩
        rw [List.foldl_cons, List.map_cons]
        exact hbusy.trans (if_pos List.mem_cons_self).symm
    | deployed d job =>
      have hstate : ReportedState.ofPhase d.phase = .superseded := by
        have hlight := h _ List.mem_cons_self d job rfl
        have hhealthy := hnone d job List.mem_cons_self
        cases hphase : d.phase <;>
          simp_all [ReportedState.ofPhase, ReportedState.weight]
      refine hskip ?_ ?_ ?_
      · rw [merge, hstate]
        rfl
      · rw [merge, hstate]
        rfl
      · rw [state, hstate]
        decide

theorem foldl_of_all_healthy {found : List EnvironmentHealth} (hne : found ≠ [])
    (h : ∀ e ∈ found, e.state = .healthy) : overallHealth found = .healthy := by
  have hdeployed : ∀ e ∈ found, e.Light ∧ merge .unknown e = .healthy := by
    intro e he
    have hstate := h e he
    cases e with
    | unobserved job => cases job <;> cases hstate
    | deployed d job =>
      rw [state] at hstate
      refine ⟨?_, ?_⟩
      · rintro d' job' ⟨⟩
        rw [hstate]
        rfl
      · rw [merge, hstate]
        rfl
  obtain ⟨first, rest, rfl⟩ := List.exists_cons_of_ne_nil hne
  rw [overallHealth, List.foldl_cons, (hdeployed first List.mem_cons_self).2]
  exact foldl_healthy fun e he => (hdeployed e (List.mem_cons_of_mem first he)).1

end EnvironmentHealth

/-! ## The worst of the environments -/

section Worst
variable {found : List EnvironmentHealth}

/-- Some deployment weighs. -/
def Weighty (found : List EnvironmentHealth) : Prop :=
  ∃ d job, .deployed d job ∈ found ∧ 1 ≤ (ReportedState.ofPhase d.phase).weight

theorem light_of_not_weighty (h : ¬ Weighty found) : ∀ e ∈ found, e.Light := by
  rintro e he d job rfl
  by_contra hweight
  exact h ⟨d, job, he, Nat.one_le_iff_ne_zero.mpr hweight⟩

theorem Weighty.one_le (h : Weighty found) : 1 ≤ (overallHealth found).weight := by
  obtain ⟨d, job, hmem, hweight⟩ := h
  exact hweight.trans (EnvironmentHealth.deployed_weight_le_foldl _ hmem)

/-- Where some deployment weighs, the outcome is the heaviest one, in every order. -/
theorem Weighty.overallHealth_le (h : Weighty found) {found' : List EnvironmentHealth}
    (hsame : ∀ e, e ∈ found ↔ e ∈ found') :
    (overallHealth found).weight ≤ (overallHealth found').weight := by
  obtain hle | ⟨d, job, hmem, heq⟩ := EnvironmentHealth.foldl_weight_cases .unknown found
  · have hweighty : Weighty found' := by
      obtain ⟨d, job, hmem, hweight⟩ := h
      exact ⟨d, job, (hsame _).mp hmem, hweight⟩
    exact hle.trans hweighty.one_le
  · rw [overallHealth, heq]
    exact EnvironmentHealth.deployed_weight_le_foldl _ ((hsame _).mp hmem)

theorem Weighty.overallHealth_perm (h : Weighty found) {found' : List EnvironmentHealth}
    (hperm : found.Perm found') : overallHealth found' = overallHealth found := by
  have hweighty : Weighty found' := by
    obtain ⟨d, job, hmem, hweight⟩ := h
    exact ⟨d, job, hperm.mem_iff.mp hmem, hweight⟩
  refine ReportedState.eq_of_weight_eq (le_antisymm ?_ ?_) hweighty.one_le
  · exact hweighty.overallHealth_le fun e => hperm.symm.mem_iff
  · exact h.overallHealth_le fun e => hperm.mem_iff

/-- Nothing that is reported outweighs it. -/
theorem Weighty.state_weight_le (h : Weighty found) {e : EnvironmentHealth} (he : e ∈ found) :
    e.state.weight ≤ (overallHealth found).weight := by
  cases e with
  | unobserved job =>
    refine le_trans ?_ h.one_le
    rw [EnvironmentHealth.state]
    split_ifs
    · exact le_refl _
    · exact Nat.zero_le _
  | deployed d job => exact EnvironmentHealth.deployed_weight_le_foldl _ he

/-- The overall state is the worst of the environments, in every order. -/
structure IsOverall (found : List EnvironmentHealth) : Prop where
  order : ∀ found', found.Perm found' → overallHealth found' = overallHealth found
  healthy : overallHealth found = .healthy → ∀ e ∈ found, e.state = .healthy
  rank : ∀ e ∈ found, ∀ i, e.state.rank = some i →
    ∃ j, (overallHealth found).rank = some j ∧ i ≤ j

theorem Weighty.isOverall (h : Weighty found) : IsOverall found where
  order _ hperm := h.overallHealth_perm hperm
  healthy hhealthy := by
    have hweight := h.one_le
    rw [hhealthy] at hweight
    exact absurd hweight (by decide)
  rank e he i hi := by
    have hrank : ∀ state : ReportedState, 1 ≤ state.weight → ∃ j, state.rank = some j := by
      intro state hstate
      cases state <;> first | exact ⟨_, rfl⟩ | exact absurd hstate (by decide)
    obtain ⟨j, hj⟩ := hrank _ h.one_le
    exact ⟨j, hj, ReportedState.rank_le_of_weight (h.state_weight_le he) h.one_le hi hj⟩

/-- Without a healthy environment a job without a deployment is the worst there is. -/
theorem isOverall_of_none_healthy (hlight : ∀ e ∈ found, e.Light)
    (hnone : ∀ e ∈ found, e.state ≠ .healthy) : IsOverall found := by
  have houtcome : ∀ found' : List EnvironmentHealth, (∀ e ∈ found', e ∈ found) →
      overallHealth found' =
        if .inProgress ∈ found'.map (·.state) then .inProgress else .unknown := fun found' hsub =>
    (EnvironmentHealth.foldl_of_none_healthy (fun e he => hlight e (hsub e he))
      fun d job hmem => hnone _ (hsub _ hmem)).2
  have hwhole := houtcome found fun _ he => he
  refine ⟨fun found' hperm => ?_, fun hhealthy => ?_, fun e he i hi => ?_⟩
  · rw [houtcome found' fun e he => hperm.mem_iff.mpr he, hwhole]
    exact if_congr (hperm.map _).mem_iff.symm rfl rfl
  · rw [hwhole] at hhealthy
    split_ifs at hhealthy
  · have hstate : e.state = .unknown ∨ e.state = .inProgress ∨ e.state = .superseded := by
      have hweight := (hlight e he).state_weight_le
      have hhealthy := hnone e he
      cases hcase : e.state <;> simp_all [ReportedState.weight]
    rw [hwhole]
    split_ifs with hbusy
    · refine ⟨2, rfl, ?_⟩
      obtain hstate | hstate | hstate := hstate <;> rw [hstate] at hi <;> cases hi <;> omega
    · refine ⟨1, rfl, ?_⟩
      obtain hstate | hstate | hstate := hstate
      · rw [hstate] at hi
        exact (Option.some.inj hi).ge
      · exact absurd (List.mem_map.mpr ⟨e, he, hstate⟩) hbusy
      · rw [hstate] at hi
        cases hi

theorem isOverall_of_all_healthy (h : ∀ e ∈ found, e.state = .healthy) : IsOverall found := by
  by_cases hne : found = []
  · subst hne
    refine ⟨fun found' hperm => ?_, fun hhealthy => ?_, fun e he => ?_⟩
    · rw [List.nil_perm.mp hperm]
    · cases hhealthy
    · cases he
  · have hwhole := EnvironmentHealth.foldl_of_all_healthy hne h
    refine ⟨fun found' hperm => ?_, fun _ => h, fun e he i hi => ?_⟩
    · rw [hwhole]
      exact EnvironmentHealth.foldl_of_all_healthy (fun heq => hne (List.perm_nil.mp (heq ▸ hperm)))
        fun e he => h e (hperm.mem_iff.mpr he)
    · rw [h e he] at hi
      exact ⟨0, by rw [hwhole]; rfl, (Option.some.inj hi).ge⟩

/-- What covers the others: a healthy deployment in front of them. -/
theorem overallHealth_cons_healthy {first : EnvironmentHealth} (hfirst : first.state = .healthy)
    (hlight : ∀ e ∈ found, e.Light) : overallHealth (first :: found) = .healthy := by
  have hstep : EnvironmentHealth.merge .unknown first = .healthy := by
    cases first with
    | unobserved job => cases job <;> cases hfirst
    | deployed d job =>
      rw [EnvironmentHealth.state] at hfirst
      rw [EnvironmentHealth.merge, hfirst]
      rfl
  rw [overallHealth, List.foldl_cons, hstep]
  exact EnvironmentHealth.foldl_healthy hlight

end Worst

/-! ## The endpoint -/

section Endpoint
variable (app : Application) (s : ReadDb)

/-- What the endpoint finds for its environments. -/
def foundFor (environments : List EnvironmentRow) : List EnvironmentHealth :=
  environments.map fun environment => environmentHealth app environment s

/-- The state reported for an environment. -/
def stateOf (environment : EnvironmentRow) : ReportedState :=
  (environmentHealth app environment s).state

/-- The environment's deployment failed, is degraded or is in progress. -/
def Troubled (environment : EnvironmentRow) : Prop :=
  ∃ d, currentDeployment app environment s = some d ∧
    (ReportedState.ofPhase d.phase = .failed ∨ ReportedState.ofPhase d.phase = .degraded ∨
      ReportedState.ofPhase d.phase = .inProgress)

variable {app s}

theorem environmentHealth_eq_deployed_iff {environment : EnvironmentRow} {d : Deployment} :
    (∃ job, environmentHealth app environment s = .deployed d job) ↔
      currentDeployment app environment s = some d := by
  rw [environmentHealth]
  cases hcurrent : currentDeployment app environment s with
  | none => simp
  | some other => simp

theorem weighty_foundFor_iff {environments : List EnvironmentRow} :
    Weighty (foundFor app s environments) ↔ ∃ e ∈ environments, Troubled app s e := by
  have hweight : ∀ state : ReportedState,
      1 ≤ state.weight ↔ state = .failed ∨ state = .degraded ∨ state = .inProgress := by
    intro state
    cases state <;> decide
  constructor
  · rintro ⟨d, job, hmem, hd⟩
    obtain ⟨e, he, hfound⟩ := List.mem_map.mp hmem
    exact ⟨e, he, d, environmentHealth_eq_deployed_iff.mp ⟨job, hfound⟩, (hweight _).mp hd⟩
  · rintro ⟨e, he, d, hcurrent, hd⟩
    obtain ⟨job, hfound⟩ := environmentHealth_eq_deployed_iff.mpr hcurrent
    exact ⟨d, job, List.mem_map.mpr ⟨e, he, hfound⟩, (hweight _).mpr hd⟩

/-- **Worst of the environments**, for every list of them: the overall state does not depend on their
order, is healthy only if all are and ranks with none of them above it, exactly if some deployment
failed, is degraded or is in progress, or no environment is healthy, or all are. -/
theorem overall_health (app : Application) (s : ReadDb) (environments : List EnvironmentRow) :
    ((∀ environments', environments.Perm environments' →
        overallHealth (foundFor app s environments') =
          overallHealth (foundFor app s environments)) ∧
      (overallHealth (foundFor app s environments) = .healthy →
        ∀ e ∈ environments, stateOf app s e = .healthy) ∧
      ∀ e ∈ environments, ∀ i, (stateOf app s e).rank = some i →
        ∃ j, (overallHealth (foundFor app s environments)).rank = some j ∧ i ≤ j) ↔
    (∃ e ∈ environments, Troubled app s e) ∨ (∀ e ∈ environments, stateOf app s e ≠ .healthy) ∨
      ∀ e ∈ environments, stateOf app s e = .healthy := by
  have hstates : ∀ P : ReportedState → Prop,
      (∀ e ∈ foundFor app s environments, P e.state) ↔ ∀ e ∈ environments, P (stateOf app s e) :=
    fun P => List.forall_mem_map
  rw [← weighty_foundFor_iff]
  constructor
  · rintro ⟨horder, hhealthy, -⟩
    by_contra hnot
    obtain ⟨hcalm, hmixed⟩ := not_or.mp hnot
    obtain ⟨hsome, hother⟩ := not_or.mp hmixed
    obtain ⟨e, he⟩ := not_forall.mp hsome
    obtain ⟨hmem, hstate⟩ := Classical.not_imp.mp he
    have hlight := light_of_not_weighty hcalm
    obtain ⟨before, after, rfl⟩ := List.append_of_mem hmem
    -- With the healthy environment in front the outcome is healthy.
    have hfront := horder _ List.perm_middle
    rw [foundFor, List.map_cons, overallHealth_cons_healthy (not_not.mp hstate) fun a ha =>
      hlight a ((List.perm_middle.map _).mem_iff.mpr (List.mem_cons_of_mem _ ha))] at hfront
    exact hother (hhealthy hfront.symm)
  · intro hcondition
    have hoverall : IsOverall (foundFor app s environments) := by
      by_cases hweighty : Weighty (foundFor app s environments)
      · exact hweighty.isOverall
      · obtain hnone | hall := hcondition.resolve_left hweighty
        · exact isOverall_of_none_healthy (light_of_not_weighty hweighty)
            ((hstates (· ≠ .healthy)).mpr hnone)
        · exact isOverall_of_all_healthy ((hstates (· = .healthy)).mpr hall)
    exact ⟨fun environments' hperm => hoverall.order _ (hperm.map _),
      fun hhealthy => (hstates (· = .healthy)).mp (hoverall.healthy hhealthy),
      List.forall_mem_map.mp hoverall.rank⟩

end Endpoint

/-- One environment runs a healthy deployment, nothing was ever observed of the other. -/
theorem overall_health_covers_unknown :
    ¬ ∀ (app : Application) (s : ReadDb) (environments : List EnvironmentRow),
      (∀ environments', environments.Perm environments' →
        overallHealth (foundFor app s environments') =
          overallHealth (foundFor app s environments)) ∧
      (overallHealth (foundFor app s environments) = .healthy →
        ∀ e ∈ environments, stateOf app s e = .healthy) ∧
      ∀ e ∈ environments, ∀ i, (stateOf app s e).rank = some i →
        ∃ j, (overallHealth (foundFor app s environments)).rank = some j ∧ i ≤ j := by
  intro h
  have hall := (h smallApp (savedHistory promotedAtOnce) smallApp.environments).2.1
    (by decide +kernel)
  exact absurd (hall ⟨⟨2⟩, smallApplication, "production"⟩ (by decide)) (by decide +kernel)

end Labrys.ControlPlane
