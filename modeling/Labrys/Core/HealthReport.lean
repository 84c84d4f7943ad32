import Labrys.Core.Controllers
import Labrys.Foundations.Worst

/-! # Health reports

`HealthReport::from_checks` takes the platform's probes apart from what agents claim and sums up the
probes by precedence; a single failed or missing check is not outvoted, and no probe at all is
unknown.

* `HealthState.severity`: the documented precedence.
* `aggregateHealth_isWorst`: the chain of tests finds the worst state.
* `health_aggregation`: the laws of reports. -/

namespace Labrys.Core
open Foundations
set_option autoImplicit false

inductive CheckSource
  | platformProbe | agentTool
deriving DecidableEq, Repr

structure HealthCheck where
  name : String
  source : CheckSource
  state : HealthState
  detail : Option String
deriving DecidableEq

structure HealthReport where
  state : HealthState
  checks : List HealthCheck
  ignoredAgentClaims : List String
  time : DateTime
deriving DecidableEq

def aggregateHealth (states : List HealthState) : HealthState :=
  if states = [] then .unknown
  else if .failed ∈ states then .failed
  else if .degraded ∈ states then .degraded
  else if .unknown ∈ states then .unknown
  else if .provisioning ∈ states then .provisioning
  else if .paused ∈ states then .paused
  else .healthy

namespace HealthReport

/-- The loop of `from_checks`: a probe is kept, and of a claim the name. -/
def sortCheck (sorted : List HealthCheck × List String) (check : HealthCheck) :
    List HealthCheck × List String :=
  if check.source = .platformProbe then (sorted.1 ++ [check], sorted.2)
  else (sorted.1, sorted.2 ++ [check.name])

def fromChecks (checks : List HealthCheck) (time : DateTime) : HealthReport :=
  let sorted := checks.foldl sortCheck ([], [])
  { state := aggregateHealth (sorted.1.map (·.state))
    checks := sorted.1
    ignoredAgentClaims := sorted.2
    time := time }

def isHealthy (report : HealthReport) : Bool := decide (report.state = .healthy)

end HealthReport

/-! ## Precedence -/

/-- Failed > Degraded > Unknown > Provisioning > Paused > Healthy. -/
def HealthState.severity : HealthState → ℕ
  | healthy => 0
  | paused => 1
  | provisioning => 2
  | unknown => 3
  | degraded => 4
  | failed => 5

theorem HealthState.severity_injective : Function.Injective HealthState.severity := by
  intro a b h
  cases a <;> cases b <;> first | rfl | cases h

theorem HealthState.eq_healthy_iff (state : HealthState) :
    state = .healthy ↔ ∀ other : HealthState, state.severity ≤ other.severity := by
  constructor
  · rintro rfl other
    exact Nat.zero_le _
  · intro h
    exact severity_injective (Nat.le_zero.mp (h .healthy))

theorem aggregateHealth_isWorst {states : List HealthState} (h : states ≠ []) :
    IsWorst HealthState.severity states (aggregateHealth states) := by
  have hbound : ∀ {worst : HealthState},
      (∀ state ∈ states, worst.severity < state.severity → False) →
      ∀ state ∈ states, state.severity ≤ worst.severity :=
    fun hnone state hstate => not_lt.mp (hnone state hstate)
  unfold aggregateHealth
  rw [if_neg h]
  split_ifs with hfailed hdegraded hunknown hprovisioning hpaused
  · refine ⟨hfailed, hbound fun state hstate hlt => ?_⟩
    cases state <;> simp [HealthState.severity] at hlt
  · refine ⟨hdegraded, hbound fun state hstate hlt => ?_⟩
    cases state <;> simp_all [HealthState.severity]
  · refine ⟨hunknown, hbound fun state hstate hlt => ?_⟩
    cases state <;> simp_all [HealthState.severity]
  · refine ⟨hprovisioning, hbound fun state hstate hlt => ?_⟩
    cases state <;> simp_all [HealthState.severity]
  · refine ⟨hpaused, hbound fun state hstate hlt => ?_⟩
    cases state <;> simp_all [HealthState.severity]
  · have hall : ∀ state ∈ states, state = .healthy := by
      intro state hstate
      cases state with
      | healthy => rfl
      | failed => exact absurd hstate hfailed
      | degraded => exact absurd hstate hdegraded
      | unknown => exact absurd hstate hunknown
      | provisioning => exact absurd hstate hprovisioning
      | paused => exact absurd hstate hpaused
    obtain ⟨state, rest, rfl⟩ := List.exists_cons_of_ne_nil h
    have hmem : HealthState.healthy ∈ state :: rest :=
      hall state List.mem_cons_self ▸ List.mem_cons_self
    exact ⟨hmem, fun other hother => by rw [hall other hother]⟩

theorem aggregateHealth_append {xs ys : List HealthState} (hxs : xs ≠ []) (hys : ys ≠ []) :
    aggregateHealth (xs ++ ys) =
      worse HealthState.severity (aggregateHealth xs) (aggregateHealth ys) :=
  (aggregateHealth_isWorst (by simp [hxs])).unique HealthState.severity_injective
    ((aggregateHealth_isWorst hxs).append (aggregateHealth_isWorst hys))

theorem aggregateHealth_perm {xs ys : List HealthState} (h : xs.Perm ys) :
    aggregateHealth xs = aggregateHealth ys := by
  by_cases hxs : xs = []
  · have hys : ys = [] := List.nil_perm.mp (hxs ▸ h)
    rw [hxs, hys]
  · have hys : ys ≠ [] := fun heq => hxs (List.perm_nil.mp (heq ▸ h))
    exact ((aggregateHealth_isWorst hxs).perm h).unique HealthState.severity_injective
      (aggregateHealth_isWorst hys)

theorem aggregateHealth_eq_healthy_iff (states : List HealthState) :
    aggregateHealth states = .healthy ↔ states ≠ [] ∧ ∀ state ∈ states, state = .healthy := by
  by_cases h : states = []
  · simp [h, aggregateHealth]
  · rw [(aggregateHealth_isWorst h).forall_iff HealthState.eq_healthy_iff]
    simp [h]

/-! ## Reports -/

/-- The platform's probes among the checks, in order. -/
def probesOf (checks : List HealthCheck) : List HealthCheck :=
  checks.filter fun check => decide (check.source = .platformProbe)

namespace HealthReport

theorem foldl_sortCheck (checks kept : List HealthCheck) (ignored : List String) :
    checks.foldl sortCheck (kept, ignored) = (kept ++ probesOf checks,
      ignored ++ (checks.filter fun check => decide (check.source ≠ .platformProbe)).map (·.name)) := by
  induction checks generalizing kept ignored with
  | nil => simp [probesOf]
  | cons check rest ih =>
    rw [List.foldl_cons, sortCheck]
    split_ifs with hsource
    · rw [ih]
      simp [probesOf, hsource]
    · rw [ih]
      simp [probesOf, hsource]

@[simp] theorem checks_fromChecks (checks : List HealthCheck) (time : DateTime) :
    (fromChecks checks time).checks = probesOf checks := by
  rw [fromChecks, foldl_sortCheck, List.nil_append]

@[simp] theorem state_fromChecks (checks : List HealthCheck) (time : DateTime) :
    (fromChecks checks time).state = aggregateHealth ((probesOf checks).map (·.state)) := by
  rw [fromChecks, foldl_sortCheck, List.nil_append]

end HealthReport

/-- **Health aggregation**, for every list of checks: the probes are kept in order and nothing else
is; the state is the worst of theirs, and unknown if there are none; it does not depend on the order
of the checks, nor on the agents' claims among them; it is healthy exactly if there are probes and
all are; and two lists of states aggregate to the worse of what they aggregate to alone. -/
theorem health_aggregation (checks : List HealthCheck) (time : DateTime) :
    (HealthReport.fromChecks checks time).checks = probesOf checks ∧
    (probesOf checks = [] → (HealthReport.fromChecks checks time).state = .unknown) ∧
    (probesOf checks ≠ [] → IsWorst HealthState.severity ((probesOf checks).map (·.state))
      (HealthReport.fromChecks checks time).state) ∧
    (∀ checks', checks.Perm checks' → (HealthReport.fromChecks checks' time).state =
      (HealthReport.fromChecks checks time).state) ∧
    (∀ before claim after, claim.source = .agentTool → checks = before ++ after →
      (HealthReport.fromChecks (before ++ claim :: after) time).state =
        (HealthReport.fromChecks checks time).state) ∧
    ((HealthReport.fromChecks checks time).isHealthy = true ↔
      probesOf checks ≠ [] ∧ ∀ check ∈ probesOf checks, check.state = .healthy) ∧
    ∀ xs ys, xs ≠ [] → ys ≠ [] → aggregateHealth (xs ++ ys) =
      worse HealthState.severity (aggregateHealth xs) (aggregateHealth ys) := by
  refine ⟨HealthReport.checks_fromChecks checks time, ?_, ?_, ?_, ?_, ?_, ?_⟩
  · intro hnone
    rw [HealthReport.state_fromChecks, hnone]
    rfl
  · intro hsome
    rw [HealthReport.state_fromChecks]
    exact aggregateHealth_isWorst (by simpa using hsome)
  · intro checks' hperm
    rw [HealthReport.state_fromChecks, HealthReport.state_fromChecks]
    exact aggregateHealth_perm ((hperm.symm.filter _).map _)
  · intro before claim after hclaim hchecks
    have hsame : probesOf (before ++ claim :: after) = probesOf checks := by
      simp [probesOf, hchecks, hclaim]
    rw [HealthReport.state_fromChecks, HealthReport.state_fromChecks, hsame]
  · rw [HealthReport.isHealthy, decide_eq_true_iff, HealthReport.state_fromChecks,
      aggregateHealth_eq_healthy_iff]
    simp
  · exact fun xs ys => aggregateHealth_append

/-- A degraded probe is not outvoted by a claim of health. -/
example : (HealthReport.fromChecks [⟨"db", .platformProbe, .degraded, none⟩,
    ⟨"db", .agentTool, .healthy, none⟩] 0).state = .degraded := by decide

end Labrys.Core
