import Labrys.Core.Ids
import Labrys.Core.Time
import Labrys.Core.Redact

/-! # Platform-owned resources

The lifecycle `requested → provisioning → ready | degraded | failed → deleting → deleted` and the
evidence a resource keeps of every transition. A resource always has its first evidence entry, so
the list of transitions is nonempty by construction. -/

namespace Labrys.Core
set_option autoImplicit false

/-! ## The lifecycle graph -/

inductive ResourcePhase
  | requested | provisioning | ready | degraded | failed | deleting | deleted
deriving DecidableEq, Repr

namespace ResourcePhase

def canTransitionTo : ResourcePhase → ResourcePhase → Bool
  | requested, next => next = provisioning || next = failed || next = deleting
  | provisioning, next => next = ready || next = degraded || next = failed || next = deleting
  | ready, next => next = degraded || next = failed || next = provisioning || next = deleting
  | degraded, next => next = ready || next = failed || next = deleting
  | failed, next => next = requested || next = provisioning || next = deleting
  | deleting, next => next = deleted
  | deleted, _ => false

def debug : ResourcePhase → String
  | requested => "Requested"
  | provisioning => "Provisioning"
  | ready => "Ready"
  | degraded => "Degraded"
  | failed => "Failed"
  | deleting => "Deleting"
  | deleted => "Deleted"

theorem not_canTransitionTo_self (phase : ResourcePhase) :
    phase.canTransitionTo phase = false := by
  cases phase <;> rfl

end ResourcePhase

inductive ObservationSource
  | platformProbe | providerCallback
deriving DecidableEq, Repr

structure ResourceTransition where
  source : ResourcePhase
  target : ResourcePhase
  time : DateTime
  observedBy : ObservationSource
  reason : Option String
deriving DecidableEq

structure FailureRecord where
  reason : String
  policy : RetryPolicy
  attempts : ℕ
  nextRetryAt : DateTime
deriving DecidableEq

/-- A resource with its transition evidence, oldest first. -/
structure Resource where
  id : ResourceId
  kind : String
  desiredVersion : ℕ
  phase : ResourcePhase
  generation : ℕ
  failure : Option FailureRecord
  transitions : List ResourceTransition
  evidence : transitions ≠ []
deriving DecidableEq

namespace Resource

def request (id : ResourceId) (kind : String) (desiredVersion : ℕ) (time : DateTime) :
    Resource where
  id := id
  kind := kind
  desiredVersion := desiredVersion
  phase := .requested
  generation := 0
  failure := none
  transitions := [⟨.requested, .requested, time, .platformProbe, none⟩]
  evidence := by simp

/-- Moves to `next`, rejecting violations of the lifecycle graph. The second test is never reached
with its condition true, as no phase leads to itself. -/
def observe (resource : Resource) (next : ResourcePhase) (observedBy : ObservationSource)
    (reason : Option String) (time : DateTime) : Except CoreError Resource :=
  if resource.phase.canTransitionTo next = false then
    .error (.reconciliation
      s!"illegal resource transition {resource.phase.debug} -> {next.debug} for resource {resource.id}")
  else if next = resource.phase then
    .error (.reconciliation s!"resource {resource.id} is already in phase {next.debug}")
  else
    .ok { resource with
      phase := next
      transitions := resource.transitions ++
        [⟨(resource.transitions.getLast resource.evidence).target, next, time, observedBy, reason⟩]
      evidence := by simp }

def fail (resource : Resource) (reason : String) (secrets : List String) (policy : RetryPolicy)
    (time : DateTime) : Outcome CoreError Resource :=
  match resource.observe .failed .providerCallback (some (redactReason reason secrets)) time with
  | .error e => .error (.err e)
  | .ok failed =>
      let attempts := resource.failure.elim 1 (·.attempts + 1)
      if u32Max < attempts ∨ u32Max < resource.generation + 1 then .error (.panic addOverflowed)
      else
        match policy.delayFor attempts with
        | none => .error (.panic secondsOutOfBounds)
        | some delay =>
            match DateTime.add time delay with
            | none => .error (.panic dateTimeOverflowed)
            | some retry => .ok { failed with
                generation := resource.generation + 1
                failure := some ⟨redactReason reason secrets, policy, attempts, retry⟩ }

def beginDelete (resource : Resource) (time : DateTime) : Except CoreError Resource :=
  resource.observe .deleting .platformProbe none time

def markDeleted (resource : Resource) (time : DateTime) : Except CoreError Resource :=
  (resource.observe .deleted .providerCallback none time).map fun gone =>
    { gone with failure := none }

/-- A stored resource with phase and evidence of an observed one. -/
def withPhaseOf (row observed : Resource) : Resource :=
  { row with
    phase := observed.phase, transitions := observed.transitions, evidence := observed.evidence }

/-! ## Observations -/

variable {resource resource' : Resource} {next : ResourcePhase} {observedBy : ObservationSource}
  {reason : Option String} {time : DateTime}

theorem observe_error_iff :
    (∃ e, resource.observe next observedBy reason time = .error e) ↔
      resource.phase.canTransitionTo next = false := by
  unfold observe
  split
  · next h => exact ⟨fun _ => h, fun _ => ⟨_, rfl⟩⟩
  · next h =>
    have hne : next ≠ resource.phase := by
      rintro rfl
      exact h resource.phase.not_canTransitionTo_self
    rw [if_neg hne]
    simpa using h

/-- An accepted observation follows the graph, and moves the phase and the evidence only. -/
theorem observe_ok (h : resource.observe next observedBy reason time = .ok resource') :
    resource.phase.canTransitionTo next = true ∧ resource'.phase = next ∧
      resource.withPhaseOf resource' = resource' := by
  have hallowed : resource.phase.canTransitionTo next = true := by
    by_contra hfalse
    obtain ⟨e, he⟩ := observe_error_iff.mpr (Bool.not_eq_true _ ▸ hfalse)
    rw [h] at he
    cases he
  refine ⟨hallowed, ?_⟩
  unfold observe at h
  split at h
  · cases h
  · split at h
    · cases h
    · cases h
      exact ⟨rfl, rfl⟩

theorem id_of_observe (h : resource.observe next observedBy reason time = .ok resource') :
    resource'.id = resource.id := by
  rw [← (observe_ok h).2.2]
  rfl

theorem observe_of_allowed (h : resource.phase.canTransitionTo next = true)
    (observedBy : ObservationSource) (reason : Option String) (time : DateTime) :
    ∃ observed, resource.observe next observedBy reason time = .ok observed := by
  cases hobserve : resource.observe next observedBy reason time with
  | ok observed => exact ⟨observed, rfl⟩
  | error e =>
    rw [observe_error_iff.mp ⟨e, hobserve⟩] at h
    cases h

end Resource
end Labrys.Core
