import Labrys.Core.Backoff
import Labrys.Core.BindingKeys
import Labrys.Core.Controllers

/-! # The keys of convergence steps

A convergence step of a resource is its desired version with its failure generation. Both go into one
number, a thousand to a version, which saturates; the key of the step's job has the number.

* `convergenceVersion_eq_iff`: which steps share a number.
* `convergence_keys_unique_iff`: when keys tell two steps apart. -/

namespace Labrys.Core
open Foundations
set_option autoImplicit false

theorem convergenceVersion_eq (desiredVersion generation : ℕ) :
    convergenceVersion desiredVersion generation =
      min (desiredVersion * 1000 + generation) u64Max := by
  unfold convergenceVersion
  omega

/-- Two steps share a number if their sums agree, or if both saturate. -/
theorem convergenceVersion_eq_iff {v g v' g' : ℕ} :
    convergenceVersion v g = convergenceVersion v' g' ↔
      v * 1000 + g = v' * 1000 + g' ∨
        (u64Max ≤ v * 1000 + g ∧ u64Max ≤ v' * 1000 + g') := by
  rw [convergenceVersion_eq, convergenceVersion_eq]
  omega

theorem IdempotencyKey.new_inj {target : String} {action : JobAction} {version version' : ℕ} :
    IdempotencyKey.new target action version = IdempotencyKey.new target action version' ↔
      version = version' := by
  refine ⟨fun h => ?_, fun h => h ▸ rfl⟩
  have hstep : (target, action, version) = (target, action, version') :=
    IdempotencyKey.new_injective h
  exact (Prod.mk.inj (Prod.mk.inj hstep).2).2

namespace Resource

/-- The key of the job that provisions a resource. -/
def provisionKey (resource : Resource) : IdempotencyKey :=
  .new (toString resource.id) .provision resource.convergenceVersion

/-- The convergence step that a resource is at. -/
def convergenceStep (resource : Resource) : ℕ × ℕ := (resource.desiredVersion, resource.generation)

/-- A thousand to a version, and the generation; the sum is taken without a limit. -/
def stepNumber (resource : Resource) : ℕ := resource.desiredVersion * 1000 + resource.generation

end Resource

/-- **Convergence keys are unique** for two states of a resource exactly if they are at one step, or
at two whose numbers differ and do not both reach the largest `u64`: for every two states, whatever
their versions and generations. -/
theorem convergence_keys_unique_iff (r r' : Resource) (hid : r.id = r'.id) :
    (r.provisionKey = r'.provisionKey ↔ r.convergenceStep = r'.convergenceStep) ↔
      r.convergenceStep = r'.convergenceStep ∨
        (r.stepNumber ≠ r'.stepNumber ∧ (r.stepNumber < u64Max ∨ r'.stepNumber < u64Max)) := by
  have hkeys : r.provisionKey = r'.provisionKey ↔
      r.stepNumber = r'.stepNumber ∨ (u64Max ≤ r.stepNumber ∧ u64Max ≤ r'.stepNumber) := by
    rw [Resource.provisionKey, Resource.provisionKey, hid, IdempotencyKey.new_inj]
    exact convergenceVersion_eq_iff
  have hsame : r.convergenceStep = r'.convergenceStep → r.stepNumber = r'.stepNumber := by
    intro h
    obtain ⟨hversion, hgeneration⟩ := Prod.mk.inj h
    rw [Resource.stepNumber, Resource.stepNumber, hversion, hgeneration]
  rw [hkeys]
  constructor
  · intro hunique
    refine or_iff_not_imp_left.mpr fun hsteps => ?_
    have hapart := mt hunique.mp hsteps
    omega
  · rintro (hsteps | ⟨hne, hbelow⟩)
    · exact iff_of_true (.inl (hsame hsteps)) hsteps
    · refine iff_of_false ?_ fun hsteps => hne (hsame hsteps)
      omega

/-! ## Generations that are reached -/

theorem RetryPolicy.fits_default (attempt : ℕ) : RetryPolicy.default.Fits attempt := by
  have hpower : 2 ^ min (attempt - 1) 31 ≤ 2 ^ 31 := Nat.pow_le_pow_right (by decide) (by omega)
  have hseconds : RetryPolicy.default.rawSeconds attempt = 5 * 2 ^ min (attempt - 1) 31 := rfl
  have hlimit : 5 * 2 ^ 31 ≤ i64Max / 1000 := by decide
  rw [RetryPolicy.Fits, hseconds]
  omega

theorem RetryPolicy.representable_default (attempt : ℕ) :
    RetryPolicy.default.Representable attempt 0 := by
  intro delay hdelay
  obtain ⟨found, hfound, hnonneg, hcap, -⟩ :=
    (@RetryPolicy.backsOff_iff .default (by decide) attempt).mpr (fits_default attempt)
  obtain rfl := Option.some_inj.mp (hfound.symm.trans hdelay)
  have hle : found ≤ 300 * nanosPerSecond := hcap _ rfl
  have hrange : DateTime.minUtc ≤ 0 + found ∧ 0 + found ≤ DateTime.maxUtc := by
    rw [zero_add]
    exact ⟨le_trans (by decide) hnonneg, hle.trans (by decide)⟩
  rw [DateTime.add, if_pos hrange]
  rfl

namespace Resource

theorem next_of_apply {resource moved : Resource} {op : ResourceOp}
    (h : resource.apply op = .ok moved) : resourceLife.next (some resource) op = some moved := by
  have hnext : resourceLife.next (some resource) op = held (resource.perform op) := rfl
  obtain ⟨e, -, hrefused, -⟩ | ⟨message, -, hpanic, -⟩ | ⟨left, heq, hok, -⟩ :=
    resource.perform_cases op
  · cases hrefused.symm.trans h
  · cases hpanic.symm.trans h
  · obtain rfl := Except.ok.inj (hok.symm.trans h)
    rw [hnext, heq]
    rfl

/-- A resource that has failed so often and may be provisioned again. -/
structure FailedTimes (resource : Resource) (failures : ℕ) : Prop where
  retried : resource.phase.canTransitionTo .provisioning = true
  generation : resource.generation = failures
  attempts : resource.failure.elim 1 (·.attempts + 1) = failures + 1

theorem FailedTimes.observe {resource observed : Resource} {failures : ℕ}
    (h : resource.FailedTimes failures)
    (hobserve : resource.observe .provisioning .platformProbe none 0 = .ok observed) :
    observed.phase = .provisioning ∧ observed.generation = failures ∧
      observed.failure.elim 1 (·.attempts + 1) = failures + 1 ∧ observed.id = resource.id ∧
      observed.desiredVersion = resource.desiredVersion := by
  obtain ⟨-, hphase, hsame⟩ := observe_ok hobserve
  rw [← hsame]
  exact ⟨hphase, h.generation, h.attempts, rfl, rfl⟩

theorem fail_default {resource : Resource} {failures : ℕ} (hphase : resource.phase = .provisioning)
    (hgeneration : resource.generation = failures)
    (hattempts : resource.failure.elim 1 (·.attempts + 1) = failures + 1)
    (hroom : failures < u32Max) :
    ∃ failed, resource.fail "no quota" [] .default 0 = .ok failed ∧
      failed.FailedTimes (failures + 1) ∧ failed.id = resource.id ∧
      failed.desiredVersion = resource.desiredVersion := by
  have hallowed : resource.phase.canTransitionTo .failed = true := by
    rw [hphase]
    rfl
  obtain ⟨moved, hmoved⟩ := observe_of_allowed hallowed .providerCallback
    (some (redactReason "no quota" [])) 0
  obtain ⟨-, hfailed, hsame⟩ := observe_ok hmoved
  obtain ⟨delay, hdelay⟩ := Option.isSome_iff_exists.mp
    (RetryPolicy.isSome_delayFor_iff.mpr (RetryPolicy.fits_default (failures + 1)))
  obtain ⟨retry, hretry⟩ := Option.isSome_iff_exists.mp
    (RetryPolicy.representable_default (failures + 1) delay hdelay)
  have hcounters : ¬ (u32Max < failures + 1 ∨ u32Max < resource.generation + 1) := by omega
  refine ⟨{ moved with
    generation := resource.generation + 1
    failure := some ⟨redactReason "no quota" [], .default, failures + 1, retry⟩ }, ?_, ?_, ?_, ?_⟩
  · simp only [fail, hmoved, hattempts, if_neg hcounters, hdelay, hretry]
  · exact ⟨by simp only [hfailed]; rfl, by simp only [hgeneration], rfl⟩
  · exact (id_of_observe hmoved :)
  · rw [← hsame]
    rfl

/-- One more attempt that fails. -/
def failedAttempt : List ResourceOp :=
  [.observe .provisioning .platformProbe none 0, .fail "no quota" [] .default 0]

theorem FailedTimes.again {resource : Resource} {failures : ℕ} (h : resource.FailedTimes failures)
    (hroom : failures < u32Max) :
    ∃ failed, resourceLife.run (some resource) failedAttempt = some failed ∧
      failed.FailedTimes (failures + 1) ∧ failed.id = resource.id ∧
      failed.desiredVersion = resource.desiredVersion := by
  obtain ⟨observed, hobserve⟩ := observe_of_allowed h.retried .platformProbe none 0
  obtain ⟨hphase, hgeneration, hattempts, hid, hversion⟩ := h.observe hobserve
  obtain ⟨failed, hfail, hfailed, hid', hversion'⟩ :=
    fail_default hphase hgeneration hattempts hroom
  refine ⟨failed, ?_, hfailed, hid'.trans hid, hversion'.trans hversion⟩
  have hfirst : resource.apply (.observe .provisioning .platformProbe none 0) = .ok observed := by
    rw [apply, hobserve]
    rfl
  have hsecond : observed.apply (.fail "no quota" [] .default 0) = .ok failed := hfail
  rw [failedAttempt, Machine.run_cons, next_of_apply hfirst, Machine.run_cons,
    next_of_apply hsecond, Machine.run_nil]

/-- Every generation that a `u32` has is reached by calls of `fail`. -/
theorem exists_failedTimes (id : ResourceId) (kind : String) (desiredVersion : ℕ) (time : DateTime)
    {failures : ℕ} (h : failures ≤ u32Max) :
    ∃ ops resource, resourceLife.run (some (.request id kind desiredVersion time)) ops =
        some resource ∧
      resource.FailedTimes failures ∧ resource.id = id ∧
      resource.desiredVersion = desiredVersion := by
  induction failures with
  | zero => exact ⟨[], _, rfl, ⟨rfl, rfl, rfl⟩, rfl, rfl⟩
  | succ failures ih =>
    obtain ⟨ops, resource, hrun, hfailed, hid, hversion⟩ := ih (by omega)
    obtain ⟨left, hnext, hleft, hsame, hkept⟩ := hfailed.again (by omega)
    refine ⟨ops ++ failedAttempt, left, ?_, hleft, hsame.trans hid, hkept.trans hversion⟩
    rw [Machine.run_append, hrun, hnext]

end Resource

/-- A resource and the same one after its first failure. -/
theorem convergence_keys_unique_retried :
    let r := Resource.request ⟨1⟩ "database.postgres" 1 0
    ∃ r', resourceLife.run (some r) Resource.failedAttempt = some r' ∧
      r.provisionKey ≠ r'.provisionKey := by
  intro r
  have hnew : r.FailedTimes 0 := ⟨rfl, rfl, rfl⟩
  obtain ⟨r', hrun, hfailed, hid, hversion⟩ := hnew.again (by decide)
  have hnumber : r'.stepNumber = 1 * 1000 + (0 + 1) := by
    rw [Resource.stepNumber, hversion, hfailed.generation]
    exact rfl
  refine ⟨r', hrun, fun hkeys => ?_⟩
  have hsteps := ((convergence_keys_unique_iff r r' hid.symm).mpr (.inr ?_)).mp hkeys
  · have hgeneration : r'.generation = 0 := (congrArg Prod.snd hsteps).symm
    rw [hfailed.generation] at hgeneration
    cases hgeneration
  · have hfirst : r.stepNumber = 1 * 1000 + 0 := rfl
    rw [hfirst, hnumber]
    exact ⟨by omega, .inl (by decide)⟩

/-- A resource that has failed a thousand times at one version, and one that has not failed at the
next, have one key. -/
theorem thousand_failures_share_key :
    ∃ ops r r', resourceLife.run (some (.request ⟨1⟩ "database.postgres" 1 0)) ops = some r ∧
      resourceLife.run (some (.request ⟨1⟩ "database.postgres" 2 0)) [] = some r' ∧
      r.id = r'.id ∧ r.convergenceStep = (1, 1000) ∧ r'.convergenceStep = (2, 0) ∧
      r.provisionKey = r'.provisionKey := by
  obtain ⟨ops, r, hrun, hfailed, hid, hversion⟩ :=
    Resource.exists_failedTimes ⟨1⟩ "database.postgres" 1 0 (by decide : 1000 ≤ u32Max)
  refine ⟨ops, r, _, hrun, rfl, hid, ?_, rfl, ?_⟩
  · rw [Resource.convergenceStep, hversion, hfailed.generation]
  · rw [Resource.provisionKey, hid]
    refine IdempotencyKey.new_inj.mpr ?_
    rw [Resource.convergenceVersion, hversion, hfailed.generation]
    rfl

end Labrys.Core
