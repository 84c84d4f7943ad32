import Labrys.Core.JobQueue
import Labrys.Core.ResourceRuns

/-! # Backoff at its limits

`delay_for` saturates the power and the product, and then makes a duration of the seconds, which
panics long before the product saturates; the cap comes last, so it does not help.

* `RetryPolicy.Fits`: the product is within the seconds of a duration.
* `delayFor_of_fits`, `delayFor_of_not_fits`: what `delay_for` gives, and when it panics.
* `backoff_safe_iff`: the delay is safe, for the queue and for resources, exactly if it fits. -/

namespace Labrys.Core
set_option autoImplicit false

namespace RetryPolicy
variable (policy : RetryPolicy)

/-- The seconds of the delay for an attempt, before any limit. -/
def rawSeconds (attempt : ℕ) : ℕ :=
  Duration.numSeconds (max policy.baseDelay 0) * max policy.factor 1 ^ min (attempt - 1) 31

/-- `Duration::seconds` accepts the delay. -/
def Fits (attempt : ℕ) : Prop := policy.rawSeconds attempt ≤ i64Max / 1000

instance (attempt : ℕ) : Decidable (policy.Fits attempt) :=
  inferInstanceAs (Decidable (_ ≤ _))

def capped (delay : Duration) : Duration :=
  match policy.maxDelay with
  | some cap => if cap < delay then cap else delay
  | none => delay

variable {policy}

theorem multiplier_eq (attempt : ℕ) :
    policy.multiplier attempt = min (max policy.factor 1 ^ min (attempt - 1) 31) u64Max := by
  have hpos : 1 ≤ max policy.factor 1 ^ min (attempt - 1) 31 := Nat.one_le_pow _ _ (by omega)
  exact max_eq_left (le_min hpos (by decide))

/-- A product that saturates on the way is within the limit exactly if the true one is. -/
theorem saturated_le_iff (seconds power : ℕ) :
    min (seconds * min (min power u64Max) i64Max) i64Max ≤ i64Max / 1000 ↔
      seconds * power ≤ i64Max / 1000 := by
  have hlimit : i64Max / 1000 < i64Max := by decide
  have hbounds : min (min power u64Max) i64Max = min power i64Max := by
    rw [min_assoc, min_eq_right (by decide : i64Max ≤ u64Max)]
  rw [hbounds, min_le_iff, or_iff_left hlimit.not_ge]
  obtain rfl | hseconds := Nat.eq_zero_or_pos seconds
  · simp
  obtain hpower | hpower := le_total power i64Max
  · rw [min_eq_left hpower]
  · have hleft : i64Max / 1000 < seconds * i64Max :=
      hlimit.trans_le (Nat.le_mul_of_pos_left _ hseconds)
    have hright : i64Max / 1000 < seconds * power :=
      hleft.trans_le (Nat.mul_le_mul_left seconds hpower)
    rw [min_eq_right hpower]
    exact iff_of_false hleft.not_ge hright.not_ge

theorem saturated_eq {seconds power : ℕ} (h : seconds * power ≤ i64Max / 1000) :
    min (seconds * min (min power u64Max) i64Max) i64Max = seconds * power := by
  have hlimit : i64Max / 1000 ≤ i64Max := by decide
  obtain rfl | hseconds := Nat.eq_zero_or_pos seconds
  · simp
  have hpower : power ≤ i64Max :=
    (Nat.le_mul_of_pos_left power hseconds).trans (h.trans hlimit)
  rw [min_eq_left (hpower.trans (by decide : i64Max ≤ u64Max)), min_eq_left hpower,
    min_eq_left (h.trans hlimit)]

theorem delayFor_eq (attempt : ℕ) :
    policy.delayFor attempt =
      (Duration.seconds (min (Duration.numSeconds (max policy.baseDelay 0) *
        min (min (max policy.factor 1 ^ min (attempt - 1) 31) u64Max) i64Max) i64Max : ℕ)).map
          policy.capped := by
  rw [← multiplier_eq]
  rfl

theorem delayFor_of_fits {attempt : ℕ} (h : policy.Fits attempt) :
    policy.delayFor attempt =
      some (policy.capped (policy.rawSeconds attempt * nanosPerSecond)) := by
  have hseconds : Duration.seconds (policy.rawSeconds attempt : ℕ) =
      some (policy.rawSeconds attempt * nanosPerSecond) :=
    if_pos h
  rw [delayFor_eq, saturated_eq h]
  exact congrArg (Option.map policy.capped) hseconds

theorem delayFor_of_not_fits {attempt : ℕ} (h : ¬ policy.Fits attempt) :
    policy.delayFor attempt = none := by
  rw [delayFor_eq, Option.map_eq_none_iff]
  exact if_neg fun hle => h ((saturated_le_iff _ _).mp hle)

theorem isSome_delayFor_iff {attempt : ℕ} :
    (policy.delayFor attempt).isSome ↔ policy.Fits attempt := by
  by_cases h : policy.Fits attempt
  · rw [delayFor_of_fits h]
    exact iff_of_true rfl h
  · rw [delayFor_of_not_fits h]
    exact iff_of_false (by decide) h

/-! ## The delay is bounded and grows -/

theorem rawSeconds_mono {earlier attempt : ℕ} (h : earlier ≤ attempt) :
    policy.rawSeconds earlier ≤ policy.rawSeconds attempt :=
  Nat.mul_le_mul_left _ (Nat.pow_le_pow_right (by omega) (by omega))

theorem Fits.earlier {earlier attempt : ℕ} (h : policy.Fits attempt) (hle : earlier ≤ attempt) :
    policy.Fits earlier :=
  (rawSeconds_mono hle).trans h

theorem capped_of_some {cap : Duration} (h : policy.maxDelay = some cap) (delay : Duration) :
    policy.capped delay = min cap delay := by
  rw [capped, h]
  exact (min_def_lt cap delay).symm

theorem capped_of_none (h : policy.maxDelay = none) (delay : Duration) :
    policy.capped delay = delay := by
  rw [capped, h]

theorem capped_mono {delay delay' : Duration} (h : delay ≤ delay') :
    policy.capped delay ≤ policy.capped delay' := by
  cases hmax : policy.maxDelay with
  | none => rwa [capped_of_none hmax, capped_of_none hmax]
  | some cap =>
    rw [capped_of_some hmax, capped_of_some hmax]
    exact min_le_min_left cap h

theorem capped_le {delay cap : Duration} (h : policy.maxDelay = some cap) :
    policy.capped delay ≤ cap :=
  (capped_of_some h delay).le.trans (min_le_left cap delay)

theorem capped_nonneg (hcap : ∀ cap, policy.maxDelay = some cap → 0 ≤ cap) {delay : Duration}
    (h : 0 ≤ delay) : 0 ≤ policy.capped delay := by
  cases hmax : policy.maxDelay with
  | none => rwa [capped_of_none hmax]
  | some cap =>
    rw [capped_of_some hmax]
    exact le_min (hcap cap hmax) h

variable (policy)

/-- The delay for an attempt exists, is not negative, is at most the cap, and is at least that of
each earlier attempt. -/
def BacksOff (attempt : ℕ) : Prop :=
  ∃ delay, policy.delayFor attempt = some delay ∧ 0 ≤ delay ∧
    (∀ cap, policy.maxDelay = some cap → delay ≤ cap) ∧
    ∀ earlier ≤ attempt, ∃ less, policy.delayFor earlier = some less ∧ less ≤ delay

/-- The time of the next attempt is one that `DateTime` has. -/
def Representable (attempt : ℕ) (now : DateTime) : Prop :=
  ∀ delay, policy.delayFor attempt = some delay → (DateTime.add now delay).isSome

variable {policy}

theorem backsOff_iff (hcap : ∀ cap, policy.maxDelay = some cap → 0 ≤ cap) {attempt : ℕ} :
    policy.BacksOff attempt ↔ policy.Fits attempt := by
  constructor
  · rintro ⟨delay, hdelay, -⟩
    exact isSome_delayFor_iff.mp (by rw [hdelay]; rfl)
  · intro h
    refine ⟨_, delayFor_of_fits h, capped_nonneg hcap ?_, fun cap => capped_le, ?_⟩
    · exact mul_nonneg (Int.natCast_nonneg _) (by decide)
    · intro earlier hle
      refine ⟨_, delayFor_of_fits (h.earlier hle), capped_mono ?_⟩
      exact mul_le_mul_of_nonneg_right (Int.ofNat_le.mpr (rawSeconds_mono hle)) (by decide)

end RetryPolicy

/-! ## Failing a job or a resource -/

theorem JobQueue.fail_of_fits {q : JobQueue} {id : JobId} {job : Job} {now : DateTime}
    (hget : q.get id = some job) (hfits : job.policy.Fits (max job.attempts 1))
    (hsum : job.policy.Representable (max job.attempts 1) now) (error message : String) :
    (q.fail id error now).2 ≠ .error (.panic message) := by
  obtain ⟨delay, hdelay⟩ := Option.isSome_iff_exists.mp (RetryPolicy.isSome_delayFor_iff.mpr hfits)
  obtain ⟨next, hnext⟩ := Option.isSome_iff_exists.mp (hsum delay hdelay)
  by_cases hstatus : job.status = .running
  · have hrunning : q.runningJob id = .ok job := by
      simp only [runningJob, hget, if_pos hstatus]
    by_cases hbudget : job.policy.maxAttempts ≤ job.attempts
    · simp [fail, hrunning, hdelay, hbudget]
    · simp [fail, hrunning, hdelay, hnext, hbudget]
  · have hrefused : q.runningJob id = .error (.reconciliation
        s!"job {id} is not running ({job.status.debug})") := by
      simp only [runningJob, hget, if_neg hstatus]
    simp [fail, hrefused]

theorem Resource.fail_of_fits {resource : Resource} {policy : RetryPolicy} {time : DateTime}
    (hfits : policy.Fits (resource.failure.elim 1 (·.attempts + 1)))
    (hsum : policy.Representable (resource.failure.elim 1 (·.attempts + 1)) time)
    (reason : String) (secrets : List String) {message : String}
    (hmessage : message ≠ addOverflowed) :
    resource.fail reason secrets policy time ≠ .error (.panic message) := by
  obtain ⟨delay, hdelay⟩ := Option.isSome_iff_exists.mp (RetryPolicy.isSome_delayFor_iff.mpr hfits)
  obtain ⟨retry, hretry⟩ := Option.isSome_iff_exists.mp (hsum delay hdelay)
  unfold fail
  cases resource.observe .failed .providerCallback (some (redactReason reason secrets)) time with
  | error e => simp
  | ok failed =>
    dsimp only
    split_ifs
    · simpa using hmessage.symm
    · simp only [hdelay, hretry]
      intro h
      cases h

/-- The delay for an attempt is safe, and neither a running job nor a resource that fails with the
policy in that attempt panics while the time of the next one is computed. -/
structure BackoffSafe (policy : RetryPolicy) (attempt : ℕ) : Prop where
  delay : policy.BacksOff attempt
  queue : ∀ (q : JobQueue) (id : JobId) (job : Job) (error : String) (now : DateTime),
    q.get id = some job → job.policy = policy → max job.attempts 1 = attempt →
    policy.Representable attempt now → ∀ message, (q.fail id error now).2 ≠ .error (.panic message)
  resource : ∀ (resource : Resource) (reason : String) (secrets : List String) (time : DateTime),
    resource.failure.elim 1 (·.attempts + 1) = attempt → policy.Representable attempt time →
    ∀ message, message ≠ addOverflowed →
      resource.fail reason secrets policy time ≠ .error (.panic message)

/-- **Backoff is safe** exactly if its seconds, before the cap, are within those of a duration: for
every policy whose cap is not negative, and every attempt. -/
theorem backoff_safe_iff (policy : RetryPolicy)
    (hcap : ∀ cap, policy.maxDelay = some cap → 0 ≤ cap) (attempt : ℕ) :
    BackoffSafe policy attempt ↔ policy.Fits attempt := by
  refine ⟨fun h => (RetryPolicy.backsOff_iff hcap).mp h.delay, fun h => ?_⟩
  exact {
    delay := (RetryPolicy.backsOff_iff hcap).mpr h
    queue := by
      rintro q id job error now hget rfl rfl hsum message
      exact JobQueue.fail_of_fits hget h hsum error message
    resource := by
      rintro resource reason secrets time rfl hsum message hmessage
      exact Resource.fail_of_fits h hsum reason secrets hmessage }

theorem backoff_safe_default : BackoffSafe .default 9 :=
  (backoff_safe_iff .default (by decide) 9).mpr (by decide)

/-- A policy that starts with a year, multiplies it by a million and caps it at an hour panics in the
third attempt. -/
theorem capped_backoff_panics :
    let policy : RetryPolicy :=
      ⟨9, 31536000 * nanosPerSecond, 1000000, some (3600 * nanosPerSecond)⟩
    policy.delayFor 2 = some (3600 * nanosPerSecond) ∧ policy.delayFor 3 = none ∧
      ¬ BackoffSafe policy 3 := by
  refine ⟨by decide +kernel, by decide +kernel, fun h => ?_⟩
  have hfits := RetryPolicy.isSome_delayFor_iff.mp
    (Option.isSome_iff_exists.mpr (h.delay.imp fun _ => And.left))
  revert hfits
  decide +kernel

end Labrys.Core
