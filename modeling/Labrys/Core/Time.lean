import Mathlib.Algebra.Order.Ring.Int
import Labrys.Core.Errors

/-! # Time and retry backoff

Instants and spans are whole nanoseconds. Both types of `chrono` are bounded, and their operators
panic outside the bounds; the results here are `none` where the source panics. A column of type
`timestamptz` keeps whole microseconds only. -/

namespace Labrys.Core
set_option autoImplicit false

/-- An instant: nanoseconds since the Unix epoch (`DateTime<Utc>`). -/
abbrev DateTime := ℤ

abbrev Duration := ℤ

def nanosPerSecond : ℤ := 1000000000

def u32Max : ℕ := 2 ^ 32 - 1
def u64Max : ℕ := 2 ^ 64 - 1
def i64Max : ℕ := 2 ^ 63 - 1

/-- `DateTime::<Utc>::MIN_UTC`, the first instant of the year -262143. -/
def DateTime.minUtc : DateTime := -8334601228800 * nanosPerSecond

/-- `DateTime::<Utc>::MAX_UTC`, the last nanosecond of the year 262142. -/
def DateTime.maxUtc : DateTime := 8210266876799 * nanosPerSecond + 999999999

def DateTime.add (start : DateTime) (span : Duration) : Option DateTime :=
  if DateTime.minUtc ≤ start + span ∧ start + span ≤ DateTime.maxUtc then some (start + span) else none

def dateTimeOverflowed : String := "`DateTime + TimeDelta` overflowed"

def secondsOutOfBounds : String := "TimeDelta::seconds out of bounds"

/-- `Duration::seconds`: at most `i64::MAX` milliseconds either way. -/
def Duration.seconds (n : ℤ) : Option Duration :=
  if n.natAbs ≤ i64Max / 1000 then some (n * nanosPerSecond) else none

def Duration.numSeconds (d : Duration) : ℕ := (d / nanosPerSecond).toNat

/-! ## Instants in a column -/

/-- The instant from which `timestamptz` counts: 2000-01-01. -/
def pgEpoch : DateTime := 946684800 * nanosPerSecond

/-- What a `timestamptz` column, or a parameter compared with one, keeps of an instant: the whole
microseconds from its epoch on. -/
def timestamptz (time : DateTime) : DateTime := (time - pgEpoch).tdiv 1000 * 1000 + pgEpoch

/-- A whole number of microseconds. -/
def WholeMicros (time : DateTime) : Prop := time % 1000 = 0

instance (time : DateTime) : Decidable (WholeMicros time) := inferInstanceAs (Decidable (time % 1000 = 0))

/-- Whole microseconds are stored as they are. -/
theorem timestamptz_of_whole {time : ℤ} (h : WholeMicros time) : timestamptz time = time := by
  have hwhole : time % 1000 = 0 := h
  have hdvd : (1000 : ℤ) ∣ time - 946684800000000000 := by omega
  change (time - 946684800000000000).tdiv 1000 * 1000 + 946684800000000000 = time
  rw [Int.tdiv_mul_cancel hdvd]
  omega

theorem timestamptz_whole (time : ℤ) : WholeMicros (timestamptz time) := by
  change ((time - 946684800000000000).tdiv 1000 * 1000 + 946684800000000000) % 1000 = 0
  omega

theorem timestamptz_eq_self_iff (time : ℤ) : timestamptz time = time ↔ WholeMicros time :=
  ⟨fun h => h ▸ timestamptz_whole time, timestamptz_of_whole⟩

@[simp] theorem timestamptz_idem (time : DateTime) :
    timestamptz (timestamptz time) = timestamptz time :=
  timestamptz_of_whole (timestamptz_whole time)

theorem timestamptz_mono {a b : ℤ} (h : a ≤ b) : timestamptz a ≤ timestamptz b := by
  have hcut := Int.tdiv_le_tdiv (by omega : (0 : ℤ) < 1000)
    (by omega : a - 946684800000000000 ≤ b - 946684800000000000)
  change (a - 946684800000000000).tdiv 1000 * 1000 + 946684800000000000 ≤
    (b - 946684800000000000).tdiv 1000 * 1000 + 946684800000000000
  omega

/-! ## Retry policy -/

structure RetryPolicy where
  maxAttempts : ℕ
  baseDelay : Duration
  factor : ℕ
  maxDelay : Option Duration
deriving DecidableEq, Repr

namespace RetryPolicy

def default : RetryPolicy where
  maxAttempts := 5
  baseDelay := 5 * nanosPerSecond
  factor := 2
  maxDelay := some (300 * nanosPerSecond)

def multiplier (policy : RetryPolicy) (attempt : ℕ) : ℕ :=
  max (min (max policy.factor 1 ^ min (attempt - 1) 31) u64Max) 1

/-- Exponential backoff for the given 1-based attempt number. The product saturates at `i64::MAX`
seconds, which `Duration::seconds` then refuses: the cap is only applied after it. -/
def delayFor (policy : RetryPolicy) (attempt : ℕ) : Option Duration :=
  let seconds := min (Duration.numSeconds (max policy.baseDelay 0) *
    min (policy.multiplier attempt) i64Max) i64Max
  (Duration.seconds seconds).map fun delay =>
    match policy.maxDelay with
    | some cap => if cap < delay then cap else delay
    | none => delay

end RetryPolicy

example : RetryPolicy.default.delayFor 3 = some (20 * nanosPerSecond) := by decide
example : RetryPolicy.default.delayFor 9 = some (300 * nanosPerSecond) := by decide

end Labrys.Core
