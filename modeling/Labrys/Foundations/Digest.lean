import Mathlib.Logic.Function.Basic
import Mathlib.Algebra.Ring.Nat

/-! # Digests

A digest folds a stream of symbols into a state. When each symbol acts injectively on the state, and
each state reads the symbols injectively, a stream and the same stream with one symbol changed never
have the same digest (`foldl_ne_of_changed`). The digits of a number determine it below a power of
the base. -/

namespace Labrys.Foundations
set_option autoImplicit false

section Fold
variable {σ β : Type} {step : σ → β → σ}

theorem foldl_injective (h : ∀ b, Function.Injective fun s => step s b) (bs : List β) :
    Function.Injective fun s => bs.foldl step s := by
  induction bs with
  | nil => exact Function.injective_id
  | cons b bs ih => exact ih.comp (h b)

/-- One symbol of the stream is changed. -/
theorem foldl_ne_of_changed (hstate : ∀ b, Function.Injective fun s => step s b)
    (hsymbol : ∀ s, Function.Injective (step s)) (s : σ) (front back : List β) {b c : β}
    (hne : b ≠ c) : (front ++ b :: back).foldl step s ≠ (front ++ c :: back).foldl step s := by
  rw [List.foldl_append, List.foldl_append, List.foldl_cons, List.foldl_cons]
  intro heq
  exact hne (hsymbol _ (foldl_injective hstate back heq))

end Fold

/-- Two numbers with the same first digits agree modulo that power of the base. -/
theorem mod_pow_eq_of_digits {base a b : ℕ} (width : ℕ)
    (h : ∀ i < width, a / base ^ i % base = b / base ^ i % base) :
    a % base ^ width = b % base ^ width := by
  induction width with
  | zero => rw [Nat.pow_zero, Nat.mod_one, Nat.mod_one]
  | succ width ih =>
    rw [Nat.mod_pow_succ, Nat.mod_pow_succ, ih fun i hi => h i (Nat.lt_succ_of_lt hi),
      h width (Nat.lt_succ_self width)]

end Labrys.Foundations
