import Labrys.Foundations.Program
import Mathlib.Logic.Relation

/-! # Scripts of atomic statements

A script is a program whose statements can be told apart: each one rewrites the state at once, and
what follows may depend on the state it found. Run without interruption a script is a `Program`;
advanced one statement at a time it can be interleaved with others, or stopped between any two.

* `run`, `advance`: the two readings, and that they agree.
* `Steps R`: every statement, in whatever state it is reached, moves along `R`.
* `Adds count n`: the statements raise `count` by `n` at most, whatever happens in between.
* `Yields Q`, `Raises Q`: what the script may return, and what it may fail with.
* `Respects view`: the script sees and changes nothing but `view`.
-/

namespace Labrys.Foundations
set_option autoImplicit false

inductive Script (σ ε α : Type)
  | done (result : Except ε α)
  | step (write : σ → σ) (next : σ → Script σ ε α)

namespace Script
variable {σ ε α β γ : Type}

def andThen : Script σ ε α → (α → Script σ ε β) → Script σ ε β
  | done (.ok a), f => f a
  | done (.error e), _ => done (.error e)
  | step write next, f => step write fun s => (next s).andThen f

instance : Monad (Script σ ε) where
  pure := fun a => done (.ok a)
  bind := andThen

theorem bind_assoc (m : Script σ ε α) (f : α → Script σ ε β) (g : β → Script σ ε γ) :
    m >>= f >>= g = m >>= fun a => f a >>= g := by
  induction m with
  | done result => cases result <;> rfl
  | step write next ih => exact congrArg (step write) (funext ih)

/-- A program as a single statement. -/
def atomic (m : Program σ ε α) : Script σ ε α := step (fun s => (m s).1) fun s => done (m s).2

/-! ## The whole script, and one statement -/

def run : Script σ ε α → Program σ ε α
  | done result, s => (s, result)
  | step write next, s => (next s).run (write s)

def advance : Script σ ε α → σ → σ × Script σ ε α
  | done result, s => (s, done result)
  | step write next, s => (write s, next s)

@[simp] theorem run_done (result : Except ε α) (s : σ) :
    (done result : Script σ ε α).run s = (s, result) := rfl

theorem run_bind (m : Script σ ε α) (f : α → Script σ ε β) :
    (m >>= f).run = m.run >>= fun a => (f a).run := by
  induction m with
  | done result => cases result <;> rfl
  | step write next ih =>
    funext s
    exact congrFun (ih s) (write s)

theorem run_advance (m : Script σ ε α) (s : σ) :
    (m.advance s).2.run (m.advance s).1 = m.run s := by
  cases m <;> rfl

/-- The state and what is left of the script after some statements. -/
def after (m : Script σ ε α) : ℕ → σ → σ × Script σ ε α
  | 0, s => (s, m)
  | n + 1, s => (m.after n s).2.advance (m.after n s).1

theorem run_after (m : Script σ ε α) (n : ℕ) (s : σ) :
    (m.after n s).2.run (m.after n s).1 = m.run s := by
  induction n with
  | zero => rfl
  | succ n ih => exact (run_advance _ _).trans ih

/-! ## What every statement does -/

def Steps (R : σ → σ → Prop) : Script σ ε α → Prop
  | done _ => True
  | step write next => ∀ s, R s (write s) ∧ (next s).Steps R

section Steps
variable {R : σ → σ → Prop}

theorem steps_atomic {m : Program σ ε α} (h : ∀ s, R s (m s).1) : (atomic m).Steps R :=
  fun s => ⟨h s, trivial⟩

theorem Steps.bind {m : Script σ ε α} {f : α → Script σ ε β} (hm : m.Steps R)
    (hf : ∀ a, (f a).Steps R) : (m >>= f).Steps R := by
  induction m with
  | done result =>
    cases result with
    | ok a => exact hf a
    | error e => trivial
  | step write next ih => exact fun s => ⟨(hm s).1, ih s (hm s).2⟩

theorem Steps.mono {R' : σ → σ → Prop} (h : ∀ s s', R s s' → R' s s') {m : Script σ ε α}
    (hm : m.Steps R) : m.Steps R' := by
  induction m with
  | done result => trivial
  | step write next ih => exact fun s => ⟨h s (write s) (hm s).1, ih s (hm s).2⟩

theorem Steps.run {m : Script σ ε α} (h : m.Steps R) (s : σ) :
    Relation.ReflTransGen R s (m.run s).1 := by
  induction m generalizing s with
  | done result => exact Relation.ReflTransGen.refl
  | step write next ih => exact Relation.ReflTransGen.head (h s).1 (ih s (h s).2 (write s))

theorem Steps.advance {m : Script σ ε α} (h : m.Steps R) (s : σ) :
    ((m.advance s).1 = s ∨ R s (m.advance s).1) ∧ (m.advance s).2.Steps R := by
  cases m with
  | done result => exact ⟨.inl rfl, trivial⟩
  | step write next => exact ⟨.inr (h s).1, (h s).2⟩

end Steps

/-- No statement of the script changes what `view` sees. -/
def Keeps (view : σ → γ) (m : Script σ ε α) : Prop := m.Steps fun s s' => view s' = view s

theorem Keeps.run {view : σ → γ} {m : Script σ ε α} (h : m.Keeps view) : m.run.Keeps view := by
  intro s
  induction m generalizing s with
  | done result => rfl
  | step write next ih => exact (ih s (h s).2 (write s)).trans (h s).1

theorem Keeps.advance {view : σ → γ} {m : Script σ ε α} (h : m.Keeps view) (s : σ) :
    view (m.advance s).1 = view s ∧ (m.advance s).2.Keeps view := by
  obtain ⟨hsame | hstep, hrest⟩ := Steps.advance h s
  · exact ⟨congrArg view hsame, hrest⟩
  · exact ⟨hstep, hrest⟩

theorem Keeps.after {view : σ → γ} {m : Script σ ε α} (h : m.Keeps view) (n : ℕ) (s : σ) :
    (m.after n s).2.Keeps view := by
  induction n with
  | zero => exact h
  | succ n ih => exact (ih.advance _).2

/-- Whatever the script returns satisfies `Q`, whatever happens between its statements. -/
def Yields (Q : α → Prop) : Script σ ε α → Prop
  | done (.ok a) => Q a
  | done (.error _) => True
  | step _ next => ∀ s, (next s).Yields Q

theorem yields_true (m : Script σ ε α) : m.Yields fun _ => True := by
  induction m with
  | done result => cases result <;> trivial
  | step write next ih => exact ih

theorem Yields.bind {P : α → Prop} {Q : β → Prop} {m : Script σ ε α} {f : α → Script σ ε β}
    (hm : m.Yields P) (hf : ∀ a, P a → (f a).Yields Q) : (m >>= f).Yields Q := by
  induction m with
  | done result =>
    cases result with
    | ok a => exact hf a hm
    | error e => trivial
  | step write next ih => exact fun s => ih s (hm s)

theorem Yields.advance {Q : α → Prop} {m : Script σ ε α} (h : m.Yields Q) (s : σ) :
    (m.advance s).2.Yields Q := by
  cases m with
  | done result => exact h
  | step write next => exact h s

/-- Whatever the script fails with satisfies `Q`, whatever happens between its statements. -/
def Raises (Q : ε → Prop) : Script σ ε α → Prop
  | done (.ok _) => True
  | done (.error e) => Q e
  | step _ next => ∀ s, (next s).Raises Q

theorem Raises.bind {Q : ε → Prop} {m : Script σ ε α} {f : α → Script σ ε β} (hm : m.Raises Q)
    (hf : ∀ a, (f a).Raises Q) : (m >>= f).Raises Q := by
  induction m with
  | done result =>
    cases result with
    | ok a => exact hf a
    | error e => exact hm
  | step write next ih => exact fun s => ih s (hm s)

theorem Raises.run {Q : ε → Prop} {m : Script σ ε α} (h : m.Raises Q) {s : σ} {e : ε}
    (hrun : (m.run s).2 = .error e) : Q e := by
  induction m generalizing s with
  | done result =>
    change result = .error e at hrun
    subst hrun
    exact h
  | step write next ih => exact ih s (h s) hrun

/-! ## Counting -/

def Adds (count : σ → ℕ) : Script σ ε α → ℕ → Prop
  | done _, _ => True
  | step write next, n =>
      ∀ s, ∃ k ≤ n, count (write s) = count s + k ∧ (next s).Adds count (n - k)

section Adds
variable {count : σ → ℕ}

theorem Adds.mono {m : Script σ ε α} {n n' : ℕ} (h : m.Adds count n) (hle : n ≤ n') :
    m.Adds count n' := by
  induction m generalizing n n' with
  | done result => trivial
  | step write next ih =>
    intro s
    obtain ⟨k, hk, hcount, hnext⟩ := h s
    exact ⟨k, Nat.le_trans hk hle, hcount, ih s hnext (by omega)⟩

theorem Adds.bind {m : Script σ ε α} {f : α → Script σ ε β} {n n' : ℕ} (hm : m.Adds count n)
    (hf : ∀ a, (f a).Adds count n') : (m >>= f).Adds count (n + n') := by
  induction m generalizing n with
  | done result =>
    cases result with
    | ok a => exact (hf a).mono (by omega)
    | error e => trivial
  | step write next ih =>
    intro s
    obtain ⟨k, hk, hcount, hnext⟩ := hm s
    refine ⟨k, by omega, hcount, ?_⟩
    rw [show n + n' - k = n - k + n' by omega]
    exact ih s hnext

theorem Adds.advance {m : Script σ ε α} {n : ℕ} (h : m.Adds count n) (s : σ) :
    ∃ k ≤ n, count (m.advance s).1 = count s + k ∧ (m.advance s).2.Adds count (n - k) := by
  cases m with
  | done result => exact ⟨0, Nat.zero_le n, rfl, trivial⟩
  | step write next => exact h s

theorem Adds.after {m : Script σ ε α} {n : ℕ} (h : m.Adds count n) (steps : ℕ) (s : σ) :
    ∃ k ≤ n, count (m.after steps s).1 = count s + k ∧
      (m.after steps s).2.Adds count (n - k) := by
  induction steps with
  | zero => exact ⟨0, Nat.zero_le n, rfl, h⟩
  | succ steps ih =>
    obtain ⟨k, hk, hcount, hrest⟩ := ih
    obtain ⟨k', hk', hcount', hrest'⟩ := hrest.advance (m.after steps s).1
    refine ⟨k + k', by omega, ?_, ?_⟩
    · rw [Script.after, hcount', hcount, Nat.add_assoc]
    · rw [Script.after, show n - (k + k') = n - k - k' by omega]
      exact hrest'

end Adds

/-! ## Scripts that see a part of the state -/

def Respects (view : σ → γ) : Script σ ε α → Prop
  | done _ => True
  | step write next => ∀ s, (next s).Respects view ∧
      ∀ s', view s' = view s → view (write s') = view (write s) ∧ next s' = next s

section Respects
variable {view : σ → γ}

theorem Respects.bind {m : Script σ ε α} {f : α → Script σ ε β} (hm : m.Respects view)
    (hf : ∀ a, (f a).Respects view) : (m >>= f).Respects view := by
  induction m with
  | done result =>
    cases result with
    | ok a => exact hf a
    | error e => trivial
  | step write next ih =>
    intro s
    refine ⟨ih s (hm s).1, fun s' hs' => ⟨((hm s).2 s' hs').1, ?_⟩⟩
    change (next s').andThen f = (next s).andThen f
    rw [((hm s).2 s' hs').2]

/-- Two states that look the same are left looking the same, with the same left to do. -/
theorem Respects.advance_congr {m : Script σ ε α} (h : m.Respects view) {s s' : σ}
    (hs : view s' = view s) :
    view (m.advance s').1 = view (m.advance s).1 ∧ (m.advance s').2 = (m.advance s).2 := by
  cases m with
  | done result => exact ⟨hs, rfl⟩
  | step write next => exact (h s).2 s' hs

theorem Respects.run_congr {m : Script σ ε α} (h : m.Respects view) {s s' : σ}
    (hs : view s' = view s) : view (m.run s').1 = view (m.run s).1 ∧ (m.run s').2 = (m.run s).2 := by
  induction m generalizing s s' with
  | done result => exact ⟨hs, rfl⟩
  | step write next ih =>
    obtain ⟨hrest, hsame⟩ := h s
    obtain ⟨hview, hnext⟩ := hsame s' hs
    change view ((next s').run (write s')).1 = view ((next s).run (write s)).1 ∧
      ((next s').run (write s')).2 = ((next s).run (write s)).2
    rw [hnext]
    exact ih s hrest hview

theorem Respects.after {m : Script σ ε α} (h : m.Respects view) (n : ℕ) (s : σ) :
    (m.after n s).2.Respects view := by
  induction n with
  | zero => exact h
  | succ n ih =>
    rw [Script.after]
    cases hrest : (m.after n s).2 with
    | done result => trivial
    | step write next =>
      rw [hrest] at ih
      exact (ih _).1

end Respects

end Script
end Labrys.Foundations
