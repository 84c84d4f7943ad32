import Mathlib.Data.Prod.Basic

/-! # Programs that fail and keep what they wrote

A program over a state gives the state it leaves and a value or an error; a failure keeps the
writes made before it. Sequencing stops at the first error, as an early return does. `Keeps view`
says that a program never changes what `view` sees, and is closed under sequencing; `Moves R` says
that it moves the state along a preorder. A `transaction` is a program that a failure leaves no
trace of. -/

namespace Labrys.Foundations
set_option autoImplicit false

/-- Of two steps that may fail and together return, each returns. -/
theorem except_bind_eq_ok {ε α β : Type} {x : Except ε α} {f : α → Except ε β} {b : β}
    (h : x >>= f = .ok b) : ∃ a, x = .ok a ∧ f a = .ok b := by
  cases x with
  | ok a => exact ⟨a, rfl, h⟩
  | error e => cases h

/-- A program over `σ` that returns an `α` or fails with an `ε`. -/
def Program (σ ε α : Type) := σ → σ × Except ε α

namespace Program
variable {σ ε α β γ : Type}

def andThen (m : Program σ ε α) (f : α → Program σ ε β) : Program σ ε β := fun s =>
  match (m s).2 with
  | .ok a => f a (m s).1
  | .error e => ((m s).1, .error e)

instance : Monad (Program σ ε) where
  pure := fun a s => (s, .ok a)
  bind := andThen

def ofExcept (x : Except ε α) : Program σ ε α := fun s => (s, x)

theorem bind_of_ok {m : Program σ ε α} {s s' : σ} {a : α} (h : m s = (s', .ok a))
    (f : α → Program σ ε β) : (m >>= f) s = f a s' := by
  change (match (m s).2 with
    | .ok a => f a (m s).1
    | .error e => ((m s).1, .error e)) = f a s'
  rw [h]

theorem bind_of_error {m : Program σ ε α} {s s' : σ} {e : ε} (h : m s = (s', .error e))
    (f : α → Program σ ε β) : (m >>= f) s = (s', .error e) := by
  change (match (m s).2 with
    | .ok a => f a (m s).1
    | .error e => ((m s).1, .error e)) = (s', .error e)
  rw [h]

/-- A run, by its result. -/
theorem run_of_snd {m : Program σ ε α} {s : σ} {result : Except ε α} (h : (m s).2 = result) :
    m s = ((m s).1, result) := Prod.ext rfl h

theorem bind_of_snd_ok {m : Program σ ε α} {s : σ} {a : α} (h : (m s).2 = .ok a)
    (f : α → Program σ ε β) : (m >>= f) s = f a (m s).1 :=
  bind_of_ok (run_of_snd h) f

theorem bind_of_snd_error {m : Program σ ε α} {s : σ} {e : ε} (h : (m s).2 = .error e)
    (f : α → Program σ ε β) : (m >>= f) s = ((m s).1, .error e) :=
  bind_of_error (run_of_snd h) f

theorem bind_eq_ok {m : Program σ ε α} {f : α → Program σ ε β} {s s'' : σ} {b : β}
    (h : (m >>= f) s = (s'', .ok b)) : ∃ s' a, m s = (s', .ok a) ∧ f a s' = (s'', .ok b) := by
  cases hm : (m s).2 with
  | ok a => exact ⟨(m s).1, a, run_of_snd hm, by rw [← h, bind_of_snd_ok hm]⟩
  | error e =>
    rw [bind_of_snd_error hm] at h
    cases h

instance : LawfulMonad (Program σ ε) := by
  refine LawfulMonad.mk' (Program σ ε) ?_ ?_ ?_
  · intro α m
    funext s
    change (match (m s).2 with
      | .ok a => ((m s).1, .ok a)
      | .error e => ((m s).1, .error e)) = m s
    split <;> next h => rw [← h]
  · intro α β a f
    rfl
  · intro α β γ m f g
    funext s
    cases h : (m s).2 with
    | ok a =>
      rw [bind_of_snd_ok h]
      change andThen (andThen m f) g s = andThen (f a) g (m s).1
      unfold andThen
      simp only [h]
    | error e =>
      have herror := run_of_snd h
      rw [bind_of_error herror, bind_of_error (bind_of_error herror f)]

/-- The program leaves what `view` sees as it was. -/
def Keeps (view : σ → γ) (m : Program σ ε α) : Prop := ∀ s, view (m s).1 = view s

variable {view : σ → γ}

theorem Keeps.of_run {m : Program σ ε α} (h : Keeps view m) {s s' : σ} {result : Except ε α}
    (hm : m s = (s', result)) : view s' = view s := by
  have hkept := h s
  rwa [hm] at hkept

theorem keeps_pure (a : α) : Keeps view (pure a : Program σ ε α) := fun _ => rfl

theorem keeps_ofExcept (x : Except ε α) : Keeps view (ofExcept x : Program σ ε α) := fun _ => rfl

theorem Keeps.bind_right (view : σ → γ) {m : Program σ ε α} {f : α → Program σ ε β}
    (hf : ∀ a, Keeps view (f a)) (s : σ) : view ((m >>= f) s).1 = view (m s).1 := by
  cases h : (m s).2 with
  | ok a => rw [bind_of_snd_ok h, hf a]
  | error e => rw [bind_of_snd_error h]

theorem Keeps.bind {m : Program σ ε α} {f : α → Program σ ε β} (hm : Keeps view m)
    (hf : ∀ a, Keeps view (f a)) : Keeps view (m >>= f) :=
  fun s => (Keeps.bind_right view hf s).trans (hm s)

/-- A run that fails leaves what `view` sees as it was. -/
def KeepsFailing (view : σ → γ) (m : Program σ ε α) : Prop :=
  ∀ s s' e, m s = (s', .error e) → view s' = view s

theorem Keeps.failing {m : Program σ ε α} (h : Keeps view m) : KeepsFailing view m :=
  fun _ _ _ hm => h.of_run hm

theorem Keeps.bind_failing {m : Program σ ε α} {f : α → Program σ ε β} (hm : Keeps view m)
    (hf : ∀ a, KeepsFailing view (f a)) : KeepsFailing view (m >>= f) := by
  intro s s' e h
  cases hresult : (m s).2 with
  | ok a =>
    rw [bind_of_snd_ok hresult] at h
    exact (hf a (m s).1 s' e h).trans (hm s)
  | error e' =>
    rw [bind_of_snd_error hresult] at h
    obtain ⟨rfl, -⟩ := Prod.mk.inj h
    exact hm s

/-- A program whose error the caller drops. -/
def dropError (m : Program σ ε α) : Program σ ε Unit := fun s => ((m s).1, .ok ())

/-- A program whose result, value or error, the caller looks at. -/
def attempt (m : Program σ ε α) : Program σ ε (Except ε α) := fun s => ((m s).1, .ok (m s).2)

theorem bind_attempt (m : Program σ ε α) (f : Except ε α → Program σ ε β) (s : σ) :
    (m.attempt >>= f) s = f (m s).2 (m s).1 :=
  bind_of_ok (m := m.attempt) rfl f

/-- Every run moves the state along `R`. -/
def Moves (R : σ → σ → Prop) (m : Program σ ε α) : Prop := ∀ s, R s (m s).1

section Moves
variable {R : σ → σ → Prop}

theorem Moves.dropError {m : Program σ ε α} (h : Moves R m) : Moves R m.dropError := h

theorem moves_ofExcept (hrefl : ∀ s, R s s) (x : Except ε α) :
    Moves R (ofExcept x : Program σ ε α) := hrefl

theorem moves_pure (hrefl : ∀ s, R s s) (a : α) : Moves R (pure a : Program σ ε α) := hrefl

theorem Moves.bind (htrans : ∀ {s t u}, R s t → R t u → R s u) {m : Program σ ε α}
    {f : α → Program σ ε β} (hm : Moves R m) (hf : ∀ a, Moves R (f a)) : Moves R (m >>= f) := by
  intro s
  cases h : (m s).2 with
  | ok a =>
    rw [bind_of_snd_ok h]
    exact htrans (hm s) (hf a _)
  | error e =>
    rw [bind_of_snd_error h]
    exact hm s

end Moves

/-- Whatever the program returns satisfies `Q`. -/
def Returns (Q : α → Prop) (m : Program σ ε α) : Prop := ∀ s s' a, m s = (s', .ok a) → Q a

theorem Returns.bind {Q : β → Prop} {m : Program σ ε α} {f : α → Program σ ε β}
    (h : ∀ a, Returns Q (f a)) : Returns Q (m >>= f) := by
  intro s s'' b hb
  obtain ⟨s', a, -, hrest⟩ := bind_eq_ok hb
  exact h a s' s'' b hrest

theorem Returns.bind_of {P : α → Prop} {Q : β → Prop} {m : Program σ ε α}
    {f : α → Program σ ε β} (hm : Returns P m) (h : ∀ a, P a → Returns Q (f a)) :
    Returns Q (m >>= f) := by
  intro s s'' b hb
  obtain ⟨s', a, ha, hrest⟩ := bind_eq_ok hb
  exact h a (hm s s' a ha) s' s'' b hrest

theorem returns_pure {Q : α → Prop} {a : α} (h : Q a) : Returns Q (pure a : Program σ ε α) := by
  intro s s' b hb
  obtain rfl : a = b := Except.ok.inj (congrArg Prod.snd hb)
  exact h

theorem Returns.ite {Q : α → Prop} {c : Prop} [Decidable c] {m n : Program σ ε α}
    (hm : Returns Q m) (hn : Returns Q n) : Returns Q (if c then m else n) := by
  by_cases hc : c
  · rwa [if_pos hc]
  · rwa [if_neg hc]

/-- Whatever the program fails with satisfies `Q`. -/
def Raises (Q : ε → Prop) (m : Program σ ε α) : Prop := ∀ s s' e, m s = (s', .error e) → Q e

theorem raises_pure {Q : ε → Prop} (a : α) : Raises Q (pure a : Program σ ε α) := by
  intro s s' e h
  cases congrArg Prod.snd h

theorem raises_ofExcept {Q : ε → Prop} {x : Except ε α} (h : ∀ e, x = .error e → Q e) :
    Raises Q (ofExcept x : Program σ ε α) :=
  fun _ _ e hrun => h e (congrArg Prod.snd hrun)

theorem raises_dropError {Q : ε → Prop} (m : Program σ ε α) : Raises Q m.dropError := by
  intro s s' e h
  cases congrArg Prod.snd h

theorem Raises.bind {Q : ε → Prop} {m : Program σ ε α} {f : α → Program σ ε β}
    (hm : Raises Q m) (hf : ∀ a, Raises Q (f a)) : Raises Q (m >>= f) := by
  intro s s' e h
  cases hresult : (m s).2 with
  | ok a =>
    rw [bind_of_snd_ok hresult] at h
    exact hf a _ s' e h
  | error e' =>
    rw [bind_of_snd_error hresult] at h
    obtain rfl : e' = e := Except.error.inj (congrArg Prod.snd h)
    exact hm s _ e' (run_of_snd hresult)

/-- A run that returns, or fails with an error in `P`, leaves the state as it was. -/
def Spares (P : ε → Prop) (m : Program σ ε α) : Prop :=
  ∀ s, (∀ e, (m s).2 = .error e → P e) → (m s).1 = s

section Spares
variable {P : ε → Prop}

theorem Spares.of_same {m : Program σ ε α} (h : ∀ s, (m s).1 = s) : Spares P m := fun s _ => h s

theorem Spares.bind {m : Program σ ε α} {f : α → Program σ ε β} (hm : Spares P m)
    (hf : ∀ a, Spares P (f a)) : Spares P (m >>= f) := by
  intro s h
  cases hresult : (m s).2 with
  | ok a =>
    have hsame : (m s).1 = s := hm s fun e he => by rw [hresult] at he; cases he
    rw [bind_of_snd_ok hresult, hsame] at h ⊢
    exact hf a s h
  | error e =>
    rw [bind_of_snd_error hresult] at h ⊢
    refine hm s fun e' he' => h e' ?_
    rw [hresult] at he'
    exact congrArg Except.error (Except.error.inj he')

end Spares

/-- All or nothing: a failure takes back what was written before it. -/
def transaction (m : Program σ ε α) : Program σ ε α := fun s =>
  match (m s).2 with
  | .ok a => ((m s).1, .ok a)
  | .error e => (s, .error e)

theorem transaction_of_ok {m : Program σ ε α} {s : σ} {a : α} (h : (m s).2 = .ok a) :
    m.transaction s = ((m s).1, .ok a) := by
  unfold transaction
  rw [h]

theorem transaction_of_error {m : Program σ ε α} {s : σ} {e : ε} (h : (m s).2 = .error e) :
    m.transaction s = (s, .error e) := by
  unfold transaction
  rw [h]

/-- One program after the other, up to the first that fails. -/
def sequence : List (Program σ ε Unit) → Program σ ε Unit
  | [] => pure ()
  | m :: ms => m >>= fun _ => sequence ms

theorem keeps_sequence {ms : List (Program σ ε Unit)} (h : ∀ m ∈ ms, Keeps view m) :
    Keeps view (sequence ms) := by
  induction ms with
  | nil => exact keeps_pure ()
  | cons m ms ih =>
    exact (h m List.mem_cons_self).bind fun _ => ih fun m' hm' => h m' (List.mem_cons_of_mem m hm')

/-- Only the first program of the sequence touches what `view` sees. -/
theorem view_sequence_cons (view : σ → γ) {m : Program σ ε Unit} {ms : List (Program σ ε Unit)}
    (h : ∀ m ∈ ms, Keeps view m) (s : σ) : view (sequence (m :: ms) s).1 = view (m s).1 :=
  Keeps.bind_right view (fun _ => keeps_sequence h) s

end Program
end Labrys.Foundations
