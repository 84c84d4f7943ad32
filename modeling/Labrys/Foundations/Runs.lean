import Mathlib.Data.List.Basic

/-! # Input-driven machines and what holds along their runs

A machine answers one input at a time and keeps a state. Everything a program does over a
history is a run of such a machine, so each safety result is an invariant of one step, lifted
here once to every run.

* `Machine.run`, `Machine.answers`: the state after a list of inputs, and the answers on the way.
* `Machine.Guarded G s is`: every step of the run meets `G` in the state before it; the rule
  `Machine.run_invariant` needs an invariant to survive the guarded steps only.
* `Machine.fold`: a count kept along a run, and the invariant rule for it.
* `Machine.pair`: two machines fed the same inputs; `Machine.answers_pair_eq` is forward
  simulation with a guard on the pair of states.
-/

namespace Labrys.Foundations
set_option autoImplicit false

/-- A deterministic machine: a state and an input give the next state and an answer. -/
structure Machine (σ ι ω : Type) where
  step : σ → ι → σ × ω

/-- An operation's result with its answer tagged, for machines whose inputs are operations with
answers of different types. -/
def answered {σ α ω : Type} (tag : α → ω) (result : σ × α) : σ × ω := (result.1, tag result.2)

namespace Machine
variable {σ τ ι ω ω' : Type} (M : Machine σ ι ω) (N : Machine τ ι ω')

def next (s : σ) (i : ι) : σ := (M.step s i).1

def answer (s : σ) (i : ι) : ω := (M.step s i).2

def run (s : σ) : List ι → σ
  | [] => s
  | i :: is => run (M.next s i) is

def answers (s : σ) : List ι → List ω
  | [] => []
  | i :: is => M.answer s i :: answers (M.next s i) is

/-- Every step of the run meets `G` in the state before it. -/
def Guarded (G : σ → ι → Prop) (s : σ) : List ι → Prop
  | [] => True
  | i :: is => G s i ∧ Guarded G (M.next s i) is

theorem next_of_step {s s' : σ} {i : ι} {o : ω} (h : M.step s i = (s', o)) : M.next s i = s' := by
  rw [next, h]

theorem answer_of_step {s s' : σ} {i : ι} {o : ω} (h : M.step s i = (s', o)) :
    M.answer s i = o := by
  rw [answer, h]

@[simp] theorem run_nil (s : σ) : M.run s [] = s := rfl

@[simp] theorem run_cons (s : σ) (i : ι) (is : List ι) :
    M.run s (i :: is) = M.run (M.next s i) is := rfl

theorem run_append (s : σ) (is js : List ι) : M.run s (is ++ js) = M.run (M.run s is) js := by
  induction is generalizing s with
  | nil => rfl
  | cons i is ih => exact ih (M.next s i)

theorem guarded_of_forall {G : σ → ι → Prop} {is : List ι} (h : ∀ i ∈ is, ∀ s, G s i) (s : σ) :
    M.Guarded G s is := by
  induction is generalizing s with
  | nil => trivial
  | cons i is ih =>
    exact ⟨h i List.mem_cons_self s, ih (fun j hj => h j (List.mem_cons_of_mem i hj)) (M.next s i)⟩

/-- A guard that does not look at the state. -/
theorem guarded_iff_forall {Q : ι → Prop} (s : σ) (is : List ι) :
    M.Guarded (fun _ i => Q i) s is ↔ ∀ i ∈ is, Q i := by
  induction is generalizing s with
  | nil => simp [Guarded]
  | cons i is ih =>
    rw [List.forall_mem_cons]
    exact and_congr_right fun _ => ih (M.next s i)

theorem guarded_mono {G Q : σ → ι → Prop} (h : ∀ s i, G s i → Q s i) (s : σ) (is : List ι)
    (hG : M.Guarded G s is) : M.Guarded Q s is := by
  induction is generalizing s with
  | nil => trivial
  | cons i is ih => exact ⟨h s i hG.1, ih (M.next s i) hG.2⟩

theorem guarded_congr {G Q : σ → ι → Prop} (h : ∀ s i, G s i ↔ Q s i) (s : σ) (is : List ι) :
    M.Guarded G s is ↔ M.Guarded Q s is := by
  induction is generalizing s with
  | nil => exact Iff.rfl
  | cons i is ih => exact and_congr (h s i) (ih (M.next s i))

theorem guarded_true (s : σ) (is : List ι) : M.Guarded (fun _ _ => True) s is :=
  M.guarded_of_forall (fun _ _ _ => trivial) s

theorem guarded_append {G : σ → ι → Prop} (s : σ) (is js : List ι) :
    M.Guarded G s (is ++ js) ↔ M.Guarded G s is ∧ M.Guarded G (M.run s is) js := by
  induction is generalizing s with
  | nil => exact ⟨fun h => ⟨trivial, h⟩, And.right⟩
  | cons i is ih => exact (and_congr_right fun _ => ih (M.next s i)).trans and_assoc.symm

theorem guarded_replicate {G : σ → ι → Prop} {s : σ} {i : ι} {n : ℕ}
    (h : ∀ k < n, G (M.run s (List.replicate k i)) i) : M.Guarded G s (List.replicate n i) := by
  induction n with
  | zero => trivial
  | succ n ih =>
    rw [List.replicate_succ', guarded_append]
    exact ⟨ih fun k hk => h k (Nat.lt_succ_of_lt hk), h n (Nat.lt_succ_self n), trivial⟩

/-- **Invariant rule.** What every guarded step preserves holds after every guarded run. -/
theorem run_invariant {G : σ → ι → Prop} {P : σ → Prop}
    (hstep : ∀ s i, P s → G s i → P (M.next s i)) (s : σ) (is : List ι) (hs : P s)
    (hG : M.Guarded G s is) : P (M.run s is) := by
  induction is generalizing s with
  | nil => exact hs
  | cons i is ih => exact ih (M.next s i) (hstep s i hs hG.1) hG.2

/-- What every guarded step from an invariant does, every step of a guarded run does. -/
theorem guarded_of_invariant {G Q : σ → ι → Prop} {P : σ → Prop}
    (hstep : ∀ s i, P s → G s i → P (M.next s i) ∧ Q s i) (s : σ) (is : List ι) (hs : P s)
    (hG : M.Guarded G s is) : M.Guarded Q s is := by
  induction is generalizing s with
  | nil => trivial
  | cons i is ih =>
    obtain ⟨hnext, hQ⟩ := hstep s i hs hG.1
    exact ⟨hQ, ih (M.next s i) hnext hG.2⟩

theorem run_invariant_all {P : σ → Prop} (hstep : ∀ s i, P s → P (M.next s i)) (s : σ)
    (is : List ι) (hs : P s) : P (M.run s is) :=
  M.run_invariant (fun s i h _ => hstep s i h) s is hs (M.guarded_true s is)

/-- What every step keeps holds from the point on at which it first does. -/
theorem run_take_le {P : σ → Prop} (hstep : ∀ s i, P s → P (M.next s i)) (s : σ) (is : List ι)
    {n m : ℕ} (h : n ≤ m) (hP : P (M.run s (is.take n))) : P (M.run s (is.take m)) := by
  obtain ⟨k, rfl⟩ := Nat.exists_eq_add_of_le h
  rw [List.take_add, run_append]
  exact M.run_invariant_all hstep _ _ hP

/-- **Exactness.** Under a premise on the steps, let `I` be an invariant that the guarded steps keep
and that gives `P`, and let a step from `I` to `P` be a guarded one. Then `P` holds in every state
of a run exactly if every step of the run is guarded. -/
theorem forall_run_take_iff_guarded {H G : σ → ι → Prop} {I P : σ → Prop} (hI : ∀ s, I s → P s)
    (hkeep : ∀ s i, I s → H s i → G s i → I (M.next s i))
    (hexact : ∀ s i, I s → H s i → P (M.next s i) → G s i) (s : σ) (is : List ι) (hs : I s)
    (hH : M.Guarded H s is) :
    (∀ n, P (M.run s (is.take n))) ↔ M.Guarded G s is := by
  induction is generalizing s with
  | nil => simpa [Guarded] using hI s hs
  | cons i is ih =>
    constructor
    · intro h
      have hG : G s i := hexact s i hs hH.1 (by simpa using h 1)
      exact ⟨hG, (ih (M.next s i) (hkeep s i hs hH.1 hG) hH.2).mp fun n => h (n + 1)⟩
    · rintro ⟨hG, hrest⟩ n
      cases n with
      | zero => exact hI s hs
      | succ n => exact (ih (M.next s i) (hkeep s i hs hH.1 hG) hH.2).mpr hrest n

/-- **Origin.** What is once set and never changed again was set by one input of the run, the first
after which it is there. -/
theorem run_origin {κ : Type} {get : σ → Option κ}
    (hkeep : ∀ s i v, get s = some v → get (M.next s i) = some v) {s : σ} {is : List ι} {v : κ}
    (hnone : get s = none) (hsome : get (M.run s is) = some v) :
    ∃ before i after, is = before ++ i :: after ∧ get (M.run s before) = none ∧
      get (M.next (M.run s before) i) = some v := by
  induction is generalizing s with
  | nil =>
    rw [run_nil, hnone] at hsome
    cases hsome
  | cons i is ih =>
    cases hnext : get (M.next s i) with
    | none =>
      obtain ⟨before, j, after, rfl, hbefore, hset⟩ := ih hnext hsome
      exact ⟨i :: before, j, after, rfl, hbefore, hset⟩
    | some w =>
      have hlast : get (M.run (M.next s i) is) = some w :=
        M.run_invariant_all (fun s i => hkeep s i w) (M.next s i) is hnext
      obtain rfl := Option.some_inj.mp (hlast.symm.trans hsome)
      exact ⟨[], i, is, rfl, hnone, hnext⟩

/-- **Origin of a row.** If every step's rows were there before it or are its own, every row at the
end of a run was there at its beginning or is a step's own. -/
theorem run_mem_origin {κ : Type} (rows : σ → List κ) {Q : σ → ι → κ → Prop}
    (hstep : ∀ s i r, r ∈ rows (M.next s i) → r ∈ rows s ∨ Q s i r) {s : σ} {is : List ι} {r : κ}
    (h : r ∈ rows (M.run s is)) :
    r ∈ rows s ∨ ∃ before i after, is = before ++ i :: after ∧ Q (M.run s before) i r := by
  induction is generalizing s with
  | nil => exact .inl h
  | cons i is ih =>
    obtain hnext | ⟨before, j, after, rfl, hQ⟩ := ih h
    · obtain hthere | hown := hstep s i r hnext
      · exact .inl hthere
      · exact .inr ⟨[], i, is, rfl, hown⟩
    · exact .inr ⟨i :: before, j, after, rfl, hQ⟩

/-- **Isolation.** If only some inputs concern a view, and what they make of it depends on the view
alone, then so does the whole run: on those inputs, in their order. -/
theorem view_run_filter {γ : Type} (view : σ → γ) {concerns : ι → Bool} {write : γ → ι → γ}
    {G : σ → ι → Prop}
    (hskip : ∀ s i, G s i → concerns i = false → view (M.next s i) = view s)
    (hwrite : ∀ s i, G s i → concerns i = true → view (M.next s i) = write (view s) i)
    (s : σ) (is : List ι) (hG : M.Guarded G s is) :
    view (M.run s is) = (is.filter concerns).foldl write (view s) := by
  induction is generalizing s with
  | nil => rfl
  | cons i is ih =>
    rw [run_cons, ih (M.next s i) hG.2]
    cases hi : concerns i with
    | false => rw [List.filter_cons_of_neg (by simp [hi]), hskip s i hG.1 hi]
    | true => rw [List.filter_cons_of_pos hi, List.foldl_cons, hwrite s i hG.1 hi]

/-- **Until.** If a guarded step from `P` keeps `P` or is one of `Q`, then along a guarded run `P`
holds throughout or up to a step of `Q`. -/
theorem run_until {P : σ → Prop} {Q : σ → ι → Prop} {G : σ → ι → Prop}
    (hstep : ∀ s i, P s → G s i → P (M.next s i) ∨ Q s i) (s : σ) (is : List ι) (hs : P s)
    (hG : M.Guarded G s is) :
    (∀ n, P (M.run s (is.take n))) ∨
      ∃ before i after, is = before ++ i :: after ∧ Q (M.run s before) i := by
  induction is generalizing s with
  | nil => exact .inl fun n => by simpa using hs
  | cons i is ih =>
    obtain hnext | hQ := hstep s i hs hG.1
    · obtain hall | ⟨before, j, after, rfl, hQ⟩ := ih (M.next s i) hnext hG.2
      · refine .inl fun n => ?_
        cases n with
        | zero => exact hs
        | succ n => exact hall n
      · exact .inr ⟨i :: before, j, after, rfl, hQ⟩
    · exact .inr ⟨[], i, is, rfl, hQ⟩

theorem answers_append (s : σ) (is js : List ι) :
    M.answers s (is ++ js) = M.answers s is ++ M.answers (M.run s is) js := by
  induction is generalizing s with
  | nil => rfl
  | cons i is ih => exact congrArg (M.answer s i :: ·) (ih (M.next s i))

@[simp] theorem length_answers (s : σ) (is : List ι) : (M.answers s is).length = is.length := by
  induction is generalizing s with
  | nil => rfl
  | cons i is ih => exact congrArg (· + 1) (ih (M.next s i))

/-! ## Counting along a run -/

/-- A value kept along a run from the inputs and their answers. -/
def fold {γ : Type} (count : γ → ι → ω → γ) (s : σ) (c : γ) : List ι → γ
  | [] => c
  | i :: is => fold count (M.next s i) (count c i (M.answer s i)) is

theorem fold_append {γ : Type} (count : γ → ι → ω → γ) (s : σ) (c : γ) (is js : List ι) :
    M.fold count s c (is ++ js) = M.fold count (M.run s is) (M.fold count s c is) js := by
  induction is generalizing s c with
  | nil => rfl
  | cons i is ih => exact ih (M.next s i) (count c i (M.answer s i))

/-- A relation between the state and the count that every guarded step keeps holds at the end of
every guarded run. -/
theorem fold_invariant {γ : Type} {count : γ → ι → ω → γ} {G : σ → ι → Prop}
    {R : σ → γ → Prop}
    (hstep : ∀ s i c, R s c → G s i → R (M.next s i) (count c i (M.answer s i)))
    (s : σ) (c : γ) (is : List ι) (hs : R s c) (hG : M.Guarded G s is) :
    R (M.run s is) (M.fold count s c is) := by
  induction is generalizing s c with
  | nil => exact hs
  | cons i is ih => exact ih (M.next s i) _ (hstep s i c hs hG.1) hG.2

/-! ## Costs and potentials -/

/-- What the steps of a run cost together. -/
def total (cost : σ → ι → ℕ) (s : σ) : List ι → ℕ
  | [] => 0
  | i :: is => cost s i + total cost (M.next s i) is

/-- **Potential rule.** When every guarded step from an invariant is paid for by the potential it
uses up, a guarded run costs no more than the potential it uses up. -/
theorem total_add_potential_le (cost : σ → ι → ℕ) (potential : σ → ℕ) {G : σ → ι → Prop}
    {P : σ → Prop}
    (hstep : ∀ s i, P s → G s i →
      P (M.next s i) ∧ cost s i + potential (M.next s i) ≤ potential s)
    (s : σ) (is : List ι) (hs : P s) (hG : M.Guarded G s is) :
    M.total cost s is + potential (M.run s is) ≤ potential s := by
  induction is generalizing s with
  | nil =>
    rw [total, run_nil]
    omega
  | cons i is ih =>
    obtain ⟨hnext, hpaid⟩ := hstep s i hs hG.1
    have hrest := ih (M.next s i) hnext hG.2
    rw [total, run_cons]
    omega

/-- Inputs of a kind that cost something as long as `P` holds are at most as many as a run costs
that ends in `P`, when `P` is not regained. -/
theorem countP_le_total (cost : σ → ι → ℕ) (counted : ι → Bool) {P : σ → Prop}
    {G : σ → ι → Prop} (hback : ∀ s i, G s i → P (M.next s i) → P s)
    (hcost : ∀ s i, P s → counted i = true → 1 ≤ cost s i) (s : σ) (is : List ι)
    (hG : M.Guarded G s is) (hlast : P (M.run s is)) :
    is.countP counted ≤ M.total cost s is ∧ P s := by
  induction is generalizing s with
  | nil => exact ⟨Nat.le_refl 0, hlast⟩
  | cons i is ih =>
    obtain ⟨hrest, hnext⟩ := ih (M.next s i) hG.2 hlast
    have hs := hback s i hG.1 hnext
    refine ⟨?_, hs⟩
    rw [List.countP_cons, total]
    split
    · next hi =>
      have := hcost s i hs hi
      omega
    · omega

/-! ## Two machines on the same inputs -/

/-- A machine driven through other inputs and seen through other answers. -/
def adapt {κ υ : Type} (input : κ → ι) (view : ω → υ) : Machine σ κ υ where
  step := fun s k => answered view (M.step s (input k))

theorem run_adapt {κ υ : Type} (input : κ → ι) (view : ω → υ) (s : σ) (ks : List κ) :
    (M.adapt input view).run s ks = M.run s (ks.map input) := by
  induction ks generalizing s with
  | nil => rfl
  | cons k ks ih => exact ih (M.next s (input k))

def pair : Machine (σ × τ) ι (ω × ω') where
  step := fun s i => ((M.next s.1 i, N.next s.2 i), (M.answer s.1 i, N.answer s.2 i))

end Machine

/-- **Forward simulation.** When related states stay related and answer alike on every guarded
input, the two machines answer alike along every guarded run. -/
theorem Machine.answers_pair_eq {σ τ ι ω : Type} (M : Machine σ ι ω) (N : Machine τ ι ω)
    {G : σ × τ → ι → Prop} {R : σ × τ → Prop}
    (hstep : ∀ s i, R s → G s i → R ((M.pair N).next s i) ∧ M.answer s.1 i = N.answer s.2 i)
    (s : σ) (t : τ) (is : List ι) (hs : R (s, t)) (hG : (M.pair N).Guarded G (s, t) is) :
    M.answers s is = N.answers t is ∧ R (M.run s is, N.run t is) := by
  induction is generalizing s t with
  | nil => exact ⟨rfl, hs⟩
  | cons i is ih =>
    obtain ⟨hR, hA⟩ := hstep (s, t) i hs hG.1
    obtain ⟨hrest, hend⟩ := ih (M.next s i) (N.next t i) hR hG.2
    exact ⟨by rw [Machine.answers, Machine.answers, hrest, hA], hend⟩

end Labrys.Foundations
