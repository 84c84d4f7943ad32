import Labrys.Foundations.Runs
import Mathlib.Data.List.TakeWhile
import Mathlib.Logic.Function.Basic

/-! # Calls counted in windows of a fixed width

A timeline of calls is cut into windows: a window starts at the first call that is at least `width`
after the start of the one before. A counter that keeps one window's start and its count answers
along these windows (`answers_counter`). `Machine.family` is one copy of a machine under every key;
the copy of a key sees its own inputs only (`answers_family`). -/

namespace Labrys.Foundations
set_option autoImplicit false

/-! ## Windows -/

/-- The calls of a window, of which the first is its start. -/
structure CallWindow where
  start : ℕ
  calls : List ℕ
deriving DecidableEq

def windows (width : ℕ) : List ℕ → List CallWindow
  | [] => []
  | t :: ts =>
    ⟨t, t :: ts.takeWhile fun u => u - t < width⟩ ::
      windows width (ts.dropWhile fun u => u - t < width)
termination_by ts => ts.length
decreasing_by exact Nat.lt_succ_of_le (List.dropWhile_sublist _).length_le

theorem length_calls_le {width : ℕ} {ts : List ℕ} {w : CallWindow} (h : w ∈ windows width ts) :
    w.calls.length ≤ ts.length := by
  fun_induction windows width ts with
  | case1 => cases h
  | case2 t ts ih =>
    obtain rfl | h := List.mem_cons.mp h
    · exact Nat.succ_le_succ (List.takeWhile_sublist _).length_le
    · exact (ih h).trans ((List.dropWhile_sublist _).length_le.trans (Nat.le_succ _))

theorem lt_of_mem_takeWhile (t width : ℕ) (ts : List ℕ) :
    ∀ u ∈ ts.takeWhile (fun u => u - t < width), u - t < width := by
  intro u hu
  simpa using List.mem_takeWhile_imp hu

/-- The window that a call falls into, with the calls before it there. -/
def openedAt (width : ℕ) (last : Option (ℕ × ℕ)) (now : ℕ) : ℕ × ℕ :=
  match last with
  | some (start, count) => if now - start < width then (start, count) else (now, 0)
  | none => (now, 0)

/-- Keeps the last window's start and count, and answers by these and the time. -/
def windowCounter {ω : Type} (width : ℕ) (answer : ℕ → ℕ → ℕ → ω) :
    Machine (Option (ℕ × ℕ)) ℕ ω where
  step := fun last now =>
    let (start, count) := openedAt width last now
    (some (start, count + 1), answer start count now)

namespace windowCounter
variable {ω : Type} {width : ℕ} (answer : ℕ → ℕ → ℕ → ω)

theorem next_of_within {start count now : ℕ} (h : now - start < width) :
    (windowCounter width answer).next (some (start, count)) now = some (start, count + 1) := by
  simp [Machine.next, windowCounter, openedAt, h]

theorem answer_of_within {start count now : ℕ} (h : now - start < width) :
    (windowCounter width answer).answer (some (start, count)) now = answer start count now := by
  simp [Machine.answer, windowCounter, openedAt, h]

theorem step_of_expired {start count now : ℕ} (h : ¬ now - start < width) :
    (windowCounter width answer).step (some (start, count)) now =
      (windowCounter width answer).step none now := by
  simp [windowCounter, openedAt, h]

theorem answers_within {start count : ℕ} {ts : List ℕ} (h : ∀ t ∈ ts, t - start < width)
    (rest : List ℕ) :
    (windowCounter width answer).answers (some (start, count)) (ts ++ rest) =
      (ts.zipIdx count).map (fun (t, i) => answer start i t) ++
        (windowCounter width answer).answers (some (start, count + ts.length)) rest := by
  induction ts generalizing count with
  | nil => rfl
  | cons t ts ih =>
    obtain ⟨hhead, htail⟩ := List.forall_mem_cons.mp h
    rw [List.cons_append, Machine.answers, answer_of_within answer hhead,
      next_of_within answer hhead, ih htail, List.zipIdx_cons, List.map_cons, List.cons_append,
      List.length_cons, Nat.add_right_comm, Nat.add_assoc]

/-- After a window's calls the counter goes on as if it were new. -/
theorem answers_after {start : ℕ} (count : ℕ) (ts : List ℕ) :
    (windowCounter width answer).answers (some (start, count))
        (ts.dropWhile fun u => u - start < width) =
      (windowCounter width answer).answers none (ts.dropWhile fun u => u - start < width) := by
  cases hrest : ts.dropWhile fun u => u - start < width with
  | nil => rfl
  | cons t rest =>
    have hlate : ¬ t - start < width := by
      have hhead := List.head?_dropWhile_not (fun u => decide (u - start < width)) ts
      rw [hrest] at hhead
      simpa using hhead
    rw [Machine.answers, Machine.answers, Machine.answer, Machine.next,
      step_of_expired answer hlate, Machine.answer, Machine.next]

/-- **Windows.** The counter answers along the windows of the timeline. -/
theorem answers_eq (ts : List ℕ) :
    (windowCounter width answer).answers none ts =
      (windows width ts).flatMap fun w => w.calls.zipIdx.map fun (t, i) => answer w.start i t := by
  fun_induction windows width ts with
  | case1 => rfl
  | case2 t ts ih =>
    have hwithin := lt_of_mem_takeWhile t width ts
    have hfirst : (windowCounter width answer).answers none (t :: ts) =
        answer t 0 t :: (windowCounter width answer).answers (some (t, 1)) ts := rfl
    rw [hfirst, ← List.takeWhile_append_dropWhile (p := fun u => u - t < width) (l := ts),
      answers_within answer hwithin, answers_after, ih]
    simp [List.zipIdx_cons]

/-- The count before a call stays below a bound on the calls of a window. -/
def Below (width bound : ℕ) (last : Option (ℕ × ℕ)) (now : ℕ) : Prop :=
  (openedAt width last now).2 < bound

theorem guarded_within {bound start count : ℕ} {ts rest : List ℕ}
    (h : ∀ t ∈ ts, t - start < width) (hbound : count + ts.length ≤ bound)
    (hrest : (windowCounter width answer).Guarded (Below width bound)
      (some (start, count + ts.length)) rest) :
    (windowCounter width answer).Guarded (Below width bound) (some (start, count))
      (ts ++ rest) := by
  induction ts generalizing count with
  | nil => exact hrest
  | cons t ts ih =>
    obtain ⟨hhead, htail⟩ := List.forall_mem_cons.mp h
    have hcount : count + (t :: ts).length = count + 1 + ts.length := by
      rw [List.length_cons]
      omega
    rw [hcount] at hbound hrest
    refine ⟨?_, ?_⟩
    · simp only [Below, openedAt, hhead, if_true]
      omega
    · rw [next_of_within answer hhead]
      exact ih htail hbound hrest

theorem guarded_after {bound start : ℕ} (count : ℕ) (ts : List ℕ)
    (h : (windowCounter width answer).Guarded (Below width bound) none
      (ts.dropWhile fun u => u - start < width)) :
    (windowCounter width answer).Guarded (Below width bound) (some (start, count))
      (ts.dropWhile fun u => u - start < width) := by
  cases hrest : ts.dropWhile fun u => u - start < width with
  | nil => trivial
  | cons t rest =>
    have hlate : ¬ t - start < width := by
      have hhead := List.head?_dropWhile_not (fun u => decide (u - start < width)) ts
      rw [hrest] at hhead
      simpa using hhead
    rw [hrest] at h
    refine ⟨?_, ?_⟩
    · simpa [Below, openedAt, hlate] using h.1
    · rw [Machine.next, step_of_expired answer hlate]
      exact h.2

/-- No window has more calls than the bound, so no count ever reaches it before a call. -/
theorem guarded_of_windows {bound : ℕ} (ts : List ℕ)
    (h : ∀ w ∈ windows width ts, w.calls.length ≤ bound) :
    (windowCounter width answer).Guarded (Below width bound) none ts := by
  fun_induction windows width ts with
  | case1 => trivial
  | case2 t ts ih =>
    obtain ⟨hfirst, hlater⟩ := List.forall_mem_cons.mp h
    have hwithin := lt_of_mem_takeWhile t width ts
    refine ⟨Nat.lt_of_lt_of_le (Nat.succ_pos _) hfirst, ?_⟩
    have hrest := guarded_after answer (1 + (ts.takeWhile fun u => u - t < width).length) ts
      (ih hlater)
    have hall := guarded_within answer hwithin (Nat.add_comm .. ▸ hfirst) hrest
    rwa [List.takeWhile_append_dropWhile] at hall

end windowCounter

/-! ## One copy of a machine under every key -/

namespace Machine
variable {σ ι ω κ : Type} [DecidableEq κ] (M : Machine σ ι ω)

def family (κ : Type) [DecidableEq κ] : Machine (κ → σ) (κ × ι) ω where
  step := fun s input =>
    (Function.update s input.1 (M.next (s input.1) input.2), M.answer (s input.1) input.2)

/-- What comes under a key, in order. -/
def under {α : Type} (k : κ) (entries : List (κ × α)) : List α :=
  (entries.filter fun entry => entry.1 = k).map Prod.snd

theorem under_cons {α : Type} (k : κ) (entry : κ × α) (entries : List (κ × α)) :
    under k (entry :: entries) =
      if entry.1 = k then entry.2 :: under k entries else under k entries := by
  unfold under
  rw [List.filter_cons]
  by_cases h : entry.1 = k <;> simp [h]

/-- **Independence.** The answers under a key are those of the machine on that key's inputs. -/
theorem answers_family (s : κ → σ) (inputs : List (κ × ι)) (k : κ) :
    under k ((inputs.map Prod.fst).zip ((M.family κ).answers s inputs)) =
      M.answers (s k) (under k inputs) := by
  induction inputs generalizing s with
  | nil => rfl
  | cons input inputs ih =>
    rw [List.map_cons, Machine.answers, List.zip_cons_cons, under_cons, ih, under_cons]
    by_cases hk : input.1 = k
    · rw [if_pos hk, if_pos hk, Machine.answers, ← hk]
      simp [Machine.next, Machine.answer, family]
    · rw [if_neg hk, if_neg hk]
      simp [Machine.next, family, Ne.symm hk]

theorem guarded_family {G : σ → ι → Prop} (s : κ → σ) (inputs : List (κ × ι))
    (h : ∀ k, M.Guarded G (s k) (under k inputs)) :
    (M.family κ).Guarded (fun s input => G (s input.1) input.2) s inputs := by
  induction inputs generalizing s with
  | nil => trivial
  | cons input inputs ih =>
    have hhead := h input.1
    rw [under_cons, if_pos rfl] at hhead
    refine ⟨hhead.1, ih _ fun k => ?_⟩
    by_cases hk : input.1 = k
    · subst hk
      simpa [Machine.next, family] using hhead.2
    · have hother := h k
      rw [under_cons, if_neg hk] at hother
      simpa [Machine.next, family, Ne.symm hk] using hother

end Machine
end Labrys.Foundations
