import Labrys.Foundations.Runs
import Labrys.Foundations.Script

/-! # Work behind a stored answer

A request that should take effect once per key: it is admitted, looks up the stored answer of its
key, does its work if there is none, and stores what it answers. These are separate statements, so
requests of one key interleave, and each may stop anywhere.

* `Keyed`: such a request, and `Keyed.script`, the script it is.
* `Stage`: how far a request has come; `run_script_of_finished` says that its turns are the script.
* `Pool`: any number of requests over one state, one statement or crash at a time.
* `once`: what any interleaving comes to in which no request finds its key free while another one is
  at work or has left something behind.
-/

namespace Labrys.Foundations
set_option autoImplicit false

structure Keyed (σ ε κ α : Type) where
  admission : Script σ ε κ
  lookup : κ → Program σ ε (Option α)
  work : κ → Script σ ε α
  store : κ → α → Program σ ε Unit

/-- How far a request has come. -/
inductive Stage (σ ε κ α : Type)
  | admitting (rest : Script σ ε κ)
  | checking (k : κ)
  | working (k : κ) (rest : Script σ ε α)
  | storing (k : κ) (a : α)
  | finished (result : Except ε α)
  | crashed

variable {σ ε κ α : Type}

/-! ## One request -/

namespace Keyed
variable (p : Keyed σ ε κ α)

def stored (k : κ) (a : α) : Script σ ε α := do
  Script.atomic (p.store k a)
  return a

def answer (k : κ) : Option α → Script σ ε α
  | some a => pure a
  | none => p.work k >>= p.stored k

def checked (k : κ) : Script σ ε α := Script.atomic (p.lookup k) >>= p.answer k

def script : Script σ ε α := p.admission >>= p.checked

end Keyed

namespace Stage

def afterAdmit : Script σ ε κ → Stage σ ε κ α
  | .done (.ok k) => checking k
  | .done (.error e) => finished (.error e)
  | rest => admitting rest

def afterWork (k : κ) : Script σ ε α → Stage σ ε κ α
  | .done (.ok a) => storing k a
  | .done (.error e) => finished (.error e)
  | rest => working k rest

/-- The next statement of a request. -/
def next (p : Keyed σ ε κ α) : Stage σ ε κ α → σ → σ × Stage σ ε κ α
  | admitting rest, s => ((rest.advance s).1, afterAdmit (rest.advance s).2)
  | checking k, s => ((p.lookup k s).1, match (p.lookup k s).2 with
      | .ok (some a) => finished (.ok a)
      | .ok none => afterWork k (p.work k)
      | .error e => finished (.error e))
  | working k rest, s => ((rest.advance s).1, afterWork k (rest.advance s).2)
  | storing k a, s => ((p.store k a s).1, finished ((p.store k a s).2.map fun _ => a))
  | finished result, s => (s, finished result)
  | crashed, s => (s, crashed)

/-- A request that stops; an answer that was given stays given. -/
def crash : Stage σ ε κ α → Stage σ ε κ α
  | finished result => finished result
  | _ => crashed

/-- What a request that has not crashed still has to do. -/
def script (p : Keyed σ ε κ α) : Stage σ ε κ α → Option (Script σ ε α)
  | admitting rest => some (rest >>= p.checked)
  | checking k => some (p.checked k)
  | working k rest => some (rest >>= p.stored k)
  | storing k a => some (p.stored k a)
  | finished result => some (.done result)
  | crashed => none

section Script
variable (p : Keyed σ ε κ α)

theorem script_afterAdmit (m : Script σ ε κ) :
    (afterAdmit m : Stage σ ε κ α).script p = some (m >>= p.checked) := by
  cases m with
  | step write next => rfl
  | done result => cases result <;> rfl

theorem script_afterWork (k : κ) (m : Script σ ε α) :
    (afterWork k m).script p = some (m >>= p.stored k) := by
  cases m with
  | step write next => rfl
  | done result => cases result <;> rfl

/-- A stage as `afterAdmit` and `afterWork` leave it: what is unfinished has a statement left. -/
def Proper : Stage σ ε κ α → Prop
  | admitting rest => ∃ write next, rest = .step write next
  | working _ rest => ∃ write next, rest = .step write next
  | _ => True

theorem proper_afterAdmit (m : Script σ ε κ) : (afterAdmit m : Stage σ ε κ α).Proper := by
  cases m with
  | step write next => exact ⟨write, next, rfl⟩
  | done result => cases result <;> trivial

theorem proper_afterWork (k : κ) (m : Script σ ε α) : (afterWork k m).Proper := by
  cases m with
  | step write next => exact ⟨write, next, rfl⟩
  | done result => cases result <;> trivial

theorem proper_next (stage : Stage σ ε κ α) (s : σ) : (stage.next p s).2.Proper := by
  cases stage with
  | admitting rest => exact proper_afterAdmit _
  | checking k =>
    change Proper (match (p.lookup k s).2 with
      | .ok (some a) => finished (.ok a)
      | .ok none => afterWork k (p.work k)
      | .error e => finished (.error e))
    split
    · trivial
    · exact proper_afterWork k _
    · trivial
  | working k rest => exact proper_afterWork k _
  | storing k a => trivial
  | finished result => trivial
  | crashed => trivial

/-- **Stages follow the script**: what a turn does is the next statement of what is left. -/
theorem script_next {stage : Stage σ ε κ α} (hproper : stage.Proper) {m : Script σ ε α}
    (hm : stage.script p = some m) (s : σ) :
    (stage.next p s).1 = (m.advance s).1 ∧
      (stage.next p s).2.script p = some (m.advance s).2 := by
  cases stage with
  | admitting rest =>
    obtain ⟨write, next, rfl⟩ := hproper
    obtain rfl := Option.some_inj.mp hm
    exact ⟨rfl, script_afterAdmit p _⟩
  | checking k =>
    obtain rfl := Option.some_inj.mp hm
    refine ⟨rfl, ?_⟩
    change script p (match (p.lookup k s).2 with
      | .ok (some a) => finished (.ok a)
      | .ok none => afterWork k (p.work k)
      | .error e => finished (.error e)) =
      some ((Script.done (p.lookup k s).2).andThen (p.answer k))
    cases (p.lookup k s).2 with
    | error e => rfl
    | ok found =>
      cases found with
      | none => exact script_afterWork p k _
      | some a => rfl
  | working k rest =>
    obtain ⟨write, next, rfl⟩ := hproper
    obtain rfl := Option.some_inj.mp hm
    exact ⟨rfl, script_afterWork p k _⟩
  | storing k a =>
    obtain rfl := Option.some_inj.mp hm
    refine ⟨rfl, ?_⟩
    change some (Script.done ((p.store k a s).2.map fun _ => a)) =
      some ((Script.done (p.store k a s).2).andThen fun _ => Script.done (.ok a))
    cases (p.store k a s).2 <;> rfl
  | finished result =>
    obtain rfl := Option.some_inj.mp hm
    exact ⟨rfl, rfl⟩
  | crashed => cases hm

/-- The state and the stage after some turns of one request alone. -/
def after (stage : Stage σ ε κ α) : ℕ → σ → σ × Stage σ ε κ α
  | 0, s => (s, stage)
  | n + 1, s => (stage.after n s).2.next p (stage.after n s).1

theorem script_after {stage : Stage σ ε κ α} (hproper : stage.Proper) {m : Script σ ε α}
    (hm : stage.script p = some m) (n : ℕ) (s : σ) :
    (stage.after p n s).2.Proper ∧ (stage.after p n s).1 = (m.after n s).1 ∧
      (stage.after p n s).2.script p = some (m.after n s).2 := by
  induction n with
  | zero => exact ⟨hproper, rfl, hm⟩
  | succ n ih =>
    obtain ⟨hkept, hstate, hrest⟩ := ih
    have hturn := script_next p hkept hrest (stage.after p n s).1
    refine ⟨proper_next p _ _, ?_⟩
    rw [hstate] at hturn
    simpa only [after, Script.after, hstate] using hturn

/-- **A request alone is its script**: once it has finished, it has left the state and the answer of
the script's run. -/
theorem run_script_of_finished {n : ℕ} {s : σ} {result : Except ε α}
    (h : ((afterAdmit p.admission).after p n s).2 = finished result) :
    p.script.run s = (((afterAdmit p.admission).after p n s).1, result) := by
  obtain ⟨-, hstate, hrest⟩ :=
    script_after p (proper_afterAdmit p.admission) (script_afterAdmit p p.admission) n s
  rw [h] at hrest
  rw [hstate, ← p.script.run_after n s]
  change (Script.after (p.admission >>= p.checked) n s).2.run _ = _
  rw [← Option.some_inj.mp hrest]
  rfl

end Script

/-- Past the lookup, with something still to do. -/
def inFlight : Stage σ ε κ α → Bool
  | working .. | storing .. => true
  | _ => false

/-- The answer that was given, if the request has given one. -/
def given : Stage σ ε κ α → Option α
  | finished (.ok a) => some a
  | _ => none

def isChecking : Stage σ ε κ α → Bool
  | checking _ => true
  | _ => false

/-- The answer that is to be stored. -/
def pending : Stage σ ε κ α → Option α
  | storing _ a => some a
  | _ => none

/-- Neither at work nor answered. -/
def Quiet (stage : Stage σ ε κ α) : Prop := stage.inFlight = false ∧ stage.given = none

theorem quiet_afterAdmit (m : Script σ ε κ) : (afterAdmit m : Stage σ ε κ α).Quiet := by
  cases m with
  | step write next => exact ⟨rfl, rfl⟩
  | done result => cases result <;> exact ⟨rfl, rfl⟩

theorem inFlight_crash (stage : Stage σ ε κ α) : stage.crash.inFlight = false := by
  cases stage <;> rfl

theorem eq_finished {stage : Stage σ ε κ α} {a : α} (h : stage.given = some a) :
    stage = finished (.ok a) := by
  cases stage with
  | finished result =>
    cases result with
    | ok b => exact congrArg (fun b => finished (.ok b)) (Option.some_inj.mp h)
    | error e => cases h
  | _ => cases h

theorem given_crash (stage : Stage σ ε κ α) : stage.crash.given = stage.given := by
  cases stage <;> rfl

end Stage

/-! ## Many requests of one key -/

structure Pool (σ ε κ α : Type) where
  state : σ
  stage : ℕ → Stage σ ε κ α

inductive Turn
  | run (i : ℕ)
  | crash (i : ℕ)

def Pool.start (p : ℕ → Keyed σ ε κ α) (s : σ) : Pool σ ε κ α :=
  ⟨s, fun i => .afterAdmit (p i).admission⟩

/-- One request's turn leaves a state and a stage of its own. -/
def Pool.put (pool : Pool σ ε κ α) (i : ℕ) (result : σ × Stage σ ε κ α) : Pool σ ε κ α :=
  ⟨result.1, Function.update pool.stage i result.2⟩

theorem Pool.stage_put_self (pool : Pool σ ε κ α) (i : ℕ) (result : σ × Stage σ ε κ α) :
    (pool.put i result).stage i = result.2 := by
  unfold put
  exact Function.update_self i result.2 pool.stage

theorem Pool.stage_put_of_ne (pool : Pool σ ε κ α) {i j : ℕ} (h : j ≠ i)
    (result : σ × Stage σ ε κ α) : (pool.put i result).stage j = pool.stage j := by
  unfold put
  exact Function.update_of_ne h result.2 pool.stage

/-- What holds of every stage but one, and of the one that is put there, holds of all. -/
theorem Pool.forall_stage_put (P : ℕ → Stage σ ε κ α → Prop) (pool : Pool σ ε κ α) {i : ℕ}
    {result : σ × Stage σ ε κ α} (hself : P i result.2)
    (hother : ∀ j, j ≠ i → P j (pool.stage j)) (j : ℕ) : P j ((pool.put i result).stage j) := by
  by_cases hj : j = i
  · rw [hj, pool.stage_put_self]
    exact hself
  · rw [pool.stage_put_of_ne hj]
    exact hother j hj

def poolMachine (p : ℕ → Keyed σ ε κ α) : Machine (Pool σ ε κ α) Turn Unit where
  step := fun pool turn => match turn with
    | .run i => (pool.put i ((pool.stage i).next (p i) pool.state), ())
    | .crash i => (pool.put i (pool.state, (pool.stage i).crash), ())

/-! ## What the parts may touch -/

/-- The views through which a key's requests are looked at. -/
structure Views (σ κ α π ρ γ : Type) where
  /-- What the work is for. -/
  effects : σ → π
  /-- The stored answer of the key. -/
  record : σ → Option ρ
  /-- Who may do the work as which request. -/
  owner : ℕ → κ → Prop
  /-- What is stored of an answer. -/
  form : α → Option ρ
  /-- The answer that a stored one brings back. -/
  replay : ρ → Option α
  /-- What answers are compared by. -/
  gist : α → γ

/-- The parts of a request keep to what they are for. -/
structure Keyed.Lawful {π ρ γ : Type} (p : Keyed σ ε κ α) (v : Views σ κ α π ρ γ) (i : ℕ) :
    Prop where
  admits : p.admission.Yields (v.owner i)
  admission_effects : p.admission.Keeps v.effects
  admission_record : p.admission.Keeps v.record
  lookup_state : ∀ k s, (p.lookup k s).1 = s
  lookup_some : ∀ k s a, v.owner i k → (p.lookup k s).2 = .ok (some a) →
    ∃ r, v.record s = some r ∧ v.replay r = some a
  lookup_none : ∀ k s, v.owner i k → (p.lookup k s).2 = .ok none → v.record s = none
  work_effects : ∀ k, (p.work k).Respects v.effects
  work_record : ∀ k, (p.work k).Keeps v.record
  store_effects : ∀ k a s, v.effects (p.store k a s).1 = v.effects s
  store_ok : ∀ k a s, v.owner i k → v.record s = none → (p.store k a s).2 = .ok () →
    ∃ r, v.form a = some r ∧ v.record (p.store k a s).1 = some r
  store_error : ∀ k a s e, (p.store k a s).2 = .error e →
    v.record (p.store k a s).1 = v.record s

section Once
variable {π ρ γ : Type} (p : ℕ → Keyed σ ε κ α) (v : Views σ κ α π ρ γ) (start : σ)

/-- What is stored of the answer brings back one that agrees with it. -/
def Views.Faithful (a : α) : Prop :=
  ∀ r b, v.form a = some r → v.replay r = some b → v.gist b = v.gist a

/-- A turn that cannot do the work twice. A lookup finds the stored answer, or a key at which nobody
is at work and nothing has been done; and what is stored of an answer agrees with it. -/
def Views.Safe (pool : Pool σ ε κ α) : Turn → Prop
  | .crash _ => True
  | .run i => match pool.stage i with
      | .checking _ => v.record pool.state ≠ none ∨
          ((∀ j, (pool.stage j).inFlight = false) ∧ v.effects pool.state = v.effects start)
      | .storing _ a => v.Faithful a
      | _ => True

/-- The effects are those of the first `n` statements of one request's work, of which `rest` is
left. -/
structure Reached (s : σ) (i : ℕ) (k : κ) (n : ℕ) (rest : Script σ ε α) : Prop where
  owner : v.owner i k
  effects : v.effects s = v.effects (((p i).work k).after n start).1
  rest : rest = (((p i).work k).after n start).2

/-- Nothing was done, or a part of one request's work. -/
def Begun (s : σ) : Prop :=
  v.effects s = v.effects start ∨ ∃ i k n rest, Reached p v start s i k n rest

/-- How the requests of the key stand together. -/
inductive Standing (pool : Pool σ ε κ α) : Prop
  /-- Nothing is stored and nobody is at work. -/
  | idle (hfree : v.record pool.state = none) (hquiet : ∀ j, (pool.stage j).Quiet)
      (hbegun : Begun p v start pool.state)
  /-- One request is at work. -/
  | busy (i : ℕ) (k : κ) (n : ℕ) (rest : Script σ ε α) (hfree : v.record pool.state = none)
      (hquiet : ∀ j, j ≠ i → (pool.stage j).Quiet)
      (hreached : Reached p v start pool.state i k n rest)
      (hstage : pool.stage i = .working k rest ∨
        ∃ a, rest = .done (.ok a) ∧ pool.stage i = .storing k a)
  /-- An answer is stored, and every answer that was given agrees with it. -/
  | settled (r : ρ) (hstored : v.record pool.state = some r)
      (hcalm : ∀ j, (pool.stage j).inFlight = false) (g : Option γ)
      (hreplay : ∀ a, v.replay r = some a → some (v.gist a) = g)
      (hgiven : ∀ j a, (pool.stage j).given = some a → some (v.gist a) = g)
      (hdone : (v.record start = some r ∧ v.effects pool.state = v.effects start) ∨
        ∃ i k n a, Reached p v start pool.state i k n (.done (.ok a)) ∧ some (v.gist a) = g)

/-- Everyone who is past the admission may do the work. -/
def Stage.Owned (i : ℕ) : Stage σ ε κ α → Prop
  | .admitting rest => rest.Yields (v.owner i) ∧ rest.Keeps v.effects ∧ rest.Keeps v.record
  | .checking k | .working k _ | .storing k _ => v.owner i k
  | _ => True

variable {p v start} {pool : Pool σ ε κ α} {i : ℕ}

/-- The turns of which safety asks something, with what it asks of each. -/
theorem Views.safe_of (hcheck : (pool.stage i).isChecking = true → v.record pool.state ≠ none ∨
      ((∀ j, (pool.stage j).inFlight = false) ∧ v.effects pool.state = v.effects start))
    (hstore : ∀ a, (pool.stage i).pending = some a → v.Faithful a) :
    v.Safe start pool (.run i) := by
  unfold Views.Safe
  dsimp only
  cases hstage : pool.stage i with
  | checking k => exact hcheck (by rw [hstage]; rfl)
  | storing k a => exact hstore a (by rw [hstage]; rfl)
  | _ => trivial

/-! ## One turn -/

theorem owned_afterAdmit {m : Script σ ε κ} (hyields : m.Yields (v.owner i))
    (heffects : m.Keeps v.effects) (hrecord : m.Keeps v.record) :
    (Stage.afterAdmit m : Stage σ ε κ α).Owned v i := by
  cases m with
  | step write next => exact ⟨hyields, heffects, hrecord⟩
  | done result =>
    cases result with
    | ok k => exact hyields
    | error e => trivial

theorem owned_afterWork {k : κ} (hk : v.owner i k) (m : Script σ ε α) :
    (Stage.afterWork k m).Owned v i := by
  cases m with
  | step write next => exact hk
  | done result =>
    cases result with
    | ok a => exact hk
    | error e => trivial

theorem owned_next (k : Keyed σ ε κ α) {stage : Stage σ ε κ α} (h : stage.Owned v i) (s : σ) :
    (stage.next k s).2.Owned v i := by
  cases stage with
  | admitting rest =>
    exact owned_afterAdmit (h.1.advance s) (h.2.1.advance s).2 (h.2.2.advance s).2
  | checking key =>
    change Stage.Owned v i (match (k.lookup key s).2 with
      | .ok (some a) => .finished (.ok a)
      | .ok none => .afterWork key (k.work key)
      | .error e => .finished (.error e))
    split
    · trivial
    · exact owned_afterWork h _
    · trivial
  | working key rest => exact owned_afterWork h _
  | storing key a => trivial
  | finished result => trivial
  | crashed => trivial

theorem Begun.congr {s s' : σ} (h : Begun p v start s) (hs : v.effects s' = v.effects s) :
    Begun p v start s' := by
  obtain hnone | ⟨i, k, n, rest, hreached⟩ := h
  · exact .inl (hs.trans hnone)
  · exact .inr ⟨i, k, n, rest, hreached.owner, hs.trans hreached.effects, hreached.rest⟩

/-- A request that is not at work before its turn nor after it, gives no answer and touches nothing,
changes nothing in how the requests stand together. -/
theorem Standing.of_quiet (h : Standing p v start pool) {s : σ} {stage : Stage σ ε κ α}
    (heffects : v.effects s = v.effects pool.state) (hrecord : v.record s = v.record pool.state)
    (hbefore : (pool.stage i).inFlight = false) (hafter : stage.Quiet) :
    Standing p v start (pool.put i (s, stage)) := by
  cases h with
  | idle hfree hquiet hbegun =>
    refine .idle (hrecord.trans hfree) ?_ (hbegun.congr heffects)
    exact Pool.forall_stage_put (fun _ => Stage.Quiet) pool hafter fun j _ => hquiet j
  | busy j k n rest hfree hquiet hreached hstage =>
    have hij : j ≠ i := by
      rintro rfl
      obtain hworking | ⟨a, -, hstoring⟩ := hstage
      · rw [hworking] at hbefore
        cases hbefore
      · rw [hstoring] at hbefore
        cases hbefore
    refine .busy j k n rest (hrecord.trans hfree) ?_
      ⟨hreached.owner, heffects.trans hreached.effects, hreached.rest⟩ ?_
    · exact Pool.forall_stage_put (fun l stage => l ≠ j → stage.Quiet) pool (fun _ => hafter)
        fun l _ => hquiet l
    · rwa [pool.stage_put_of_ne hij]
  | settled r hstored hcalm g hreplay hgiven hdone =>
    refine .settled r (hrecord.trans hstored) ?_ g hreplay ?_ ?_
    · exact Pool.forall_stage_put (fun _ stage => stage.inFlight = false) pool hafter.1
        fun j _ => hcalm j
    · refine Pool.forall_stage_put (fun _ stage => ∀ a, stage.given = some a → some (v.gist a) = g)
        pool (fun a ha => ?_) fun j _ => hgiven j
      rw [hafter.2] at ha
      cases ha
    · obtain ⟨hstart, hsame⟩ | ⟨j, k, n, a, hreached, hgist⟩ := hdone
      · exact .inl ⟨hstart, heffects.trans hsame⟩
      · exact .inr ⟨j, k, n, a, ⟨hreached.owner, heffects.trans hreached.effects, hreached.rest⟩,
          hgist⟩

/-- A request that has come `n` statements far in its work is at work, or has failed in it. -/
theorem standing_of_reached {k : κ} {n : ℕ} {rest : Script σ ε α} {s : σ}
    (hfree : v.record s = none) (hquiet : ∀ j, j ≠ i → (pool.stage j).Quiet)
    (hreached : Reached p v start s i k n rest) :
    Standing p v start (pool.put i (s, .afterWork k rest)) := by
  have hother : ∀ j, j ≠ i → ((pool.put i (s, .afterWork k rest)).stage j).Quiet := by
    intro j hj
    rw [pool.stage_put_of_ne hj]
    exact hquiet j hj
  cases rest with
  | step write next =>
    exact .busy i k n _ hfree hother hreached (.inl (pool.stage_put_self i _))
  | done result =>
    cases result with
    | ok a => exact .busy i k n _ hfree hother hreached (.inr ⟨a, rfl, pool.stage_put_self i _⟩)
    | error e =>
      refine .idle hfree ?_ (.inr ⟨i, k, n, _, hreached⟩)
      exact Pool.forall_stage_put (fun _ => Stage.Quiet) pool ⟨rfl, rfl⟩ hquiet

/-- Whoever is at work is the one. -/
theorem Standing.of_inFlight (h : Standing p v start pool)
    (hi : (pool.stage i).inFlight = true) :
    v.record pool.state = none ∧ (∀ j, j ≠ i → (pool.stage j).Quiet) ∧
    ∃ k n rest, Reached p v start pool.state i k n rest ∧
      (pool.stage i = .working k rest ∨ ∃ a, rest = .done (.ok a) ∧ pool.stage i = .storing k a) := by
  cases h with
  | idle hfree hquiet hbegun =>
    rw [(hquiet i).1] at hi
    cases hi
  | busy j k n rest hfree hquiet hreached hstage =>
    by_cases hij : i = j
    · subst hij
      exact ⟨hfree, hquiet, k, n, rest, hreached, hstage⟩
    · rw [(hquiet i hij).1] at hi
      cases hi
  | settled r hstored hcalm g hreplay hgiven hdone =>
    rw [hcalm i] at hi
    cases hi

theorem Standing.crash (h : Standing p v start pool) (i : ℕ) :
    Standing p v start (pool.put i (pool.state, (pool.stage i).crash)) := by
  by_cases hi : (pool.stage i).inFlight = true
  · obtain ⟨hfree, hquiet, k, n, rest, hreached, hstage⟩ := h.of_inFlight hi
    refine .idle hfree ?_ (.inr ⟨i, k, n, rest, hreached⟩)
    refine Pool.forall_stage_put (fun _ => Stage.Quiet) pool ⟨Stage.inFlight_crash _, ?_⟩ hquiet
    rw [Stage.given_crash]
    obtain hworking | ⟨a, -, hstoring⟩ := hstage
    · rw [hworking]
      rfl
    · rw [hstoring]
      rfl
  · have hcalm : (pool.stage i).inFlight = false := Bool.eq_false_iff.mpr hi
    cases hgiven : (pool.stage i).given with
    | none =>
      refine h.of_quiet rfl rfl hcalm ⟨Stage.inFlight_crash _, ?_⟩
      rw [Stage.given_crash, hgiven]
    | some a =>
      -- An answer that was given stays, so the pool is the same.
      have hsame : (pool.stage i).crash = pool.stage i := by
        cases hstage : pool.stage i with
        | finished result => rfl
        | _ => rw [hstage] at hgiven; cases hgiven
      have hput : pool.put i (pool.state, (pool.stage i).crash) = pool := by
        rw [hsame]
        exact congrArg (Pool.mk pool.state) (Function.update_eq_self i pool.stage)
      rwa [hput]

/-- A lookup that is safe keeps the standing. -/
theorem Standing.lookup (h : Standing p v start pool) (hp : (p i).Lawful v i) {k : κ}
    (hstage : pool.stage i = .checking k) (hk : v.owner i k)
    (hsafe : v.record pool.state ≠ none ∨
      ((∀ j, (pool.stage j).inFlight = false) ∧ v.effects pool.state = v.effects start)) :
    Standing p v start (pool.put i ((pool.stage i).next (p i) pool.state)) := by
  have hcalm : (pool.stage i).inFlight = false := by rw [hstage]; rfl
  rw [hstage, Stage.next, hp.lookup_state k pool.state]
  split
  · next a hfound =>
    obtain ⟨r, hr, hreplay⟩ := hp.lookup_some k pool.state a hk hfound
    cases h with
    | idle hfree => rw [hfree] at hr; cases hr
    | busy j k' n rest hfree => rw [hfree] at hr; cases hr
    | settled r' hstored hall g hreplays hgiven hdone =>
      obtain rfl := Option.some_inj.mp (hstored.symm.trans hr)
      refine .settled r' hstored ?_ g hreplays ?_ hdone
      · exact Pool.forall_stage_put (fun _ stage => stage.inFlight = false) pool rfl
          fun j _ => hall j
      · refine Pool.forall_stage_put
          (fun _ stage => ∀ a, stage.given = some a → some (v.gist a) = g) pool
          (fun b hb => ?_) fun j _ => hgiven j
        obtain rfl := Option.some_inj.mp hb
        exact hreplays _ hreplay
  · next hfound =>
    have hfree := hp.lookup_none k pool.state hk hfound
    obtain hstored | ⟨hall, hnothing⟩ := hsafe
    · exact absurd hfree hstored
    have hquiet : ∀ j, (pool.stage j).Quiet := by
      cases h with
      | idle _ hquiet => exact hquiet
      | busy j k' n rest _ _ _ hat =>
        obtain hworking | ⟨a, -, hstoring⟩ := hat
        · have hj := hall j
          rw [hworking] at hj
          cases hj
        · have hj := hall j
          rw [hstoring] at hj
          cases hj
      | settled r hstored => rw [hfree] at hstored; cases hstored
    exact standing_of_reached hfree (fun j _ => hquiet j) (n := 0) ⟨hk, hnothing, rfl⟩
  · exact h.of_quiet rfl rfl hcalm ⟨rfl, rfl⟩

/-- One statement of the work. -/
theorem Standing.work (h : Standing p v start pool) (hp : (p i).Lawful v i) {k : κ}
    {rest : Script σ ε α} (hstage : pool.stage i = .working k rest) :
    Standing p v start (pool.put i ((pool.stage i).next (p i) pool.state)) := by
  have hat : (pool.stage i).inFlight = true := by rw [hstage]; rfl
  obtain ⟨hfree, hquiet, k', n, rest', hreached, hstage'⟩ := h.of_inFlight hat
  rw [hstage] at hstage'
  obtain hworking | ⟨a, -, hstoring⟩ := hstage'
  · obtain ⟨rfl, rfl⟩ := Stage.working.inj hworking
    rw [hstage, Stage.next]
    have hkeeps : rest.Keeps v.record := by
      rw [hreached.rest]
      exact (hp.work_record k).after n start
    have hrespects : rest.Respects v.effects := by
      rw [hreached.rest]
      exact (hp.work_effects k).after n start
    obtain ⟨heffects, hrest⟩ := hrespects.advance_congr hreached.effects
    refine standing_of_reached ((hkeeps.advance pool.state).1.trans hfree) hquiet (n := n + 1)
      ⟨hreached.owner, ?_, ?_⟩
    · rw [heffects, hreached.rest]
      rfl
    · rw [hrest, hreached.rest]
      rfl
  · cases hstoring

/-- Storing an answer that what is stored agrees with. -/
theorem Standing.store (h : Standing p v start pool) (hp : (p i).Lawful v i) {k : κ} {a : α}
    (hstage : pool.stage i = .storing k a) (hfaithful : v.Faithful a) :
    Standing p v start (pool.put i ((pool.stage i).next (p i) pool.state)) := by
  have hat : (pool.stage i).inFlight = true := by rw [hstage]; rfl
  obtain ⟨hfree, hquiet, k', n, rest, hreached, hstage'⟩ := h.of_inFlight hat
  rw [hstage] at hstage'
  obtain hworking | ⟨b, rfl, hstoring⟩ := hstage'
  · cases hworking
  obtain ⟨rfl, rfl⟩ := Stage.storing.inj hstoring
  rw [hstage, Stage.next]
  have heffects := hp.store_effects k a pool.state
  cases hresult : ((p i).store k a pool.state).2 with
  | error e =>
    refine .idle ((hp.store_error k a pool.state e hresult).trans hfree) ?_ ?_
    · exact Pool.forall_stage_put (fun _ => Stage.Quiet) pool ⟨rfl, rfl⟩ hquiet
    · exact Begun.congr (.inr ⟨i, k, n, _, hreached⟩) heffects
  | ok value =>
    obtain ⟨r, hform, hstored⟩ := hp.store_ok k a pool.state hreached.owner hfree hresult
    refine .settled r hstored ?_ (some (v.gist a)) ?_ ?_ (.inr ⟨i, k, n, a, ?_, rfl⟩)
    · exact Pool.forall_stage_put (fun _ stage => stage.inFlight = false) pool rfl
        fun j hj => (hquiet j hj).1
    · intro b hb
      rw [hfaithful r b hform hb]
    · refine Pool.forall_stage_put
        (fun _ stage => ∀ b, stage.given = some b → some (v.gist b) = some (v.gist a)) pool
        (fun b hb => ?_) fun j hj b hb => ?_
      · obtain rfl := Option.some_inj.mp hb
        rfl
      · rw [(hquiet j hj).2] at hb
        cases hb
    · exact ⟨hreached.owner, heffects.trans hreached.effects, hreached.rest⟩

/-- **One turn.** -/
theorem Standing.next (hp : ∀ i, (p i).Lawful v i) (h : Standing p v start pool)
    (howned : ∀ i, (pool.stage i).Owned v i) {turn : Turn} (hsafe : v.Safe start pool turn) :
    Standing p v start ((poolMachine p).next pool turn) := by
  cases turn with
  | crash i => exact h.crash i
  | run i =>
    change Standing p v start (pool.put i ((pool.stage i).next (p i) pool.state))
    have hi := howned i
    unfold Views.Safe at hsafe
    dsimp only at hsafe
    cases hstage : pool.stage i with
    | admitting rest =>
      rw [hstage] at hi
      have hcalm : (pool.stage i).inFlight = false := by rw [hstage]; rfl
      exact h.of_quiet (hi.2.1.advance pool.state).1 (hi.2.2.advance pool.state).1 hcalm
        (Stage.quiet_afterAdmit _)
    | checking k =>
      rw [hstage] at hi hsafe
      rw [← hstage]
      exact h.lookup (hp i) hstage hi hsafe
    | working k rest =>
      rw [← hstage]
      exact h.work (hp i) hstage
    | storing k a =>
      rw [hstage] at hsafe
      rw [← hstage]
      exact h.store (hp i) hstage hsafe
    | finished result =>
      have hput : pool.put i (pool.state, .finished result) = pool := by
        rw [← hstage]
        exact congrArg (Pool.mk pool.state) (Function.update_eq_self i pool.stage)
      rw [Stage.next, hput]
      exact h
    | crashed =>
      have hput : pool.put i (pool.state, .crashed) = pool := by
        rw [← hstage]
        exact congrArg (Pool.mk pool.state) (Function.update_eq_self i pool.stage)
      rw [Stage.next, hput]
      exact h

/-! ## Every interleaving -/

theorem standing_start : Standing p v start (Pool.start p start) := by
  have hquiet : ∀ j, ((Pool.start p start).stage j).Quiet := fun j => Stage.quiet_afterAdmit _
  cases hrecord : v.record start with
  | none => exact .idle hrecord hquiet (.inl rfl)
  | some r =>
    refine .settled r hrecord (fun j => (hquiet j).1) ((v.replay r).map v.gist) (fun a ha => ?_)
      (fun j a ha => ?_) (.inl ⟨hrecord, rfl⟩)
    · rw [ha]
      rfl
    · rw [(hquiet j).2] at ha
      cases ha

/-- **Once.** Any number of requests of one key, in any order of their statements and with crashes
anywhere, as long as every turn is safe. -/
theorem once (hp : ∀ i, (p i).Lawful v i) (turns : List Turn)
    (hsafe : (poolMachine p).Guarded (v.Safe start) (Pool.start p start) turns) :
    Standing p v start ((poolMachine p).run (Pool.start p start) turns) := by
  have howned : ∀ i, ((Pool.start p start).stage i).Owned v i := fun i =>
    owned_afterAdmit (hp i).admits (hp i).admission_effects (hp i).admission_record
  have hinvariant := (poolMachine p).run_invariant
    (P := fun pool => Standing p v start pool ∧ ∀ i, (pool.stage i).Owned v i)
    (G := v.Safe start) (fun pool turn h hturn => ⟨h.1.next hp h.2 hturn, ?_⟩)
    (Pool.start p start) turns ⟨standing_start, howned⟩ hsafe
  · exact hinvariant.1
  · cases turn with
    | run i =>
      exact Pool.forall_stage_put (Stage.Owned v) pool (owned_next (p i) (h.2 i) pool.state)
        fun j _ => h.2 j
    | crash i =>
      refine Pool.forall_stage_put (Stage.Owned v) pool ?_ fun j _ => h.2 j
      change (pool.stage i).crash.Owned v i
      cases pool.stage i <;> trivial

theorem Standing.begun (h : Standing p v start pool) : Begun p v start pool.state := by
  cases h with
  | idle _ _ hbegun => exact hbegun
  | busy i k n rest _ _ hreached => exact .inr ⟨i, k, n, rest, hreached⟩
  | settled r _ _ g _ _ hdone =>
    obtain ⟨-, hsame⟩ | ⟨i, k, n, a, hreached, -⟩ := hdone
    · exact .inl hsame
    · exact .inr ⟨i, k, n, _, hreached⟩

/-- An answer that was given is the stored one of before, or it agrees with one whole run of one
request's work, which is all that was done. -/
theorem Standing.of_given (h : Standing p v start pool) {a : α}
    (ha : (pool.stage i).given = some a) :
    (∀ j b, (pool.stage j).given = some b → v.gist b = v.gist a) ∧
    ((v.record start ≠ none ∧ v.effects pool.state = v.effects start) ∨
      ∃ j k b, v.owner j k ∧ (((p j).work k).run start).2 = .ok b ∧
        v.effects pool.state = v.effects (((p j).work k).run start).1 ∧ v.gist b = v.gist a) := by
  cases h with
  | idle _ hquiet => rw [(hquiet i).2] at ha; cases ha
  | busy j k n rest _ hquiet _ hstage =>
    by_cases hij : i = j
    · subst hij
      obtain hworking | ⟨b, -, hstoring⟩ := hstage
      · rw [hworking] at ha
        cases ha
      · rw [hstoring] at ha
        cases ha
    · rw [(hquiet i hij).2] at ha
      cases ha
  | settled r _ _ g _ hgiven hdone =>
    have hgist := hgiven i a ha
    refine ⟨fun j b hb => Option.some_inj.mp ((hgiven j b hb).trans hgist.symm), ?_⟩
    obtain ⟨hstart, hsame⟩ | ⟨j, k, n, b, hreached, hb⟩ := hdone
    · exact .inl ⟨by rw [hstart]; exact Option.some_ne_none r, hsame⟩
    · have hrun := ((p j).work k).run_after n start
      rw [← hreached.rest] at hrun
      refine .inr ⟨j, k, b, hreached.owner, ?_, ?_, Option.some_inj.mp (hb.trans hgist.symm)⟩
      · rw [← hrun]
        rfl
      · rw [← hrun]
        exact hreached.effects

end Once

end Labrys.Foundations
