import Labrys.Foundations.Program
import Labrys.Foundations.Runs

/-! # Dialogues

A dialogue is a program that asks another party and goes on with its answers. The other party may
be anything: `Talk` relates a dialogue to the exchanges of a run and to its result, whatever was
answered. Held with a machine, a dialogue is a program over the machine's state; several dialogues
and any number of strangers can be heard by one machine in any order, a request at a time.

* `talk_bind_ok`: a sequence that returned, as a talk of its first part and one of the rest.
* `talk_heldWith`: what a machine answers is a talk.
* `Hall`: the parties at one machine; `hall_run` says that the exchanges of a run are those of the
  machine alone, and that each party has had its own talk. -/

namespace Labrys.Foundations
set_option autoImplicit false

inductive Dialogue (ι ω ε α : Type)
  | done (result : Except ε α)
  | ask (request : ι) (next : ω → Dialogue ι ω ε α)

namespace Dialogue
variable {ι ω ε α β σ κ : Type}

def andThen : Dialogue ι ω ε α → (α → Dialogue ι ω ε β) → Dialogue ι ω ε β
  | done (.ok a), f => f a
  | done (.error e), _ => done (.error e)
  | ask request next, f => ask request fun answer => (next answer).andThen f

instance : Monad (Dialogue ι ω ε) where
  pure := fun a => done (.ok a)
  bind := andThen

def ofExcept (x : Except ε α) : Dialogue ι ω ε α := done x

/-- One request; its answer is the result. -/
def send (request : ι) : Dialogue ι ω ε ω := ask request fun answer => done (.ok answer)

/-! ## What may be said -/

/-- The dialogue held these exchanges and ended in this result. -/
def Talk : Dialogue ι ω ε α → List (ι × ω) → Except ε α → Prop
  | done result, exchanges, end_ => exchanges = [] ∧ end_ = result
  | ask _ _, [], _ => False
  | ask request next, (i, o) :: exchanges, end_ => i = request ∧ (next o).Talk exchanges end_

theorem talk_done {result end_ : Except ε α} {exchanges : List (ι × ω)} :
    (done result : Dialogue ι ω ε α).Talk exchanges end_ ↔ exchanges = [] ∧ end_ = result := by
  cases exchanges <;> rfl

theorem talk_ofExcept {x end_ : Except ε α} {exchanges : List (ι × ω)} :
    (ofExcept x : Dialogue ι ω ε α).Talk exchanges end_ ↔ exchanges = [] ∧ end_ = x := talk_done

theorem talk_ask {request : ι} {next : ω → Dialogue ι ω ε α} {exchanges : List (ι × ω)}
    {end_ : Except ε α} : (ask request next).Talk exchanges end_ ↔
      ∃ answer rest, exchanges = (request, answer) :: rest ∧ (next answer).Talk rest end_ := by
  cases exchanges with
  | nil => simp [Talk]
  | cons exchange rest =>
    obtain ⟨i, o⟩ := exchange
    simp only [Talk, List.cons.injEq, Prod.mk.injEq]
    constructor
    · rintro ⟨rfl, hrest⟩
      exact ⟨o, rest, ⟨⟨rfl, rfl⟩, rfl⟩, hrest⟩
    · rintro ⟨answer, rest', ⟨⟨rfl, rfl⟩, rfl⟩, hrest⟩
      exact ⟨rfl, hrest⟩

/-- **Sequencing.** A sequence returns exactly if its first part does and then the rest. -/
theorem talk_bind_ok {m : Dialogue ι ω ε α} {f : α → Dialogue ι ω ε β}
    {exchanges : List (ι × ω)} {b : β} : (m >>= f).Talk exchanges (.ok b) ↔
      ∃ a first rest, exchanges = first ++ rest ∧ m.Talk first (.ok a) ∧
        (f a).Talk rest (.ok b) := by
  change (m.andThen f).Talk exchanges (.ok b) ↔ _
  induction m generalizing exchanges with
  | done result =>
    cases result with
    | ok a =>
      simp only [andThen, talk_done, Except.ok.injEq]
      constructor
      · intro h
        exact ⟨a, [], exchanges, rfl, ⟨rfl, rfl⟩, h⟩
      · rintro ⟨a', first, rest, rfl, ⟨rfl, rfl⟩, h⟩
        exact h
    | error e =>
      simp only [andThen, talk_done]
      constructor
      · rintro ⟨-, h⟩
        cases h
      · rintro ⟨a, first, rest, -, ⟨-, h⟩, -⟩
        cases h
  | ask request next ih =>
    simp only [andThen, talk_ask]
    constructor
    · rintro ⟨answer, tail, rfl, h⟩
      obtain ⟨a, first, rest, rfl, hfirst, hrest⟩ := (ih answer).mp h
      exact ⟨a, (request, answer) :: first, rest, rfl, ⟨answer, first, rfl, hfirst⟩, hrest⟩
    · rintro ⟨a, first, rest, rfl, ⟨answer, tail, rfl, hfirst⟩, hrest⟩
      exact ⟨answer, tail ++ rest, rfl, (ih answer).mpr ⟨a, tail, rest, rfl, hfirst, hrest⟩⟩

/-- A first part that asks nothing. -/
theorem talk_bind_ofExcept {x : Except ε α} {f : α → Dialogue ι ω ε β}
    {exchanges : List (ι × ω)} {b : β} :
    (ofExcept x >>= f : Dialogue ι ω ε β).Talk exchanges (.ok b) ↔
      ∃ a, x = .ok a ∧ (f a).Talk exchanges (.ok b) := by
  rw [talk_bind_ok]
  simp only [talk_ofExcept]
  constructor
  · rintro ⟨a, first, rest, rfl, ⟨rfl, hx⟩, h⟩
    exact ⟨a, hx.symm, h⟩
  · rintro ⟨a, rfl, h⟩
    exact ⟨a, [], exchanges, rfl, ⟨rfl, rfl⟩, h⟩

/-- The exchanges determine the result. -/
theorem Talk.unique {m : Dialogue ι ω ε α} {exchanges : List (ι × ω)} {r r' : Except ε α}
    (h : m.Talk exchanges r) (h' : m.Talk exchanges r') : r = r' := by
  induction m generalizing exchanges with
  | done result =>
    rw [talk_done] at h h'
    rw [h.2, h'.2]
  | ask request next ih =>
    obtain ⟨answer, rest, rfl, hrest⟩ := talk_ask.mp h
    exact ih answer hrest h'.2

/-! ## One machine to talk to -/

/-- The dialogue held with a machine. -/
def heldWith (M : Machine σ ι ω) : Dialogue ι ω ε α → Program σ ε α
  | done result => fun s => (s, result)
  | ask request next => fun s => (next (M.answer s request)).heldWith M (M.next s request)

/-- The exchanges of a dialogue with a machine. -/
def exchanges (M : Machine σ ι ω) : Dialogue ι ω ε α → σ → List (ι × ω)
  | done _, _ => []
  | ask request next, s =>
      (request, M.answer s request) ::
        (next (M.answer s request)).exchanges M (M.next s request)

theorem talk_heldWith (M : Machine σ ι ω) (m : Dialogue ι ω ε α) (s : σ) :
    m.Talk (m.exchanges M s) (m.heldWith M s).2 := by
  induction m generalizing s with
  | done result => exact ⟨rfl, rfl⟩
  | ask request next ih => exact ⟨rfl, ih (M.answer s request) (M.next s request)⟩

/-! ## Many parties at one machine -/

/-- The exchanges lead from one dialogue to what is left of it. -/
def Leads : Dialogue ι ω ε α → List (ι × ω) → Dialogue ι ω ε α → Prop
  | m, [], rest => m = rest
  | done _, _ :: _, _ => False
  | ask request next, (i, o) :: exchanges, rest =>
      i = request ∧ (next o).Leads exchanges rest

theorem leads_done {m : Dialogue ι ω ε α} {exchanges : List (ι × ω)} {result : Except ε α} :
    m.Leads exchanges (done result) ↔ m.Talk exchanges result := by
  induction exchanges generalizing m with
  | nil => cases m <;> simp [Leads, Talk, eq_comm]
  | cons exchange exchanges ih =>
    cases m with
    | done r => simp [Leads, Talk]
    | ask request next => exact and_congr_right fun _ => ih

theorem leads_of_done {result : Except ε α} {exchanges : List (ι × ω)} {rest : Dialogue ι ω ε α}
    (h : (done result).Leads exchanges rest) : exchanges = [] := by
  cases exchanges with
  | nil => rfl
  | cons exchange exchanges => exact h.elim

theorem leads_ask {request : ι} {next : ω → Dialogue ι ω ε α} {exchanges : List (ι × ω)}
    {rest : Dialogue ι ω ε α} (h : (ask request next).Leads exchanges rest) :
    exchanges = [] ∨ ∃ answer tail, exchanges = (request, answer) :: tail ∧
      (next answer).Leads tail rest := by
  cases exchanges with
  | nil => exact .inl rfl
  | cons exchange tail =>
    obtain ⟨i, o⟩ := exchange
    obtain ⟨rfl, htail⟩ := h
    exact .inr ⟨o, tail, rfl, htail⟩

theorem leads_bind_ofExcept {x : Except ε α} {f : α → Dialogue ι ω ε β}
    {exchanges : List (ι × ω)} {rest : Dialogue ι ω ε β}
    (h : (ofExcept x >>= f : Dialogue ι ω ε β).Leads exchanges rest) :
    exchanges = [] ∨ ∃ a, x = .ok a ∧ (f a).Leads exchanges rest := by
  cases x with
  | ok a => exact .inr ⟨a, rfl, h⟩
  | error e => exact .inl (leads_of_done h)

theorem Leads.ask_step {m : Dialogue ι ω ε α} {exchanges : List (ι × ω)} {request : ι}
    {next : ω → Dialogue ι ω ε α} (h : m.Leads exchanges (ask request next)) (answer : ω) :
    m.Leads (exchanges ++ [(request, answer)]) (next answer) := by
  induction exchanges generalizing m with
  | nil =>
    obtain rfl : m = ask request next := by
      cases m <;> exact h
    exact ⟨rfl, by cases next answer <;> rfl⟩
  | cons exchange exchanges ih =>
    cases m with
    | done r => exact h.elim
    | ask i k => exact ⟨h.1, ih h.2⟩

end Dialogue

/-- Who takes the next turn at the machine. -/
inductive Hall.Turn (ι κ : Type)
  | party (k : κ)
  | stranger (request : ι)

/-- What the parties have left to say, the machine they say it to, and all that was exchanged: by a
party, or by a stranger. -/
structure Hall (σ ι ω ε α κ : Type) where
  state : σ
  parties : κ → Dialogue ι ω ε α
  log : List (Option κ × ι × ω)

namespace Hall
variable {σ ι ω ε α κ : Type} [DecidableEq κ] (M : Machine σ ι ω)

def heard (hall : Hall σ ι ω ε α κ) (who : Option κ) (request : ι) : Hall σ ι ω ε α κ :=
  { hall with
    state := M.next hall.state request
    log := hall.log ++ [(who, request, M.answer hall.state request)] }

def turn (hall : Hall σ ι ω ε α κ) : Turn ι κ → Hall σ ι ω ε α κ
  | .stranger request => hall.heard M none request
  | .party k =>
      match hall.parties k with
      | .done _ => hall
      | .ask request next =>
          { hall.heard M (some k) request with
            parties := Function.update hall.parties k (next (M.answer hall.state request)) }

def machine : Machine (Hall σ ι ω ε α κ) (Turn ι κ) Unit where
  step := fun hall t => (hall.turn M t, ())

/-- The requests of everybody. -/
def requests (log : List (Option κ × ι × ω)) : List ι := log.map fun entry => entry.2.1

/-- The exchanges of one party. -/
def saidBy (k : κ) (log : List (Option κ × ι × ω)) : List (ι × ω) :=
  (log.filter fun entry => entry.1 = some k).map fun entry => entry.2

/-- The log is what the machine answers to its requests, and every party has had its part. -/
structure Attends (s : σ) (parties : κ → Dialogue ι ω ε α) (hall : Hall σ ι ω ε α κ) : Prop where
  state : hall.state = M.run s (requests hall.log)
  answers : hall.log.map (fun entry => entry.2.2) = M.answers s (requests hall.log)
  leads : ∀ k, (parties k).Leads (saidBy k hall.log) (hall.parties k)

variable {M}

theorem saidBy_concat (k : κ) (log : List (Option κ × ι × ω)) (entry : Option κ × ι × ω) :
    saidBy k (log ++ [entry]) =
      saidBy k log ++ if entry.1 = some k then [entry.2] else [] := by
  unfold saidBy
  rw [List.filter_append, List.map_append]
  congr 1
  by_cases h : entry.1 = some k
  · simp [h]
  · simp [h]

theorem turn_done {hall : Hall σ ι ω ε α κ} {k : κ} {result : Except ε α}
    (hk : hall.parties k = .done result) : hall.turn M (.party k) = hall := by
  simp [turn, hk]

theorem turn_ask {hall : Hall σ ι ω ε α κ} {k : κ} {request : ι}
    {next : ω → Dialogue ι ω ε α} (hk : hall.parties k = .ask request next) :
    hall.turn M (.party k) = { hall.heard M (some k) request with
      parties := Function.update hall.parties k (next (M.answer hall.state request)) } := by
  simp [turn, hk]

omit [DecidableEq κ] in
theorem attends_heard {s : σ} {hall : Hall σ ι ω ε α κ} (who : Option κ) (request : ι)
    (hstate : hall.state = M.run s (requests hall.log))
    (hanswers : hall.log.map (fun entry => entry.2.2) = M.answers s (requests hall.log)) :
    (hall.heard M who request).state = M.run s (requests (hall.heard M who request).log) ∧
      (hall.heard M who request).log.map (fun entry => entry.2.2) =
        M.answers s (requests (hall.heard M who request).log) := by
  have hrequests : requests (hall.heard M who request).log = requests hall.log ++ [request] := by
    simp [heard, requests]
  rw [hrequests]
  constructor
  · rw [Machine.run_append, ← hstate]
    rfl
  · rw [Machine.answers_append, ← hanswers, ← hstate]
    simp [heard, Machine.answers]

/-- One turn. -/
theorem Attends.turn {s : σ} {parties : κ → Dialogue ι ω ε α} {hall : Hall σ ι ω ε α κ}
    (h : Attends M s parties hall) (t : Turn ι κ) : Attends M s parties (hall.turn M t) := by
  cases t with
  | stranger request =>
    obtain ⟨hstate, hanswers⟩ := attends_heard none request h.state h.answers
    refine ⟨hstate, hanswers, fun k => ?_⟩
    have hsaid : saidBy k (hall.heard M none request).log = saidBy k hall.log := by
      rw [heard, saidBy_concat]
      simp
    change (parties k).Leads (saidBy k (hall.heard M none request).log) (hall.parties k)
    rw [hsaid]
    exact h.leads k
  | party k =>
    cases hk : hall.parties k with
    | done result => rwa [turn_done hk]
    | ask request next =>
      rw [turn_ask hk]
      obtain ⟨hstate, hanswers⟩ :=
        attends_heard (some k) request h.state h.answers
      refine ⟨hstate, hanswers, fun j => ?_⟩
      have hlead := h.leads j
      change (parties j).Leads (saidBy j (hall.heard M (some k) request).log)
        (Function.update hall.parties k (next (M.answer hall.state request)) j)
      rw [heard, saidBy_concat]
      by_cases hj : j = k
      · subst hj
        rw [hk] at hlead
        rw [if_pos rfl, Function.update_self]
        exact hlead.ask_step _
      · rw [if_neg fun heq => hj (Option.some_inj.mp heq).symm, List.append_nil,
          Function.update_of_ne hj]
        exact hlead

/-- **Runs.** After any turns the log is what the machine answers to it, and each party has had its
own dialogue. -/
theorem attends_run (s : σ) (parties : κ → Dialogue ι ω ε α) (turns : List (Turn ι κ)) :
    Attends M s parties ((machine M).run ⟨s, parties, []⟩ turns) :=
  (machine M).run_invariant_all (fun _ t h => h.turn t) _ turns ⟨rfl, rfl, fun k => by
    change (parties k).Leads [] (parties k)
    cases parties k <;> rfl⟩

omit [DecidableEq κ] in
/-- An entry of the log, answered in the state that the entries before it lead to. -/
theorem answered {s : σ} {log first after : List (Option κ × ι × ω)} {entry : Option κ × ι × ω}
    (h : log.map (fun entry => entry.2.2) = M.answers s (requests log))
    (hsplit : log = first ++ entry :: after) :
    first.map (fun entry => entry.2.2) = M.answers s (requests first) ∧
      entry.2.2 = M.answer (M.run s (requests first)) entry.2.1 := by
  subst hsplit
  unfold requests at h ⊢
  rw [List.map_append, List.map_append, Machine.answers_append] at h
  obtain ⟨hfirst, hrest⟩ := List.append_inj h (by simp)
  exact ⟨hfirst, (List.cons.inj hrest).1⟩

/-- What one party has said is in the log of all. -/
theorem mem_log_of_said {k : κ} {log : List (Option κ × ι × ω)}
    {exchange : ι × ω} (h : exchange ∈ saidBy k log) : (some k, exchange) ∈ log := by
  obtain ⟨entry, hentry, rfl⟩ := List.mem_map.mp h
  obtain ⟨hmem, hwho⟩ := List.mem_filter.mp hentry
  have heq : entry.1 = some k := by simpa using hwho
  rwa [← heq]

end Hall
end Labrys.Foundations
