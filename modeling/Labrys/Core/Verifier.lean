import Mathlib.Data.List.MinMax
import Mathlib.Data.List.Nodup
import Mathlib.Logic.Function.Basic
import Mathlib.Order.Lattice
import Labrys.Core.Events
import Labrys.Core.Redact
import Labrys.Foundations.Runs

/-! # The independent verifier

Stages are evaluated one by one and their results are handed to the verifier in any order. A verdict
is read off the stored results alone: the first blocking stage that failed, else the blocking stages
that still lack evidence, else a pass.

* `Verifier.verdict_eq_failed_iff`, `verdict_eq_passed_iff`, `verdict_eq_incomplete_iff`: when each
  verdict is given.
* `verdict_laws`: what holds along every history.
* `first_failure_stable_iff`: when the verdict is the same failure for every order of submission. -/

namespace Labrys.Core
open Foundations
set_option autoImplicit false

/-! ## Stages and their results -/

inductive VerifierStage
  | deterministic | buildTest | health | schema | browser | advisory | human
deriving DecidableEq, Repr

namespace VerifierStage

/-- The stages in their order. -/
def all : List VerifierStage :=
  [deterministic, buildTest, health, schema, browser, advisory, human]

def index : VerifierStage → ℕ
  | deterministic => 0
  | buildTest => 1
  | health => 2
  | schema => 3
  | browser => 4
  | advisory => 5
  | human => 6

theorem index_injective : Function.Injective index := by
  intro a b h
  cases a <;> cases b <;> first | rfl | cases h

instance : LinearOrder VerifierStage := LinearOrder.lift' index index_injective

theorem mem_all (stage : VerifierStage) : stage ∈ all := by
  cases stage <;> decide

/-- Advisory is the only stage that does not block. -/
def isBlocking (stage : VerifierStage) : Bool := stage ≠ advisory

def canonicalName : VerifierStage → String
  | deterministic => "deterministic"
  | buildTest => "build_test"
  | health => "health"
  | schema => "schema"
  | browser => "browser"
  | advisory => "advisory"
  | human => "human"

end VerifierStage

structure VerificationEvidence where
  id : String
  stage : VerifierStage
  check : String
  passed : Bool
  summary : String
  resource : Option EventResource
  recovery : Option String
  time : DateTime
deriving DecidableEq

def VerificationEvidence.new (id : String) (stage : VerifierStage) (check : String) (passed : Bool)
    (summary : String) (secrets : List String) (time : DateTime) : VerificationEvidence :=
  ⟨id, stage, check, passed, redactReason summary secrets, none, none, time⟩

structure StageResult where
  stage : VerifierStage
  applicable : Bool
  evidence : List VerificationEvidence
deriving DecidableEq

namespace StageResult

def notApplicable (stage : VerifierStage) : StageResult := ⟨stage, false, []⟩

def passed (stage : VerifierStage) (evidence : List VerificationEvidence) : StageResult :=
  ⟨stage, true, evidence⟩

def failed (stage : VerifierStage) (evidence : List VerificationEvidence) : StageResult :=
  passed stage evidence

/-- Every evidence record passed, and there is one. -/
def isPassed (result : StageResult) : Bool :=
  result.applicable && !result.evidence.isEmpty && result.evidence.all (·.passed)

def isFailed (result : StageResult) : Bool :=
  result.applicable && result.evidence.any fun e => !e.passed

/-- Neither passed nor failed: the stage does not apply, or nothing supports it. -/
def isInconclusive (result : StageResult) : Bool := !result.isPassed && !result.isFailed

theorem isPassed_eq_false_of_isFailed {result : StageResult} (h : result.isFailed = true) :
    result.isPassed = false := by
  simp only [isFailed, Bool.and_eq_true, List.any_eq_true] at h
  obtain ⟨-, e, he, hfailed⟩ := h
  have hall : (result.evidence.all (·.passed)) = false := by
    rw [List.all_eq_false]
    exact ⟨e, he, by simpa using hfailed⟩
  rw [isPassed, hall, Bool.and_false]

end StageResult

/-! ## The verifier -/

inductive VerificationVerdict
  | incomplete (missing : List VerifierStage)
  | failed (firstFailure : VerifierStage)
  | passed
deriving DecidableEq

/-- Results by stage; every result sits under its own stage. -/
structure Verifier where
  stages : VerifierStage → Option StageResult
  keyed : ∀ stage result, stages stage = some result → result.stage = stage
  agentClaim : Option String
  disagreements : List String

namespace Verifier

def new : Verifier where
  stages := fun _ => none
  keyed := fun _ _ h => by cases h
  agentClaim := none
  disagreements := []

def recordAgentClaim (v : Verifier) (claim : String) : Verifier :=
  { v with agentClaim := some claim }

def insert (v : Verifier) (result : StageResult) : Verifier :=
  { v with
    stages := Function.update v.stages result.stage (some result)
    keyed := by
      intro stage found h
      by_cases hstage : stage = result.stage
      · subst hstage
        rw [Function.update_self] at h
        rw [← Option.some_inj.mp h]
      · rw [Function.update_of_ne hstage] at h
        exact v.keyed stage found h }

def disagree (v : Verifier) (text : String) : Verifier :=
  { v with disagreements := v.disagreements ++ [text] }

/-- A stored failure is never replaced by a later pass of its stage, and a stored pass is replaced by
a later failure; both are recorded as disagreements. Any other repetition is an error. -/
def addStage (v : Verifier) (result : StageResult) : Verifier × Except CoreError Unit :=
  match v.stages result.stage with
  | some existing =>
      if existing.isFailed && result.isPassed then
        (v.disagree ("stage " ++ result.stage.canonicalName ++
          " already failed; later pass ignored"), .ok ())
      else if existing.isPassed && result.isFailed then
        ((v.disagree ("stage " ++ result.stage.canonicalName ++
          " already passed; later failure recorded")).insert result, .ok ())
      else
        (v, .error (.verification ("stage " ++ result.stage.canonicalName ++ " already recorded")))
  | none => (v.insert result, .ok ())

/-- The stored results in the order of their stages. -/
def values (v : Verifier) : List StageResult := VerifierStage.all.filterMap v.stages

/-- The blocking stages that were never evaluated or have no evidence that supports them. -/
def missingEvidence (v : Verifier) : List VerifierStage :=
  [.deterministic, .buildTest, .health, .schema, .browser, .human].filter fun stage =>
    match v.stages stage with
    | none => true
    | some result => result.applicable && result.evidence.isEmpty

def verdict (v : Verifier) : VerificationVerdict :=
  match (((v.values.filter fun r => r.stage.isBlocking).filter (·.isFailed)).map (·.stage)).min? with
  | some stage => .failed stage
  | none => if v.missingEvidence = [] then .passed else .incomplete v.missingEvidence

/-! ## When a verdict is given -/

/-- The stage has a stored result that failed. -/
def Fails (v : Verifier) (stage : VerifierStage) : Prop :=
  ∃ result, v.stages stage = some result ∧ result.isFailed = true

/-- Nothing is stored for the stage, or a result that applies and has no evidence. -/
def Lacks (v : Verifier) (stage : VerifierStage) : Prop :=
  ∀ result, v.stages stage = some result → result.applicable = true ∧ result.evidence = []

theorem mem_failures {v : Verifier} {stage : VerifierStage} :
    stage ∈ ((v.values.filter fun r => r.stage.isBlocking).filter (·.isFailed)).map (·.stage) ↔
      stage.isBlocking = true ∧ v.Fails stage := by
  simp only [List.mem_map, List.mem_filter, values, List.mem_filterMap]
  constructor
  · rintro ⟨result, ⟨⟨⟨found, -, hget⟩, hblocking⟩, hfailed⟩, rfl⟩
    obtain rfl := v.keyed found result hget
    exact ⟨hblocking, result, hget, hfailed⟩
  · rintro ⟨hblocking, result, hget, hfailed⟩
    obtain rfl := v.keyed stage result hget
    exact ⟨result, ⟨⟨⟨result.stage, VerifierStage.mem_all _, hget⟩, hblocking⟩, hfailed⟩, rfl⟩

theorem mem_missingEvidence {v : Verifier} {stage : VerifierStage} :
    stage ∈ v.missingEvidence ↔ stage.isBlocking = true ∧ v.Lacks stage := by
  have hblocking : stage ∈ ([.deterministic, .buildTest, .health, .schema, .browser, .human] :
      List VerifierStage) ↔ stage.isBlocking = true := by
    cases stage <;> decide
  rw [missingEvidence, List.mem_filter, hblocking]
  refine and_congr_right fun _ => ?_
  unfold Lacks
  cases v.stages stage with
  | none => simp
  | some result => simp

theorem verdict_eq_failed_iff {v : Verifier} {stage : VerifierStage} :
    v.verdict = .failed stage ↔ stage.isBlocking = true ∧ v.Fails stage ∧
      ∀ other, other.isBlocking = true → v.Fails other → stage ≤ other := by
  have hmin : v.verdict = .failed stage ↔
      (((v.values.filter fun r => r.stage.isBlocking).filter (·.isFailed)).map (·.stage)).min? =
        some stage := by
    unfold verdict
    split
    · next found hfound => rw [hfound]; simp
    · next hnone =>
      rw [hnone]
      split <;> simp
  rw [hmin, List.min?_eq_some_iff, mem_failures, and_assoc]
  refine and_congr_right fun _ => and_congr_right fun _ => forall_congr' fun other => ?_
  rw [mem_failures, and_imp]

/-- No blocking stage failed exactly if the verdict is no failure. -/
theorem not_failed_iff {v : Verifier} :
    (∀ stage, v.verdict ≠ .failed stage) ↔
      ∀ stage, stage.isBlocking = true → ¬ v.Fails stage := by
  constructor
  · intro h stage hblocking hfails
    have hne : ((v.values.filter fun r => r.stage.isBlocking).filter (·.isFailed)).map (·.stage) ≠
        [] := List.ne_nil_of_mem (mem_failures.mpr ⟨hblocking, hfails⟩)
    obtain ⟨first, hfirst⟩ := Option.isSome_iff_exists.mp (List.isSome_min?_of_ne_nil hne)
    refine h first ?_
    rw [verdict, hfirst]
  · intro h stage hverdict
    obtain ⟨hblocking, hfails, -⟩ := verdict_eq_failed_iff.mp hverdict
    exact h stage hblocking hfails

theorem verdict_of_not_failed {v : Verifier}
    (h : ∀ stage, stage.isBlocking = true → ¬ v.Fails stage) :
    v.verdict = if v.missingEvidence = [] then .passed else .incomplete v.missingEvidence := by
  have hnone : ((v.values.filter fun r => r.stage.isBlocking).filter (·.isFailed)).map (·.stage) =
      [] := by
    rw [List.eq_nil_iff_forall_not_mem]
    intro stage hstage
    obtain ⟨hblocking, hfails⟩ := mem_failures.mp hstage
    exact h stage hblocking hfails
  rw [verdict, hnone]
  rfl

theorem verdict_eq_incomplete_iff {v : Verifier} {missing : List VerifierStage} :
    v.verdict = .incomplete missing ↔ missing = v.missingEvidence ∧ missing ≠ [] ∧
      ∀ stage, stage.isBlocking = true → ¬ v.Fails stage := by
  constructor
  · intro h
    have hfails := not_failed_iff.mp (fun stage hstage => by rw [hstage] at h; cases h)
    rw [verdict_of_not_failed hfails] at h
    split at h
    · cases h
    · next hne =>
      cases h
      exact ⟨rfl, hne, hfails⟩
  · rintro ⟨rfl, hne, hfails⟩
    rw [verdict_of_not_failed hfails, if_neg hne]

/-- What a stage has to have stored for a pass. -/
def Supports (v : Verifier) (stage : VerifierStage) : Prop :=
  ∃ result, v.stages stage = some result ∧ (result.applicable = false ∨
    (result.evidence ≠ [] ∧ ∀ e ∈ result.evidence, e.passed = true))

theorem supports_iff {v : Verifier} {stage : VerifierStage} :
    v.Supports stage ↔ ¬ v.Fails stage ∧ ¬ v.Lacks stage := by
  unfold Supports Fails Lacks
  cases v.stages stage with
  | none => simp
  | some result =>
    cases hevidence : result.evidence with
    | nil => cases happlicable : result.applicable <;> simp [StageResult.isFailed, *]
    | cons e rest => cases happlicable : result.applicable <;> simp [StageResult.isFailed, *]

theorem verdict_eq_passed_iff {v : Verifier} :
    v.verdict = .passed ↔ ∀ stage, stage.isBlocking = true → v.Supports stage := by
  constructor
  · intro h stage hblocking
    have hfails := not_failed_iff.mp (fun stage hstage => by rw [hstage] at h; cases h)
    rw [verdict_of_not_failed hfails] at h
    have hmissing : v.missingEvidence = [] := by
      by_contra hne
      rw [if_neg hne] at h
      cases h
    refine supports_iff.mpr ⟨hfails stage hblocking, fun hlacks => ?_⟩
    have hmem := mem_missingEvidence.mpr ⟨hblocking, hlacks⟩
    rw [hmissing] at hmem
    cases hmem
  · intro h
    have hmissing : v.missingEvidence = [] := by
      rw [List.eq_nil_iff_forall_not_mem]
      intro stage hstage
      obtain ⟨hblocking, hlacks⟩ := mem_missingEvidence.mp hstage
      exact (supports_iff.mp (h stage hblocking)).2 hlacks
    rw [verdict_of_not_failed fun stage hblocking => (supports_iff.mp (h stage hblocking)).1,
      if_pos hmissing]

/-! ## One submission -/

/-- What is stored for a stage after a result of this stage was submitted. -/
def settle : Option StageResult → StageResult → Option StageResult
  | none, result => some result
  | some existing, result =>
      some (if existing.isPassed && result.isFailed then result else existing)

/-- **What a submission does**: it is stored, noted as a disagreement, both, or refused. -/
theorem addStage_cases (v : Verifier) (result : StageResult) :
    (v.stages result.stage = none ∧ v.addStage result = (v.insert result, .ok ())) ∨
    ∃ existing, v.stages result.stage = some existing ∧
      ((existing.isPassed = false ∧ ∃ text, v.addStage result = (v.disagree text, .ok ())) ∨
        (existing.isPassed = true ∧ result.isFailed = true ∧
          ∃ text, v.addStage result = ((v.disagree text).insert result, .ok ())) ∨
        ((existing.isPassed && result.isFailed) = false ∧
          ∃ e, v.addStage result = (v, .error e))) := by
  unfold addStage
  cases v.stages result.stage with
  | none => exact .inl ⟨rfl, rfl⟩
  | some existing =>
    refine .inr ⟨existing, rfl, ?_⟩
    dsimp only
    by_cases hignored : (existing.isFailed && result.isPassed) = true
    · obtain ⟨hfailed, -⟩ := (Bool.and_eq_true _ _).mp hignored
      rw [if_pos hignored]
      exact .inl ⟨StageResult.isPassed_eq_false_of_isFailed hfailed, _, rfl⟩
    rw [if_neg hignored]
    by_cases hreplaced : (existing.isPassed && result.isFailed) = true
    · obtain ⟨hpassed, hfailed⟩ := (Bool.and_eq_true _ _).mp hreplaced
      rw [if_pos hreplaced]
      exact .inr (.inl ⟨hpassed, hfailed, _, rfl⟩)
    · rw [if_neg hreplaced]
      exact .inr (.inr ⟨by simpa using hreplaced, _, rfl⟩)

theorem stages_insert (v : Verifier) (result : StageResult) (stage : VerifierStage) :
    (v.insert result).stages stage =
      if result.stage = stage then some result else v.stages stage := by
  by_cases hstage : result.stage = stage
  · subst hstage
    rw [if_pos rfl]
    exact Function.update_self result.stage _ _
  · rw [if_neg hstage]
    exact Function.update_of_ne (Ne.symm hstage) _ _

theorem stages_addStage (v : Verifier) (result : StageResult) (stage : VerifierStage) :
    (v.addStage result).1.stages stage =
      if result.stage = stage then settle (v.stages stage) result else v.stages stage := by
  have hsettled : ∀ w : Verifier, w.stages = v.stages → ∀ existing,
      v.stages result.stage = some existing → (existing.isPassed && result.isFailed) = false →
      w.stages stage =
        if result.stage = stage then settle (v.stages stage) result else v.stages stage := by
    intro w hw existing hget hkept
    rw [hw]
    split
    · next hstage => rw [← hstage, hget, settle, hkept]; rfl
    · rfl
  obtain ⟨hget, heq⟩ | ⟨existing, hget, ⟨hnot, text, heq⟩ | ⟨hpassed, hfailed, text, heq⟩ |
      ⟨hnot, e, heq⟩⟩ := v.addStage_cases result
  · rw [heq, stages_insert]
    split
    · next hstage => rw [← hstage, hget]; rfl
    · rfl
  · rw [heq]
    exact hsettled (v.disagree text) rfl existing hget (by rw [hnot, Bool.false_and])
  · rw [heq, stages_insert]
    split
    · next hstage => rw [← hstage, hget, settle, hpassed, hfailed]; rfl
    · rfl
  · rw [heq]
    exact hsettled v rfl existing hget hnot

/-- A verdict reads the results of the blocking stages only. -/
theorem verdict_congr {v w : Verifier}
    (h : ∀ stage, stage.isBlocking = true → v.stages stage = w.stages stage) :
    v.verdict = w.verdict := by
  have hfails : ∀ stage, stage.isBlocking = true → (v.Fails stage ↔ w.Fails stage) := by
    intro stage hblocking
    rw [Fails, Fails, h stage hblocking]
  have hmissing : v.missingEvidence = w.missingEvidence := by
    refine List.filter_congr fun stage hstage => ?_
    have hblocking : stage.isBlocking = true := by
      revert hstage
      cases stage <;> decide
    rw [h stage hblocking]
  cases hverdict : v.verdict with
  | failed stage =>
    obtain ⟨hblocking, hfailed, hfirst⟩ := verdict_eq_failed_iff.mp hverdict
    refine (verdict_eq_failed_iff.mpr ⟨hblocking, (hfails stage hblocking).mp hfailed, ?_⟩).symm
    exact fun other hother hfailed => hfirst other hother ((hfails other hother).mpr hfailed)
  | incomplete missing =>
    obtain ⟨rfl, hne, hnone⟩ := verdict_eq_incomplete_iff.mp hverdict
    refine (verdict_eq_incomplete_iff.mpr ⟨hmissing, hne, ?_⟩).symm
    exact fun other hother hfailed => hnone other hother ((hfails other hother).mpr hfailed)
  | passed =>
    refine (verdict_eq_passed_iff.mpr fun stage hblocking => ?_).symm
    have hsupports := verdict_eq_passed_iff.mp hverdict stage hblocking
    rwa [Supports, h stage hblocking] at hsupports

/-- A stored failure stays. -/
theorem Fails.addStage {v : Verifier} {stage : VerifierStage} (h : v.Fails stage)
    (result : StageResult) : (v.addStage result).1.Fails stage := by
  obtain ⟨existing, hget, hfailed⟩ := h
  refine ⟨existing, ?_, hfailed⟩
  rw [stages_addStage, hget, settle, StageResult.isPassed_eq_false_of_isFailed hfailed]
  split
  · rfl
  · rfl

end Verifier

/-! ## Histories -/

inductive VerifierOp
  | addStage (result : StageResult)
  | recordAgentClaim (claim : String)

def verifier : Machine Verifier VerifierOp (Except CoreError Unit) where
  step := fun v op =>
    match op with
    | .addStage result => v.addStage result
    | .recordAgentClaim claim => (v.recordAgentClaim claim, .ok ())

namespace Verifier

theorem Fails.next {v : Verifier} {stage : VerifierStage} (h : v.Fails stage) (op : VerifierOp) :
    (verifier.next v op).Fails stage := by
  cases op with
  | addStage result => exact h.addStage result
  | recordAgentClaim claim => exact h

theorem Fails.run {v : Verifier} {stage : VerifierStage} (h : v.Fails stage)
    (ops : List VerifierOp) : (verifier.run v ops).Fails stage :=
  verifier.run_invariant_all (P := fun v => v.Fails stage) (fun _ op h => h.next op) v ops h

/-- A blocking stage that failed bounds the first failure. -/
theorem exists_failed {v : Verifier} {stage : VerifierStage} (hblocking : stage.isBlocking = true)
    (h : v.Fails stage) : ∃ first, v.verdict = .failed first ∧ first ≤ stage := by
  by_contra hnone
  refine not_failed_iff.mp (fun first hfirst => hnone ⟨first, hfirst, ?_⟩) stage hblocking h
  exact (verdict_eq_failed_iff.mp hfirst).2.2 stage hblocking h

theorem addStage_of_error {v : Verifier} {result : StageResult} {e : CoreError}
    (h : (v.addStage result).2 = .error e) : (v.addStage result).1 = v := by
  obtain ⟨-, heq⟩ | ⟨existing, -, ⟨-, text, heq⟩ | ⟨-, -, text, heq⟩ | ⟨-, e', heq⟩⟩ :=
    v.addStage_cases result
  · rw [heq] at h
    cases h
  · rw [heq] at h
    cases h
  · rw [heq] at h
    cases h
  · rw [heq]

end Verifier

/-- **Verdict laws.** In every history of submissions and agent claims: a failure stays one, of the
same stage or an earlier one; a pass means that every blocking stage is recorded and supported; the
advisory stage and agent claims do not count; an incomplete verdict lists the blocking stages that
lack a result or its evidence; and a refused submission changes nothing. -/
theorem verdict_laws (ops : List VerifierOp) :
    let v := verifier.run .new ops
    (∀ stage, v.verdict = .failed stage → ∀ later : List VerifierOp,
      ∃ first, (verifier.run v later).verdict = .failed first ∧ first ≤ stage) ∧
    (v.verdict = .passed ↔ ∀ stage, stage.isBlocking = true → v.Supports stage) ∧
    ((∀ result : StageResult, result.stage = .advisory →
        (v.addStage result).1.verdict = v.verdict) ∧
      ∀ claim, (v.recordAgentClaim claim).verdict = v.verdict) ∧
    (∀ missing, v.verdict = .incomplete missing → missing.Nodup ∧
      ∀ stage, stage ∈ missing ↔ stage.isBlocking = true ∧ v.Lacks stage) ∧
    ∀ result e, (v.addStage result).2 = .error e → (v.addStage result).1 = v := by
  intro v
  refine ⟨fun stage hfailed later => ?_, Verifier.verdict_eq_passed_iff,
    ⟨fun result hadvisory => ?_, fun claim => ?_⟩, fun missing hmissing => ?_,
    fun result e h => Verifier.addStage_of_error h⟩
  · obtain ⟨hblocking, hfails, -⟩ := Verifier.verdict_eq_failed_iff.mp hfailed
    exact Verifier.exists_failed hblocking (hfails.run later)
  · refine Verifier.verdict_congr fun stage hblocking => ?_
    rw [Verifier.stages_addStage, if_neg]
    rintro rfl
    rw [hadvisory] at hblocking
    cases hblocking
  · exact Verifier.verdict_congr fun _ _ => rfl
  · obtain ⟨rfl, -, -⟩ := Verifier.verdict_eq_incomplete_iff.mp hmissing
    exact ⟨List.Nodup.filter _ (by decide), fun stage => Verifier.mem_missingEvidence⟩

/-! ## Orders of submission -/

namespace Verifier

/-- Submits one result after the other and ignores what is refused. -/
def submit (v : Verifier) (results : List StageResult) : Verifier :=
  results.foldl (fun v result => (v.addStage result).1) v

/-- The results of one stage are settled among themselves. -/
theorem stages_submit (v : Verifier) (results : List StageResult) (stage : VerifierStage) :
    (v.submit results).stages stage =
      (results.filter fun r => r.stage = stage).foldl settle (v.stages stage) := by
  induction results generalizing v with
  | nil => rfl
  | cons result rest ih =>
    have hstep : v.submit (result :: rest) = (v.addStage result).1.submit rest := rfl
    rw [hstep, ih, stages_addStage, List.filter_cons]
    by_cases hstage : result.stage = stage
    · rw [if_pos hstage, if_pos (decide_eq_true hstage), List.foldl_cons]
    · rw [if_neg hstage, if_neg (by simpa using hstage)]

/-- What is not a pass is not replaced. -/
theorem foldl_settle_of_not_passed {existing : StageResult} (h : existing.isPassed = false)
    (results : List StageResult) : results.foldl settle (some existing) = some existing := by
  induction results with
  | nil => rfl
  | cons result rest ih =>
    rw [List.foldl_cons, settle, h, Bool.false_and]
    exact ih

/-- A pass is replaced by the first failure. -/
theorem foldl_settle_of_passed {existing : StageResult} (h : existing.isPassed = true)
    (results : List StageResult) :
    ∃ result, results.foldl settle (some existing) = some result ∧
      (result.isFailed = true ↔ ∃ failure ∈ results, failure.isFailed = true) := by
  induction results with
  | nil =>
    refine ⟨existing, rfl, ?_⟩
    have hfailed : existing.isFailed = false := by
      by_contra hfailed
      rw [StageResult.isPassed_eq_false_of_isFailed (by simpa using hfailed)] at h
      cases h
    simp [hfailed]
  | cons result rest ih =>
    rw [List.foldl_cons, settle, h, Bool.true_and]
    by_cases hfailed : result.isFailed = true
    · rw [if_pos hfailed,
        foldl_settle_of_not_passed (StageResult.isPassed_eq_false_of_isFailed hfailed)]
      exact ⟨result, rfl, by simp [hfailed]⟩
    · rw [if_neg hfailed]
      obtain ⟨found, hfound, hiff⟩ := ih
      refine ⟨found, hfound, hiff.trans ?_⟩
      simp [hfailed]

/-- A stage ends failed exactly if one of its results failed and the first of them was conclusive. -/
theorem fails_submit_iff {results : List StageResult} {stage : VerifierStage} :
    (new.submit results).Fails stage ↔ ∃ first rest,
      (results.filter fun r => r.stage = stage) = first :: rest ∧ first.isInconclusive = false ∧
        ∃ failure ∈ results, failure.stage = stage ∧ failure.isFailed = true := by
  have hmem : (∃ failure ∈ results, failure.stage = stage ∧ failure.isFailed = true) ↔
      ∃ failure ∈ results.filter fun r => r.stage = stage, failure.isFailed = true := by
    simp [List.mem_filter, and_assoc]
  rw [hmem, Fails, stages_submit]
  change (∃ result, (results.filter fun r => r.stage = stage).foldl settle none = some result ∧ _) ↔ _
  cases results.filter fun r => r.stage = stage with
  | nil => simp
  | cons first rest =>
    rw [List.foldl_cons, settle]
    cases hpassed : first.isPassed with
    | true =>
      obtain ⟨result, hresult, hiff⟩ := foldl_settle_of_passed hpassed rest
      have hfirst : first.isFailed = false := by
        by_contra hfailed
        rw [StageResult.isPassed_eq_false_of_isFailed (by simpa using hfailed)] at hpassed
        cases hpassed
      rw [hresult]
      simp [StageResult.isInconclusive, hpassed, hiff, hfirst]
    | false =>
      rw [foldl_settle_of_not_passed hpassed]
      simp only [Option.some.injEq, exists_eq_left', List.cons.injEq, StageResult.isInconclusive]
      constructor
      · intro hfailed
        exact ⟨first, rest, ⟨rfl, rfl⟩, by simp [hfailed], first, List.mem_cons_self, hfailed⟩
      · rintro ⟨_, _, ⟨rfl, rfl⟩, hconclusive, -⟩
        simpa [hpassed] using hconclusive

end Verifier

/-- The earliest blocking stage with a failed result among those to submit. -/
def FirstFailing (results : List StageResult) (stage : VerifierStage) : Prop :=
  (∃ failure ∈ results, failure.stage = stage ∧ stage.isBlocking = true ∧
    failure.isFailed = true) ∧
  ∀ failure ∈ results, failure.stage.isBlocking = true → failure.isFailed = true →
    stage ≤ failure.stage

theorem exists_firstFailing {results : List StageResult}
    (h : ∃ failure ∈ results, failure.stage.isBlocking = true ∧ failure.isFailed = true) :
    ∃ stage, FirstFailing results stage := by
  obtain ⟨failure, hmem, hblocking, hfailed⟩ := h
  let failures := results.filter fun r => r.stage.isBlocking && r.isFailed
  have hne : failures.map (·.stage) ≠ [] := by
    refine List.ne_nil_of_mem (List.mem_map_of_mem (List.mem_filter.mpr ⟨hmem, ?_⟩))
    rw [hblocking, hfailed]
    rfl
  obtain ⟨stage, hstage⟩ := Option.isSome_iff_exists.mp (List.isSome_min?_of_ne_nil hne)
  obtain ⟨hin, hmin⟩ := List.min?_eq_some_iff.mp hstage
  obtain ⟨first, hfirst, rfl⟩ := List.mem_map.mp hin
  obtain ⟨hresult, hfails⟩ := List.mem_filter.mp hfirst
  obtain ⟨hfirstBlocking, hfirstFailed⟩ := (Bool.and_eq_true _ _).mp hfails
  refine ⟨first.stage, ⟨first, hresult, rfl, hfirstBlocking, hfirstFailed⟩, ?_⟩
  intro other hother hotherBlocking hotherFailed
  refine hmin other.stage (List.mem_map_of_mem (List.mem_filter.mpr ⟨hother, ?_⟩))
  rw [hotherBlocking, hotherFailed]
  rfl

theorem FirstFailing.perm {results order : List StageResult} {stage : VerifierStage}
    (h : FirstFailing results stage) (hperm : order.Perm results) : FirstFailing order stage := by
  obtain ⟨⟨failure, hmem, hfailure⟩, hfirst⟩ := h
  refine ⟨⟨failure, hperm.mem_iff.mpr hmem, hfailure⟩, fun other hother => ?_⟩
  exact hfirst other (hperm.mem_iff.mp hother)

/-- The verdict on an order in which the first result of the earliest failing stage is conclusive. -/
theorem FirstFailing.verdict_submit {order : List StageResult} {stage : VerifierStage}
    (h : FirstFailing order stage) (head : StageResult) (rest : List StageResult)
    (horder : (order.filter fun r => r.stage = stage) = head :: rest)
    (hhead : head.isInconclusive = false) :
    (Verifier.new.submit order).verdict = .failed stage := by
  obtain ⟨⟨failure, hmem, hstage, hblocking, hfailed⟩, hfirst⟩ := h
  refine Verifier.verdict_eq_failed_iff.mpr ⟨hblocking, ?_, fun other hother hfails => ?_⟩
  · exact Verifier.fails_submit_iff.mpr ⟨head, rest, horder, hhead, failure, hmem, hstage, hfailed⟩
  · obtain ⟨-, -, -, -, otherFailure, hotherMem, rfl, hotherFailed⟩ :=
      Verifier.fails_submit_iff.mp hfails
    exact hfirst otherFailure hotherMem hother hotherFailed

/-- **No failure is lost by ordering.** When a result of a blocking stage failed, every order of
submission gives the same failure as its verdict exactly if the earliest blocking stage with a failed
result has no inconclusive one. -/
theorem first_failure_stable_iff (results : List StageResult)
    (h : ∃ failure ∈ results, failure.stage.isBlocking = true ∧ failure.isFailed = true) :
    (∃ first, ∀ order : List StageResult, order.Perm results →
      (Verifier.new.submit order).verdict = .failed first) ↔
      ∀ stage, FirstFailing results stage →
        ∀ result ∈ results, result.stage = stage → result.isInconclusive = false := by
  constructor
  · rintro ⟨first, horders⟩ stage hfirst result hresult rfl
    -- The failure submitted first gives the stage, the inconclusive result first hides it.
    obtain ⟨failure, hfailure, hstage, -, hfailed⟩ := hfirst.1
    have hfront := (List.perm_cons_erase hfailure).symm
    have hverdict := (hfirst.perm hfront).verdict_submit failure
      ((results.erase failure).filter fun r => r.stage = result.stage)
      (List.filter_cons_of_pos (by simpa using hstage))
      (by simp [StageResult.isInconclusive, hfailed])
    rw [horders _ hfront] at hverdict
    cases hverdict
    have hhidden := horders _ (List.perm_cons_erase hresult).symm
    obtain ⟨-, hfails, -⟩ := Verifier.verdict_eq_failed_iff.mp hhidden
    obtain ⟨head, rest, hfilter, hhead, -⟩ := Verifier.fails_submit_iff.mp hfails
    rw [List.filter_cons_of_pos (by simp)] at hfilter
    obtain ⟨rfl, -⟩ := List.cons.inj hfilter
    exact hhead
  · intro hconclusive
    obtain ⟨stage, hfirst⟩ := exists_firstFailing h
    refine ⟨stage, fun order hperm => ?_⟩
    obtain ⟨failure, hfailure, hstage, -, -⟩ := hfirst.1
    have hin : failure ∈ order.filter fun r => r.stage = stage :=
      List.mem_filter.mpr ⟨hperm.mem_iff.mpr hfailure, by simpa using hstage⟩
    obtain ⟨head, rest, horder⟩ := List.exists_cons_of_ne_nil (List.ne_nil_of_mem hin)
    have hhead : head ∈ order.filter fun r => r.stage = stage := by
      rw [horder]
      exact List.mem_cons_self
    obtain ⟨hheadMem, hheadStage⟩ := List.mem_filter.mp hhead
    refine (hfirst.perm hperm).verdict_submit head rest horder ?_
    exact hconclusive stage hfirst head (hperm.mem_iff.mp hheadMem) (by simpa using hheadStage)

/-- A check that passed and one that failed. -/
def healthChecks : List StageResult :=
  [.passed .health [.new "e1" .health "probe" true "200" [] 0],
    .failed .health [.new "e2" .health "probe" false "503" [] 1]]

theorem first_failure_stable_health :
    ∃ first, ∀ order : List StageResult, order.Perm healthChecks →
      (Verifier.new.submit order).verdict = .failed first := by
  refine (first_failure_stable_iff healthChecks ?_).mpr ?_
  · exact ⟨.failed .health [.new "e2" .health "probe" false "503" [] 1], by decide⟩
  · intro stage _ result hresult _
    have hall : ∀ result ∈ healthChecks, result.isInconclusive = false := by decide
    exact hall result hresult

/-- A stage that is first taken not to apply, and then fails: the failure is refused in this order
and counts in the other. -/
theorem first_failure_lost :
    let absent := StageResult.notApplicable .health
    let failure := StageResult.failed .health [.new "e2" .health "probe" false "503" [] 1]
    failure.stage.isBlocking = true ∧ failure.isFailed = true ∧
      (Verifier.new.submit [absent, failure]).verdict =
        .incomplete [.deterministic, .buildTest, .schema, .browser, .human] ∧
      (Verifier.new.submit [failure, absent]).verdict = .failed .health := by
  decide

end Labrys.Core
