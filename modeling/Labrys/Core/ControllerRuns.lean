import Labrys.Core.Controllers

/-! # Resources that recover

A resource controller reports the failure record of its resource as drift. `fail` writes the record
and nothing on the way back to `ready` takes it away, so a resource that has ever failed drifts for
good. -/

namespace Labrys.Core
open Foundations
set_option autoImplicit false

inductive ControllerOp
  | observe (present : Bool) (phase : Option ResourcePhase) (observedBy : ObservationSource)
      (reason : Option String) (time : DateTime)
  | fail (reason : String) (secrets : List String) (policy : RetryPolicy) (time : DateTime)

namespace ResourceController

/-- The controller with what an operation on its resource leaves. -/
def onResource (c : ResourceController) (op : ResourceOp) :
    ResourceController × Outcome CoreError Unit :=
  ({ c with resource := (c.resource.perform op).1 }, (c.resource.perform op).2)

def perform (c : ResourceController) : ControllerOp → ResourceController × Outcome CoreError Unit
  | .observe present phase observedBy reason time => c.observe present phase observedBy reason time
  | .fail reason secrets policy time => c.onResource (.fail reason secrets policy time)

end ResourceController

def resourceController :
    Machine (Option ResourceController) ControllerOp (Option (Outcome CoreError Unit)) :=
  untilPanic ResourceController.perform

/-- A failure that is reported in a phase that does not admit one. -/
def NoFailure : Option ResourceController → ControllerOp → Prop
  | some c, .fail .. => c.resource.phase.canTransitionTo .failed = false
  | _, _ => True

/-! ## The failure record -/

namespace ResourceController

theorem observe_failure (c : ResourceController) (present : Bool) (phase : Option ResourcePhase)
    (observedBy : ObservationSource) (reason : Option String) (time : DateTime) :
    (c.observe present phase observedBy reason time).1.resource.failure = c.resource.failure := by
  unfold observe
  cases phase with
  | none => rfl
  | some phase =>
    dsimp only
    split
    · obtain ⟨e, -, heq, -⟩ | ⟨-, -, heq⟩ :=
        c.resource.observeInPlace_eq phase observedBy reason time
      · rw [heq]
      · rw [heq]
        rfl
    · rfl

/-- A step that returns leaves no failure record exactly if there was none and it is no accepted
failure. -/
theorem failure_next {c left : ResourceController} {op : ControllerOp}
    (h : resourceController.next (some c) op = some left) :
    left.resource.failure = none ↔ NoFailure (some c) op ∧ c.resource.failure = none := by
  change held (c.perform op) = some left at h
  cases op with
  | observe present phase observedBy reason time =>
    have hleft : left = (c.observe present phase observedBy reason time).1 := by
      unfold held at h
      split at h
      · cases h
      · exact (Option.some_inj.mp h).symm
    rw [hleft, c.observe_failure present phase observedBy reason time]
    exact ⟨fun hnone => ⟨trivial, hnone⟩, fun hboth => hboth.2⟩
  | fail reason secrets policy time =>
    rw [perform, onResource] at h
    obtain ⟨e, heq, -, hrefused⟩ | ⟨message, heq, -, -⟩ | ⟨moved, heq, -, hmoves⟩ :=
      c.resource.perform_cases (.fail reason secrets policy time)
    · rw [heq] at h
      cases h
      exact ⟨fun hnone => ⟨hrefused, hnone⟩, fun hboth => hboth.2⟩
    · rw [held, heq] at h
      cases h
    · rw [heq] at h
      cases h
      refine ⟨fun hnone => absurd hnone (hmoves.failed rfl), fun hboth => ?_⟩
      have hallowed := hmoves.allowed
      rw [show (ResourceOp.fail reason secrets policy time).next = .failed from rfl,
        show c.resource.phase.canTransitionTo .failed = false from hboth.1] at hallowed
      cases hallowed

/-- Along a history, the record is missing exactly if no failure was ever accepted. -/
theorem failure_run {c left : ResourceController} (ops : List ControllerOp)
    (h : resourceController.run (some c) ops = some left) :
    left.resource.failure = none ↔
      resourceController.Guarded NoFailure (some c) ops ∧ c.resource.failure = none := by
  induction ops generalizing c with
  | nil =>
    cases h
    exact ⟨fun hnone => ⟨trivial, hnone⟩, fun hboth => hboth.2⟩
  | cons op ops ih =>
    rw [Machine.run_cons] at h
    cases hnext : resourceController.next (some c) op with
    | none =>
      -- After a panic there is no controller any more.
      have hnone : ∀ ops, resourceController.run none ops = none := by
        intro ops
        induction ops with
        | nil => rfl
        | cons op ops ih => exact ih
      rw [hnext, hnone] at h
      cases h
    | some c' =>
      rw [hnext] at h
      rw [ih h, failure_next hnext, Machine.Guarded, hnext]
      rw [← and_assoc, and_comm (a := resourceController.Guarded NoFailure (some c') ops)]

/-! ## Recovery -/

/-- A pass that finds nothing to do. -/
def Settled (c : ResourceController) : Prop :=
  ∀ (queue : JobQueue) (id : JobId) (now : DateTime),
    (c.reconcile queue id now).1 = queue ∧ (c.reconcile queue id now).2.inSync = true ∧
      (c.reconcile queue id now).2.drift = [] ∧ (c.reconcile queue id now).2.actions = []

theorem settled_iff {c : ResourceController} (hdesired : c.desiredPresent = true)
    (hpresent : c.observedPresent = some true) (hready : c.resource.phase = .ready) :
    c.Settled ↔ c.resource.failure = none := by
  have hmissing : c.missing = false := by simp [missing, hpresent]
  have hunwanted : c.unwanted = false := by simp [unwanted, hdesired]
  have hdrift : c.drift = [] ↔ c.resource.failure = none := by
    simp [drift, hmissing, hunwanted, hready]
  constructor
  · intro hsettled
    exact hdrift.mp (hsettled .new ⟨0⟩ 0).2.2.1
  · intro hnone queue id now
    have hnil := hdrift.mpr hnone
    simp [reconcile, result, JobQueue.demand, hmissing, hunwanted, hnil]

end ResourceController

/-- **A recovered resource is in sync.** In every history of a resource controller, when the resource
is present and ready, a pass finds nothing to do exactly if no failure of the resource was ever
accepted. -/
theorem recovered_settled_iff (id : ResourceId) (kind : String) (desiredVersion : ℕ)
    (time : DateTime) (ops : List ControllerOp) (c : ResourceController)
    (hrun : resourceController.run (some (.new (.request id kind desiredVersion time))) ops = some c)
    (hdesired : c.desiredPresent = true) (hpresent : c.observedPresent = some true)
    (hready : c.resource.phase = .ready) :
    c.Settled ↔ resourceController.Guarded NoFailure
      (some (.new (.request id kind desiredVersion time))) ops := by
  rw [ResourceController.settled_iff hdesired hpresent hready,
    ResourceController.failure_run ops hrun]
  exact and_iff_left rfl

/-- A resource comes up without a failure. -/
def comesUp : List ControllerOp :=
  [.observe true (some .provisioning) .platformProbe none 1,
    .observe true (some .ready) .platformProbe none 2]

theorem recovered_settled_comesUp :
    ∃ c, resourceController.run (some (.new (.request ⟨1⟩ "database.postgres" 1 0))) comesUp =
        some c ∧
      c.observedPresent = some true ∧ c.resource.phase = .ready ∧ c.Settled := by
  refine ⟨_, rfl, rfl, rfl, ?_⟩
  exact (recovered_settled_iff ⟨1⟩ "database.postgres" 1 0 comesUp _ rfl rfl rfl rfl).mpr
    ⟨trivial, trivial, trivial⟩

/-- It fails, is provisioned again and gets ready. -/
def failsAndRecovers : List ControllerOp :=
  [.observe true (some .provisioning) .platformProbe none 1,
    .fail "disk full" [] .default 2,
    .observe true (some .provisioning) .platformProbe none 3,
    .observe true (some .ready) .platformProbe none 4]

/-- The next pass still reports the failure. -/
theorem recovered_drifts :
    ∃ c, resourceController.run (some (.new (.request ⟨1⟩ "database.postgres" 1 0)))
        failsAndRecovers = some c ∧
      c.desiredPresent = true ∧ c.observedPresent = some true ∧ c.resource.phase = .ready ∧
      (c.reconcile .new ⟨1⟩ 5).2.drift = [⟨.terminated, "attempt 1/5 failed: disk full"⟩] ∧
      ¬ c.Settled := by
  have hrun : ∃ c, resourceController.run (some (.new (.request ⟨1⟩ "database.postgres" 1 0)))
        failsAndRecovers = some c ∧
      c.desiredPresent = true ∧ c.observedPresent = some true ∧ c.resource.phase = .ready ∧
      (c.reconcile .new ⟨1⟩ 5).2.drift = [⟨.terminated, "attempt 1/5 failed: disk full"⟩] :=
    ⟨_, rfl, rfl, rfl, rfl, by decide +kernel⟩
  obtain ⟨c, hrun, hdesired, hpresent, hready, hdrift⟩ := hrun
  refine ⟨c, hrun, hdesired, hpresent, hready, hdrift, fun hsettled => ?_⟩
  rw [(hsettled .new ⟨1⟩ 5).2.2.1] at hdrift
  cases hdrift

end Labrys.Core
