import Labrys.Core.Resource
import Labrys.Foundations.Runs
import Labrys.Foundations.Trail

/-! # The lifecycle of a resource

The operations of a resource change it in place. Here each of them gives back what it leaves
behind, also when it fails or panics half way; `Resource.apply_eq` says that the functions of
`Labrys.Core.Resource` are these, seen by a caller who keeps the resource only if the call returns.
A panic unwinds whoever holds the resource, so it ends a history. -/

namespace Labrys.Core
open Foundations
set_option autoImplicit false

/-! ## The operations in place -/

namespace Resource
variable (resource : Resource)

def entered (next : ResourcePhase) (observedBy : ObservationSource) (reason : Option String)
    (time : DateTime) : Resource :=
  { resource with
    phase := next
    transitions := resource.transitions ++
      [⟨(resource.transitions.getLast resource.evidence).target, next, time, observedBy, reason⟩]
    evidence := List.append_ne_nil_of_right_ne_nil _ (List.cons_ne_nil _ _) }

def observeInPlace (next : ResourcePhase) (observedBy : ObservationSource)
    (reason : Option String) (time : DateTime) : Resource × Outcome CoreError Unit :=
  if resource.phase.canTransitionTo next = false then
    (resource, .error (.err (.reconciliation
      s!"illegal resource transition {resource.phase.debug} -> {next.debug} for resource {resource.id}")))
  else if next = resource.phase then
    (resource, .error (.err (.reconciliation
      s!"resource {resource.id} is already in phase {next.debug}")))
  else (resource.entered next observedBy reason time, .ok ())

/-- `fail`: the move comes first, then the counters, then the next retry, and each of them can
panic with the ones before it done. -/
def failInPlace (reason : String) (secrets : List String) (policy : RetryPolicy)
    (time : DateTime) : Resource × Outcome CoreError Unit :=
  match resource.observeInPlace .failed .providerCallback (some (redactReason reason secrets))
      time with
  | (left, .error e) => (left, .error e)
  | (left, .ok ()) =>
      let attempts := left.failure.elim 1 (·.attempts + 1)
      if u32Max < attempts ∨ u32Max < left.generation + 1 then
        (left, .error (.panic addOverflowed))
      else
        let counted := { left with generation := left.generation + 1 }
        match policy.delayFor attempts with
        | none => (counted, .error (.panic secondsOutOfBounds))
        | some delay =>
            match DateTime.add time delay with
            | none => (counted, .error (.panic dateTimeOverflowed))
            | some retry =>
                ({ counted with
                    failure := some ⟨redactReason reason secrets, policy, attempts, retry⟩ },
                  .ok ())

def markDeletedInPlace (time : DateTime) : Resource × Outcome CoreError Unit :=
  match resource.observeInPlace .deleted .providerCallback none time with
  | (left, .error e) => (left, .error e)
  | (left, .ok ()) => ({ left with failure := none }, .ok ())

end Resource

inductive ResourceOp
  | observe (next : ResourcePhase) (observedBy : ObservationSource) (reason : Option String)
      (time : DateTime)
  | fail (reason : String) (secrets : List String) (policy : RetryPolicy) (time : DateTime)
  | beginDelete (time : DateTime)
  | markDeleted (time : DateTime)

namespace ResourceOp

/-- The phase an operation leads to. -/
def next : ResourceOp → ResourcePhase
  | observe next .. => next
  | fail .. => .failed
  | beginDelete _ => .deleting
  | markDeleted _ => .deleted

def isFail : ResourceOp → Bool
  | fail .. => true
  | _ => false

end ResourceOp

namespace Resource

def perform (resource : Resource) : ResourceOp → Resource × Outcome CoreError Unit
  | .observe next observedBy reason time => resource.observeInPlace next observedBy reason time
  | .fail reason secrets policy time => resource.failInPlace reason secrets policy time
  | .beginDelete time => resource.observeInPlace .deleting .platformProbe none time
  | .markDeleted time => resource.markDeletedInPlace time

/-- The operations as functions of the resource. -/
def apply (resource : Resource) : ResourceOp → Outcome CoreError Resource
  | .observe next observedBy reason time =>
      (resource.observe next observedBy reason time).mapError .err
  | .fail reason secrets policy time => resource.fail reason secrets policy time
  | .beginDelete time => (resource.beginDelete time).mapError .err
  | .markDeleted time => (resource.markDeleted time).mapError .err

variable {resource : Resource}

theorem observeInPlace_eq (next : ResourcePhase) (observedBy : ObservationSource)
    (reason : Option String) (time : DateTime) :
    (∃ e, resource.observe next observedBy reason time = .error e ∧
      resource.observeInPlace next observedBy reason time = (resource, .error (.err e)) ∧
      resource.phase.canTransitionTo next = false) ∨
    (resource.phase.canTransitionTo next = true ∧
      resource.observe next observedBy reason time =
        .ok (resource.entered next observedBy reason time) ∧
      resource.observeInPlace next observedBy reason time =
        (resource.entered next observedBy reason time, .ok ())) := by
  unfold observe observeInPlace
  by_cases hallowed : resource.phase.canTransitionTo next = false
  · rw [if_pos hallowed, if_pos hallowed]
    exact .inl ⟨_, rfl, rfl, hallowed⟩
  · have hne : next ≠ resource.phase := by
      rintro rfl
      exact hallowed resource.phase.not_canTransitionTo_self
    rw [if_neg hallowed, if_neg hne, if_neg hallowed, if_neg hne]
    exact .inr ⟨by simpa using hallowed, rfl, rfl⟩

/-- What an accepted operation does. -/
structure Moves (resource : Resource) (op : ResourceOp) (moved : Resource) : Prop where
  allowed : resource.phase.canTransitionTo op.next = true
  phase : moved.phase = op.next
  transitions : ∃ observedBy reason time, moved.transitions = resource.transitions ++
    [⟨(resource.transitions.getLast resource.evidence).target, op.next, time, observedBy, reason⟩]
  generation : moved.generation = resource.generation + if op.isFail then 1 else 0
  failed : op.isFail = true → moved.failure ≠ none
  kept : op.isFail = false → moved.failure = resource.failure ∨ moved.failure = none
  identity : moved.id = resource.id ∧ moved.desiredVersion = resource.desiredVersion

theorem moves_entered {op : ResourceOp} (hallowed : resource.phase.canTransitionTo op.next = true)
    (hop : op.isFail = false) (observedBy : ObservationSource) (reason : Option String)
    (time : DateTime) {moved : Resource}
    (hmoved : moved = resource.entered op.next observedBy reason time ∨
      moved = { resource.entered op.next observedBy reason time with failure := none }) :
    Moves resource op moved := by
  have hfail : op.isFail = true → moved.failure ≠ none := by simp [hop]
  obtain rfl | rfl := hmoved
  · exact ⟨hallowed, rfl, ⟨observedBy, reason, time, rfl⟩, by simp [hop, entered], hfail,
      fun _ => .inl rfl, rfl, rfl⟩
  · exact ⟨hallowed, rfl, ⟨observedBy, reason, time, rfl⟩, by simp [hop, entered], hfail,
      fun _ => .inr rfl, rfl, rfl⟩

/-- **What an operation does**: it is refused and changes nothing, panics, or moves the resource. The
functions of the resource agree. -/
theorem perform_cases (resource : Resource) (op : ResourceOp) :
    (∃ e, resource.perform op = (resource, .error (.err e)) ∧ resource.apply op = .error (.err e) ∧
      resource.phase.canTransitionTo op.next = false) ∨
    (∃ message, (resource.perform op).2 = .error (.panic message) ∧
      resource.apply op = .error (.panic message) ∧
      resource.phase.canTransitionTo op.next = true) ∨
    ∃ moved, resource.perform op = (moved, .ok ()) ∧ resource.apply op = .ok moved ∧
      Moves resource op moved := by
  cases op with
  | observe next observedBy reason time =>
    obtain ⟨e, hpure, heq, hrefused⟩ | ⟨hallowed, hpure, heq⟩ :=
      resource.observeInPlace_eq next observedBy reason time
    · exact .inl ⟨e, heq, by rw [apply, hpure]; rfl, hrefused⟩
    · exact .inr (.inr ⟨_, heq, by rw [apply, hpure]; rfl,
        moves_entered hallowed rfl observedBy reason time (.inl rfl)⟩)
  | beginDelete time =>
    obtain ⟨e, hpure, heq, hrefused⟩ | ⟨hallowed, hpure, heq⟩ :=
      resource.observeInPlace_eq .deleting .platformProbe none time
    · exact .inl ⟨e, heq, by rw [apply, beginDelete, hpure]; rfl, hrefused⟩
    · exact .inr (.inr ⟨_, heq, by rw [apply, beginDelete, hpure]; rfl,
        moves_entered hallowed rfl _ _ time (.inl rfl)⟩)
  | markDeleted time =>
    obtain ⟨e, hpure, heq, hrefused⟩ | ⟨hallowed, hpure, heq⟩ :=
      resource.observeInPlace_eq .deleted .providerCallback none time
    · exact .inl ⟨e, by rw [perform, markDeletedInPlace, heq],
        by rw [apply, markDeleted, hpure]; rfl, hrefused⟩
    · exact .inr (.inr ⟨_, by rw [perform, markDeletedInPlace, heq]; rfl,
        by rw [apply, markDeleted, hpure]; rfl,
        moves_entered hallowed rfl .providerCallback none time (.inr rfl)⟩)
  | fail reason secrets policy time =>
    obtain ⟨e, hpure, heq, hrefused⟩ | ⟨hallowed, hpure, heq⟩ :=
      resource.observeInPlace_eq .failed .providerCallback (some (redactReason reason secrets)) time
    · exact .inl ⟨e, by rw [perform, failInPlace, heq], by rw [apply, fail, hpure], hrefused⟩
    · refine .inr ?_
      rw [perform, failInPlace, heq, apply, fail, hpure]
      dsimp only [entered]
      generalize (resource.failure.elim 1 fun failure => failure.attempts + 1) = attempts
      by_cases hcounters : u32Max < attempts ∨ u32Max < resource.generation + 1
      · rw [if_pos hcounters, if_pos hcounters]
        exact .inl ⟨_, rfl, rfl, hallowed⟩
      rw [if_neg hcounters, if_neg hcounters]
      cases policy.delayFor attempts with
      | none => exact .inl ⟨_, rfl, rfl, hallowed⟩
      | some delay =>
        dsimp only
        cases DateTime.add time delay with
        | none => exact .inl ⟨_, rfl, rfl, hallowed⟩
        | some retry =>
          refine .inr ⟨_, rfl, rfl, hallowed, rfl, ⟨_, _, _, rfl⟩, rfl, fun _ => ?_, fun h => ?_,
            rfl, rfl⟩
          · exact Option.some_ne_none _
          · cases h

/-- The functions of the resource are the operations in place, seen by a caller who keeps the
resource only if the call returns. -/
theorem apply_eq (resource : Resource) (op : ResourceOp) :
    resource.apply op = (resource.perform op).2.map fun _ => (resource.perform op).1 := by
  obtain ⟨e, heq, hpure, -⟩ | ⟨message, heq, hpure, -⟩ | ⟨moved, heq, hpure, -⟩ :=
    resource.perform_cases op
  · rw [heq, hpure]
    rfl
  · rw [heq, hpure]
    rfl
  · rw [heq, hpure]
    rfl

end Resource

/-! ## Histories -/

/-- What a call leaves to its caller: nothing if it panics. -/
def held {σ : Type} (result : σ × Outcome CoreError Unit) : Option σ :=
  match result.2 with
  | .error (.panic _) => none
  | _ => some result.1

/-- Operations in place as a machine that a panic brings to its end. -/
def untilPanic {σ ι : Type} (perform : σ → ι → σ × Outcome CoreError Unit) :
    Machine (Option σ) ι (Option (Outcome CoreError Unit)) where
  step := fun
    | none, _ => (none, none)
    | some s, op => (held (perform s op), some (perform s op).2)

def resourceLife : Machine (Option Resource) ResourceOp (Option (Outcome CoreError Unit)) :=
  untilPanic Resource.perform

/-- Counts the calls of `fail` that are accepted. -/
def countFailed (failures : ℕ) : ResourceOp → Option (Outcome CoreError Unit) → ℕ
  | .fail .., some (.ok _) => failures + 1
  | _, _ => failures

/-- What the history of a resource keeps, with the number of its accepted failures. -/
structure Resource.Evident (resource : Resource) (failures : ℕ) : Prop where
  trail : Trail (·.source) (·.target) (fun t => t.source.canTransitionTo t.target = true)
    resource.transitions resource.phase
  generation : resource.generation = failures

theorem Resource.evident_request (id : ResourceId) (kind : String) (desiredVersion : ℕ)
    (time : DateTime) : (Resource.request id kind desiredVersion time).Evident 0 where
  trail := Trail.singleton (·.source) (·.target) _
    (⟨.requested, .requested, time, .platformProbe, none⟩ : ResourceTransition)
  generation := rfl

theorem Resource.Evident.moves {resource moved : Resource} {op : ResourceOp} {failures : ℕ}
    (h : resource.Evident failures) (hmoves : resource.Moves op moved) :
    moved.Evident (failures + if op.isFail then 1 else 0) where
  trail := by
    obtain ⟨observedBy, reason, time, htransitions⟩ := hmoves.transitions
    have hlast := h.trail.target_getLast resource.evidence
    rw [htransitions, hmoves.phase]
    refine h.trail.append (t := ⟨(resource.transitions.getLast resource.evidence).target, op.next,
      time, observedBy, reason⟩) hlast ?_
    rw [hlast]
    exact hmoves.allowed
  generation := by rw [hmoves.generation, h.generation]

theorem resourceLife_evident (s : Option Resource) (op : ResourceOp) (failures : ℕ)
    (h : ∀ resource, s = some resource → resource.Evident failures) :
    ∀ resource, resourceLife.next s op = some resource →
      resource.Evident (countFailed failures op (resourceLife.answer s op)) := by
  intro left hleft
  cases s with
  | none => cases hleft
  | some resource =>
    have hnext : resourceLife.next (some resource) op = held (resource.perform op) := rfl
    have hanswer : resourceLife.answer (some resource) op = some (resource.perform op).2 := rfl
    rw [hnext] at hleft
    rw [hanswer]
    obtain ⟨e, heq, -, -⟩ | ⟨message, heq, -, -⟩ | ⟨moved, heq, -, hmoves⟩ :=
      resource.perform_cases op
    · rw [heq] at hleft ⊢
      cases hleft
      cases op <;> exact h resource rfl
    · rw [held, heq] at hleft
      cases hleft
    · rw [heq] at hleft ⊢
      cases hleft
      have hcount : countFailed failures op (some (.ok ())) =
          failures + if op.isFail then 1 else 0 := by
        cases op <;> rfl
      rw [hcount]
      exact (h resource rfl).moves hmoves

theorem ResourcePhase.source_of_ready {phase : ResourcePhase}
    (h : phase.canTransitionTo .ready = true) : phase = .provisioning ∨ phase = .degraded := by
  cases phase <;> simp [canTransitionTo] at h ⊢

/-- **Resource lifecycle evidence.** In every history of a resource, as long as no call has
panicked, the transitions lead to the phase edge by legal edge, the generation counts the accepted
failures, `ready` was entered from `provisioning` or `degraded` only, a deleted resource refuses
every operation, and an operation that is refused changes nothing. -/
theorem resource_history (id : ResourceId) (kind : String) (desiredVersion : ℕ) (time : DateTime)
    (ops : List ResourceOp) (resource : Resource)
    (hrun : resourceLife.run (some (.request id kind desiredVersion time)) ops = some resource) :
    resource.Evident
        (resourceLife.fold countFailed (some (.request id kind desiredVersion time)) 0 ops) ∧
      (∀ t ∈ resource.transitions.tail, t.target = .ready →
        t.source = .provisioning ∨ t.source = .degraded) ∧
      (resource.phase = .deleted → ∀ op, ∃ e, (resource.perform op).2 = .error (.err e)) ∧
      ∀ op e, (resource.perform op).2 = .error (.err e) → (resource.perform op).1 = resource := by
  have hevident : resource.Evident
      (resourceLife.fold countFailed (some (.request id kind desiredVersion time)) 0 ops) := by
    refine resourceLife.fold_invariant (G := fun _ _ => True)
      (R := fun s failures => ∀ resource, s = some resource → resource.Evident failures)
      (fun s op failures h _ => resourceLife_evident s op failures h) _ 0 ops ?_
      (resourceLife.guarded_true _ ops) resource hrun
    rintro _ ⟨rfl⟩
    exact Resource.evident_request id kind desiredVersion time
  refine ⟨hevident, fun t ht htarget => ?_, fun hdeleted op => ?_, fun op e hrefused => ?_⟩
  · have hlegal := hevident.trail.edges t ht
    rw [htarget] at hlegal
    exact ResourcePhase.source_of_ready hlegal
  · obtain ⟨e, heq, -, -⟩ | ⟨message, -, -, hallowed⟩ | ⟨moved, -, -, hmoves⟩ :=
      resource.perform_cases op
    · exact ⟨e, by rw [heq]⟩
    · rw [hdeleted] at hallowed
      cases hallowed
    · have hallowed := hmoves.allowed
      rw [hdeleted] at hallowed
      cases hallowed
  · obtain ⟨e', heq, -, -⟩ | ⟨message, heq, -, -⟩ | ⟨moved, heq, -, -⟩ := resource.perform_cases op
    · rw [heq]
    · cases heq.symm.trans hrefused
    · rw [heq] at hrefused
      cases hrefused

/-- A failure, a retry and the way to `ready`. -/
theorem resource_history_recovered :
    ∃ resource, resourceLife.run (some (.request ⟨1⟩ "database.postgres" 1 0))
        [.observe .provisioning .platformProbe none 1, .fail "disk full" [] .default 2,
          .observe .provisioning .platformProbe none 3, .observe .ready .platformProbe none 4] =
        some resource ∧
      resource.phase = .ready ∧ resource.Evident 1 := by
  have hsome : (resourceLife.run (some (.request ⟨1⟩ "database.postgres" 1 0))
      [.observe .provisioning .platformProbe none 1, .fail "disk full" [] .default 2,
        .observe .provisioning .platformProbe none 3, .observe .ready .platformProbe none 4]).map
      (·.phase) = some .ready := by decide +kernel
  obtain ⟨resource, hrun, hphase⟩ := Option.map_eq_some_iff.mp hsome
  exact ⟨resource, hrun, hphase, (resource_history _ _ _ _ _ resource hrun).1⟩

end Labrys.Core
