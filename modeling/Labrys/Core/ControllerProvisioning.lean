import Labrys.Core.ControllerRuns
import Labrys.Core.JobQueueKeys

/-! # Two controllers and one queue

A resource controller and the controller of a capability bound to the same resource both ask for it
to be provisioned, through one queue that suppresses a job whose key is in flight. The resource
controller makes its key from the convergence version, the capability controller from the version 1,
so neither sees the other's job. Next to the system we keep who asked for each job and at which
desired version and generation of the resource. The queue then holds one job per step exactly
as long as no controller asks while the other's job for the same step is in flight. -/

namespace Labrys.Core
open Foundations
set_option autoImplicit false

/-! ## The system -/

inductive Maker
  | resource | capability
deriving DecidableEq

/-- Who asked for a job, and for which desired version and generation. -/
structure ProvisionTag where
  maker : Maker
  desiredVersion : ℕ
  generation : ℕ
deriving DecidableEq

namespace ProvisionTag

/-- The version the maker puts into the key. -/
def version (tag : ProvisionTag) : ℕ :=
  match tag.maker with
  | .resource => convergenceVersion tag.desiredVersion tag.generation
  | .capability => 1

def step (tag : ProvisionTag) : ℕ × ℕ := (tag.desiredVersion, tag.generation)

theorem eq_of_step {a b : ProvisionTag} (hmaker : a.maker = b.maker) (hstep : a.step = b.step) :
    a = b := by
  obtain ⟨maker, desiredVersion, generation⟩ := a
  cases hmaker
  cases hstep
  rfl

end ProvisionTag

def QueueOp.isWork : QueueOp → Bool
  | .claimNext _ | .complete .. | .fail .. => true
  | _ => false

/-- The operations of the two controllers, and the progress of jobs. -/
inductive ConvergenceOp
  | resourcePass (id : JobId) (now : DateTime)
  | capabilityPass (id : JobId) (now : DateTime)
  | work (op : QueueOp) (h : op.isWork = true)
  | onResource (op : ControllerOp)
  | observeReadiness (phase : ResourcePhase)
  | acceptAgentCompletion

inductive ConvergenceAnswer
  | passed (pass : Reconciliation)
  | worked (answer : QueueAnswer)
  | operated (outcome : Outcome CoreError Unit)
  | noted

structure Convergence where
  resource : ResourceController
  capability : CapabilityController
  queue : JobQueue
  tags : JobId → Option ProvisionTag

/-- A job in flight has the key. -/
def JobQueue.holds (queue : JobQueue) (key : IdempotencyKey) : Bool :=
  queue.values.any fun job => decide (job.idempotencyKey = key) && job.status.isInFlight

namespace Convergence
variable (s : Convergence)

def new (id : ResourceId) (kind : String) (desiredVersion : ℕ) (time : DateTime)
    (capability : String) : Convergence where
  resource := .new (.request id kind desiredVersion time)
  capability := .new capability id
  queue := .new
  tags := fun _ => none

def target : String := toString s.resource.resource.id

/-- What a controller asks for now. -/
def tag (maker : Maker) : ProvisionTag :=
  ⟨maker, s.resource.resource.desiredVersion, s.resource.resource.generation⟩

def key (tag : ProvisionTag) : IdempotencyKey := .new s.target .provision tag.version

/-- The tags after a pass that asks for the resource to be provisioned, or does not. -/
def tagsAfter (wanted : Bool) (id : JobId) (tag : ProvisionTag) : JobId → Option ProvisionTag :=
  if wanted && !s.queue.holds (s.key tag) then Function.update s.tags id (some tag) else s.tags

def step : ConvergenceOp → Convergence × ConvergenceAnswer
  | .resourcePass id now =>
      ({ s with
          queue := (s.resource.reconcile s.queue id now).1
          tags := s.tagsAfter s.resource.missing id (s.tag .resource) },
        .passed (s.resource.reconcile s.queue id now).2)
  | .capabilityPass id now =>
      ({ s with
          queue := (s.capability.reconcile s.queue id now).1
          tags := s.tagsAfter s.capability.unready id (s.tag .capability) },
        .passed (s.capability.reconcile s.queue id now).2)
  | .work op _ => ({ s with queue := jobQueue.next s.queue op }, .worked (jobQueue.answer s.queue op))
  | .onResource op =>
      ({ s with resource := (s.resource.perform op).1 }, .operated (s.resource.perform op).2)
  | .observeReadiness phase =>
      ({ s with capability := s.capability.observeReadiness phase }, .noted)
  | .acceptAgentCompletion =>
      ({ s with capability := s.capability.acceptAgentCompletion }, .noted)

/-- A job in flight that provisions the resource. -/
structure Provisions (job : Job) : Prop where
  get : s.queue.get job.id = some job
  inFlight : job.status.isInFlight = true
  action : job.action = .provision
  target : job.target = s.target

/-- No two jobs in flight provision the resource at the same desired version and generation. -/
def SingleProvision : Prop :=
  ∀ a b, s.Provisions a → s.Provisions b →
    (s.tags a.id).map (·.step) = (s.tags b.id).map (·.step) → a.id = b.id

/-- The key is in flight, or no job that the other controller asked for at the same step is. A job
under the id that is drawn would be replaced. -/
def Free (id : JobId) (tag : ProvisionTag) : Prop :=
  s.queue.holds (s.key tag) = true ∨ ∀ job other, s.Provisions job → s.tags job.id = some other →
    other.maker ≠ tag.maker → other.step = tag.step → job.id = id

def AsksFreely : ConvergenceOp → Prop
  | .resourcePass id _ => s.resource.missing = true → s.Free id (s.tag .resource)
  | .capabilityPass id _ => s.capability.unready = true → s.Free id (s.tag .capability)
  | _ => True

end Convergence

def convergence : Machine Convergence ConvergenceOp ConvergenceAnswer := ⟨Convergence.step⟩

/-! ## The queue after a pass -/

namespace JobQueue

theorem holds_iff {queue : JobQueue} {key : IdempotencyKey} :
    queue.holds key = true ↔ ∃ job, queue.get job.id = some job ∧
      job.status.isInFlight = true ∧ job.idempotencyKey = key := by
  simp only [holds, List.any_eq_true, mem_values, Bool.and_eq_true, decide_eq_true_eq]
  exact exists_congr fun job => and_congr_right fun _ => and_comm

theorem demand_cases (queue : JobQueue) (wanted : Bool) (id : JobId) (target : String)
    (action : JobAction) (version : ℕ) (now : DateTime) :
    (queue.demand wanted id target action version now = queue ∧
      (wanted && !queue.holds (.new target action version)) = false) ∨
    (queue.demand wanted id target action version now =
        queue.put (Job.fresh id target action version .default now) ∧
      wanted = true ∧ queue.holds (.new target action version) = false) := by
  unfold demand
  cases wanted with
  | false => exact .inl ⟨rfl, rfl⟩
  | true =>
    rw [if_pos rfl]
    obtain ⟨existing, hget, hflight, hkey, heq⟩ | ⟨hfree, heq⟩ :=
      enqueue_cases queue id target action version .default now
    · have hholds := holds_iff.mpr ⟨existing, hget, hflight, hkey⟩
      exact .inl ⟨by rw [heq], by simp [hholds]⟩
    · refine .inr ⟨by rw [heq], rfl, ?_⟩
      by_contra hholds
      obtain ⟨job, hget, hflight, hkey⟩ := holds_iff.mp (Bool.not_eq_false _ ▸ hholds)
      exact hfree job hget hflight hkey

end JobQueue

/-! ## The invariant -/

theorem Resource.id_observeInPlace (resource : Resource) (next : ResourcePhase)
    (observedBy : ObservationSource) (reason : Option String) (time : DateTime) :
    (resource.observeInPlace next observedBy reason time).1.id = resource.id := by
  obtain ⟨e, -, heq, -⟩ | ⟨-, -, heq⟩ := resource.observeInPlace_eq next observedBy reason time
  · rw [heq]
  · rw [heq]
    rfl

theorem Resource.id_perform (resource : Resource) (op : ResourceOp) :
    (resource.perform op).1.id = resource.id := by
  cases op with
  | observe next observedBy reason time => exact resource.id_observeInPlace _ _ _ time
  | beginDelete time => exact resource.id_observeInPlace _ _ _ time
  | markDeleted time =>
    have hid := resource.id_observeInPlace .deleted .providerCallback none time
    rw [perform, markDeletedInPlace]
    split
    · next heq => rwa [heq] at hid
    · next heq => rwa [heq] at hid
  | fail reason secrets policy time =>
    have hid := resource.id_observeInPlace .failed .providerCallback
      (some (redactReason reason secrets)) time
    rw [perform, failInPlace]
    split
    · next heq => rwa [heq] at hid
    · next left heq =>
      rw [heq] at hid
      dsimp only
      -- What comes after the move changes the counters and the record only.
      split
      · exact hid
      · split
        · exact hid
        · split
          · exact hid
          · exact hid

theorem ResourceController.id_perform (c : ResourceController) (op : ControllerOp) :
    (c.perform op).1.resource.id = c.resource.id := by
  cases op with
  | fail reason secrets policy time => exact c.resource.id_perform _
  | observe present phase observedBy reason time =>
    simp only [perform, observe]
    cases phase with
    | none => rfl
    | some phase =>
      dsimp only
      split
      · exact c.resource.id_perform (.observe phase observedBy reason time)
      · rfl

namespace Convergence

/-- Every job in flight that provisions the resource is tagged with who asked for it, and has that
maker's key. -/
structure Inv (s : Convergence) : Prop where
  same : s.capability.resourceId = s.resource.resource.id
  tagged : ∀ job, s.Provisions job →
    ∃ tag, s.tags job.id = some tag ∧ job.idempotencyKey = s.key tag
  single : s.SingleProvision

variable {s : Convergence}

/-- What leaves the tags and brings no new job keeps the invariant. -/
theorem Inv.of_jobs (h : s.Inv) {s' : Convergence} (htags : s'.tags = s.tags)
    (htarget : s'.resource.resource.id = s.resource.resource.id)
    (hsame : s'.capability.resourceId = s.capability.resourceId)
    (hjobs : ∀ job', s'.Provisions job' → ∃ job, s.Provisions job ∧ job.id = job'.id ∧
      job.idempotencyKey = job'.idempotencyKey) : s'.Inv where
  same := by rw [hsame, htarget, h.same]
  tagged := fun job' hjob' => by
    obtain ⟨job, hjob, hid, hkey⟩ := hjobs job' hjob'
    obtain ⟨tag, htag, hkeyed⟩ := h.tagged job hjob
    refine ⟨tag, by rw [htags, ← hid, htag], ?_⟩
    rw [← hkey, hkeyed, key, key, target, target, htarget]
  single := fun a' b' ha' hb' hstep => by
    obtain ⟨a, ha, hida, -⟩ := hjobs a' ha'
    obtain ⟨b, hb, hidb, -⟩ := hjobs b' hb'
    rw [htags, ← hida, ← hidb] at hstep
    rw [← hida, ← hidb]
    exact h.single a b ha hb hstep

/-- The system after a job was stored. -/
def stored (s : Convergence) (job : Job) (tags : JobId → Option ProvisionTag) : Convergence :=
  { s with queue := s.queue.put job, tags := tags }

@[simp] theorem tags_stored (job : Job) (tags : JobId → Option ProvisionTag) :
    (s.stored job tags).tags = tags := rfl

theorem provisions_stored {job other : Job} (tags : JobId → Option ProvisionTag)
    (h : (s.stored job tags).Provisions other) :
    other = job ∨ other.id ≠ job.id ∧ s.Provisions other := by
  have hget := h.get
  rw [stored, JobQueue.get_put] at hget
  split at hget
  · exact .inl (Option.some_inj.mp hget).symm
  · next hid => exact .inr ⟨Ne.symm hid, hget, h.inFlight, h.action, h.target⟩

theorem Provisions.stored {job other : Job} {tags : JobId → Option ProvisionTag}
    (h : s.Provisions other) (hid : other.id ≠ job.id) : (s.stored job tags).Provisions other where
  get := by
    rw [Convergence.stored, JobQueue.get_put, if_neg hid.symm]
    exact h.get
  inFlight := h.inFlight
  action := h.action
  target := h.target

/-- Before a controller asks freely, no job of the step is in flight under another id: it would have
been asked for by the same controller, under the key that is not in flight. -/
theorem Inv.step_ne (h : s.Inv) {id : JobId} {tag : ProvisionTag}
    (hkey : s.queue.holds (s.key tag) = false) (hfree : s.Free id tag) {job : Job}
    (hjob : s.Provisions job) (hne : job.id ≠ id) :
    (s.tags job.id).map (·.step) ≠ some tag.step := by
  intro hstep
  obtain ⟨other, htag, hkeyed⟩ := h.tagged job hjob
  rw [htag, Option.map_some, Option.some_inj] at hstep
  by_cases hmaker : other.maker = tag.maker
  · rw [ProvisionTag.eq_of_step hmaker hstep] at hkeyed
    have hholds := JobQueue.holds_iff.mpr ⟨job, hjob.get, hjob.inFlight, hkeyed⟩
    rw [hkey] at hholds
    cases hholds
  · obtain hholds | hother := hfree
    · rw [hkey] at hholds
      cases hholds
    · exact hne (hother job other hjob htag hmaker hstep)

/-- A controller asks freely, and its job is stored. -/
theorem Inv.provision (h : s.Inv) (id : JobId) (tag : ProvisionTag) (now : DateTime)
    (hkey : s.queue.holds (s.key tag) = false) (hfree : s.Free id tag) :
    (s.stored (Job.fresh id s.target .provision tag.version .default now)
      (Function.update s.tags id (some tag))).Inv where
  same := h.same
  tagged := fun job hjob => by
    obtain rfl | ⟨hne, hold⟩ := provisions_stored _ hjob
    · refine ⟨tag, ?_, rfl⟩
      rw [tags_stored, Job.id_fresh, Function.update_self]
    · obtain ⟨other, htag, hkeyed⟩ := h.tagged job hold
      rw [Job.id_fresh] at hne
      refine ⟨other, ?_, hkeyed⟩
      rw [tags_stored, Function.update_of_ne hne, htag]
  single := by
    have htags : ∀ k, k ≠ id →
        Function.update s.tags id (some tag) k = s.tags k := fun k hk => Function.update_of_ne hk _ _
    have hself : Function.update s.tags id (some tag) id = some tag := Function.update_self id _ _
    intro a b ha hb hstep
    change (Function.update s.tags id (some tag) a.id).map (·.step) =
      (Function.update s.tags id (some tag) b.id).map (·.step) at hstep
    obtain rfl | ⟨hnea, holda⟩ := provisions_stored _ ha
    · obtain rfl | ⟨hneb, holdb⟩ := provisions_stored _ hb
      · rfl
      · rw [htags b.id hneb] at hstep
        exact absurd (hstep.symm.trans (congrArg _ hself)) (h.step_ne hkey hfree holdb hneb)
    · obtain rfl | ⟨hneb, holdb⟩ := provisions_stored _ hb
      · rw [htags a.id hnea] at hstep
        exact absurd (hstep.trans (congrArg _ hself)) (h.step_ne hkey hfree holda hnea)
      · rw [htags a.id hnea, htags b.id hneb] at hstep
        exact h.single a b holda holdb hstep

/-- A stored job that leaves one job per step in flight was asked for freely. -/
theorem free_of_single {id : JobId} {tag : ProvisionTag} {now : DateTime}
    (hnext : (s.stored (Job.fresh id s.target .provision tag.version .default now)
      (Function.update s.tags id (some tag))).SingleProvision) : s.Free id tag := by
  refine .inr fun job other hjob htag _ hstep => ?_
  by_contra hne
  have hfresh : (s.stored (Job.fresh id s.target .provision tag.version .default now)
      (Function.update s.tags id (some tag))).Provisions
      (Job.fresh id s.target .provision tag.version .default now) :=
    ⟨by rw [stored, JobQueue.get_put, if_pos rfl], rfl, rfl, rfl⟩
  refine hne (hnext job _ (hjob.stored hne) hfresh ?_)
  change (Function.update s.tags id (some tag) job.id).map (·.step) =
    (Function.update s.tags id (some tag) id).map (·.step)
  rw [Function.update_of_ne hne, Function.update_self, htag, Option.map_some, Option.map_some, hstep]

/-! ## One step -/

/-- A pass that asks for the resource to be provisioned, if it wants to, under its own key: it does
nothing, or stores the job. -/
theorem demand_provision (s : Convergence) (wanted : Bool) (id : JobId) (tag : ProvisionTag)
    (now : DateTime) :
    (({ s with
        queue := s.queue.demand wanted id s.target .provision tag.version now
        tags := s.tagsAfter wanted id tag } : Convergence) = s ∧
      (wanted = true → s.queue.holds (s.key tag) = true)) ∨
    (({ s with
        queue := s.queue.demand wanted id s.target .provision tag.version now
        tags := s.tagsAfter wanted id tag } : Convergence) =
      s.stored (Job.fresh id s.target .provision tag.version .default now)
        (Function.update s.tags id (some tag)) ∧
      wanted = true ∧ s.queue.holds (s.key tag) = false) := by
  obtain ⟨hqueue, hwanted⟩ | ⟨hqueue, hwanted, hkey⟩ :=
    s.queue.demand_cases wanted id s.target .provision tag.version now
  · have hkeyed : (wanted && !s.queue.holds (s.key tag)) = false := hwanted
    refine .inl ⟨?_, fun h => by simpa [h] using hkeyed⟩
    rw [hqueue, tagsAfter, hkeyed]
    rfl
  · have hkeyed : s.queue.holds (s.key tag) = false := hkey
    refine .inr ⟨?_, hwanted, hkeyed⟩
    rw [hqueue, tagsAfter, hkeyed, hwanted]
    rfl

/-- The invariant after such a pass, and what the pass found. -/
theorem Inv.demand (h : s.Inv) (wanted : Bool) (id : JobId) (tag : ProvisionTag) (now : DateTime) :
    let left : Convergence := { s with
      queue := s.queue.demand wanted id s.target .provision tag.version now
      tags := s.tagsAfter wanted id tag }
    ((wanted = true → s.Free id tag) → left.Inv) ∧
      (left.SingleProvision → wanted = true → s.Free id tag) := by
  dsimp only
  obtain ⟨heq, hholds⟩ | ⟨heq, hwanted, hkey⟩ := s.demand_provision wanted id tag now
  · rw [heq]
    exact ⟨fun _ => h, fun _ hwanted => .inl (hholds hwanted)⟩
  · rw [heq]
    exact ⟨fun hfree => h.provision id tag now hkey (hfree hwanted),
      fun hsingle _ => free_of_single hsingle⟩

theorem Inv.work (h : s.Inv) {op : QueueOp} (hop : op.isWork = true) :
    Inv { s with queue := jobQueue.next s.queue op } := by
  obtain ⟨ans, hstep, -⟩ | ⟨new, henqueued, -⟩ | ⟨old, moved, ans, hold, hmove, hstep⟩ :=
    step_cases s.queue op
  · rw [jobQueue.next_of_step hstep]
    exact h
  · obtain ⟨id, target, action, version, policy, time, rfl, -⟩ := henqueued
    cases hop
  · rw [jobQueue.next_of_step hstep]
    refine h.of_jobs rfl rfl rfl fun job hjob => ?_
    obtain rfl | ⟨-, hjob⟩ := provisions_stored s.tags hjob
    · obtain ⟨hid, htarget, haction, hkey, -⟩ := hmove.sameWork
      obtain hflight | ⟨-, now, rfl⟩ := hmove.isInFlight hjob.inFlight
      · exact ⟨old, ⟨hold, hflight, haction.symm.trans hjob.action,
          htarget.symm.trans hjob.target⟩, hid.symm, hkey.symm⟩
      · cases hop
    · exact ⟨job, hjob, rfl, rfl⟩

/-- A job that deletes the resource does not provision it. -/
theorem Inv.delete (h : s.Inv) (wanted : Bool) (id : JobId) (version : ℕ) (now : DateTime) :
    Inv { s with queue := s.queue.demand wanted id s.target .delete version now } := by
  obtain ⟨hqueue, -⟩ | ⟨hqueue, -, -⟩ :=
    s.queue.demand_cases wanted id s.target .delete version now
  · rw [hqueue]
    exact h
  · rw [hqueue]
    refine h.of_jobs rfl rfl rfl fun job hjob => ?_
    obtain rfl | ⟨-, hjob⟩ := provisions_stored s.tags hjob
    · cases hjob.action
    · exact ⟨job, hjob, rfl, rfl⟩

/-- A pass of the resource controller asks for the resource or for its deletion. -/
theorem resourcePass_eq (s : Convergence) (id : JobId) (now : DateTime) :
    (s.resource.missing = true ∧ convergence.next s (.resourcePass id now) = { s with
      queue := s.queue.demand s.resource.missing id s.target .provision (s.tag .resource).version now
      tags := s.tagsAfter s.resource.missing id (s.tag .resource) }) ∨
    (s.resource.missing = false ∧ convergence.next s (.resourcePass id now) = { s with
      queue := s.queue.demand s.resource.unwanted id s.target .delete
        s.resource.resource.convergenceVersion now }) := by
  cases hmissing : s.resource.missing with
  | true =>
    have hunwanted : s.resource.unwanted = false := by
      simp only [ResourceController.missing, Bool.and_eq_true] at hmissing
      simp [ResourceController.unwanted, hmissing.1]
    refine .inl ⟨rfl, ?_⟩
    simp only [convergence, Machine.next, step, ResourceController.reconcile, hmissing, hunwanted]
    rfl
  | false =>
    refine .inr ⟨rfl, ?_⟩
    simp only [convergence, Machine.next, step, ResourceController.reconcile, hmissing, tagsAfter]
    rfl

theorem capabilityPass_eq (h : s.Inv) (id : JobId) (now : DateTime) :
    convergence.next s (.capabilityPass id now) = { s with
      queue := s.queue.demand s.capability.unready id s.target .provision
        (s.tag .capability).version now
      tags := s.tagsAfter s.capability.unready id (s.tag .capability) } := by
  have htarget : toString s.capability.resourceId = s.target := by rw [h.same, target]
  simp only [convergence, Machine.next, step, CapabilityController.reconcile, htarget]
  rfl

theorem Inv.next (h : s.Inv) (op : ConvergenceOp) (hop : s.AsksFreely op) :
    (convergence.next s op).Inv := by
  cases op with
  | resourcePass id now =>
    obtain ⟨-, heq⟩ | ⟨-, heq⟩ := s.resourcePass_eq id now
    · rw [heq]
      exact (h.demand s.resource.missing id (s.tag .resource) now).1 hop
    · rw [heq]
      exact h.delete s.resource.unwanted id _ now
  | capabilityPass id now =>
    rw [capabilityPass_eq h]
    exact (h.demand s.capability.unready id (s.tag .capability) now).1 hop
  | work op hwork => exact h.work hwork
  | onResource op =>
    exact h.of_jobs rfl (s.resource.id_perform op) rfl fun job hjob =>
      ⟨job, ⟨hjob.get, hjob.inFlight, hjob.action, by
        rw [hjob.target]
        exact congrArg toString (s.resource.id_perform op)⟩, rfl, rfl⟩
  | observeReadiness phase =>
    exact h.of_jobs rfl rfl rfl fun job hjob =>
      ⟨job, ⟨hjob.get, hjob.inFlight, hjob.action, hjob.target⟩, rfl, rfl⟩
  | acceptAgentCompletion =>
    exact h.of_jobs rfl rfl rfl fun job hjob =>
      ⟨job, ⟨hjob.get, hjob.inFlight, hjob.action, hjob.target⟩, rfl, rfl⟩

theorem Inv.asksFreely (h : s.Inv) (op : ConvergenceOp)
    (hnext : (convergence.next s op).SingleProvision) : s.AsksFreely op := by
  cases op with
  | resourcePass id now =>
    intro hmissing
    obtain ⟨-, heq⟩ | ⟨hpresent, -⟩ := s.resourcePass_eq id now
    · rw [heq] at hnext
      exact (h.demand s.resource.missing id (s.tag .resource) now).2 hnext hmissing
    · rw [hpresent] at hmissing
      cases hmissing
  | capabilityPass id now =>
    rw [capabilityPass_eq h] at hnext
    exact (h.demand s.capability.unready id (s.tag .capability) now).2 hnext
  | _ => trivial

theorem inv_new (id : ResourceId) (kind : String) (desiredVersion : ℕ) (time : DateTime)
    (capability : String) : (Convergence.new id kind desiredVersion time capability).Inv where
  same := rfl
  tagged := fun job hjob => by
    have hget := hjob.get
    rw [new, JobQueue.get_new] at hget
    cases hget
  single := fun a b ha => by
    have hget := ha.get
    rw [new, JobQueue.get_new] at hget
    cases hget

end Convergence

/-! ## Whole histories -/

/-- **No duplicate provisioning.** From an empty queue and two new controllers of one resource, no
state of a history holds two jobs in flight that provision the resource at the same desired version
and generation, exactly if a controller that asks for it always finds its own key in flight, or no
job in flight that the other one asked for at the same step. -/
theorem singleProvision_history (id : ResourceId) (kind : String) (desiredVersion : ℕ)
    (time : DateTime) (capability : String) (ops : List ConvergenceOp) :
    (∀ n, (convergence.run (.new id kind desiredVersion time capability)
        (ops.take n)).SingleProvision) ↔
      convergence.Guarded Convergence.AsksFreely
        (.new id kind desiredVersion time capability) ops :=
  convergence.forall_run_take_iff_guarded (fun _ h => h.single)
    (fun _ op h _ hop => h.next op hop) (fun _ op h _ hnext => h.asksFreely op hnext) _ ops
    (Convergence.inv_new id kind desiredVersion time capability) (convergence.guarded_true _ ops)

/-- One pass of each controller over a new resource. -/
theorem passes_duplicate :
    let s := convergence.run (.new ⟨1⟩ "database.postgres" 1 0 "database")
      [.resourcePass ⟨1⟩ 1, .capabilityPass ⟨2⟩ 2]
    ¬ s.SingleProvision := by
  intro s hsingle
  have ha : ∃ a, s.queue.get ⟨1⟩ = some a ∧ s.Provisions a := ⟨_, rfl, rfl, rfl, rfl, rfl⟩
  have hb : ∃ b, s.queue.get ⟨2⟩ = some b ∧ s.Provisions b := ⟨_, rfl, rfl, rfl, rfl, rfl⟩
  obtain ⟨a, hgeta, ha⟩ := ha
  obtain ⟨b, hgetb, hb⟩ := hb
  have heq := hsingle a b ha hb
  rw [JobQueue.get_id hgeta, JobQueue.get_id hgetb] at heq
  exact absurd (heq rfl) (by decide)

end Labrys.Core
