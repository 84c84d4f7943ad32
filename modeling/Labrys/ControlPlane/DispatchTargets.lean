import Labrys.ControlPlane.WorkerProviders
import Labrys.Foundations.Splitting

/-! # The target of a provider job across its attempts

The dispatcher reads the resource and the application of an operation from the job's target, and
draws an id where the target has none. No target has both, since the two ids begin differently.

* `dispatch_targets`: what two dispatches of one job agree on, and which resource an outcome names.
-/

namespace Labrys.ControlPlane
open Foundations Labrys.Core
set_option autoImplicit false

/-! ## Reading a target -/

namespace ProviderJobDispatcher

theorem firstSegment_of_notMem {head : String} (h : ':' ∉ head.toList) (rest : String) :
    firstSegment (head ++ ":" ++ rest) = head := by
  have htarget : (head ++ ":" ++ rest).toList = head.toList ++ ':' :: rest.toList := by
    simp [String.toList_append]
  have hhead : (head.toList ++ ':' :: rest.toList).takeWhile (fun c => c ≠ ':') = head.toList :=
    upTo_append_cons h rest.toList
  rw [firstSegment, htarget, hhead, String.ofList_toList]

/-- The leading segment of a target the API writes names its application. -/
theorem parse_firstSegment (app : ApplicationId) (rest : String) :
    TaggedId.parse "app" (firstSegment (toString app ++ ":" ++ rest)) = some app := by
  have hcolon : ':' ∉ (toString app).toList :=
    app.notMem_toString (by decide) (by decide) (by decide)
  rw [firstSegment_of_notMem hcolon, TaggedId.parse_toString]

/-- A target that is a resource id does not begin with an application id. -/
theorem parse_app_of_parse_res {target : String} (h : TaggedId.parse "res" target ≠ none) :
    TaggedId.parse "app" (firstSegment target) = none := by
  have hres : ("res" ++ "_").toList <+: target.toList := by
    by_contra hprefix
    exact h (by rw [TaggedId.parse, if_neg hprefix])
  refine if_neg fun happ => ?_
  have hsegment : (firstSegment target).toList <+: target.toList := by
    rw [firstSegment, String.toList_ofList]
    exact List.takeWhile_prefix _
  obtain ⟨u, hu⟩ := hres
  obtain ⟨v, hv⟩ := happ.trans hsegment
  rw [← hu] at hv
  simp at hv

end ProviderJobDispatcher

/-! ## What dispatching leaves of the resources -/

/-- The program neither adds nor removes a resource. -/
def KeepsResources {α : Type} (m : Action α) : Prop :=
  m.Keeps fun db => fun id => (db.resources.get id).isSome

theorem isSome_updateWhere (db : Db) (p : Resource → Bool) (f : Resource → Resource)
    (hf : ∀ r : Resource, (f r).id = r.id) :
    (fun id => ((db.resources.updateWhere p f hf).get id).isSome) =
      fun id => (db.resources.get id).isSome := by
  funext id
  rw [Table.get_updateWhere, Option.isSome_map]

namespace PgResourceStore

theorem keepsResources_writePhase (observed : Resource) : KeepsResources (writePhase observed) :=
  fun db => isSome_updateWhere db (fun row => decide (row.id = observed.id))
    (·.withPhaseOf observed) fun _ => rfl

theorem keepsResources_writeFailure (failed : Resource) : KeepsResources (writeFailure failed) :=
  fun db => isSome_updateWhere db (fun row => decide (row.id = failed.id))
    (fun row => { row with
      phase := failed.phase, generation := failed.generation, failure := failed.failure,
      transitions := failed.transitions, evidence := failed.evidence })
    fun _ => rfl

theorem keepsResources_observePhase (id : ResourceId) (phase : ResourcePhase)
    (observedBy : ObservationSource) (reason : Option String) (time : DateTime) :
    KeepsResources (observePhase id phase observedBy reason time) :=
  (keeps_get id).bind fun _ => (Program.keeps_ofExcept _).bind fun observed =>
    (keepsResources_writePhase observed).bind fun _ => keeps_get id

theorem keepsResources_recordFailure (id : ResourceId) (reason : String) (secrets : List String)
    (policy : RetryPolicy) (time : DateTime) :
    KeepsResources (recordFailure id reason secrets policy time) :=
  (keeps_get id).bind fun _ => (Program.keeps_ofExcept _).bind fun failed =>
    (keepsResources_writeFailure failed).bind fun _ => keeps_get id

end PgResourceStore

namespace ProviderRuntime
variable (runtime : ProviderRuntime)

theorem keepsResources_applyObservation (adapterKey : String) (resource : ResourceId)
    (time : DateTime) (execution : ProviderExecution) :
    KeepsResources (runtime.applyObservation adapterKey resource time execution) := by
  cases execution with
  | accepted detail =>
    exact Action.keeps_dropError (PgResourceStore.keepsResources_observePhase _ _ _ _ _)
  | ready detail =>
    exact Action.keeps_dropError (PgResourceStore.keepsResources_observePhase _ _ _ _ _)
  | degraded reason =>
    exact Action.keeps_dropError (PgResourceStore.keepsResources_observePhase _ _ _ _ _)
  | failed reason recovery =>
    exact Action.keeps_dropError (PgResourceStore.keepsResources_recordFailure _ _ _ _ _)

theorem keepsResources_executeOperation (adapter : ProviderAdapter) (operation : ProviderOperation)
    (approval : Option ExplicitApproval) (time : DateTime) (freshEnvironment : EnvironmentId) :
    KeepsResources
      (runtime.executeOperation adapter operation approval time freshEnvironment) := by
  unfold executeOperation
  split
  · exact (runtime.keeps_recordOperation _ _ _ _ fun _ _ => rfl).bind fun _ =>
      (runtime.keeps_recordEvent _ _ _ (fun _ _ => rfl) fun _ _ => rfl).bind fun _ =>
        Program.keeps_ofExcept _
  · exact (runtime.keeps_recordOperation _ _ _ _ fun _ _ => rfl).bind fun _ =>
      (runtime.keepsResources_applyObservation _ _ _ _).bind fun _ =>
        (runtime.keeps_recordEvent _ _ _ (fun _ _ => rfl) fun _ _ => rfl).bind fun _ =>
          Program.Keeps.bind (fun _ => rfl) fun _ => Program.keeps_pure _

end ProviderRuntime

/-! ## Two dispatches of one job -/

namespace ProviderJobDispatcher
variable (d : ProviderJobDispatcher)

theorem dispatch_names {fresh : FreshIds} {time : DateTime} {job : Job} {db db' : Db}
    {resource : ResourceId}
    (h : d.dispatch fresh time job db = (db', .ok (.ready resource)) ∨
      d.dispatch fresh time job db = (db', .ok (.degraded resource))) :
    resource = resourceOf fresh job ∧
      (db'.resources.get resource).isSome = (db.resources.get resource).isSome := by
  unfold dispatch at h
  cases hadapter : d.adapterFor job with
  | none =>
    rw [hadapter] at h
    obtain h | h := h <;> cases h
  | some adapter =>
    rw [hadapter] at h
    have hkept := d.runtime.keepsResources_executeOperation adapter (operationOf fresh adapter job)
      none time fresh.environment db
    have hname : resource = resourceOf fresh job := by
      have houtcome := h.imp (congrArg Prod.snd) (congrArg Prod.snd)
      simp only at houtcome
      unfold outcomeOf at houtcome
      split at houtcome <;> simp_all
    have hdb : db' = (d.runtime.executeOperation adapter (operationOf fresh adapter job) none time
        fresh.environment db).1 :=
      (h.elim (congrArg Prod.fst) (congrArg Prod.fst)).symm
    rw [hdb]
    exact ⟨hname, congrFun hkept resource⟩

theorem resourceId_operationOf (fresh : FreshIds) (adapter : ProviderAdapter) (job : Job) :
    (operationOf fresh adapter job).resourceId =
      (TaggedId.parse "res" job.target).getD fresh.resource := by
  rw [operationOf, resourceOf]

theorem applicationId_operationOf (fresh : FreshIds) (adapter : ProviderAdapter) (job : Job) :
    (operationOf fresh adapter job).applicationId =
      (TaggedId.parse "app" (firstSegment job.target)).getD fresh.application := by
  rw [operationOf]

/-- Two readings of an optional id, each with its own draw, agree if there is one or the draws do. -/
theorem getD_eq_getD_iff {α : Type} (read : Option α) (a b : α) :
    read.getD a = read.getD b ↔ read ≠ none ∨ a = b := by
  cases read <;> simp

/-- **Targets across attempts.** Two dispatches of one job, each with its own draws, have the same
resource exactly if the target is a resource id or the draws agree, and the same application exactly
if the target begins with an application id or the draws agree; a target is never both, and a target
written by the API names its application. An outcome that names a resource names the one of the
operation, and no dispatch adds or removes a stored resource. -/
theorem dispatch_targets (fresh fresh' : FreshIds) (adapter adapter' : ProviderAdapter)
    (job : Job) :
    ((operationOf fresh adapter job).resourceId = (operationOf fresh' adapter' job).resourceId ↔
      TaggedId.parse "res" job.target ≠ none ∨ fresh.resource = fresh'.resource) ∧
    ((operationOf fresh adapter job).applicationId =
        (operationOf fresh' adapter' job).applicationId ↔
      TaggedId.parse "app" (firstSegment job.target) ≠ none ∨
        fresh.application = fresh'.application) ∧
    ¬ (TaggedId.parse "res" job.target ≠ none ∧
      TaggedId.parse "app" (firstSegment job.target) ≠ none) ∧
    (∀ (app : ApplicationId) (rest : String), job.target = toString app ++ ":" ++ rest →
      (operationOf fresh adapter job).applicationId = app) ∧
    ∀ (d : ProviderJobDispatcher) (time : DateTime) (db db' : Db) (resource : ResourceId),
      d.dispatch fresh time job db = (db', .ok (.ready resource)) ∨
        d.dispatch fresh time job db = (db', .ok (.degraded resource)) →
      resource = (operationOf fresh adapter job).resourceId ∧
        (db'.resources.get resource).isSome = (db.resources.get resource).isSome := by
  refine ⟨?_, ?_, ?_, ?_, fun d time db db' resource h => d.dispatch_names h⟩
  · rw [resourceId_operationOf, resourceId_operationOf]
    exact getD_eq_getD_iff _ _ _
  · rw [applicationId_operationOf, applicationId_operationOf]
    exact getD_eq_getD_iff _ _ _
  · rintro ⟨hres, happ⟩
    exact happ (parse_app_of_parse_res hres)
  · intro app rest htarget
    rw [applicationId_operationOf, htarget, parse_firstSegment, Option.getD_some]

/-! ## A rollout the API enqueued -/

def rolloutJob : Job :=
  Job.fresh ⟨7⟩ "app_00000000000000000000000000000001:deploy:production" .rollout 1
    RetryPolicy.default 0

def readyDispatcher : ProviderJobDispatcher where
  runtime := ⟨[]⟩
  adapters := [⟨"generic.local-test", .generic, fun _ => .ok (.ready "up")⟩]
  toLowercase := id

/-- Each attempt is ready on a resource of its own, which the platform does not store. -/
theorem dispatch_targets_differ :
    let attempt := fun n : Uuid =>
      (readyDispatcher.dispatch ⟨⟨n⟩, ⟨n⟩, ⟨n⟩⟩ 0 rolloutJob queuedStore)
    (attempt 21).2 = .ok (.ready ⟨21⟩) ∧ (attempt 22).2 = .ok (.ready ⟨22⟩) ∧
      ((attempt 21).1.resources.get ⟨21⟩).isSome = false ∧
      (queuedStore.resources.get ⟨21⟩).isSome = false := by
  decide +kernel

end ProviderJobDispatcher
end Labrys.ControlPlane
