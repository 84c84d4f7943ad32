import Labrys.ControlPlane.JobsRuns
import Labrys.ControlPlane.Providers

/-! # The worker on top of the provider dispatcher

Both write the lifecycle phase: `execute_operation` while it dispatches, `Worker::observe` after
it. The second write meets a resource that is already there, and no phase leads to itself. -/

namespace Labrys.ControlPlane
open Foundations Labrys.Core
set_option autoImplicit false

/-! ## What dispatching leaves alone -/

namespace ProviderRuntime
variable (runtime : ProviderRuntime)

theorem keeps_recordOperation {γ : Type} {view : Db → γ} (operation : ProviderOperation)
    (phase : ResourcePhase) (failure : String) (usageUnits : ℕ)
    (hview : ∀ (db : Db) operations, view { db with operations := operations } = view db) :
    (runtime.recordOperation operation phase failure usageUnits).Keeps view := by
  refine (Program.keeps_ofExcept _).bind fun text db => ?_
  unfold insertOperation
  split
  · rfl
  · exact hview db _

theorem keeps_recordEvent {γ : Type} {view : Db → γ} (operation : ProviderOperation)
    (report : Report) (time : DateTime)
    (hevents : ∀ (db : Db) events, view { db with events := events } = view db)
    (haudit : ∀ (db : Db) audit, view { db with audit := audit } = view db) :
    (runtime.recordEvent operation report time).Keeps view :=
  Program.Keeps.bind ((Program.keeps_ofExcept _).bind fun _ db => hevents db _) fun _ =>
    (Program.keeps_ofExcept _).bind fun _ db => haudit db _

theorem jobs_applyObservation (adapterKey : String) (resource : ResourceId) (time : DateTime)
    (execution : ProviderExecution) :
    (runtime.applyObservation adapterKey resource time execution).Keeps Db.jobs := by
  cases execution <;> exact Action.keeps_dropError (by
    first
      | exact PgResourceStore.jobs_observePhase _ _ _ _ _
      | exact PgResourceStore.jobs_recordFailure _ _ _ _ _)

theorem jobs_persistExecution (adapter : ProviderAdapter) (operation : ProviderOperation)
    (time : DateTime) (freshEnvironment : EnvironmentId) (execution : ProviderExecution) :
    (runtime.persistExecution adapter operation time freshEnvironment execution).Keeps
      Db.jobs :=
  (runtime.keeps_recordOperation _ _ _ _ fun _ _ => rfl).bind fun _ =>
    (runtime.jobs_applyObservation _ _ _ _).bind fun _ =>
      (runtime.keeps_recordEvent _ _ _ (fun _ _ => rfl) fun _ _ => rfl).bind fun _ =>
        Program.Keeps.bind (fun _ => rfl) fun _ => Program.keeps_pure _

/-- A persisted observation of a resource that may move there has been stored. -/
theorem persistExecution_phase {adapter : ProviderAdapter} {operation : ProviderOperation}
    {time : DateTime} {freshEnvironment : EnvironmentId} {execution result : ProviderExecution}
    {db db' : Db} {resource : Resource}
    (hget : db.resources.get operation.resourceId = some resource)
    (hallowed : resource.phase.canTransitionTo execution.targetPhase = true)
    (hphase : execution.targetPhase = .ready ∨ execution.targetPhase = .degraded)
    (h : runtime.persistExecution adapter operation time freshEnvironment execution db =
      (db', .ok result)) :
    result = execution ∧ ∃ observed, db'.resources.get operation.resourceId = some observed ∧
      observed.phase = execution.targetPhase := by
  obtain ⟨db1, _, hrecord, h⟩ := Program.bind_eq_ok h
  obtain ⟨db2, _, hobserve, h⟩ := Program.bind_eq_ok h
  obtain ⟨db3, _, hevent, h⟩ := Program.bind_eq_ok h
  obtain ⟨db4, _, husage, h⟩ := Program.bind_eq_ok h
  have hkeep1 : (runtime.recordOperation operation execution.targetPhase
      execution.failureText 1 db).1.resources = db.resources :=
    runtime.keeps_recordOperation operation _ _ _ (fun _ _ => rfl) db
  have hkeep3 : (runtime.recordEvent operation (executionReport execution) time db2).1.resources =
      db2.resources :=
    runtime.keeps_recordEvent operation _ _ (fun _ _ => rfl) (fun _ _ => rfl) db2
  rw [hrecord] at hkeep1
  rw [hevent] at hkeep3
  cases husage
  cases h
  refine ⟨rfl, ?_⟩
  rw [← hkeep1] at hget
  have hstored : ∀ reason, ((PgResourceStore.observePhase operation.resourceId
      execution.targetPhase .providerCallback reason time).dropError db1).1 = db2 →
      ∃ observed, db2.resources.get operation.resourceId = some observed ∧
        observed.phase = execution.targetPhase := by
    intro reason hdb2
    obtain ⟨e, -, hrefused⟩ | ⟨found, observed, -, -, hobserved, heq, hfound⟩ :=
      PgResourceStore.observePhase_cases db1 operation.resourceId execution.targetPhase
        .providerCallback reason time
    · rw [hrefused resource hget] at hallowed
      cases hallowed
    · rw [← hdb2]
      refine ⟨observed, ?_, hobserved⟩
      simpa only [Action.dropError, heq] using hfound
  dsimp only
  rw [hkeep3]
  cases execution with
  | ready detail => exact hstored (some detail) (congrArg Prod.fst hobserve)
  | degraded reason => exact hstored (some reason) (congrArg Prod.fst hobserve)
  | accepted detail => simp [ProviderExecution.targetPhase, ProviderExecution.observation,
      ProviderObservation.targetPhase] at hphase
  | failed reason recovery => simp [ProviderExecution.targetPhase, ProviderExecution.observation,
      ProviderObservation.targetPhase] at hphase

end ProviderRuntime

/-! ## Dispatching a job on a provisioning resource -/

/-- A claimed job on a provisioning resource that the dispatcher executes through an adapter, and
the adapter reports the resource ready or degraded. -/
structure ProviderPass (d : ProviderJobDispatcher) (fresh : FreshIds) (job : Job) (db : Db) where
  row : JobRow
  stored : db.jobs.get job.id = some row
  running : row.status = .running
  resource : Resource
  target : TaggedId.parse "res" job.target = some resource.id
  present : db.resources.get resource.id = some resource
  provisioning : resource.phase = .provisioning
  -- an update or a delete is denied before any adapter is called
  allowed : job.action ≠ .update ∧ job.action ≠ .delete
  adapter : ProviderAdapter
  chosen : d.adapterFor job = some adapter
  execution : ProviderExecution
  executed : adapter.execute (ProviderJobDispatcher.operationOf fresh adapter job) = .ok execution
  reported : execution.targetPhase = .ready ∨ execution.targetPhase = .degraded

/-- What the dispatcher gives the worker after such a pass: a failed record, or the reported phase,
with the resource already in it. -/
inductive Dispatched (resource : ResourceId) (phase : ResourcePhase) (db : Db) :
    Outcome ControlPlaneError DispatchOutcome → Prop
  | panicked (message : String) : Dispatched resource phase db (.error (.panic message))
  | failed (reason : String) : Dispatched resource phase db (.ok (.failed reason))
  | ready (observed : Resource) (h : db.resources.get resource = some observed)
      (hphase : observed.phase = .ready) (hreported : phase = .ready) :
      Dispatched resource phase db (.ok (.ready resource))
  | degraded (observed : Resource) (h : db.resources.get resource = some observed)
      (hphase : observed.phase = .degraded) (hreported : phase = .degraded) :
      Dispatched resource phase db (.ok (.degraded resource))

namespace ProviderPass
variable {d : ProviderJobDispatcher} {fresh : FreshIds} {job : Job} {db : Db}

theorem executeOperation_eq (pass : ProviderPass d fresh job db) (time : DateTime) :
    d.runtime.executeOperation pass.adapter
        (ProviderJobDispatcher.operationOf fresh pass.adapter job) none time fresh.environment =
      d.runtime.persistExecution pass.adapter
        (ProviderJobDispatcher.operationOf fresh pass.adapter job) time fresh.environment
        (pass.execution.redact d.runtime.secrets) := by
  have hgate : (ProviderJobDispatcher.operationOf fresh pass.adapter job).requireApproval none =
      .ok () := by
    have haction : (ProviderJobDispatcher.actionOf job.action).isDestructive = false := by
      obtain ⟨hupdate, hdelete⟩ := pass.allowed
      cases haction : job.action <;> simp_all [ProviderJobDispatcher.actionOf,
        ProviderAction.isDestructive]
    exact if_pos haction
  unfold ProviderRuntime.executeOperation
  rw [hgate]
  simp only [pass.executed]

theorem dispatch_spec (pass : ProviderPass d fresh job db) (time : DateTime) :
    (d.dispatch fresh time job db).1.jobs = db.jobs ∧
      Dispatched pass.resource.id pass.execution.targetPhase (d.dispatch fresh time job db).1
        (d.dispatch fresh time job db).2 := by
  have hresource : ProviderJobDispatcher.resourceOf fresh job = pass.resource.id := by
    rw [ProviderJobDispatcher.resourceOf, pass.target, Option.getD_some]
  simp only [ProviderJobDispatcher.dispatch, pass.chosen, pass.executeOperation_eq time]
  refine ⟨d.runtime.jobs_persistExecution _ _ _ _ _ db, ?_⟩
  rw [hresource]
  generalize hresult : d.runtime.persistExecution pass.adapter
    (ProviderJobDispatcher.operationOf fresh pass.adapter job) time fresh.environment
    (pass.execution.redact d.runtime.secrets) db = result
  obtain ⟨db', outcome⟩ := result
  cases outcome with
  | error e =>
    cases e with
    | err error => exact .failed _
    | panic message => exact .panicked message
  | ok execution =>
    have hoperation : (ProviderJobDispatcher.operationOf fresh pass.adapter job).resourceId =
        pass.resource.id := hresource
    obtain ⟨rfl, observed, hobserved, hphase⟩ := d.runtime.persistExecution_phase
      (by rw [hoperation, pass.present])
      (by
        rw [pass.provisioning, ProviderExecution.targetPhase_redact]
        obtain h | h := pass.reported <;> rw [h] <;> rfl)
      (by rw [ProviderExecution.targetPhase_redact]; exact pass.reported) hresult
    rw [hoperation] at hobserved
    rw [ProviderExecution.targetPhase_redact] at hphase
    have hreported := pass.reported
    cases hexecution : pass.execution with
    | ready detail =>
      rw [hexecution] at hphase
      exact .ready observed hobserved hphase rfl
    | degraded reason =>
      rw [hexecution] at hphase
      exact .degraded observed hobserved hphase rfl
    | accepted detail =>
      rw [hexecution] at hreported
      obtain h | h := hreported <;> cases h
    | failed reason recovery =>
      rw [hexecution] at hreported
      obtain h | h := hreported <;> cases h

end ProviderPass

/-! ## The worker after the dispatcher -/

namespace Worker
variable (w : Worker)

theorem jobs_get_fail {db : Db} {job : Job} {row : JobRow} (hget : db.jobs.get job.id = some row)
    (hrun : row.status = .running) (reason : String) (now : DateTime) :
    ∃ row', (w.fail job reason now db).1.jobs.get job.id = some row' ∧
      row'.status ≠ .succeeded := by
  obtain ⟨heq, -⟩ | ⟨found, hfound, -, ⟨message, -, heq⟩ | ⟨status, next, hafter, -, hrest⟩⟩ :=
    db.jobs.fail_cases job.id w.workerId reason now
  · refine ⟨row, ?_, by simp [hrun]⟩
    simpa only [fail, Action.onJobs, heq] using hget
  · refine ⟨row, ?_, by simp [hrun]⟩
    simpa only [fail, Action.onJobs, heq] using hget
  · refine ⟨found.failed status reason next, (hrest job.id).trans (if_pos rfl), ?_⟩
    obtain rfl | rfl := afterFailure_status hafter <;> simp [JobRow.failed]

end Worker

/-- **Dispatcher and worker do not compose.** Whenever the dispatcher executes a job on a
provisioning resource through an adapter that reports it ready or degraded, the pass does not leave
the job succeeded: the dispatcher has moved the resource already, and the worker's own observation
is refused. -/
theorem finalize_provider_not_succeeded (w : Worker) (d : ProviderJobDispatcher) (fresh : FreshIds)
    (time now : DateTime) (claimed : ClaimedJob) (db : Db)
    (pass : ProviderPass d fresh claimed.job db) :
    ∃ row, (w.finalize (d.dispatch fresh time) claimed now db).1.jobs.get claimed.job.id =
      some row ∧ row.status ≠ .succeeded := by
  obtain ⟨hjobs, hdispatched⟩ := pass.dispatch_spec time
  have hpair : d.dispatch fresh time claimed.job db = ((d.dispatch fresh time claimed.job db).1,
    (d.dispatch fresh time claimed.job db).2) := rfl
  generalize (d.dispatch fresh time claimed.job db).1 = db1 at hjobs hdispatched hpair
  generalize (d.dispatch fresh time claimed.job db).2 = outcome at hdispatched hpair
  have hstored : db1.jobs.get claimed.job.id = some pass.row := by rw [hjobs, pass.stored]
  have hrunning : pass.row.status ≠ .succeeded := by simp [pass.running]
  unfold Worker.finalize
  cases hdispatched with
  | panicked message =>
    rw [Program.bind_of_error hpair]
    exact ⟨pass.row, hstored, hrunning⟩
  | failed reason =>
    rw [Program.bind_of_ok hpair]
    obtain ⟨row, hrow, hstatus⟩ := w.jobs_get_fail hstored pass.running
      (redactReason reason w.secrets) now
    refine ⟨row, ?_, hstatus⟩
    rw [← hrow]
    exact congrArg (fun t : JobsTable => t.get claimed.job.id)
      (Program.Keeps.bind_right Db.jobs (fun status => (w.jobs_recordEvent now _).bind fun _ =>
        Program.keeps_pure _) db1)
  | ready observed h hphase hreported =>
    obtain ⟨e, he⟩ := w.observe_of_phase h hphase now
    rw [Program.bind_of_ok hpair]
    dsimp only
    rw [Program.bind_of_error he]
    exact ⟨pass.row, hstored, hrunning⟩
  | degraded observed h hphase hreported =>
    obtain ⟨e, he⟩ := w.observe_of_phase h hphase now
    rw [Program.bind_of_ok hpair]
    dsimp only
    rw [Program.bind_of_error he]
    exact ⟨pass.row, hstored, hrunning⟩

/-! ## One such pass -/

def claimedStore : Db :=
  { queuedStore with
    jobs := (queuedStore.jobs.claimNext "worker-0" 1000 30000 fun _ => false).1 }

def claimedJob : ClaimedJob where
  job := { Job.fresh ⟨7⟩ "res_00000000000000000000000000000001" .provision 1
      RetryPolicy.default 0 with
    status := .running, attempts := 1, updatedAt := 1000 }
  leaseOwner := "worker-0"
  leaseExpiresAt := 31000

/-- One generic adapter that reports readiness; target and key are lower-case already. -/
def readyDispatcher : ProviderJobDispatcher where
  runtime := ⟨[]⟩
  adapters := [⟨"generic.local-test", .generic, fun _ => .ok (.ready "up")⟩]
  toLowercase := fun text => text

def readyPass : ProviderPass readyDispatcher ⟨⟨2⟩, ⟨3⟩, ⟨4⟩⟩ claimedJob.job claimedStore where
  row := ⟨claimedJob.job, some "worker-0", some 31000⟩
  stored := by decide +kernel
  running := rfl
  resource := provisioningResource
  target := by decide +kernel
  present := by decide +kernel
  provisioning := rfl
  allowed := by decide
  adapter := ⟨"generic.local-test", .generic, fun _ => .ok (.ready "up")⟩
  chosen := by rfl
  execution := .ready "up"
  executed := rfl
  reported := .inl rfl

theorem finalize_provider_not_succeeded_ready :
    ∃ row, ((⟨"worker-0", 30000, []⟩ : Worker).finalize
        (readyDispatcher.dispatch ⟨⟨2⟩, ⟨3⟩, ⟨4⟩⟩ 2000) claimedJob 2000 claimedStore).1.jobs.get ⟨7⟩ =
      some row ∧ row.status ≠ .succeeded :=
  finalize_provider_not_succeeded ⟨"worker-0", 30000, []⟩ readyDispatcher ⟨⟨2⟩, ⟨3⟩, ⟨4⟩⟩ 2000 2000
    claimedJob claimedStore readyPass

/-- The resource is ready, the job still running, and the pass an error. -/
theorem ready_pass_leaves_job_running :
    let result := (⟨"worker-0", 30000, []⟩ : Worker).finalize
      (readyDispatcher.dispatch ⟨⟨2⟩, ⟨3⟩, ⟨4⟩⟩ 2000) claimedJob 2000 claimedStore
    (result.1.jobs.get ⟨7⟩).map (·.status) = some .running ∧
      (result.1.resources.get ⟨1⟩).map (·.phase) = some .ready ∧
      result.2 = .error (.err (.core (.reconciliation ("illegal resource transition Ready -> " ++
        "Ready for resource res_00000000000000000000000000000001")))) := by
  decide +kernel

end Labrys.ControlPlane
