import Labrys.ControlPlane.ProviderOperations

/-! # The adapters of this platform

`PostgresProvisioner` over an admin connection, and the object and file storage provisioners over
one filesystem backend. What the server and the filesystem answer during a call, and what a call
draws at random, are arguments; what an adapter keeps in process memory is its state.

* `PostgresProvisioner.execute_delete`, `FsBucketBackend.executeScoped_delete`: the one outcome of a
  delete that succeeds.
* `delete_recorded_iff`: what `execute_operation` records of it.
-/

namespace Labrys.ControlPlane
open Foundations Labrys.Core
set_option autoImplicit false

/-! ## PostgreSQL -/

/-- What the admin server answers to each statement of one call, or the text of its error. -/
structure AdminServer where
  roleExists : String → Except String Bool
  databaseExists : String → Except String Bool
  createRole : String → Except String Unit
  createDatabase : String → Except String Unit
  grantConnect : String → Except String Unit
  terminateBackends : String → Except String Unit
  dropDatabase : String → Except String Unit
  dropRole : String → Except String Unit

structure ProvisionedCredential where
  username : String
  password : String
  database : String
  host : String
  port : ℕ
deriving DecidableEq

/-- The entries of the credential cache stand in the order the map iterates. -/
structure PostgresProvisioner where
  server : AdminServer
  adminPassword : Option String
  adminHost : String
  adminPort : ℕ
  credentials : List (String × ProvisionedCredential)

def validateIdentifier (name : String) : Except ControlPlaneError Unit :=
  let lower := fun c : Char => decide ('a' ≤ c ∧ c ≤ 'z')
  let digit := fun c : Char => decide ('0' ≤ c ∧ c ≤ '9')
  if (name.toList.head?.any fun c => lower c || decide (c = '_')) = false then
    .error (.execution
      s!"postgres identifier must start with a lowercase letter or underscore: {name}")
  else if 48 < name.utf8ByteSize ∨
      (name.toList.all fun c => lower c || digit c || decide (c = '_')) = false then
    .error (.execution s!"postgres identifier must be <48 chars of [a-z0-9_]: {name}")
  else .ok ()

def quoted (name : String) : String := "\"" ++ replaceText name "\"" "\"\"" ++ "\""

/-- Every text of an outcome through `scrub`. -/
def ProviderExecution.scrubbed (scrub : String → String) : ProviderExecution → ProviderExecution
  | accepted detail => .accepted (scrub detail)
  | ready detail => .ready (scrub detail)
  | degraded reason => .degraded (scrub reason)
  | failed reason recovery => .failed (scrub reason) (scrub recovery)

abbrev Provisioning := Program PostgresProvisioner ControlPlaneError

namespace PostgresProvisioner
variable (p : PostgresProvisioner)

def credentialSecrets : List String :=
  (p.adminPassword.filter fun password => password ≠ "").toList ++
    p.credentials.map fun entry => entry.2.password

def scrub (text : String) : String := redactReason text p.credentialSecrets

/-- The role and the database of a resource. -/
def names (operation : ProviderOperation) : Except ControlPlaneError (String × String) := do
  let stem := String.ofList
    (((toString operation.resourceId).toList.filter fun c => c ≠ '-').take 16)
  validateIdentifier ("labrys_r_" ++ stem)
  validateIdentifier ("labrys_db_" ++ stem)
  return ("labrys_r_" ++ stem, "labrys_db_" ++ stem)

/-- A statement on the admin connection; its error is scrubbed. -/
def ask {α : Type} (answer : AdminServer → Except String α) (context : String) :
    Provisioning α := fun p =>
  match answer p.server with
  | .ok a => (p, .ok a)
  | .error err => (p, .error (.provider (p.scrub s!"{context}: {err}")))

def roleExists (role : String) : Provisioning Bool :=
  ask (·.roleExists role) "role lookup failed"

def databaseExists (database : String) : Provisioning Bool :=
  ask (·.databaseExists database) "database lookup failed"

/-- `provision`, with the password it draws. -/
def provision (password : String) (operation : ProviderOperation) :
    Provisioning ProviderExecution := do
  let named ← Program.ofExcept (names operation)
  let (role, database) := named
  let hasRole ← roleExists role
  let present ← if hasRole then databaseExists database else pure false
  if present then
    fun p => (p, .ok (.ready (s!"managed postgres role {quoted role} with database " ++
      s!"{quoted database} on {p.adminHost}:{p.adminPort} already present " ++
      "(least-privilege: LOGIN only)")))
  else
    ask (·.createRole role) s!"role creation failed for {quoted role}"
    ask (·.createDatabase database) s!"database creation failed for {quoted database}"
    ask (·.grantConnect database) s!"connect grant failed for {quoted role}"
    fun p => ({ p with credentials :=
        (p.credentials.filter fun entry => entry.1 ≠ toString operation.resourceId) ++
          [(toString operation.resourceId,
            ⟨role, password, database, p.adminHost, p.adminPort⟩)] },
      .ok (.ready (s!"managed postgres role {quoted role} with database {quoted database} on " ++
        s!"{p.adminHost}:{p.adminPort} (least-privilege: LOGIN only; credential held in " ++
        s!"process memory under resource {operation.resourceId})")))

def readiness (operation : ProviderOperation) : Provisioning ProviderExecution := do
  let named ← Program.ofExcept (names operation)
  let (role, database) := named
  let hasRole ← roleExists role
  let hasDb ← databaseExists database
  fun p =>
    if hasRole && hasDb then
      let cached := p.credentials.any fun entry => entry.1 = toString operation.resourceId
      let housekeeping :=
        if cached then "credential cached in process memory"
        else "credential cache empty after restart; re-provision to mint a fresh key"
      (p, .ok (.ready (s!"managed postgres role {quoted role} with database " ++
        s!"{quoted database} present on {p.adminHost}:{p.adminPort} ({housekeeping})")))
    else
      (p, .ok (.failed (s!"managed postgres role {quoted role} present: {hasRole}, database " ++
          s!"{quoted database} present: {hasDb}")
        ("re-run provision; if the failure persists, inspect redacted provider " ++
          "diagnostics")))

def adopt (operation : ProviderOperation) : Provisioning ProviderExecution := do
  let named ← Program.ofExcept (names operation)
  let (role, database) := named
  let hasDb ← databaseExists database
  if hasDb then
    let hasRole ← roleExists role
    if hasRole then
      fun p => (p, .ok (.ready (s!"adopted managed postgres database {quoted database} with " ++
        s!"role {quoted role} on {p.adminHost}:{p.adminPort}")))
    else
      return .failed (s!"database {quoted database} exists but managed role {quoted role} is " ++
          "missing; adoption refuses to take over an unmanaged role layout")
        "provision a fresh managed database or align the role layout first"
  else
    fun p => (p, .ok (.failed
      s!"adoption found no database {quoted database} on {p.adminHost}:{p.adminPort}"
      "provision a fresh managed database instead"))

/-- `delete`: what exists is dropped, the credential is forgotten, and the outcome is `ready`. -/
def delete (operation : ProviderOperation) : Provisioning ProviderExecution := do
  let named ← Program.ofExcept (names operation)
  let (role, database) := named
  let hasDb ← databaseExists database
  if hasDb then
    ask (·.terminateBackends database) s!"backend termination failed for {quoted database}"
    ask (·.dropDatabase database) s!"database drop failed for {quoted database}"
  let hasRole ← roleExists role
  if hasRole then
    ask (·.dropRole role) s!"role drop failed for {quoted role}"
  fun p => ({ p with credentials :=
      p.credentials.filter fun entry => entry.1 ≠ toString operation.resourceId },
    .ok (.ready (s!"managed postgres database {quoted database} and role {quoted role} " ++
      s!"deleted on {p.adminHost}:{p.adminPort}")))

def unsupported (action : ProviderAction) : ProviderExecution :=
  .failed (s!"managed postgres provisioner does not support {action.debug}; provision, " ++
      "readiness-check, adopt, and delete are the executable actions")
    ("use provision for new databases, adopt for existing ones, delete with approval for " ++
      "teardown")

def perform (password : String) (operation : ProviderOperation) : Provisioning ProviderExecution :=
  match operation.action with
  | .provision => provision password operation
  | .readinessCheck => readiness operation
  | .adopt => adopt operation
  | .delete => delete operation
  | other => pure (unsupported other)

/-- `execute`: the outcome is scrubbed against the passwords known when it is returned. -/
def execute (password : String) (operation : ProviderOperation) :
    Provisioning ProviderExecution := do
  if operation.kind ≠ .postgres then
    Program.ofExcept (.error (.provider
      s!"postgres.managed does not supply capability '{operation.capability}'"))
  else
    let outcome ← perform password operation
    fun p => (p, .ok (outcome.scrubbed p.scrub))

def adapter (password : String) : ProviderAdapter where
  key := "postgres.managed"
  kind := .postgres
  execute := fun operation => (execute password operation p).2

end PostgresProvisioner

/-! ## Object and file storage -/

structure ScopedKey where
  keyId : String
  secret : String
  scope : String
  bucket : String
  expiresAt : DateTime
deriving DecidableEq

/-- What the filesystem answers to each request of one call. -/
structure Filesystem where
  pathExists : String → Bool
  createDirAll : String → Except String Unit
  setPermissions : String → Except String Unit
  removeDirAll : String → Except String Unit

/-- The registry's entries stand in the order the map iterates. -/
structure FsBucketBackend where
  fs : Filesystem
  root : String
  keys : List (String × ScopedKey)

/-- The clock of a call, how it is written, and the key the call mints. -/
structure StorageMoment where
  now : DateTime
  rfc3339 : DateTime → String
  keyId : String
  secret : String
  expiresAt : DateTime

/-- Every component of the path is a plain name. A dot counts at the start only, where it is not
dropped. -/
def bucketUnderRoot (bucket : String) : Bool :=
  let parts := bucket.toList.splitOn '/'
  decide (bucket.toList.head? ≠ some '/') && decide (parts.head? ≠ some ['.']) &&
    decide (['.', '.'] ∉ parts)

def kindForPrefix (tag : String) : ProviderKind :=
  if tag = "obj" then .objectStorage else .fileStorage

abbrev BucketProgram := Program FsBucketBackend ControlPlaneError

namespace FsBucketBackend
variable (b : FsBucketBackend)

def credentialSecrets : List String := b.keys.map fun entry => entry.2.secret

def keyFor (bucket : String) : Option ScopedKey :=
  (b.keys.find? fun entry => decide (entry.1 = bucket)).map (·.2)

def scrub (text : String) : String := redactReason text b.credentialSecrets

def bucketPath (bucket : String) : Except ControlPlaneError String :=
  if bucketUnderRoot bucket = false then
    .error (.execution "bucket path escapes the approved storage root")
  else .ok (b.root ++ "/" ++ bucket)

def bucketNameFor (tag : String) (resource : ResourceId) : Except ControlPlaneError String :=
  let stem := String.ofList
    (((toString resource).toList.filter fun c => c ≠ '-' ∧ c ≠ '_').take 16)
  let bucket := tag ++ "-" ++ stem
  if 48 < bucket.utf8ByteSize ∨ (bucket.toList.all fun c =>
      decide ('a' ≤ c ∧ c ≤ 'z') || decide ('0' ≤ c ∧ c ≤ '9') || decide (c = '-')) = false then
    .error (.execution s!"bucket name out of scope: {bucket}")
  else .ok bucket

/-- The bucket of an operation and its path. -/
def located (tag : String) (operation : ProviderOperation) : BucketProgram (String × String) := do
  let bucket ← Program.ofExcept (bucketNameFor tag operation.resourceId)
  let path ← fun b => (b, b.bucketPath bucket)
  return (bucket, path)

def touch (request : Filesystem → Except String Unit) : BucketProgram Unit := fun b =>
  (b, (request b.fs).mapError .io)

def provision (moment : StorageMoment) (tag scope : String) (operation : ProviderOperation) :
    BucketProgram ProviderExecution := do
  let place ← located tag operation
  let (bucket, path) := place
  let key ← fun b => (b, .ok (b.keyFor bucket))
  let live := key.filter fun key => decide (moment.now < key.expiresAt)
  let present ← fun b => (b, .ok (b.fs.pathExists path))
  match if present then live else none with
  | some key =>
      return .ready (s!"bucket {bucket} present under the approved root with live scoped key " ++
        s!"{key.keyId} (scope {scope}, expires {moment.rfc3339 key.expiresAt})")
  | none =>
      touch (·.createDirAll path)
      touch (·.setPermissions path)
      fun b => ({ b with keys := (b.keys.filter fun entry => entry.1 ≠ bucket) ++
          [(bucket, ⟨moment.keyId, moment.secret, scope, bucket, moment.expiresAt⟩)] },
        .ok (.ready (s!"bucket {bucket} provisioned under the approved root with scoped key " ++
          s!"{moment.keyId} (scope {scope}, expires {moment.rfc3339 moment.expiresAt}); " ++
          "secret held in process memory only")))

def readiness (moment : StorageMoment) (tag : String) (operation : ProviderOperation) :
    BucketProgram ProviderExecution := do
  let place ← located tag operation
  let (bucket, path) := place
  fun b =>
    if b.fs.pathExists path = false then
      (b, .ok (.failed s!"bucket {bucket} is missing under the approved root"
        "re-run provision to recreate the bucket"))
    else
      match (b.keyFor bucket).filter fun key => decide (moment.now < key.expiresAt) with
      | some key =>
          (b, .ok (.ready (s!"bucket {bucket} present with live scoped key {key.keyId} " ++
            s!"(expires {moment.rfc3339 key.expiresAt})")))
      | none =>
          (b, .ok (.failed (s!"bucket {bucket} present but no live key is cached (restart " ++
              "empties the process registry)")
            "re-run provision to mint a fresh scoped key"))

/-- `delete`: the key goes first, then the directory, and the outcome is `ready`. -/
def delete (tag : String) (operation : ProviderOperation) : BucketProgram ProviderExecution := do
  let place ← located tag operation
  let (bucket, path) := place
  let present ← fun b =>
    ({ b with keys := b.keys.filter fun entry => entry.1 ≠ bucket }, .ok (b.fs.pathExists path))
  if present then touch (·.removeDirAll path)
  return .ready s!"bucket {bucket} deleted and its scoped key revoked"

def perform (moment : StorageMoment) (tag scope : String) (operation : ProviderOperation) :
    BucketProgram ProviderExecution :=
  match operation.action with
  | .provision => provision moment tag scope operation
  | .readinessCheck => readiness moment tag operation
  | .adopt => readiness moment tag operation
  | .delete => delete tag operation
  | other => pure (.failed (s!"filesystem storage backend does not support {other.debug}; " ++
      "provision, readiness-check, adopt, and delete are the executable actions")
      "use provision for new buckets and delete with approval for teardown")

def executeScoped (moment : StorageMoment) (tag scope : String) (operation : ProviderOperation) :
    BucketProgram ProviderExecution := do
  if operation.kind ≠ kindForPrefix tag then
    Program.ofExcept (.error (.provider
      s!"{tag} backend does not supply capability '{operation.capability}'"))
  else
    let outcome ← perform moment tag scope operation
    fun b => (b, .ok (outcome.scrubbed b.scrub))

def objectStorage (moment : StorageMoment) : ProviderAdapter where
  key := "objectstore.fs"
  kind := .objectStorage
  execute := fun operation => (executeScoped moment "obj" "storage.object:read-write" operation b).2

def fileStorage (moment : StorageMoment) : ProviderAdapter where
  key := "filestore.fs"
  kind := .fileStorage
  execute := fun operation => (executeScoped moment "file" "storage.file:read-write" operation b).2

end FsBucketBackend

/-! ## The outcome of a delete -/

def ProviderExecution.IsReady (execution : ProviderExecution) : Prop :=
  ∃ detail, execution = .ready detail

theorem returns_ready {σ : Type} (left : σ → σ) (detail : σ → String) :
    Program.Returns ProviderExecution.IsReady (fun s : σ =>
      (left s, (.ok (.ready (detail s)) : Except ControlPlaneError ProviderExecution))) := by
  intro s s' execution h
  obtain rfl := Except.ok.inj (congrArg Prod.snd h)
  exact ⟨detail s, rfl⟩

namespace PostgresProvisioner

theorem returns_delete (operation : ProviderOperation) :
    (delete operation).Returns ProviderExecution.IsReady := by
  unfold delete
  refine Program.Returns.bind fun named => Program.Returns.bind fun hasDb => ?_
  dsimp only
  refine Program.Returns.ite (Program.Returns.bind fun _ => Program.Returns.bind fun _ => ?_) ?_
  all_goals
    exact Program.Returns.bind fun hasRole =>
      Program.Returns.ite (Program.Returns.bind fun _ => returns_ready _ _) (returns_ready _ _)

theorem returns_execute {password : String} {operation : ProviderOperation}
    (hdelete : operation.action = .delete) :
    (execute password operation).Returns ProviderExecution.IsReady := by
  unfold execute perform
  rw [hdelete]
  split
  · exact fun s s' execution h => by cases h
  · refine (returns_delete operation).bind_of fun outcome houtcome => ?_
    obtain ⟨detail, rfl⟩ := houtcome
    exact returns_ready id fun p : PostgresProvisioner => p.scrub detail

end PostgresProvisioner

namespace FsBucketBackend

theorem returns_delete (tag : String) (operation : ProviderOperation) :
    (delete tag operation).Returns ProviderExecution.IsReady := by
  unfold delete
  refine Program.Returns.bind fun place => Program.Returns.bind fun present => ?_
  dsimp only
  split
  · exact Program.Returns.bind fun _ => Program.returns_pure ⟨_, rfl⟩
  · exact Program.returns_pure ⟨_, rfl⟩

theorem returns_executeScoped {moment : StorageMoment} {tag scope : String}
    {operation : ProviderOperation} (hdelete : operation.action = .delete) :
    (executeScoped moment tag scope operation).Returns ProviderExecution.IsReady := by
  unfold executeScoped perform
  rw [hdelete]
  split
  · exact fun s s' execution h => by cases h
  · refine (returns_delete tag operation).bind_of fun outcome houtcome => ?_
    obtain ⟨detail, rfl⟩ := houtcome
    exact returns_ready id fun b : FsBucketBackend => b.scrub detail

end FsBucketBackend

/-- The adapters of this repository, at one call. -/
inductive ManagedAdapter
  | postgres (provisioner : PostgresProvisioner) (password : String)
  | objectStorage (backend : FsBucketBackend) (moment : StorageMoment)
  | fileStorage (backend : FsBucketBackend) (moment : StorageMoment)

namespace ManagedAdapter

def adapter : ManagedAdapter → ProviderAdapter
  | postgres provisioner password => provisioner.adapter password
  | objectStorage backend moment => backend.objectStorage moment
  | fileStorage backend moment => backend.fileStorage moment

/-- **Every delete that succeeds is reported as `ready`.** -/
theorem isReady_of_delete (managed : ManagedAdapter) {operation : ProviderOperation}
    {execution : ProviderExecution} (hdelete : operation.action = .delete)
    (h : managed.adapter.execute operation = .ok execution) : execution.IsReady := by
  cases managed with
  | postgres provisioner password =>
    exact PostgresProvisioner.returns_execute hdelete _ _ _ (Program.run_of_snd h)
  | objectStorage backend moment =>
    exact FsBucketBackend.returns_executeScoped hdelete _ _ _ (Program.run_of_snd h)
  | fileStorage backend moment =>
    exact FsBucketBackend.returns_executeScoped hdelete _ _ _ (Program.run_of_snd h)

end ManagedAdapter

/-! ## What is recorded of a delete -/

namespace ProviderRuntime
variable (runtime : ProviderRuntime)

theorem executeOperation_of_granted {adapter : ProviderAdapter} {operation : ProviderOperation}
    {approval : Option ExplicitApproval} (h : operation.requireApproval approval = .ok ())
    (time : DateTime) (freshEnvironment : EnvironmentId) :
    runtime.executeOperation adapter operation approval time freshEnvironment =
      runtime.persistExecution adapter operation time freshEnvironment
        (runtime.executionOf adapter operation) := by
  unfold executeOperation
  rw [h]
  rfl

theorem operations_persistExecution (adapter : ProviderAdapter) (operation : ProviderOperation)
    (time : DateTime) (freshEnvironment : EnvironmentId) (execution : ProviderExecution) (db : Db) :
    (runtime.persistExecution adapter operation time freshEnvironment execution db).1.operations =
      (runtime.recordOperation operation execution.targetPhase execution.failureText 1
        db).1.operations :=
  Program.Keeps.bind_right Db.operations (fun _ =>
    (runtime.operations_applyObservation _ _ _ _).bind fun _ =>
      (runtime.keeps_recordEvent _ _ _ (fun _ _ => rfl) fun _ _ => rfl).bind fun _ =>
        Program.Keeps.bind (fun _ => rfl) fun _ => Program.keeps_pure _) db

/-- An observation that nothing but the phase graph can refuse. -/
theorem phase_applyObservation_ready {adapterKey detail : String} {id : ResourceId}
    {time : DateTime} {db : Db} {resource : Resource}
    (hget : db.resources.get id = some resource) :
    ∃ observed, (runtime.applyObservation adapterKey id time (.ready detail) db).1.resources.get id =
        some observed ∧
      observed.phase =
        if resource.phase.canTransitionTo .ready = true then .ready else resource.phase := by
  have happly : (runtime.applyObservation adapterKey id time (.ready detail) db).1 =
      (PgResourceStore.observePhase id .ready .providerCallback (some detail) time db).1 :=
    Action.dropError_fst _ db
  rw [happly]
  obtain ⟨e, heq, hrefused⟩ | ⟨found, observed, hfound, hallowed, hphase, heq, hstored⟩ :=
    PgResourceStore.observePhase_cases db id .ready .providerCallback (some detail) time
  · rw [heq]
    exact ⟨resource, hget, by rw [if_neg (by simp [hrefused resource hget])]⟩
  · rw [hget] at hfound
    obtain rfl := Option.some_inj.mp hfound
    rw [heq]
    exact ⟨observed, hstored, by rw [if_pos hallowed, hphase]⟩

/-- The text recorded of a success is empty, and no guard refuses it. -/
theorem carriesNone_empty (secrets : List String) :
    CarriesNone secrets (redactReason "" secrets) := by
  have hempty : CarriesNone secrets "" := by
    intro secret _ hne
    rw [containsText_eq_false_iff]
    intro hinfix
    exact hne (String.toList_eq_nil_iff.mp (List.infix_nil.mp hinfix))
  rwa [redactReason_of_carriesNone hempty]

theorem insertOperation_ok (row : OperationRow) (db : Db) :
    ∃ db', insertOperation row db = (db', .ok ()) := by
  unfold insertOperation
  split <;> exact ⟨_, rfl⟩

theorem phase_persistExecution_ready (adapter : ProviderAdapter) {operation : ProviderOperation}
    (time : DateTime) (freshEnvironment : EnvironmentId) (detail : String) {db : Db}
    {resource : Resource} (hget : db.resources.get operation.resourceId = some resource) :
    ∃ observed, (runtime.persistExecution adapter operation time freshEnvironment (.ready detail)
        db).1.resources.get operation.resourceId = some observed ∧
      observed.phase =
        if resource.phase.canTransitionTo .ready = true then .ready else resource.phase := by
  obtain ⟨db1, hrecord⟩ : ∃ db1, runtime.recordOperation operation
      (ProviderExecution.ready detail).targetPhase (ProviderExecution.ready detail).failureText 1
        db = (db1, .ok ()) := by
    unfold recordOperation
    have hguard := redactGuard_eq "provider_operations.failure" "" runtime.secrets
    rw [if_pos (carriesNone_empty runtime.secrets)] at hguard
    rw [show (ProviderExecution.ready detail).failureText = "" from rfl, hguard]
    exact insertOperation_ok _ db
  have hkept : db1.resources = db.resources := by
    have hkeeps : (runtime.recordOperation operation (ProviderExecution.ready detail).targetPhase
        (ProviderExecution.ready detail).failureText 1).Keeps Db.resources :=
      runtime.keeps_recordOperation operation _ _ _ fun _ _ => rfl
    have hview := hkeeps db
    rwa [hrecord] at hview
  rw [← hkept] at hget
  unfold persistExecution
  rw [Program.bind_of_ok hrecord]
  rw [Program.Keeps.bind_right Db.resources (fun _ =>
    (runtime.keeps_recordEvent _ _ _ (fun _ _ => rfl) fun _ _ => rfl).bind fun _ =>
      Program.Keeps.bind (fun _ => rfl) fun _ => Program.keeps_pure _) db1]
  exact runtime.phase_applyObservation_ready hget

end ProviderRuntime

/-- The resource is on its way out or gone, and the row of the operation does not say ready. -/
def RecordedAsDeletion (db : Db) (operation : ProviderOperation) : Prop :=
  (∃ resource, db.resources.get operation.resourceId = some resource ∧
    (resource.phase = .deleting ∨ resource.phase = .deleted)) ∧
  ∀ row, db.operations.get operation.idempotencyKey = some row → row.phase ≠ .ready

theorem ResourcePhase.deletion_iff (phase : ResourcePhase) :
    ((if phase.canTransitionTo .ready = true then .ready else phase) = ResourcePhase.deleting ∨
      (if phase.canTransitionTo .ready = true then .ready else phase) = ResourcePhase.deleted) ↔
      phase = .deleting ∨ phase = .deleted := by
  cases phase <;> decide

/-- **Deletion recorded.** An approved delete that succeeds leaves the resource deleting or deleted,
with a row that does not say ready, exactly if the resource was deleting or deleted before and the
operation's key had such a row already. -/
theorem delete_recorded_iff (runtime : ProviderRuntime) (managed : ManagedAdapter)
    {operation : ProviderOperation} {approval : ExplicitApproval} {execution : ProviderExecution}
    {db : Db} {resource : Resource} (hdelete : operation.action = .delete)
    (hgranted : operation.requireApproval (some approval) = .ok ())
    (hsuccess : managed.adapter.execute operation = .ok execution)
    (hstored : db.resources.get operation.resourceId = some resource) (time : DateTime)
    (freshEnvironment : EnvironmentId) :
    RecordedAsDeletion (runtime.executeOperation managed.adapter operation (some approval) time
        freshEnvironment db).1 operation ↔
      (resource.phase = .deleting ∨ resource.phase = .deleted) ∧
        ∃ row, db.operations.get operation.idempotencyKey = some row ∧ row.phase ≠ .ready := by
  obtain ⟨detail, rfl⟩ := managed.isReady_of_delete hdelete hsuccess
  have hexecution : runtime.executionOf managed.adapter operation =
      .ready (redactReason detail runtime.secrets) := by
    unfold ProviderRuntime.executionOf
    rw [hsuccess]
    rfl
  rw [runtime.executeOperation_of_granted hgranted, hexecution]
  obtain ⟨observed, hobserved, hphase⟩ := runtime.phase_persistExecution_ready
    managed.adapter time freshEnvironment (redactReason detail runtime.secrets) hstored
  unfold RecordedAsDeletion
  refine and_congr ?_ ?_
  · rw [← ResourcePhase.deletion_iff, ← hphase]
    constructor
    · rintro ⟨found, hfound, hgone⟩
      rw [hobserved] at hfound
      obtain rfl := Option.some_inj.mp hfound
      exact hgone
    · exact fun hgone => ⟨observed, hobserved, hgone⟩
  · rw [runtime.operations_persistExecution, runtime.get_recordOperation]
    cases hrow : db.operations.get operation.idempotencyKey with
    | none =>
      rw [if_pos ⟨rfl, rfl, ProviderRuntime.carriesNone_empty runtime.secrets⟩]
      constructor
      · exact fun h => absurd rfl (h _ rfl)
      · rintro ⟨row, habsurd, -⟩
        cases habsurd
    | some row =>
      rw [if_neg fun h => Option.some_ne_none row h.2.1]
      constructor
      · exact fun h => ⟨row, rfl, h row rfl⟩
      · rintro ⟨found, hfound, hnot⟩ other hother
        rw [hother] at hfound
        exact Option.some_inj.mp hfound ▸ hnot

/-! ## A database that is there -/

def reachableServer : AdminServer where
  roleExists := fun _ => .ok true
  databaseExists := fun _ => .ok true
  createRole := fun _ => .ok ()
  createDatabase := fun _ => .ok ()
  grantConnect := fun _ => .ok ()
  terminateBackends := fun _ => .ok ()
  dropDatabase := fun _ => .ok ()
  dropRole := fun _ => .ok ()

def localPostgres : ManagedAdapter := .postgres ⟨reachableServer, none, "localhost", 5432, []⟩ "pw"

def deletedDetail : String :=
  "managed postgres database \"labrys_db_res_000000000000\" and role " ++
    "\"labrys_r_res_000000000000\" deleted on localhost:5432"

theorem localPostgres_delete :
    localPostgres.adapter.execute (ProviderRuntime.deletePostgres ⟨1⟩) =
      .ok (.ready deletedDetail) := by
  decide +kernel

/-- The resource is being deleted, and an earlier attempt was denied. -/
def deletingStore : Db :=
  { queuedStore with
    resources := ⟨[{ provisioningResource with phase := .deleting }], by decide⟩
    operations := ⟨[⟨ProviderRuntime.deletePostgres ⟨1⟩, .failed, "denied", 0⟩], by decide⟩ }

theorem delete_recorded_iff_deleting :
    RecordedAsDeletion ((⟨[]⟩ : ProviderRuntime).executeOperation localPostgres.adapter
      (ProviderRuntime.deletePostgres ⟨1⟩) (some ProviderRuntime.deleteGrant) 0 ⟨9⟩
        deletingStore).1 (ProviderRuntime.deletePostgres ⟨1⟩) := by
  have hstored : deletingStore.resources.get (ProviderRuntime.deletePostgres ⟨1⟩).resourceId =
      some { provisioningResource with phase := .deleting } := by decide
  refine (delete_recorded_iff ⟨[]⟩ localPostgres (by decide) (by decide +kernel)
    localPostgres_delete hstored 0 ⟨9⟩).mpr ⟨.inl rfl, ?_⟩
  exact ⟨⟨ProviderRuntime.deletePostgres ⟨1⟩, .failed, "denied", 0⟩, by decide +kernel, by decide⟩

/-- The database is dropped, and its resource and the operation are recorded as ready. -/
theorem delete_recorded_as_ready :
    let left := ((⟨[]⟩ : ProviderRuntime).executeOperation localPostgres.adapter
      (ProviderRuntime.deletePostgres ⟨1⟩) (some ProviderRuntime.deleteGrant) 0 ⟨9⟩ queuedStore).1
    (left.resources.get ⟨1⟩).map (·.phase) = some .ready ∧
      (left.operations.get (ProviderRuntime.deletePostgres ⟨1⟩).idempotencyKey).map (·.phase) =
        some .ready := by
  decide +kernel

end Labrys.ControlPlane
