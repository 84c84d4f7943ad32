import Labrys.ControlPlane.ManagedProviders
import Labrys.Foundations.Runs

/-! # Provisioning again after an interruption

`provision` sends its statements one by one to an admin server that remembers what took effect,
while the credential it mints lives in the process only. A statement may fail before it reaches the
server, or lose its answer; a restart empties the process. The server belongs to another project:
its statements are a parameter, with what its documentation says of them.

* `names_eq`: the role and the database of a resource always have valid names.
* `PostgresWorld.provision_cases`: everything one run of `provision` can do.
* `provision_converges_iff`: when running `provision` again ends with a usable credential.
-/

namespace Labrys.ControlPlane
open Foundations Labrys.Core
set_option autoImplicit false

/-! ## The names of a resource -/

namespace PostgresProvisioner

def stemOf (operation : ProviderOperation) : List Char :=
  ((toString operation.resourceId).toList.filter fun c => c ≠ '-').take 16

def roleOf (operation : ProviderOperation) : String :=
  "labrys_r_" ++ String.ofList (stemOf operation)

def databaseOf (operation : ProviderOperation) : String :=
  "labrys_db_" ++ String.ofList (stemOf operation)

/-- The characters of an identifier. -/
def identifierChar (c : Char) : Bool :=
  decide ('a' ≤ c ∧ c ≤ 'z') || decide ('0' ≤ c ∧ c ≤ '9') || decide (c = '_')

theorem utf8ByteSize_le_length {cs : List Char} (h : ∀ c ∈ cs, identifierChar c = true) :
    (String.ofList cs).utf8ByteSize ≤ cs.length := by
  induction cs with
  | nil => exact Nat.le_refl 0
  | cons c cs ih =>
    obtain ⟨hc, hcs⟩ := List.forall_mem_cons.mp h
    have hsize : c.utf8Size = 1 := by
      rw [Char.utf8Size_eq_one_iff]
      have hrange : c ≤ 'z' := by
        simp only [identifierChar, Bool.or_eq_true, decide_eq_true_eq] at hc
        obtain (⟨-, hz⟩ | ⟨-, hnine⟩) | rfl := hc
        · exact hz
        · exact Char.le_trans hnine (by decide)
        · decide
      exact UInt32.le_trans hrange (by decide)
    have hcons : String.ofList (c :: cs) = String.singleton c ++ String.ofList cs := by
      rw [← List.singleton_append, String.ofList_append]
      rfl
    rw [hcons, String.utf8ByteSize_append, String.utf8ByteSize_singleton, hsize, List.length_cons]
    have := ih hcs
    omega

theorem digitChar_identifier (n : ℕ) : identifierChar (Nat.digitChar (n % 16)) = true := by
  have hall : ∀ m < 16, identifierChar (Nat.digitChar m) = true := by decide
  exact hall _ (Nat.mod_lt _ (by decide))

theorem stemOf_identifier (operation : ProviderOperation) :
    ∀ c ∈ stemOf operation, identifierChar c = true := by
  intro c hc
  have hmem := List.mem_of_mem_filter (List.mem_of_mem_take hc)
  have htext : (toString operation.resourceId).toList =
      "res_".toList ++ (List.range 32).map fun i =>
        Nat.digitChar (operation.resourceId.uuid.toNat / 16 ^ (32 - 1 - i) % 16) := by
    change ("res" ++ "_" ++ hexDigits 32 operation.resourceId.uuid.toNat).toList = _
    rw [String.toList_append, hexDigits, String.toList_ofList]
    rfl
  rw [htext] at hmem
  obtain htag | hdigit := List.mem_append.mp hmem
  · have hall : ∀ c ∈ "res_".toList, identifierChar c = true :=
      List.all_eq_true.mp (by decide)
    exact hall c htag
  · obtain ⟨i, -, rfl⟩ := List.mem_map.mp hdigit
    exact digitChar_identifier _

theorem validateIdentifier_ok (start : Char) (head : List Char) {stem : List Char}
    (hstart : start = '_' ∨ 'a' ≤ start ∧ start ≤ 'z')
    (hhead : ∀ c ∈ start :: head, identifierChar c = true) (hlength : head.length ≤ 15)
    (hstem : ∀ c ∈ stem, identifierChar c = true) (hshort : stem.length ≤ 16) :
    validateIdentifier (String.ofList (start :: head) ++ String.ofList stem) = .ok () := by
  have hall : ∀ c ∈ (start :: head) ++ stem, identifierChar c = true :=
    List.forall_mem_append.mpr ⟨hhead, hstem⟩
  have hbytes := utf8ByteSize_le_length hall
  rw [List.length_append, List.length_cons] at hbytes
  rw [← String.ofList_append]
  unfold validateIdentifier
  dsimp only
  rw [if_neg, if_neg]
  · rw [String.toList_ofList, not_or]
    refine ⟨by omega, ?_⟩
    rw [Bool.not_eq_false, List.all_eq_true]
    exact hall
  · rw [String.toList_ofList, Bool.not_eq_false]
    simp only [List.cons_append, List.head?_cons, Option.any_some, Bool.or_eq_true,
      decide_eq_true_eq]
    exact hstart.symm

theorem names_eq (operation : ProviderOperation) :
    names operation = .ok (roleOf operation, databaseOf operation) := by
  have hstem := stemOf_identifier operation
  have hshort : (stemOf operation).length ≤ 16 := List.length_take_le _ _
  have hrole : validateIdentifier (roleOf operation) = .ok () :=
    validateIdentifier_ok 'l' "abrys_r_".toList (by decide) (List.all_eq_true.mp (by decide))
      (by decide) hstem hshort
  have hdatabase : validateIdentifier (databaseOf operation) = .ok () :=
    validateIdentifier_ok 'l' "abrys_db_".toList (by decide) (List.all_eq_true.mp (by decide))
      (by decide) hstem hshort
  change (do
    validateIdentifier (roleOf operation)
    validateIdentifier (databaseOf operation)
    return (roleOf operation, databaseOf operation)) = _
  rw [hrole, hdatabase]
  rfl

end PostgresProvisioner

/-! ## A server that remembers -/

/-- The statements of `provision` and what the catalog says: the password of a role that exists, and
which databases exist. -/
structure PostgresServer where
  State : Type
  passwordOf : State → String → Option String
  hasDatabase : State → String → Bool
  createRole : String → String → State → State × Except String Unit
  createDatabase : String → String → State → State × Except String Unit
  grantConnect : String → String → State → State × Except String Unit

/-- What the documentation says of the statements: a role and a database are created unless their
name is taken, a database only for an owner that exists, and a grant changes neither. -/
structure PostgresServer.Documented (pg : PostgresServer) : Prop where
  createRole_new : ∀ role password s, pg.passwordOf s role = none →
    (pg.createRole role password s).2 = .ok () ∧
    (∀ r, pg.passwordOf (pg.createRole role password s).1 r =
      if r = role then some password else pg.passwordOf s r) ∧
    ∀ d, pg.hasDatabase (pg.createRole role password s).1 d = pg.hasDatabase s d
  createRole_taken : ∀ role password s, pg.passwordOf s role ≠ none →
    ∃ e, pg.createRole role password s = (s, .error e)
  createDatabase_new : ∀ database owner s, pg.hasDatabase s database = false →
    pg.passwordOf s owner ≠ none →
    (pg.createDatabase database owner s).2 = .ok () ∧
    (∀ r, pg.passwordOf (pg.createDatabase database owner s).1 r = pg.passwordOf s r) ∧
    ∀ d, pg.hasDatabase (pg.createDatabase database owner s).1 d =
      if d = database then true else pg.hasDatabase s d
  createDatabase_taken : ∀ database owner s, pg.hasDatabase s database = true →
    ∃ e, pg.createDatabase database owner s = (s, .error e)
  grantConnect_granted : ∀ database role s, pg.hasDatabase s database = true →
    pg.passwordOf s role ≠ none → (pg.grantConnect database role s).2 = .ok ()
  grantConnect_keeps : ∀ database role s,
    (∀ r, pg.passwordOf (pg.grantConnect database role s).1 r = pg.passwordOf s r) ∧
    ∀ d, pg.hasDatabase (pg.grantConnect database role s).1 d = pg.hasDatabase s d

/-- How a statement fares: answered, failed before it reached the server, or its answer lost. -/
inductive Fate
  | answered
  | unsent (error : String)
  | lost (error : String)

/-- The server, the process with its credentials, and how the next statements fare; with none left,
they are answered. The process's own table of answers is not read. -/
structure PostgresWorld (pg : PostgresServer) where
  server : pg.State
  process : PostgresProvisioner
  fates : List Fate

namespace PostgresWorld
variable {pg : PostgresServer}

abbrev Session (pg : PostgresServer) := Program (PostgresWorld pg) ControlPlaneError

/-- A statement on the admin connection. -/
def exchange {α : Type} (statement : pg.State → pg.State × Except String α) :
    Program (PostgresWorld pg) String α := fun w =>
  match w.fates with
  | .unsent error :: fates => ({ w with fates }, .error error)
  | .lost error :: fates => ({ w with server := (statement w.server).1, fates }, .error error)
  | .answered :: fates =>
      ({ w with server := (statement w.server).1, fates }, (statement w.server).2)
  | [] => ({ w with server := (statement w.server).1 }, (statement w.server).2)

/-- A statement whose error is scrubbed. -/
def send {α : Type} (statement : pg.State → pg.State × Except String α) (context : String) :
    Session pg α := fun w =>
  let (w', answer) := exchange statement w
  (w', answer.mapError fun err => .provider (w.process.scrub s!"{context}: {err}"))

def roleExists (role : String) : Session pg Bool :=
  send (fun s => (s, .ok (pg.passwordOf s role).isSome)) "role lookup failed"

def databaseExists (database : String) : Session pg Bool :=
  send (fun s => (s, .ok (pg.hasDatabase s database))) "database lookup failed"

def detailOf (w : PostgresWorld pg) (role database tail : String) : ProviderExecution :=
  .ready (s!"managed postgres role {quoted role} with database {quoted database} on " ++
    s!"{w.process.adminHost}:{w.process.adminPort} " ++ tail)

/-- The credential goes into the process's cache. -/
def hold (role database password : String) (operation : ProviderOperation) :
    Session pg ProviderExecution := fun w =>
  let credential : ProvisionedCredential :=
    ⟨role, password, database, w.process.adminHost, w.process.adminPort⟩
  ({ w with process := { w.process with credentials :=
      (w.process.credentials.filter fun entry => entry.1 ≠ toString operation.resourceId) ++
        [(toString operation.resourceId, credential)] } },
    .ok (w.detailOf role database ("(least-privilege: LOGIN only; credential held in process " ++
      s!"memory under resource {operation.resourceId})")))

/-- The statements of `provision` that create, and the credential at the end. -/
def create (role database password : String) (operation : ProviderOperation) :
    Session pg ProviderExecution := do
  send (pg.createRole role password) s!"role creation failed for {quoted role}"
  send (pg.createDatabase database role) s!"database creation failed for {quoted database}"
  send (pg.grantConnect database role) s!"connect grant failed for {quoted role}"
  hold role database password operation

/-- `provision`, with the password it draws. -/
def provision (password : String) (operation : ProviderOperation) :
    Session pg ProviderExecution := do
  let named ← Program.ofExcept (PostgresProvisioner.names operation)
  let (role, database) := named
  let hasRole ← roleExists role
  let present ← if hasRole then databaseExists database else pure false
  if present then
    fun w => (w, .ok (w.detailOf role database "already present (least-privilege: LOGIN only)"))
  else create role database password operation

def credentialFor (w : PostgresWorld pg) (resource : ResourceId) : Option ProvisionedCredential :=
  (w.process.credentials.find? fun entry => entry.1 = toString resource).map Prod.snd

/-- The role and the database are there, and the provider holds a credential for them that the
server accepts. -/
structure Provisioned (w : PostgresWorld pg) (operation : ProviderOperation) : Prop where
  role : (pg.passwordOf w.server (PostgresProvisioner.roleOf operation)).isSome
  database : pg.hasDatabase w.server (PostgresProvisioner.databaseOf operation) = true
  credential : ∃ credential, w.credentialFor operation.resourceId = some credential ∧
    credential.database = PostgresProvisioner.databaseOf operation ∧
    credential.username = PostgresProvisioner.roleOf operation ∧
    pg.passwordOf w.server credential.username = some credential.password

/-- The server answers again. -/
def healthy (w : PostgresWorld pg) : PostgresWorld pg := { w with fates := [] }

/-- Running `provision` once more on a healthy server ends ready, with all of it there. -/
def Converges (password : String) (operation : ProviderOperation) (w : PostgresWorld pg) : Prop :=
  (∃ detail, (provision password operation w.healthy).2 = .ok (.ready detail)) ∧
    (provision password operation w.healthy).1.Provisioned operation

/-! ## One statement -/

/-- A statement fails, and took effect or not, or it took effect and its answer came back. -/
theorem send_cases {α : Type} (statement : pg.State → pg.State × Except String α)
    (context : String) (w : PostgresWorld pg) :
    ∃ fates, (∃ e, send statement context w = ({ w with fates }, .error e) ∨
        send statement context w =
          ({ w with server := (statement w.server).1, fates }, .error e)) ∨
      ∃ a, (statement w.server).2 = .ok a ∧
        send statement context w = ({ w with server := (statement w.server).1, fates }, .ok a) := by
  unfold send exchange
  match w.fates with
  | .unsent error :: fates => exact ⟨fates, .inl ⟨_, .inl rfl⟩⟩
  | .lost error :: fates => exact ⟨fates, .inl ⟨_, .inr rfl⟩⟩
  | .answered :: fates =>
    cases h : (statement w.server).2 with
    | ok a => exact ⟨fates, .inr ⟨a, rfl, rfl⟩⟩
    | error e => exact ⟨fates, .inl ⟨_, .inr rfl⟩⟩
  | [] =>
    cases h : (statement w.server).2 with
    | ok a => exact ⟨[], .inr ⟨a, rfl, rfl⟩⟩
    | error e => exact ⟨[], .inl ⟨_, .inr rfl⟩⟩

theorem send_healthy {α : Type} {statement : pg.State → pg.State × Except String α}
    (context : String) {w : PostgresWorld pg} (hfates : w.fates = []) {s' : pg.State} {a : α}
    (h : statement w.server = (s', .ok a)) :
    send statement context w = ({ w with server := s' }, .ok a) := by
  unfold send exchange
  rw [hfates]
  dsimp only
  rw [h]
  rfl

theorem credentialFor_hold (role database password : String) (operation : ProviderOperation)
    (w : PostgresWorld pg) :
    (hold role database password operation w).1.credentialFor operation.resourceId =
      some ⟨role, password, database, w.process.adminHost, w.process.adminPort⟩ := by
  have hnone : (w.process.credentials.filter fun entry =>
      entry.1 ≠ toString operation.resourceId).find?
        (fun entry => entry.1 = toString operation.resourceId) = none := by
    rw [List.find?_eq_none]
    intro entry hentry
    simpa using (List.mem_filter.mp hentry).2
  unfold credentialFor hold
  dsimp only
  rw [List.find?_append, hnone]
  simp

/-! ## One run of `provision` -/

/-- The catalog of `s'` is that of `s`, but for a new role. -/
def RoleAdded (role password : String) (s s' : pg.State) : Prop :=
  ∀ r, pg.passwordOf s' r = if r = role then some password else pg.passwordOf s r

/-- The databases of `s'` are those of `s`, and one that was created. -/
def DatabaseAdded (database : String) (s s' : pg.State) : Prop :=
  ∀ d, pg.hasDatabase s' d = if d = database then true else pg.hasDatabase s d

/-- The credential is in the cache, with a catalog that has its role and database. -/
structure Created (role database password : String) (operation : ProviderOperation)
    (w w' : PostgresWorld pg) : Prop where
  roles : RoleAdded role password w.server w'.server
  databases : DatabaseAdded database w.server w'.server
  credential : w'.credentialFor operation.resourceId =
    some ⟨role, password, database, w.process.adminHost, w.process.adminPort⟩

/-- What an interrupted creation leaves: the role, perhaps the database, and no credential. -/
structure HalfCreated (role database password : String) (w w' : PostgresWorld pg) : Prop where
  roles : RoleAdded role password w.server w'.server
  databases : (∀ d, pg.hasDatabase w'.server d = pg.hasDatabase w.server d) ∨
    DatabaseAdded database w.server w'.server
  process : w'.process = w.process

/-- Nothing of the server or of the process is another. -/
def Untouched (w w' : PostgresWorld pg) : Prop := w'.server = w.server ∧ w'.process = w.process

section Runs
variable (hpg : pg.Documented)
include hpg

/-- The role and the database are new in `w'`: the grant, and the credential. -/
theorem grant_cases {role database password : String} (operation : ProviderOperation)
    (w w' : PostgresWorld pg) (hroles : RoleAdded role password w.server w'.server)
    (hdatabases : DatabaseAdded database w.server w'.server) (hprocess : w'.process = w.process) :
    let rest : Session pg ProviderExecution :=
      send (pg.grantConnect database role) s!"connect grant failed for {quoted role}" >>= fun _ =>
        hold role database password operation
    (∃ e, (rest w').2 = .error e ∧ HalfCreated role database password w (rest w').1) ∨
      (∃ detail, (rest w').2 = .ok (.ready detail)) ∧
        Created role database password operation w (rest w').1 := by
  obtain ⟨hgrantRoles, hgrantDatabases⟩ := hpg.grantConnect_keeps database role w'.server
  have hroles' : RoleAdded role password w.server (pg.grantConnect database role w'.server).1 :=
    fun r => (hgrantRoles r).trans (hroles r)
  have hdatabases' : DatabaseAdded database w.server
      (pg.grantConnect database role w'.server).1 :=
    fun d => (hgrantDatabases d).trans (hdatabases d)
  intro rest
  unfold rest
  obtain ⟨fates, ⟨e, hsent | hsent⟩ | ⟨_, -, hsent⟩⟩ := send_cases (pg.grantConnect database role)
    s!"connect grant failed for {quoted role}" w'
  · rw [Program.bind_of_error hsent]
    exact .inl ⟨e, rfl, hroles, .inr hdatabases, hprocess⟩
  · rw [Program.bind_of_error hsent]
    exact .inl ⟨e, rfl, hroles', .inr hdatabases', hprocess⟩
  · rw [Program.bind_of_ok hsent]
    refine .inr ⟨⟨_, rfl⟩, hroles', hdatabases', ?_⟩
    rw [credentialFor_hold]
    dsimp only
    rw [hprocess]

/-- The role is new in `w'`: the database, and what comes after it. -/
theorem database_cases {role database password : String} (operation : ProviderOperation)
    (w w' : PostgresWorld pg) (hroles : RoleAdded role password w.server w'.server)
    (hdatabases : ∀ d, pg.hasDatabase w'.server d = pg.hasDatabase w.server d)
    (hprocess : w'.process = w.process) :
    let rest : Session pg ProviderExecution :=
      send (pg.createDatabase database role)
          s!"database creation failed for {quoted database}" >>= fun _ =>
        send (pg.grantConnect database role) s!"connect grant failed for {quoted role}" >>= fun _ =>
          hold role database password operation
    (∃ e, (rest w').2 = .error e ∧ HalfCreated role database password w (rest w').1) ∨
      pg.hasDatabase w.server database = false ∧ (∃ detail, (rest w').2 = .ok (.ready detail)) ∧
        Created role database password operation w (rest w').1 := by
  intro rest
  unfold rest
  cases hdatabase : pg.hasDatabase w.server database with
  | true =>
    obtain ⟨e, htaken⟩ := hpg.createDatabase_taken database role w'.server
      ((hdatabases database).trans hdatabase)
    obtain ⟨fates, ⟨e', hsent | hsent⟩ | ⟨_, hanswer, -⟩⟩ :=
      send_cases (pg.createDatabase database role)
        s!"database creation failed for {quoted database}" w'
    · rw [Program.bind_of_error hsent]
      exact .inl ⟨e', rfl, hroles, .inl hdatabases, hprocess⟩
    · rw [Program.bind_of_error hsent, htaken]
      exact .inl ⟨e', rfl, hroles, .inl hdatabases, hprocess⟩
    · rw [htaken] at hanswer
      cases hanswer
  | false =>
    have howner : pg.passwordOf w'.server role ≠ none := by
      rw [hroles, if_pos rfl]
      exact Option.some_ne_none _
    obtain ⟨-, hroles', hdatabases'⟩ := hpg.createDatabase_new database role w'.server
      ((hdatabases database).trans hdatabase) howner
    have hrole : RoleAdded role password w.server
        (pg.createDatabase database role w'.server).1 :=
      fun r => (hroles' r).trans (hroles r)
    have hadded : DatabaseAdded database w.server
        (pg.createDatabase database role w'.server).1 := fun d => by
      rw [hdatabases', hdatabases]
    obtain ⟨fates, ⟨e, hsent | hsent⟩ | ⟨_, -, hsent⟩⟩ :=
      send_cases (pg.createDatabase database role)
        s!"database creation failed for {quoted database}" w'
    · rw [Program.bind_of_error hsent]
      exact .inl ⟨e, rfl, hroles, .inl hdatabases, hprocess⟩
    · rw [Program.bind_of_error hsent]
      exact .inl ⟨e, rfl, hrole, .inr hadded, hprocess⟩
    · rw [Program.bind_of_ok hsent]
      obtain hfailed | hdone := grant_cases hpg operation w
        { w' with server := (pg.createDatabase database role w'.server).1, fates } hrole hadded
        hprocess
      · exact .inl hfailed
      · exact .inr ⟨rfl, hdone⟩

/-- The creating statements, where the role is free. -/
theorem create_cases {role : String} (database password : String)
    (operation : ProviderOperation) {w : PostgresWorld pg}
    (hrole : pg.passwordOf w.server role = none) :
    (∃ e, (create role database password operation w).2 = .error e ∧
      (Untouched w (create role database password operation w).1 ∨
       HalfCreated role database password w (create role database password operation w).1)) ∨
    pg.hasDatabase w.server database = false ∧
      (∃ detail, (create role database password operation w).2 = .ok (.ready detail)) ∧
      Created role database password operation w (create role database password operation w).1 := by
  obtain ⟨-, hroles, hdatabases⟩ := hpg.createRole_new role password w.server hrole
  unfold create
  obtain ⟨fates, ⟨e, hsent | hsent⟩ | ⟨_, -, hsent⟩⟩ := send_cases (pg.createRole role password)
    s!"role creation failed for {quoted role}" w
  · rw [Program.bind_of_error hsent]
    exact .inl ⟨e, rfl, .inl ⟨rfl, rfl⟩⟩
  · rw [Program.bind_of_error hsent]
    exact .inl ⟨e, rfl, .inr ⟨hroles, .inl hdatabases, rfl⟩⟩
  · rw [Program.bind_of_ok hsent]
    obtain ⟨e, hfailed, hhalf⟩ | hdone := database_cases hpg operation w
      { w with server := (pg.createRole role password w.server).1, fates } hroles hdatabases rfl
    · exact .inl ⟨e, hfailed, .inr hhalf⟩
    · exact .inr hdone

/-- The creating statements, where the role is taken. -/
theorem create_taken {role : String} (database password : String) (operation : ProviderOperation)
    {w : PostgresWorld pg} (hrole : pg.passwordOf w.server role ≠ none) :
    ∃ e, (create role database password operation w).2 = .error e ∧
      Untouched w (create role database password operation w).1 := by
  obtain ⟨e, htaken⟩ := hpg.createRole_taken role password w.server hrole
  unfold create
  obtain ⟨fates, ⟨e', hsent | hsent⟩ | ⟨_, hanswer, -⟩⟩ := send_cases (pg.createRole role password)
    s!"role creation failed for {quoted role}" w
  · rw [Program.bind_of_error hsent]
    exact ⟨e', rfl, rfl, rfl⟩
  · rw [Program.bind_of_error hsent, htaken]
    exact ⟨e', rfl, rfl, rfl⟩
  · rw [htaken] at hanswer
    cases hanswer

end Runs

/-- A lookup fails, or says what the catalog says. -/
theorem lookup_cases (answer : pg.State → Bool) (context : String) (w : PostgresWorld pg) :
    ∃ fates, (∃ e, send (fun s => (s, .ok (answer s))) context w = ({ w with fates }, .error e)) ∨
      send (fun s => (s, .ok (answer s))) context w =
        ({ w with fates }, .ok (answer w.server)) := by
  obtain ⟨fates, ⟨e, hsent | hsent⟩ | ⟨a, hanswer, hsent⟩⟩ :=
    send_cases (fun s => (s, .ok (answer s))) context w
  · exact ⟨fates, .inl ⟨e, hsent⟩⟩
  · exact ⟨fates, .inl ⟨e, hsent⟩⟩
  · obtain rfl := Except.ok.inj hanswer
    exact ⟨fates, .inr hsent⟩

/-- What `provision` does once it knows whether everything is there. -/
def settle (password : String) (operation : ProviderOperation) (present : Bool) :
    Session pg ProviderExecution :=
  let role := PostgresProvisioner.roleOf operation
  let database := PostgresProvisioner.databaseOf operation
  if present then
    fun w => (w, .ok (w.detailOf role database "already present (least-privilege: LOGIN only)"))
  else create role database password operation

section Lookups
variable {password : String} {operation : ProviderOperation} {w w' : PostgresWorld pg}

theorem names_run : Program.ofExcept (PostgresProvisioner.names operation) w =
    (w, .ok (PostgresProvisioner.roleOf operation, PostgresProvisioner.databaseOf operation)) := by
  rw [PostgresProvisioner.names_eq]
  rfl

theorem provision_of_error {e : ControlPlaneError}
    (h : roleExists (PostgresProvisioner.roleOf operation) w = (w', .error e)) :
    provision password operation w = (w', .error e) :=
  (Program.bind_of_ok names_run _).trans (Program.bind_of_error h _)

theorem provision_of_absent
    (h : roleExists (PostgresProvisioner.roleOf operation) w = (w', .ok false)) :
    provision password operation w = settle password operation false w' :=
  (Program.bind_of_ok names_run _).trans (Program.bind_of_ok h _)

theorem provision_of_role
    (h : roleExists (PostgresProvisioner.roleOf operation) w = (w', .ok true)) :
    provision password operation w =
      (databaseExists (PostgresProvisioner.databaseOf operation) >>=
        settle password operation) w' :=
  (Program.bind_of_ok names_run _).trans (Program.bind_of_ok h _)

end Lookups

/-- **Everything one run of `provision` can do**, whatever its statements meet. -/
theorem provision_cases (hpg : pg.Documented) (password : String) (operation : ProviderOperation)
    (w : PostgresWorld pg) :
    let role := PostgresProvisioner.roleOf operation
    let database := PostgresProvisioner.databaseOf operation
    let run := provision password operation w
    (∃ e, run.2 = .error e ∧ (Untouched w run.1 ∨
      pg.passwordOf w.server role = none ∧ HalfCreated role database password w run.1)) ∨
    ((pg.passwordOf w.server role).isSome ∧ pg.hasDatabase w.server database = true ∧
      (∃ detail, run.2 = .ok (.ready detail)) ∧ Untouched w run.1) ∨
    (pg.passwordOf w.server role = none ∧ pg.hasDatabase w.server database = false ∧
      (∃ detail, run.2 = .ok (.ready detail)) ∧
      Created role database password operation w run.1) := by
  intro role database run
  obtain ⟨fates, ⟨e, hlookup⟩ | hlookup⟩ :=
    lookup_cases (fun s => (pg.passwordOf s role).isSome) "role lookup failed" w
  · have hrun : run = _ := provision_of_error hlookup
    rw [hrun]
    exact .inl ⟨e, rfl, .inl ⟨rfl, rfl⟩⟩
  cases hrole : pg.passwordOf w.server role with
  | none =>
    rw [hrole] at hlookup
    have hrun : run = _ := provision_of_absent hlookup
    rw [hrun]
    refine Or.imp (fun h => ?_) (fun h => .inr ?_)
      (create_cases hpg database password operation (w := { w with fates }) hrole)
    · obtain ⟨e, he, ⟨hserver, hprocess⟩ | hhalf⟩ := h
      · exact ⟨e, he, .inl ⟨hserver, hprocess⟩⟩
      · exact ⟨e, he, .inr ⟨rfl, hhalf.roles, hhalf.databases, hhalf.process⟩⟩
    · obtain ⟨hdatabase, hready, hcreated⟩ := h
      exact ⟨rfl, hdatabase, hready, hcreated.roles, hcreated.databases, hcreated.credential⟩
  | some held =>
    rw [hrole] at hlookup
    obtain ⟨fates', ⟨e, hlookup'⟩ | hlookup'⟩ :=
      lookup_cases (fun s => pg.hasDatabase s database) "database lookup failed" { w with fates }
    · have hrun : run = _ :=
        (provision_of_role hlookup).trans (Program.bind_of_error hlookup' _)
      rw [hrun]
      exact .inl ⟨e, rfl, .inl ⟨rfl, rfl⟩⟩
    have hrun : run = _ := (provision_of_role hlookup).trans (Program.bind_of_ok hlookup' _)
    rw [hrun]
    dsimp only
    cases hdatabase : pg.hasDatabase w.server database with
    | true => exact .inr (.inl ⟨rfl, rfl, ⟨_, rfl⟩, rfl, rfl⟩)
    | false =>
      obtain ⟨e, he, hserver, hprocess⟩ := create_taken hpg database password operation
        (w := { w with fates := fates' }) (hrole ▸ Option.some_ne_none held)
      exact .inl ⟨e, he, .inl ⟨hserver, hprocess⟩⟩

/-! ## Running it again -/

section Again
variable {password : String} {operation : ProviderOperation} {w w' : PostgresWorld pg}

theorem Provisioned.of_untouched (h : w.Provisioned operation) (hsame : Untouched w w') :
    w'.Provisioned operation := by
  obtain ⟨hserver, hprocess⟩ := hsame
  have hcredential : w'.credentialFor operation.resourceId =
      w.credentialFor operation.resourceId := by
    rw [credentialFor, credentialFor, hprocess]
  refine ⟨?_, ?_, ?_⟩
  · rw [hserver]
    exact h.role
  · rw [hserver]
    exact h.database
  · rw [hserver, hcredential]
    exact h.credential

theorem Created.provisioned
    (h : Created (PostgresProvisioner.roleOf operation) (PostgresProvisioner.databaseOf operation)
      password operation w w') : w'.Provisioned operation := by
  have hrole := h.roles (PostgresProvisioner.roleOf operation)
  have hdatabase := h.databases (PostgresProvisioner.databaseOf operation)
  rw [if_pos rfl] at hrole hdatabase
  exact ⟨hrole ▸ rfl, hdatabase, _, h.credential, rfl, rfl, hrole⟩

theorem ready_of_present (password : String) (hfates : w.fates = [])
    (hrole : (pg.passwordOf w.server (PostgresProvisioner.roleOf operation)).isSome)
    (hdatabase : pg.hasDatabase w.server (PostgresProvisioner.databaseOf operation) = true) :
    ∃ detail, (provision password operation w).2 = .ok (.ready detail) := by
  have hlookup : roleExists (PostgresProvisioner.roleOf operation) w = (w, .ok true) :=
    send_healthy _ hfates (by rw [hrole])
  have hlookup' : databaseExists (PostgresProvisioner.databaseOf operation) w = (w, .ok true) :=
    send_healthy _ hfates (by rw [hdatabase])
  rw [provision_of_role hlookup, Program.bind_of_ok hlookup']
  exact ⟨_, rfl⟩

theorem ready_of_absent (password : String) (hpg : pg.Documented) (hfates : w.fates = [])
    (hrole : pg.passwordOf w.server (PostgresProvisioner.roleOf operation) = none)
    (hdatabase : pg.hasDatabase w.server (PostgresProvisioner.databaseOf operation) = false) :
    ∃ detail, (provision password operation w).2 = .ok (.ready detail) := by
  have hlookup : roleExists (PostgresProvisioner.roleOf operation) w = (w, .ok false) :=
    send_healthy _ hfates (by rw [hrole]; rfl)
  generalize hroleName : PostgresProvisioner.roleOf operation = role at *
  generalize hdatabaseName : PostgresProvisioner.databaseOf operation = database at *
  obtain ⟨hok, hroles, hdatabases⟩ := hpg.createRole_new role password w.server hrole
  generalize hs₁ : (pg.createRole role password w.server).1 = s₁ at *
  have howner : pg.passwordOf s₁ role ≠ none := by
    rw [hroles, if_pos rfl]
    exact Option.some_ne_none _
  obtain ⟨hok', hroles', hdatabases'⟩ := hpg.createDatabase_new database role s₁
    ((hdatabases _).trans hdatabase) howner
  generalize hs₂ : (pg.createDatabase database role s₁).1 = s₂ at *
  have hgrant := hpg.grantConnect_granted database role s₂
    ((hdatabases' _).trans (if_pos rfl)) (by rwa [hroles'])
  have hsent₁ : send (pg.createRole role password) s!"role creation failed for {quoted role}" w =
      ({ w with server := s₁ }, .ok ()) := send_healthy _ hfates (Prod.ext hs₁ hok)
  have hsent₂ : send (pg.createDatabase database role)
      s!"database creation failed for {quoted database}" { w with server := s₁ } =
      ({ w with server := s₂ }, .ok ()) :=
    send_healthy (w := { w with server := s₁ }) _ hfates (Prod.ext hs₂ hok')
  have hsent₃ : send (pg.grantConnect database role) s!"connect grant failed for {quoted role}"
      { w with server := s₂ } =
      ({ w with server := (pg.grantConnect database role s₂).1 }, .ok ()) :=
    send_healthy (w := { w with server := s₂ }) _ hfates (Prod.ext rfl hgrant)
  have hrun : provision password operation w = create role database password operation w := by
    rw [← hroleName, ← hdatabaseName]
    exact provision_of_absent (hroleName ▸ hlookup)
  rw [hrun]
  unfold create
  rw [Program.bind_of_ok hsent₁, Program.bind_of_ok hsent₂, Program.bind_of_ok hsent₃]
  exact ⟨_, rfl⟩

/-- **Running it again** converges from nothing at all and from what is complete already. -/
theorem converges_iff (hpg : pg.Documented) : w.Converges password operation ↔
    (pg.passwordOf w.server (PostgresProvisioner.roleOf operation) = none ∧
      pg.hasDatabase w.server (PostgresProvisioner.databaseOf operation) = false) ∨
    w.Provisioned operation := by
  have hcases := provision_cases hpg password operation w.healthy
  constructor
  · rintro ⟨⟨detail, hready⟩, hdone⟩
    obtain ⟨e, he, -⟩ | ⟨-, -, -, hserver, hprocess⟩ | ⟨hrole, hdatabase, -⟩ := hcases
    · rw [hready] at he
      cases he
    · exact .inr (hdone.of_untouched ⟨hserver.symm, hprocess.symm⟩)
    · exact .inl ⟨hrole, hdatabase⟩
  · rintro (⟨hrole, hdatabase⟩ | hdone)
    · have hready := ready_of_absent password (w := w.healthy) hpg rfl hrole hdatabase
      refine ⟨hready, ?_⟩
      obtain ⟨e, he, -⟩ | ⟨hsome, -⟩ | ⟨-, -, -, hcreated⟩ := hcases
      · obtain ⟨detail, hready⟩ := hready
        rw [hready] at he
        cases he
      · have hnone : pg.passwordOf w.healthy.server (PostgresProvisioner.roleOf operation) = none :=
          hrole
        rw [hnone] at hsome
        cases hsome
      · exact hcreated.provisioned
    · have hready := ready_of_present password (w := w.healthy) rfl hdone.role
        hdone.database
      refine ⟨hready, ?_⟩
      obtain ⟨e, he, -⟩ | ⟨-, -, -, hsame⟩ | ⟨hnone, -⟩ := hcases
      · obtain ⟨detail, hready⟩ := hready
        rw [hready] at he
        cases he
      · exact hdone.of_untouched hsame
      · have hsome := hdone.role
        rw [show pg.passwordOf w.server _ = none from hnone] at hsome
        cases hsome

end Again

/-! ## Histories of interruptions -/

/-- Neither the role nor the database is there, and the process holds no credential for them. -/
structure Fresh (w : PostgresWorld pg) (operation : ProviderOperation) : Prop where
  role : pg.passwordOf w.server (PostgresProvisioner.roleOf operation) = none
  database : pg.hasDatabase w.server (PostgresProvisioner.databaseOf operation) = false
  credential : w.credentialFor operation.resourceId = none

/-- A database has its role, and a credential that is held is good. -/
structure Orderly (w : PostgresWorld pg) (operation : ProviderOperation) : Prop where
  owned : pg.hasDatabase w.server (PostgresProvisioner.databaseOf operation) = true →
    pg.passwordOf w.server (PostgresProvisioner.roleOf operation) ≠ none
  held : (w.credentialFor operation.resourceId).isSome → w.Provisioned operation

theorem Fresh.orderly {w : PostgresWorld pg} {operation : ProviderOperation}
    (h : w.Fresh operation) : w.Orderly operation := by
  constructor
  · intro hdatabase
    rw [h.database] at hdatabase
    cases hdatabase
  · intro hheld
    rw [h.credential] at hheld
    cases hheld

theorem Orderly.provision {w : PostgresWorld pg} {operation : ProviderOperation}
    (h : w.Orderly operation) (hpg : pg.Documented) (password : String) :
    (PostgresWorld.provision password operation w).1.Orderly operation := by
  have hkept : ∀ {w' : PostgresWorld pg}, Untouched w w' → w'.Orderly operation := by
    rintro w' ⟨hserver, hprocess⟩
    refine ⟨?_, fun hheld => (h.held ?_).of_untouched ⟨hserver, hprocess⟩⟩
    · rw [hserver]
      exact h.owned
    · rwa [credentialFor, ← hprocess]
  obtain ⟨e, -, hsame | ⟨hnone, hhalf⟩⟩ | ⟨-, -, -, hsame⟩ | ⟨-, -, -, hcreated⟩ :=
    provision_cases hpg password operation w
  · exact hkept hsame
  · refine ⟨fun _ => ?_, fun hheld => ?_⟩
    · rw [hhalf.roles, if_pos rfl]
      exact Option.some_ne_none _
    · rw [credentialFor, hhalf.process] at hheld
      have hsome := (h.held hheld).role
      rw [hnone] at hsome
      cases hsome
  · exact hkept hsame
  · refine ⟨fun _ => ?_, fun _ => hcreated.provisioned⟩
    rw [hcreated.roles, if_pos rfl]
    exact Option.some_ne_none _

/-- From an orderly world it converges unless the role is there and its credential is not. -/
theorem Orderly.converges_iff {w : PostgresWorld pg} {operation : ProviderOperation}
    (h : w.Orderly operation) (hpg : pg.Documented) {password : String} :
    w.Converges password operation ↔
      pg.passwordOf w.server (PostgresProvisioner.roleOf operation) = none ∨
      (w.credentialFor operation.resourceId).isSome := by
  rw [PostgresWorld.converges_iff hpg]
  constructor
  · rintro (⟨hrole, -⟩ | hdone)
    · exact .inl hrole
    · obtain ⟨credential, hheld, -⟩ := hdone.credential
      exact .inr (hheld ▸ rfl)
  · rintro (hrole | hheld)
    · refine .inl ⟨hrole, ?_⟩
      rw [← Bool.not_eq_true]
      exact fun hdatabase => h.owned hdatabase hrole
    · exact .inr (h.held hheld)

end PostgresWorld

/-- An attempt at `provision`, with the fates of its statements, or a restart of the process. -/
inductive PostgresEvent
  | attempt (password : String) (fates : List Fate)
  | restart

def postgresHistory (pg : PostgresServer) (operation : ProviderOperation) :
    Machine (PostgresWorld pg) PostgresEvent
      (Option (Except ControlPlaneError ProviderExecution)) where
  step := fun w event =>
    match event with
    | .attempt password fates =>
        answered some (PostgresWorld.provision password operation { w with fates })
    | .restart => ({ w with process := { w.process with credentials := [] } }, none)

theorem orderly_next {pg : PostgresServer} (hpg : pg.Documented) {operation : ProviderOperation}
    {w : PostgresWorld pg} (h : w.Orderly operation) (event : PostgresEvent) :
    ((postgresHistory pg operation).next w event).Orderly operation := by
  cases event with
  | attempt password fates =>
    have hw : PostgresWorld.Orderly { w with fates } operation :=
      ⟨h.owned, fun hheld => (h.held hheld).of_untouched ⟨rfl, rfl⟩⟩
    have hnext : (postgresHistory pg operation).next w (.attempt password fates) =
        (PostgresWorld.provision password operation { w with fates }).1 := by
      simp only [Machine.next, postgresHistory, answered]
    rw [hnext]
    exact hw.provision hpg password
  | restart =>
    have hnext : (postgresHistory pg operation).next w .restart =
        { w with process := { w.process with credentials := [] } } := by
      simp only [Machine.next, postgresHistory]
    have hnone : ({ w with process := { w.process with credentials := [] } } :
        PostgresWorld pg).credentialFor operation.resourceId = none := rfl
    rw [hnext]
    refine ⟨h.owned, fun hheld => ?_⟩
    rw [hnone] at hheld
    cases hheld

/-- **Provisioning again.** After any attempts that failed at any statement, and any restarts,
running `provision` on a healthy server ends ready with a usable credential exactly if neither the
role nor the database is there, or everything is, credential included. For a resource that was
new, that is: no role was created yet, or this process still holds its credential. -/
theorem provision_converges_iff {pg : PostgresServer} (hpg : pg.Documented)
    (operation : ProviderOperation) (start : PostgresWorld pg) (history : List PostgresEvent)
    (password : String) :
    let w := (postgresHistory pg operation).run start history
    let role := PostgresProvisioner.roleOf operation
    let database := PostgresProvisioner.databaseOf operation
    (w.Converges password operation ↔
      (pg.passwordOf w.server role = none ∧ pg.hasDatabase w.server database = false) ∨
      w.Provisioned operation) ∧
    (start.Fresh operation →
      (w.Converges password operation ↔
        pg.passwordOf w.server role = none ∨
        (w.credentialFor operation.resourceId).isSome)) := by
  intro w role database
  refine ⟨PostgresWorld.converges_iff hpg, fun hfresh => ?_⟩
  have horderly : w.Orderly operation := (postgresHistory pg operation).run_invariant_all
    (P := fun w => w.Orderly operation) (fun _ event h => orderly_next hpg h event) start history
    hfresh.orderly
  exact horderly.converges_iff hpg

/-! ## A server with nothing but a catalog -/

structure Catalog where
  roles : List (String × String)
  databases : List String

def catalogServer : PostgresServer where
  State := Catalog
  passwordOf := fun s role => s.roles.lookup role
  hasDatabase := fun s database => s.databases.contains database
  createRole := fun role password s =>
    if (s.roles.lookup role).isSome then (s, .error "role already exists")
    else ({ s with roles := (role, password) :: s.roles }, .ok ())
  createDatabase := fun database owner s =>
    if s.databases.contains database then (s, .error "database already exists")
    else if (s.roles.lookup owner).isSome then
      ({ s with databases := database :: s.databases }, .ok ())
    else (s, .error "role does not exist")
  grantConnect := fun database role s =>
    if s.databases.contains database ∧ (s.roles.lookup role).isSome then (s, .ok ())
    else (s, .error "does not exist")

theorem catalogServer_documented : catalogServer.Documented where
  createRole_new := by
    intro role password s hnone
    simp only [catalogServer] at hnone ⊢
    simp only [hnone, Option.isSome_none, Bool.false_eq_true, if_false, true_and, implies_true,
      and_true]
    intro r
    rw [List.lookup_cons]
    by_cases hr : r = role
    · simp [hr]
    · rw [beq_false_of_ne hr, if_neg hr]
  createRole_taken := by
    intro role password s hsome
    exact ⟨_, if_pos (Option.isSome_iff_ne_none.mpr hsome)⟩
  createDatabase_new := by
    intro database owner s hnone howner
    have hsome : (s.roles.lookup owner).isSome := Option.isSome_iff_ne_none.mpr howner
    simp only [catalogServer] at hnone ⊢
    simp only [hnone, hsome, Bool.false_eq_true, if_false, if_true, true_and, implies_true]
    intro d
    by_cases hd : d = database <;> simp [hd]
  createDatabase_taken := by
    intro database owner s hsome
    exact ⟨_, if_pos hsome⟩
  grantConnect_granted := by
    intro database role s hdatabase hrole
    simp only [catalogServer] at hdatabase ⊢
    rw [if_pos ⟨hdatabase, Option.isSome_iff_ne_none.mpr hrole⟩]
  grantConnect_keeps := by
    intro database role s
    simp only [catalogServer]
    split_ifs <;> exact ⟨fun _ => rfl, fun _ => rfl⟩

/-- A process that has just started, and a server that has nothing yet. -/
def newWorld : PostgresWorld catalogServer where
  server := ⟨[], []⟩
  process :=
    { server := ⟨fun _ => .ok false, fun _ => .ok false, fun _ => .ok (), fun _ => .ok (),
        fun _ => .ok (), fun _ => .ok (), fun _ => .ok (), fun _ => .ok ()⟩
      adminPassword := none, adminHost := "db", adminPort := 5432, credentials := [] }
  fates := []

def provisionPostgres : ProviderOperation :=
  { ProviderRuntime.deletePostgres ⟨1⟩ with action := .provision }

/-- An attempt that lost its connection after the role was created. -/
def interrupted : PostgresEvent := .attempt "first" [.answered, .answered, .unsent "reset"]

/-- Running it again fails: the role is there, so it cannot be created. -/
theorem rerun_does_not_converge :
    ¬ ((postgresHistory catalogServer provisionPostgres).run newWorld [interrupted]).Converges
      "second" provisionPostgres := by
  have hrole : catalogServer.passwordOf
      ((postgresHistory catalogServer provisionPostgres).run newWorld [interrupted]).server
      (PostgresProvisioner.roleOf provisionPostgres) = some "first" := by decide +kernel
  have hdatabase : catalogServer.hasDatabase
      ((postgresHistory catalogServer provisionPostgres).run newWorld [interrupted]).server
      (PostgresProvisioner.databaseOf provisionPostgres) = false := by decide +kernel
  rw [PostgresWorld.converges_iff catalogServer_documented]
  rintro (⟨hnone, -⟩ | hdone)
  · rw [hrole] at hnone
    cases hnone
  · have hsome := hdone.database
    rw [hdatabase] at hsome
    cases hsome

/-- On the catalog server, after that attempt and a restart. -/
theorem provision_converges_iff_catalog :
    let w := (postgresHistory catalogServer provisionPostgres).run newWorld [interrupted, .restart]
    w.Converges "second" provisionPostgres ↔
      catalogServer.passwordOf w.server (PostgresProvisioner.roleOf provisionPostgres) = none ∨
      (w.credentialFor provisionPostgres.resourceId).isSome :=
  (provision_converges_iff catalogServer_documented provisionPostgres newWorld
    [interrupted, .restart] "second").2
    ⟨rfl, rfl, rfl⟩

end Labrys.ControlPlane
