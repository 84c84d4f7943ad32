import Labrys.ControlPlane.Api

/-! # Desired and observed state of an application

`update_desired_state` replaces the desired state of an application if the stored version is the one
its caller expects; `record_observation` writes the observed state; `save` writes the whole
aggregate, its desired state included, whatever is stored. Each of them is one transaction, and so
the clients of the store are interleaved by the order in which their transactions commit.

* `update_ok`, `desired_save`, `desired_recordObservation`: what a transaction does to the desired
  state.
* `desired_linear_exact`: along which runs the desired state is linear. -/

namespace Labrys.ControlPlane
open Foundations Labrys.Core
set_option autoImplicit false

/-! ## The aggregate -/

structure DesiredState where
  version : ℕ
  profiles : List (String × Json)
  config : Json
deriving DecidableEq

inductive ObservedStatus
  | unknown | healthy | degraded | unhealthy
deriving DecidableEq

structure ObservedState where
  desiredVersion : ℕ
  status : ObservedStatus
  lastObservedAt : DateTime
  detail : Option String
deriving DecidableEq

inductive ApplicationStatus
  | draft | active | archived
deriving DecidableEq

/-- A row of `applications` with all of its columns. -/
structure ApplicationRecord where
  row : ApplicationRow
  status : ApplicationStatus
  createdAt : DateTime
  updatedAt : DateTime
  updatedBy : Option String
  auditEventIds : List String
  collections : Json
deriving DecidableEq

/-- A row of `environments` with all of its columns. -/
structure EnvironmentRecord where
  row : EnvironmentRow
  kind : Json
  refs : Json
deriving DecidableEq

/-- `Application`, with the states that `Application` of the handlers leaves out. -/
structure Aggregate where
  record : ApplicationRecord
  environments : List EnvironmentRecord
  desiredState : DesiredState
  observedState : ObservedState
deriving DecidableEq

def Aggregate.id (app : Aggregate) : ApplicationId := app.record.row.id

/-- A row of `desired_states`; a version is kept as the `u64` that its `bigint` reads back as. -/
structure DesiredRow where
  applicationId : ApplicationId
  state : DesiredState
deriving DecidableEq

structure ObservedRow where
  applicationId : ApplicationId
  state : ObservedState
deriving DecidableEq

structure ApplicationDb where
  applications : Table fun record : ApplicationRecord => record.row.id
  environments : Table fun record : EnvironmentRecord => record.row.id
  desired : Table fun row : DesiredRow => row.applicationId
  observed : Table fun row : ObservedRow => row.applicationId
  events : List EventDraft
  audit : List AuditEntry

abbrev ApplicationAction := Program ApplicationDb (Fault ControlPlaneError)

def ApplicationAction.throw {α : Type} (error : ControlPlaneError) : ApplicationAction α :=
  Program.ofExcept (.error (.err error))

/-! ## Statements -/

namespace PgApplicationStore

/-- The check of `desired_states`: a version is stored as an `i64`, and at least 1. -/
def versionStorable (version : ℕ) : Bool := 1 ≤ version ∧ version ≤ i64Max

def versionRefused : ControlPlaneError :=
  .database ("new row for relation \"desired_states\" violates check constraint " ++
    "\"desired_states_version_check\"")

def foreignKeyRefused (table constraint : String) : ControlPlaneError :=
  .database (s!"insert or update on table \"{table}\" violates foreign key constraint " ++
    s!"\"{constraint}\"")

def environmentsOwnershipRefused : ControlPlaneError :=
  .database "duplicate key value violates unique constraint \"environments_ownership\""

/-- `upsert_application`: the creation of a stored one is kept. -/
def putApplication (record : ApplicationRecord) : ApplicationAction Unit := fun s =>
  ({ s with
      applications := s.applications.upsert record (fun old => { record with
        row := { record.row with id := old.row.id, createdBy := old.row.createdBy }
        createdAt := old.createdAt }) fun _ => rfl },
    .ok ())

/-- `upsert_environment`: a new one must belong to a stored application, and its name must be free
in the application it belongs to. -/
def putEnvironment (record : EnvironmentRecord) : ApplicationAction Unit := fun s =>
  let owner := ((s.environments.get record.row.id).map (·.row.applicationId)).getD
    record.row.applicationId
  if (s.environments.get record.row.id).isNone ∧ (s.applications.get owner).isNone then
    (s, .error (.err (foreignKeyRefused "environments" "environments_application_id_fkey")))
  else if s.environments.rows.any (fun other =>
      decide (other.row.id ≠ record.row.id ∧ other.row.applicationId = owner ∧
        other.row.name = record.row.name)) then
    (s, .error (.err environmentsOwnershipRefused))
  else
    ({ s with
        environments := s.environments.upsert record (fun old => { record with
          row := { record.row with id := old.row.id, applicationId := old.row.applicationId } })
          fun _ => rfl },
      .ok ())

/-- `upsert_desired_state`, with no look at the stored version. -/
def putDesired (id : ApplicationId) (state : DesiredState) : ApplicationAction Unit := fun s =>
  if versionStorable state.version then
    ({ s with
        desired := s.desired.upsert ⟨id, state⟩ (fun old => { old with state := state })
          fun _ => rfl },
      .ok ())
  else (s, .error (.err versionRefused))

/-- `upsert_observed_state_conn`. -/
def putObserved (id : ApplicationId) (state : ObservedState) : ApplicationAction Unit := fun s =>
  if (s.applications.get id).isNone then
    (s, .error (.err (foreignKeyRefused "observed_states" "observed_states_application_id_fkey")))
  else
    ({ s with
        observed := s.observed.upsert ⟨id, state⟩ (fun old => { old with state := state })
          fun _ => rfl },
      .ok ())

/-- `UPDATE applications SET updated_at, updated_by`; no `updated_by` leaves it. -/
def touch (id : ApplicationId) (time : DateTime) (updatedBy : Option String) :
    ApplicationAction Unit := fun s =>
  ({ s with
      applications := s.applications.updateWhere (fun record => decide (record.row.id = id))
        (fun record => { record with
          updatedAt := time, updatedBy := updatedBy.or record.updatedBy }) fun _ => rfl },
    .ok ())

def appendEvent (event : EventDraft) (secrets : List String) : ApplicationAction Unit := do
  let stored ← Program.ofExcept ((redactEvent event secrets).mapError .err)
  fun s => ({ s with events := s.events ++ [stored] }, .ok ())

/-- `append_audit`, up to the hash chain. -/
def appendAudit (entry : AuditEntry) (secrets : List String) : ApplicationAction Unit := do
  let detail ← Program.ofExcept
    ((redactGuard "audit.detail" entry.detail secrets).mapError .err)
  fun s => ({ s with audit := s.audit ++ [{ entry with detail := detail }] }, .ok ())

/-! ## Transactions -/

/-- `save` of a whole aggregate. -/
def saveAggregate (app : Aggregate) : ApplicationAction Unit := Program.transaction do
  putApplication app.record
  Program.sequence (app.environments.map putEnvironment)
  putDesired app.id app.desiredState
  putObserved app.id app.observedState

def recordObservation (id : ApplicationId) (observed : ObservedState) : ApplicationAction Unit :=
  Program.transaction do
    putObserved id observed
    touch id observed.lastObservedAt none

end PgApplicationStore

structure DesiredUpdate where
  id : ApplicationId
  expectedVersion : ℕ
  next : DesiredState
  event : EventDraft
  auditDetail : String
  updatedBy : String
  secrets : List String
  now : DateTime

namespace PgApplicationStore

/-- The `UPDATE` of the desired state, guarded by the version that is expected. -/
def swapDesired (update : DesiredUpdate) : ApplicationAction Unit := fun s =>
  let wanted := fun row : DesiredRow =>
    decide (row.applicationId = update.id ∧ row.state.version = update.expectedVersion)
  if s.desired.affected wanted = 0 then
    match s.desired.get update.id with
    | none => (s, .error (.err (.notFound (toString update.id))))
    | some row => (s, .error (.err (.conflict
        (s!"desired-state generation conflict for {update.id}: expected " ++
          s!"{update.expectedVersion}, stored {row.state.version}"))))
  else if versionStorable update.next.version then
    ({ s with
        desired := s.desired.updateWhere wanted (fun row => { row with state := update.next })
          fun _ => rfl },
      .ok ())
  else (s, .error (.err versionRefused))

/-- `update_desired_state`, up to the read that follows its transaction. -/
def updateDesiredState (update : DesiredUpdate) : ApplicationAction Unit :=
  if u64Max < update.expectedVersion + 1 then
    Program.ofExcept (.error (.panic addOverflowed))
  else if update.next.version ≠ update.expectedVersion + 1 then
    let wanted := update.expectedVersion + 1
    .throw (.conflict
      s!"next desired version {update.next.version} is not expected_version+1 {wanted}")
  else Program.transaction do
    swapDesired update
    touch update.id update.now (some update.updatedBy)
    appendEvent update.event update.secrets
    appendAudit ⟨update.now, update.updatedBy, "desired_state_update", toString update.id,
      update.auditDetail⟩ update.secrets

end PgApplicationStore

/-! ## What a transaction does to the desired state -/

def desiredOf (s : ApplicationDb) (id : ApplicationId) : Option DesiredState :=
  (s.desired.get id).map (·.state)

section Effects
open PgApplicationStore

/-- A program that fails and one that does not, in a transaction. -/
theorem transaction_cases (m : ApplicationAction Unit) (s : ApplicationDb) :
    (∃ e, m.transaction s = (s, .error e)) ∨
      ∃ s', m s = (s', .ok ()) ∧ m.transaction s = (s', .ok ()) := by
  cases hresult : (m s).2 with
  | error e => exact .inl ⟨e, Program.transaction_of_error hresult⟩
  | ok value =>
    exact .inr ⟨(m s).1, Program.run_of_snd hresult, Program.transaction_of_ok hresult⟩

theorem desired_putEnvironment (record : EnvironmentRecord) :
    (putEnvironment record).Keeps ApplicationDb.desired := by
  intro s
  unfold putEnvironment
  dsimp only
  split_ifs <;> rfl

theorem desired_putObserved (id : ApplicationId) (state : ObservedState) :
    (putObserved id state).Keeps ApplicationDb.desired := by
  intro s
  unfold putObserved
  split_ifs <;> rfl

theorem desired_appendEvent (event : EventDraft) (secrets : List String) :
    (PgApplicationStore.appendEvent event secrets).Keeps ApplicationDb.desired :=
  (Program.keeps_ofExcept _).bind fun _ _ => rfl

theorem desired_appendAudit (entry : AuditEntry) (secrets : List String) :
    (appendAudit entry secrets).Keeps ApplicationDb.desired :=
  (Program.keeps_ofExcept _).bind fun _ _ => rfl

theorem putDesired_ok {id : ApplicationId} {state : DesiredState} {s s' : ApplicationDb}
    (h : putDesired id state s = (s', .ok ())) (other : ApplicationId) :
    desiredOf s' other = if other = id then some state else desiredOf s other := by
  unfold putDesired at h
  split_ifs at h with hstorable
  · obtain rfl := congrArg Prod.fst h
    unfold desiredOf
    dsimp only
    split_ifs with hother
    · subst hother
      rw [s.desired.get_upsert_self ⟨other, state⟩]
      cases s.desired.get other <;> rfl
    · rw [s.desired.get_upsert_of_ne _ _ _ hother]
  · cases congrArg Prod.snd h

/-- **A save** fails and changes nothing, or stores the desired state it carries. -/
theorem save_cases (app : Aggregate) (s : ApplicationDb) :
    (∃ e, saveAggregate app s = (s, .error e)) ∨
    ∃ s', saveAggregate app s = (s', .ok ()) ∧ ∀ id, desiredOf s' id =
      if id = app.id then some app.desiredState else desiredOf s id := by
  refine (transaction_cases _ s).imp_right fun ⟨s', hrun, heq⟩ => ⟨s', heq, fun id => ?_⟩
  obtain ⟨s₁, value₁, happlication, hrest₁⟩ := Program.bind_eq_ok hrun
  obtain ⟨s₂, value₂, henvironments, hrest₂⟩ := Program.bind_eq_ok hrest₁
  obtain ⟨s₃, value₃, hdesired, hobserved⟩ := Program.bind_eq_ok hrest₂
  have hfirst : s₁.desired = s.desired := (congrArg (fun result => result.1.desired) happlication).symm
  have hsecond : s₂.desired = s₁.desired := by
    refine Program.Keeps.of_run (Program.keeps_sequence fun m hm => ?_) henvironments
    obtain ⟨record, -, rfl⟩ := List.mem_map.mp hm
    exact desired_putEnvironment record
  have hlast : s'.desired = s₃.desired := (desired_putObserved _ _).of_run hobserved
  calc desiredOf s' id = desiredOf s₃ id := by unfold desiredOf; rw [hlast]
    _ = if id = app.id then some app.desiredState else desiredOf s₂ id := putDesired_ok hdesired id
    _ = if id = app.id then some app.desiredState else desiredOf s id := by
      unfold desiredOf
      rw [hsecond, hfirst]

/-- **An observation** leaves the desired states alone. -/
theorem observation_cases (id : ApplicationId) (observed : ObservedState) (s : ApplicationDb) :
    (∃ e, recordObservation id observed s = (s, .error e)) ∨
    ∃ s', recordObservation id observed s = (s', .ok ()) ∧ s'.desired = s.desired := by
  refine (transaction_cases _ s).imp_right fun ⟨s', hrun, heq⟩ => ⟨s', heq, ?_⟩
  exact ((desired_putObserved id observed).bind fun _ _ => rfl).of_run hrun

theorem swapDesired_ok {update : DesiredUpdate} {s s' : ApplicationDb}
    (h : swapDesired update s = (s', .ok ())) :
    ∃ d, desiredOf s update.id = some d ∧ d.version = update.expectedVersion ∧
      ∀ id, desiredOf s' id = if id = update.id then some update.next else desiredOf s id := by
  unfold swapDesired at h
  dsimp only at h
  split_ifs at h with haffected hstorable
  · split at h <;> cases congrArg Prod.snd h
  · obtain rfl := congrArg Prod.fst h
    rw [s.desired.affected_eq_zero_iff update.id _ fun row _ hrow => (of_decide_eq_true hrow).1]
      at haffected
    push Not at haffected
    obtain ⟨row, hget, hwanted⟩ := haffected
    simp only [ne_eq, Bool.not_eq_false, decide_eq_true_eq] at hwanted
    refine ⟨row.state, by rw [desiredOf, hget]; rfl, hwanted.2, fun id => ?_⟩
    unfold desiredOf
    dsimp only
    rw [Table.get_updateWhere]
    split_ifs with hid
    · rw [hid, hget]
      simp [hwanted]
    · cases hother : s.desired.get id with
      | none => rfl
      | some other =>
        have hkey : other.applicationId ≠ update.id := by
          rw [Table.key_of_get hother]
          exact hid
        simp [hkey]
  · cases congrArg Prod.snd h

/-- **An update** fails and changes nothing, or replaces the desired state of the expected version
by the next one. -/
theorem update_cases (update : DesiredUpdate) (s : ApplicationDb) :
    (∃ e, updateDesiredState update s = (s, .error e)) ∨
    ∃ s', updateDesiredState update s = (s', .ok ()) ∧
      (∃ d, desiredOf s update.id = some d ∧ update.next.version = d.version + 1) ∧
      ∀ id, desiredOf s' id = if id = update.id then some update.next else desiredOf s id := by
  unfold updateDesiredState
  split_ifs with hoverflow hversion
  · exact .inl ⟨_, rfl⟩
  · exact .inl ⟨_, rfl⟩
  · refine (transaction_cases _ s).imp_right fun ⟨s', hrun, heq⟩ => ⟨s', heq, ?_⟩
    obtain ⟨s₁, value₁, hswap, hrest⟩ := Program.bind_eq_ok hrun
    obtain ⟨d, hstored, hexpected, hdesired⟩ := swapDesired_ok hswap
    have hkept : s'.desired = s₁.desired := by
      refine Program.Keeps.of_run (Program.Keeps.bind (fun _ => rfl) fun _ => ?_) hrest
      exact (desired_appendEvent _ _).bind fun _ => desired_appendAudit _ _
    refine ⟨⟨d, hstored, by rw [hexpected, of_not_not hversion]⟩, fun id => ?_⟩
    rw [← hdesired id]
    unfold desiredOf
    rw [hkept]

end Effects

/-! ## Clients, interleaved -/

inductive ApplicationTx
  | save (app : Aggregate)
  | recordObservation (id : ApplicationId) (observed : ObservedState)
  | updateDesiredState (update : DesiredUpdate)

def applicationMachine : Machine ApplicationDb ApplicationTx (Outcome ControlPlaneError Unit) where
  step := fun s tx => match tx with
    | .save app => PgApplicationStore.saveAggregate app s
    | .recordObservation id observed => PgApplicationStore.recordObservation id observed s
    | .updateDesiredState update => PgApplicationStore.updateDesiredState update s

/-- The updates of one application that were accepted: how many, and the last one. -/
structure DesiredHistory where
  accepted : ℕ
  last : Option DesiredState
deriving DecidableEq

def DesiredHistory.record (id : ApplicationId) (history : DesiredHistory) :
    ApplicationTx → Outcome ControlPlaneError Unit → DesiredHistory
  | .updateDesiredState update, .ok () =>
      if update.id = id then ⟨history.accepted + 1, some update.next⟩ else history
  | _, _ => history

/-- The store, with the record of what was accepted for one application. -/
def trackedMachine (id : ApplicationId) :
    Machine (ApplicationDb × DesiredHistory) ApplicationTx (Outcome ControlPlaneError Unit) where
  step := fun tracked tx =>
    ((applicationMachine.next tracked.1 tx,
      tracked.2.record id tx (applicationMachine.answer tracked.1 tx)),
      applicationMachine.answer tracked.1 tx)

section Linear
variable {id : ApplicationId}

/-- The stored version has grown by one for each accepted update, and the last of them is stored. -/
def Linear (id : ApplicationId) (base : ℕ) (tracked : ApplicationDb × DesiredHistory) : Prop :=
  ∃ d, desiredOf tracked.1 id = some d ∧ d.version = base + tracked.2.accepted ∧
    ∀ next, tracked.2.last = some next → d = next

/-- A save that the database takes carries the stored version and, once an update was accepted, the
stored desired state. -/
def SaveAgrees (id : ApplicationId) (tracked : ApplicationDb × DesiredHistory) :
    ApplicationTx → Prop
  | .save app => app.id = id → (PgApplicationStore.saveAggregate app tracked.1).2 = .ok () →
      ∀ d, desiredOf tracked.1 id = some d → app.desiredState.version = d.version ∧
        (tracked.2.last.isSome → app.desiredState = d)
  | _ => True

/-- A transaction that fails leaves every table as it was. -/
theorem failed_unchanged (s : ApplicationDb) (tx : ApplicationTx) {e : Fault ControlPlaneError}
    (h : applicationMachine.answer s tx = .error e) : applicationMachine.next s tx = s := by
  have hcases : (∃ e, applicationMachine.step s tx = (s, .error e)) ∨
      ∃ s', applicationMachine.step s tx = (s', .ok ()) := by
    cases tx with
    | save app => exact (save_cases app s).imp_right fun ⟨s', heq, _⟩ => ⟨s', heq⟩
    | recordObservation id observed =>
      exact (observation_cases id observed s).imp_right fun ⟨s', heq, _⟩ => ⟨s', heq⟩
    | updateDesiredState update =>
      exact (update_cases update s).imp_right fun ⟨s', heq, _⟩ => ⟨s', heq⟩
  obtain ⟨e', heq⟩ | ⟨s', heq⟩ := hcases
  · exact Machine.next_of_step _ heq
  · rw [Machine.answer_of_step _ heq] at h
    cases h

/-- The step of the tracked machine, for a transaction whose step is known. -/
theorem tracked_next (history : DesiredHistory) (tx : ApplicationTx) {s s' : ApplicationDb}
    {result : Outcome ControlPlaneError Unit}
    (h : applicationMachine.step s tx = (s', result)) :
    (trackedMachine id).next (s, history) tx = (s', history.record id tx result) := by
  change (applicationMachine.next s tx,
    history.record id tx (applicationMachine.answer s tx)) = _
  rw [Machine.next_of_step _ h, Machine.answer_of_step _ h]

theorem linear_of_desiredOf {base : ℕ} {s s' : ApplicationDb} {history : DesiredHistory}
    (h : Linear id base (s, history)) (hsame : desiredOf s' id = desiredOf s id) :
    Linear id base (s', history) := by
  obtain ⟨d, hstored, hversion, hlast⟩ := h
  exact ⟨d, hsame.trans hstored, hversion, hlast⟩

/-- What a save stores is linear exactly if it has the version of what was stored and, once an update
was accepted, is what was stored. -/
theorem linear_saved_iff {base : ℕ} {s s' : ApplicationDb} {history : DesiredHistory}
    {d saved : DesiredState} (h : Linear id base (s, history))
    (hstored : desiredOf s id = some d) (hafter : desiredOf s' id = some saved) :
    Linear id base (s', history) ↔
      saved.version = d.version ∧ (history.last.isSome → saved = d) := by
  obtain ⟨d', hd', hversion, hlast⟩ := h
  obtain rfl := Option.some_inj.mp (hstored.symm.trans hd')
  dsimp only at hversion hlast
  constructor
  · rintro ⟨saved', hsaved', hversion', hlast'⟩
    obtain rfl := Option.some_inj.mp (hafter.symm.trans hsaved')
    refine ⟨hversion'.trans hversion.symm, fun hsome => ?_⟩
    obtain ⟨next, hnext⟩ := Option.isSome_iff_exists.mp hsome
    exact (hlast' next hnext).trans (hlast next hnext).symm
  · rintro ⟨hsame, hwhole⟩
    refine ⟨saved, hafter, hsame.trans hversion, fun next hnext => ?_⟩
    exact (hwhole (Option.isSome_of_mem hnext)).trans (hlast next hnext)

/-- From a linear state, a transaction leads to a linear one exactly if it is no save that
disagrees. -/
theorem linear_next {base : ℕ} {tracked : ApplicationDb × DesiredHistory} {tx : ApplicationTx}
    (h : Linear id base tracked) :
    Linear id base ((trackedMachine id).next tracked tx) ↔ SaveAgrees id tracked tx := by
  obtain ⟨s, history⟩ := tracked
  cases tx with
  | save app =>
    obtain ⟨e, heq⟩ | ⟨s', heq, hdesired⟩ := save_cases app s
    · rw [tracked_next history (.save app) heq]
      exact iff_of_true h fun _ hok => absurd hok (by rw [heq]; nofun)
    · rw [tracked_next history (.save app) heq]
      change Linear id base (s', history) ↔ (app.id = id → _ → _)
      by_cases hid : app.id = id
      · have hafter : desiredOf s' id = some app.desiredState := by
          rw [hdesired id, if_pos hid.symm]
        have ⟨d, hstored, _⟩ := h
        rw [linear_saved_iff h hstored hafter]
        refine ⟨fun hagrees _ _ d' hd' => ?_, fun hall => hall hid (by rw [heq]) d hstored⟩
        rw [← Option.some_inj.mp (hstored.symm.trans hd')]
        exact hagrees
      · refine iff_of_true (linear_of_desiredOf h ?_) fun h => absurd h hid
        rw [hdesired id, if_neg fun h => hid h.symm]
  | recordObservation other observed =>
    refine iff_of_true ?_ trivial
    obtain ⟨e, heq⟩ | ⟨s', heq, hdesired⟩ := observation_cases other observed s
    · rw [tracked_next history (.recordObservation other observed) heq]
      exact h
    · rw [tracked_next history (.recordObservation other observed) heq]
      refine linear_of_desiredOf h ?_
      unfold desiredOf
      rw [hdesired]
  | updateDesiredState update =>
    refine iff_of_true ?_ trivial
    obtain ⟨e, heq⟩ | ⟨s', heq, ⟨d, hstored, hnext⟩, hdesired⟩ := update_cases update s
    · rw [tracked_next history (.updateDesiredState update) heq]
      exact h
    · rw [tracked_next history (.updateDesiredState update) heq]
      change Linear id base (s', if update.id = id then _ else history)
      by_cases hid : update.id = id
      · rw [if_pos hid]
        obtain ⟨d', hstored', hversion, -⟩ := h
        rw [hid] at hstored
        obtain rfl := Option.some_inj.mp (hstored.symm.trans hstored')
        refine ⟨update.next, by rw [hdesired id, if_pos hid.symm], ?_, fun next hlast => ?_⟩
        · dsimp only at hversion ⊢
          omega
        · exact Option.some_inj.mp hlast
      · rw [if_neg hid]
        refine linear_of_desiredOf h ?_
        rw [hdesired id, if_neg fun h => hid h.symm]

theorem accepted_next {k : ℕ} (tracked : ApplicationDb × DesiredHistory) (tx : ApplicationTx)
    (h : k ≤ tracked.2.accepted) : k ≤ ((trackedMachine id).next tracked tx).2.accepted := by
  change k ≤ (tracked.2.record id tx _).accepted
  unfold DesiredHistory.record
  split
  · split_ifs
    · exact Nat.le_succ_of_le h
    · exact h
  · exact h

/-- In every state of the run the desired state is linear, and so its version never decreases. -/
def LinearRun (id : ApplicationId) (s : ApplicationDb) (base : ℕ) (txs : List ApplicationTx) :
    Prop :=
  (∀ n, Linear id base ((trackedMachine id).run (s, ⟨0, none⟩) (txs.take n))) ∧
  ∀ n m, n ≤ m → ∀ d d',
    desiredOf ((trackedMachine id).run (s, ⟨0, none⟩) (txs.take n)).1 id = some d →
    desiredOf ((trackedMachine id).run (s, ⟨0, none⟩) (txs.take m)).1 id = some d' →
    d.version ≤ d'.version

/-- **The desired state is linear**, exactly: for every order of the transactions of any clients, on
an application that is stored, it is so in every state that is reached if and only if every save
that is taken carries what is stored. A transaction that fails leaves everything as it was. -/
theorem desired_linear_exact (id : ApplicationId) (s : ApplicationDb) (d : DesiredState)
    (hstored : desiredOf s id = some d) (txs : List ApplicationTx) :
    (LinearRun id s d.version txs ↔
      (trackedMachine id).Guarded (SaveAgrees id) (s, ⟨0, none⟩) txs) ∧
    ∀ (found : ApplicationDb) (tx : ApplicationTx) (e : Fault ControlPlaneError),
      applicationMachine.answer found tx = .error e → applicationMachine.next found tx = found := by
  refine ⟨?_, fun found tx e => failed_unchanged found tx⟩
  have hstart : Linear id d.version (s, ⟨0, none⟩) := ⟨d, hstored, rfl, by nofun⟩
  have hexact := (trackedMachine id).forall_run_take_iff_guarded (H := fun _ _ => True)
    (G := SaveAgrees id) (I := Linear id d.version) (P := Linear id d.version)
    (fun _ h => h) (fun _ _ h _ => (linear_next h).mpr) (fun _ _ h _ => (linear_next h).mp)
    (s, ⟨0, none⟩) txs hstart ((trackedMachine id).guarded_true _ _)
  rw [← hexact]
  refine ⟨And.left, fun hlinear => ⟨hlinear, fun n m hle d₁ d₂ h₁ h₂ => ?_⟩⟩
  obtain ⟨found₁, hfound₁, hversion₁, -⟩ := hlinear n
  obtain ⟨found₂, hfound₂, hversion₂, -⟩ := hlinear m
  obtain rfl := Option.some_inj.mp (hfound₁.symm.trans h₁)
  obtain rfl := Option.some_inj.mp (hfound₂.symm.trans h₂)
  have haccepted := (trackedMachine id).run_take_le
    (P := fun tracked =>
      ((trackedMachine id).run (s, ⟨0, none⟩) (txs.take n)).2.accepted ≤ tracked.2.accepted)
    (fun tracked tx => accepted_next tracked tx) (s, ⟨0, none⟩) txs hle le_rfl
  omega

end Linear

/-! ### One application and two clients -/

def initialState : DesiredState := ⟨1, [], .null⟩

def scaledState : DesiredState := ⟨2, [], .object [("replicas", .number 2)]⟩

def smallAggregate (desired : DesiredState) : Aggregate where
  record := ⟨⟨smallApplication, "web", .importedLocal ".", "human"⟩, .draft, 0, 0, none, [],
    .object []⟩
  environments := [⟨⟨⟨1⟩, smallApplication, "development"⟩, .object [], .object []⟩]
  desiredState := desired
  observedState := ⟨1, .unknown, 0, none⟩

def aggregateDb : ApplicationDb :=
  (PgApplicationStore.saveAggregate (smallAggregate initialState)
    ⟨.empty, .empty, .empty, .empty, [], []⟩).1

/-- An update from version 1 to `scaledState`. -/
def scaleUp : DesiredUpdate where
  id := smallApplication
  expectedVersion := 1
  next := scaledState
  event := .new 1 (.human "ada") (.new "trace-1") .reconciled .accepted
  auditDetail := "two replicas"
  updatedBy := "ada"
  secrets := []
  now := 1

/-- An update, then a save of what it has stored. -/
theorem desired_linear_exact_saved :
    desiredOf aggregateDb smallApplication = some initialState ∧
      LinearRun smallApplication aggregateDb 1
        [.updateDesiredState scaleUp, .save (smallAggregate scaledState)] := by
  have hstored : desiredOf aggregateDb smallApplication = some initialState := by decide +kernel
  refine ⟨hstored, (desired_linear_exact smallApplication aggregateDb initialState hstored
    _).1.mpr ⟨trivial, fun _ _ d hd => ?_, trivial⟩⟩
  have hupdated : desiredOf ((trackedMachine smallApplication).next (aggregateDb, ⟨0, none⟩)
      (.updateDesiredState scaleUp)).1 smallApplication = some scaledState := by decide +kernel
  obtain rfl := Option.some_inj.mp (hupdated.symm.trans hd)
  exact ⟨rfl, fun _ => rfl⟩

/-- One client's update is accepted; another one saves what it had read before: version and desired
state are the old ones again. -/
theorem stale_save_overwrites :
    let txs := [ApplicationTx.updateDesiredState scaleUp, .save (smallAggregate initialState)]
    let updated := applicationMachine.run aggregateDb (txs.take 1)
    let saved := applicationMachine.run aggregateDb txs
    applicationMachine.answers aggregateDb txs = [.ok (), .ok ()] ∧
    desiredOf updated smallApplication = some scaledState ∧
    desiredOf saved smallApplication = some initialState ∧
    ¬ LinearRun smallApplication aggregateDb 1 txs := by
  refine ⟨by decide +kernel, by decide +kernel, by decide +kernel, fun h => ?_⟩
  have hdecreased := h.2 1 2 (by decide) scaledState initialState (by decide +kernel)
    (by decide +kernel)
  exact absurd hdecreased (by decide)

end Labrys.ControlPlane
