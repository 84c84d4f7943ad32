import Labrys.Core.Capability
import Labrys.Core.SecretRuns
import Labrys.Foundations.Program
import Mathlib.Data.List.Forall2

/-! # Bindings injected into a runtime

A binding names the environment variables of a runtime and where each comes from. Those that come
from sealed secrets are injected together, for a grant that names one application and one of its
environments; the first that cannot be revealed fails them all.

* `SecretStore.injectBinding`: the loop over a binding's contract.
* `SecretMap.held_run`: what is held under a reference after a run.
* `binding_injection`: what a binding gets from any store a run reaches, and that it depends on the
  operations alone that write to the references it names. -/

namespace Labrys.Core
open Foundations
set_option autoImplicit false

/-! ## Contracts -/

inductive EnvSource
  | literal (value : String)
  | secretRef (refId : String)
  | resourceField (field : String)
deriving DecidableEq

/-- Variables in the order of their names. -/
abbrev EnvContract := Std.TreeMap String EnvSource

/-- A binding with its environment contract. -/
structure EnvBinding extends Binding where
  env : EnvContract

namespace EnvBinding

def secretRefs (binding : EnvBinding) : List String :=
  binding.env.toList.filterMap fun entry =>
    match entry.2 with
    | .secretRef refId => some refId
    | _ => none

def generic (key capability providerKey : String) (env : List (String × EnvSource)) :
    EnvBinding where
  key := key
  capability := capability
  provider := providerKey
  version := 1
  kind := .generic
  env := .ofList env

end EnvBinding

def genericPostgresBinding (providerKey : String) : EnvBinding :=
  .generic "postgres.generic" "database.postgres" providerKey
    [("DATABASE_URL", .secretRef s!"{providerKey}.database_url")]

def genericObjectStorageBinding (providerKey : String) : EnvBinding :=
  .generic "object-storage.generic" "storage.object" providerKey
    [("OBJECT_STORAGE_URL", .resourceField "endpoint"),
      ("OBJECT_STORAGE_BUCKET", .resourceField "bucket"),
      ("OBJECT_STORAGE_ACCESS_KEY", .secretRef s!"{providerKey}.access_key"),
      ("OBJECT_STORAGE_SECRET_KEY", .secretRef s!"{providerKey}.secret_key")]

def genericAuthBinding (providerKey : String) : EnvBinding :=
  .generic "auth.generic" "auth" providerKey
    [("AUTH_URL", .resourceField "issuer"),
      ("AUTH_SECRET_KEY", .secretRef s!"{providerKey}.signing_key")]

def genericFileStorageBinding (providerKey : String) : EnvBinding :=
  .generic "file-storage.generic" "storage.file" providerKey
    [("FILE_STORAGE_URL", .resourceField "root"),
      ("FILE_STORAGE_TOKEN", .secretRef s!"{providerKey}.token")]

/-! ## Injection -/

namespace SecretStore
variable (C : SecretCipher) (store : SecretStore) (grant : InjectionGrant)

def injectEnv : List (String × EnvSource) → Outcome CoreError (List (String × String))
  | [] => .ok []
  | (name, .secretRef refId) :: rest => do
      let value ← store.inject C grant refId
      let out ← injectEnv rest
      return (name, value) :: out
  | _ :: rest => injectEnv rest

/-- The variables and their values, in the order of their names. -/
def injectBinding (binding : EnvBinding) : Outcome CoreError (List (String × String)) :=
  store.injectEnv C grant binding.env.toList

end SecretStore

/-- The variables that come from secrets, with their references. -/
def secretEntries (env : List (String × EnvSource)) : List (String × String) :=
  env.filterMap fun entry =>
    match entry.2 with
    | .secretRef refId => some (entry.1, refId)
    | _ => none

/-! ## What a reference holds -/

/-- The operation writes to the reference. -/
def SecretOp.writesTo (refId : String) : SecretOp → Bool
  | .put other .. => decide (other = refId)
  | .replace other .. => decide (other = refId)
  | .delete other .. => decide (other = refId)
  | _ => false

/-- What a write makes of the value and the scope that are held. -/
def SecretOp.write (held : Option (String × InjectionGrant)) :
    SecretOp → Option (String × InjectionGrant)
  | .put refId value scope .. => if isBlank refId.toList then held else some (value, scope)
  | .replace refId newValue grant approval .. =>
      if (grant.production = true → approval.isNamedGrant = true) ∧ held ≠ none ∧
          isBlank refId.toList = false then
        some (newValue, grant)
      else held
  | .delete .. => none
  | _ => held

/-- What is held under a reference after the operations that write to it. -/
def written (refId : String) (ops : List SecretOp) : Option (String × InjectionGrant) :=
  (ops.filter (SecretOp.writesTo refId)).foldl SecretOp.write none

namespace SecretMap

def held (m : SecretMap) (refId : String) : Option (String × InjectionGrant) :=
  (m refId).map fun entry => (entry.value, entry.scope)

/-- No version is above the number. -/
def VersionsUpTo (n : ℕ) (m : SecretMap) : Prop :=
  ∀ refId entry, m refId = some entry → entry.version ≤ n

/-- There is room for a next version everywhere. -/
def Roomy (m : SecretMap) : Prop := ∀ refId, m.Room refId

theorem next_of_accepts {m : SecretMap} {op : SecretOp} (h : m.Accepts op) :
    secretMap.next m op = m.effect op := by
  rw [Machine.next, secretMap_step_of_accepts h]

theorem next_of_refuses {m : SecretMap} {op : SecretOp} (h : ¬ m.Accepts op) :
    secretMap.next m op = m := by
  rw [Machine.next, secretMap_step_of_refuses h]

theorem held_update (m : SecretMap) (refId : String) (entry : Option SecretEntry) :
    held (Function.update m refId entry) refId = entry.map fun e => (e.value, e.scope) := by
  rw [held, Function.update_self]

theorem held_update_of_ne (m : SecretMap) {refId other : String} (h : refId ≠ other)
    (entry : Option SecretEntry) : held (Function.update m other entry) refId = m.held refId := by
  rw [held, Function.update_of_ne h]
  rfl

theorem VersionsUpTo.nextVersion_le {m : SecretMap} {n : ℕ} (h : VersionsUpTo n m)
    (refId : String) : m.nextVersion refId ≤ n + 1 := by
  unfold nextVersion
  cases hentry : m refId with
  | none => simp
  | some entry => simpa using h refId entry hentry

/-- One entry is replaced by one of a version that is not too high. -/
theorem VersionsUpTo.update {m : SecretMap} {n : ℕ} (h : VersionsUpTo n m) (refId : String)
    {entry : Option SecretEntry} (hentry : ∀ e, entry = some e → e.version ≤ n + 1) :
    VersionsUpTo (n + 1) (Function.update m refId entry) := by
  intro other e he
  rw [Function.update_apply] at he
  split at he
  · exact hentry e he
  · exact Nat.le_succ_of_le (h other e he)

theorem VersionsUpTo.bump {m : SecretMap} {n : ℕ} (h : VersionsUpTo n m) {refId : String}
    {e : SecretEntry} (he : (m refId).map SecretMap.bump = some e) : e.version ≤ n + 1 := by
  obtain ⟨old, hold, rfl⟩ := Option.map_eq_some_iff.mp he
  exact Nat.succ_le_succ (h refId old hold)

/-- An operation raises versions by one at most. -/
theorem versionsUpTo_next {m : SecretMap} {n : ℕ} (h : VersionsUpTo n m) (op : SecretOp) :
    VersionsUpTo (n + 1) (secretMap.next m op) := by
  by_cases haccepts : m.Accepts op
  · rw [next_of_accepts haccepts]
    cases op with
    | put refId value scope actor time nonce =>
      refine h.update refId fun e he => ?_
      rw [← Option.some_inj.mp he]
      exact h.nextVersion_le refId
    | replace refId newValue grant approval actor time nonce =>
      refine h.update refId fun e he => ?_
      rw [← Option.some_inj.mp he]
      exact h.nextVersion_le refId
    | rotate refId approval actor time nonce => exact h.update refId fun e he => h.bump he
    | rotateKey newKey approval actor time nonces => exact fun refId e he => h.bump he
    | delete refId actor time => exact h.update refId fun e he => by cases he
    | inject grant refId => exact fun refId e he => Nat.le_succ_of_le (h refId e he)
  · rw [next_of_refuses haccepts]
    exact fun refId e he => Nat.le_succ_of_le (h refId e he)

/-- A run that is shorter than the versions are many finds room at every step. -/
theorem guarded_roomy (ops : List SecretOp) {m : SecretMap} {n : ℕ} (h : VersionsUpTo n m)
    (hlength : n + ops.length ≤ u64Max) : secretMap.Guarded (fun m _ => m.Roomy) m ops := by
  induction ops generalizing m n with
  | nil => trivial
  | cons op ops ih =>
    rw [List.length_cons] at hlength
    refine ⟨fun refId entry hentry => ?_, ih (versionsUpTo_next h op) (by omega)⟩
    have hversion := h refId entry hentry
    omega

/-- An operation that does not write to a reference leaves what it holds. -/
theorem held_next_of_not_writesTo {m : SecretMap} {op : SecretOp} {refId : String}
    (h : op.writesTo refId = false) : (secretMap.next m op).held refId = m.held refId := by
  by_cases haccepts : m.Accepts op
  · rw [next_of_accepts haccepts]
    have hbump : ∀ entry : Option SecretEntry,
        ((entry.map bump).map fun entry => (entry.value, entry.scope)) =
          entry.map fun entry => (entry.value, entry.scope) := by
      intro entry
      cases entry <;> rfl
    cases op with
    | put other value scope actor time nonce =>
      have hne : refId ≠ other := fun heq => of_decide_eq_false h heq.symm
      exact held_update_of_ne m hne _
    | replace other newValue grant approval actor time nonce =>
      have hne : refId ≠ other := fun heq => of_decide_eq_false h heq.symm
      exact held_update_of_ne m hne _
    | delete other actor time =>
      have hne : refId ≠ other := fun heq => of_decide_eq_false h heq.symm
      exact held_update_of_ne m hne _
    | rotate other approval actor time nonce =>
      by_cases heq : refId = other
      · subst heq
        exact (held_update m refId _).trans (hbump _)
      · exact held_update_of_ne m heq _
    | rotateKey newKey approval actor time nonces => exact hbump _
    | inject grant other => rfl
  · rw [next_of_refuses haccepts]

/-- An operation that writes to a reference, where there is room for its version. -/
theorem held_next_of_writesTo {m : SecretMap} (hroomy : m.Roomy) {op : SecretOp} {refId : String}
    (h : op.writesTo refId = true) :
    (secretMap.next m op).held refId = op.write (m.held refId) := by
  have hheld : m.held refId ≠ none ↔ m refId ≠ none := by
    unfold held
    simp
  cases op with
  | put other value scope actor time nonce =>
    obtain rfl : other = refId := of_decide_eq_true h
    by_cases hblank : isBlank other.toList = true
    · rw [next_of_refuses fun haccepts => by simp [haccepts.1] at hblank]
      exact (if_pos hblank).symm
    · have haccepts : m.Accepts (.put other value scope actor time nonce) :=
        ⟨by simpa using hblank, hroomy other⟩
      rw [next_of_accepts haccepts]
      exact (held_update m other _).trans (if_neg hblank).symm
  | replace other newValue grant approval actor time nonce =>
    obtain rfl : other = refId := of_decide_eq_true h
    by_cases haccepts : m.Accepts (.replace other newValue grant approval actor time nonce)
    · rw [next_of_accepts haccepts]
      obtain ⟨hgrant, hstored, hblank, -⟩ := haccepts
      exact (held_update m other _).trans (if_pos ⟨hgrant, hheld.mpr hstored, hblank⟩).symm
    · rw [next_of_refuses haccepts]
      refine (if_neg fun hwrite => haccepts ?_).symm
      exact ⟨hwrite.1, hheld.mp hwrite.2.1, hwrite.2.2, hroomy other⟩
  | delete other actor time =>
    obtain rfl : other = refId := of_decide_eq_true h
    by_cases haccepts : m.Accepts (.delete other actor time)
    · rw [next_of_accepts haccepts]
      exact held_update m other none
    · rw [next_of_refuses haccepts]
      have hnone : m other = none := not_ne_iff.mp haccepts
      change m.held other = none
      rw [held, hnone]
      rfl
  | _ => cases h

/-- **What a reference holds** after a run is what the operations that write to it left there. -/
theorem held_run (ops : List SecretOp) (hlength : ops.length ≤ u64Max) (refId : String) :
    (secretMap.run .empty ops).held refId = written refId ops :=
  secretMap.view_run_filter (fun m => m.held refId) (fun _ _ _ h => held_next_of_not_writesTo h)
    (fun _ _ hroomy h => held_next_of_writesTo hroomy h) .empty ops
    (guarded_roomy ops (n := 0) (fun _ _ h => by cases h) (by omega))

end SecretMap

/-! ## What a binding gets -/

/-- A variable gets the value last written under its reference, for the environment of the grant. -/
def Supplies (ops : List SecretOp) (grant : InjectionGrant) (entry pair : String × String) : Prop :=
  pair.1 = entry.1 ∧ ∃ scope, written entry.2 ops = some (pair.2, scope) ∧
    scope.applicationId = grant.applicationId ∧ scope.environmentName = grant.environmentName

section Inject
variable {C : SecretCipher} (hideal : C.chacha20Poly1305.Ideal)
include hideal

theorem inject_run_iff (masterKey : MasterKey) {ops : List SecretOp}
    (hlength : ops.length ≤ u64Max) (grant : InjectionGrant) (refId value : String) :
    ((secretStore C).run (.new masterKey) ops).inject C grant refId = .ok value ↔
      ∃ scope, written refId ops = some (value, scope) ∧
        scope.applicationId = grant.applicationId ∧
        scope.environmentName = grant.environmentName := by
  obtain ⟨-, hminted, hview⟩ := simulation hideal masterKey ops
  rw [inject_eq_ok_iff hideal hminted, hview, ← SecretMap.held_run ops hlength refId]
  unfold SecretMap.held
  simp only [Option.map_eq_some_iff, Prod.mk.injEq]
  constructor
  · rintro ⟨entry, hentry, rfl, happlication, henvironment⟩
    exact ⟨entry.scope, ⟨entry, hentry, rfl, rfl⟩, happlication, henvironment⟩
  · rintro ⟨scope, ⟨entry, hentry, rfl, rfl⟩, happlication, henvironment⟩
    exact ⟨entry, hentry, rfl, happlication, henvironment⟩

theorem injectEnv_iff (masterKey : MasterKey) {ops : List SecretOp}
    (hlength : ops.length ≤ u64Max) (grant : InjectionGrant) (env : List (String × EnvSource))
    (out : List (String × String)) :
    ((secretStore C).run (.new masterKey) ops).injectEnv C grant env = .ok out ↔
      List.Forall₂ (Supplies ops grant) (secretEntries env) out := by
  induction env generalizing out with
  | nil =>
    change Except.ok [] = Except.ok out ↔ List.Forall₂ _ [] out
    rw [List.forall₂_nil_left_iff, Except.ok.injEq, eq_comm]
  | cons entry env ih =>
    obtain ⟨name, source⟩ := entry
    cases source with
    | secretRef refId =>
      change (do
        let value ← ((secretStore C).run (.new masterKey) ops).inject C grant refId
        let out ← ((secretStore C).run (.new masterKey) ops).injectEnv C grant env
        return (name, value) :: out) = .ok out ↔
          List.Forall₂ _ ((name, refId) :: secretEntries env) out
      rw [List.forall₂_cons_left_iff]
      constructor
      · intro h
        obtain ⟨value, hvalue, h⟩ := except_bind_eq_ok h
        obtain ⟨rest, hrest, h⟩ := except_bind_eq_ok h
        obtain rfl := Except.ok.inj h
        exact ⟨(name, value), rest, ⟨rfl, (inject_run_iff hideal masterKey hlength grant refId
          value).mp hvalue⟩, (ih rest).mp hrest, rfl⟩
      · rintro ⟨⟨name', value⟩, rest, ⟨hname, hsupplied⟩, hrest, rfl⟩
        obtain rfl : name' = name := hname
        rw [(inject_run_iff hideal masterKey hlength grant refId value).mpr hsupplied,
          (ih rest).mpr hrest]
        rfl
    | literal value => exact ih out
    | resourceField field => exact ih out

end Inject

theorem forall₂_congr_left {α β : Type} {R S : α → β → Prop} {as : List α} {bs : List β}
    (h : ∀ a ∈ as, ∀ b, R a b ↔ S a b) : List.Forall₂ R as bs ↔ List.Forall₂ S as bs := by
  induction as generalizing bs with
  | nil => rw [List.forall₂_nil_left_iff, List.forall₂_nil_left_iff]
  | cons a as ih =>
    cases bs with
    | nil => rw [List.forall₂_nil_right_iff, List.forall₂_nil_right_iff]
    | cons b bs =>
      rw [List.forall₂_cons, List.forall₂_cons, h a List.mem_cons_self,
        ih fun c hc => h c (List.mem_cons_of_mem a hc)]

/-- **Injection.** In the store any run reaches, a binding is injected exactly if every reference it
names holds a value for the grant's application and environment, and each variable gets the value
last written there. Two stores, of whatever keys, that the same operations wrote to under these
references inject the same. -/
theorem binding_injection (C : SecretCipher) (hideal : C.chacha20Poly1305.Ideal)
    (masterKey : MasterKey) (ops : List SecretOp) (hlength : ops.length ≤ u64Max)
    (grant : InjectionGrant) (binding : EnvBinding) :
    (∀ out, ((secretStore C).run (.new masterKey) ops).injectBinding C grant binding = .ok out ↔
      List.Forall₂ (Supplies ops grant) (secretEntries binding.env.toList) out) ∧
    ∀ (otherKey : MasterKey) (others : List SecretOp), others.length ≤ u64Max →
      (∀ refId ∈ binding.secretRefs,
        others.filter (SecretOp.writesTo refId) = ops.filter (SecretOp.writesTo refId)) →
      ∀ out, ((secretStore C).run (.new otherKey) others).injectBinding C grant binding = .ok out ↔
        ((secretStore C).run (.new masterKey) ops).injectBinding C grant binding = .ok out := by
  refine ⟨fun out => injectEnv_iff hideal masterKey hlength grant _ out, ?_⟩
  intro otherKey others hothers hsame out
  have hsupplies : ∀ entry ∈ secretEntries binding.env.toList, ∀ pair,
      Supplies others grant entry pair ↔ Supplies ops grant entry pair := by
    intro entry hentry pair
    have hmem : entry.2 ∈ binding.secretRefs := by
      obtain ⟨source, hsource, hpair⟩ := List.mem_filterMap.mp hentry
      refine List.mem_filterMap.mpr ⟨source, hsource, ?_⟩
      cases hkind : source.2 with
      | secretRef refId =>
        rw [hkind] at hpair
        rw [← Option.some_inj.mp hpair]
      | literal value => simp [hkind] at hpair
      | resourceField field => simp [hkind] at hpair
    unfold Supplies written
    rw [hsame entry.2 hmem]
  unfold SecretStore.injectBinding
  rw [injectEnv_iff hideal otherKey hothers, injectEnv_iff hideal masterKey hlength]
  exact forall₂_congr_left hsupplies

def storeDatabaseUrl : SecretOp :=
  .put "pg.database_url" "postgres://db" stagingGrant "ada" 0 (Vector.replicate 12 7)

theorem postgres_binding_injected :
    plainCipher.chacha20Poly1305.Ideal ∧
      ((secretStore plainCipher).run (.new plainKey) [storeDatabaseUrl]).injectBinding
        plainCipher stagingGrant (genericPostgresBinding "pg") =
        .ok [("DATABASE_URL", "postgres://db")] := by
  have hideal : plainCipher.chacha20Poly1305.Ideal := Aead.ideal_plain 32 12
  refine ⟨hideal, ?_⟩
  have hinjects := (binding_injection plainCipher hideal plainKey [storeDatabaseUrl] (by decide)
    stagingGrant (genericPostgresBinding "pg")).1
  refine (hinjects _).mpr ?_
  have hentries : secretEntries (genericPostgresBinding "pg").env.toList =
      [("DATABASE_URL", "pg.database_url")] := rfl
  rw [hentries]
  refine .cons ⟨rfl, stagingGrant, ?_, rfl, rfl⟩ .nil
  decide

end Labrys.Core
