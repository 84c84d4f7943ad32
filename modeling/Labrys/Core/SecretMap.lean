import Mathlib.Data.Set.Card
import Mathlib.Logic.Function.Basic
import Labrys.Core.SecretStore

/-! # The secret store as a plain map

What the store is for, without keys and envelopes: a map from references to a value, the environment
it is scoped to, and a version. With an ideal cipher one operation of the store is one operation of
this map.

* `secretMap`: the machine of the map; an operation it does not accept changes nothing.
* `SecretStore.view`: the map a store stands for.
* `SecretStore.Minted`: every stored envelope was sealed under the active key for its own reference.
* `SecretStore.simulated_apply`: one operation of a minted store is one operation of its map.
* `SecretStore.apply_of_refused`: an operation that fails changes nothing. -/

namespace Labrys.Core
open Foundations
set_option autoImplicit false

/-! ## Operations -/

inductive SecretOp
  | put (refId value : String) (scope : InjectionGrant) (actor : String) (time : DateTime)
      (nonce : Nonce)
  | replace (refId newValue : String) (grant : InjectionGrant) (approval : ExplicitApproval)
      (actor : String) (time : DateTime) (nonce : Nonce)
  | rotate (refId : String) (approval : ExplicitApproval) (actor : String) (time : DateTime)
      (nonce : Nonce)
  | rotateKey (newKey : MasterKey) (approval : ExplicitApproval) (actor : String)
      (time : DateTime) (nonces : String → Nonce)
  | delete (refId actor : String) (time : DateTime)
  | inject (grant : InjectionGrant) (refId : String)

inductive SecretAnswer
  | put (result : Outcome CoreError SealedSecret)
  | replace (result : Outcome CoreError SecretAudit)
  | rotate (result : Outcome CoreError ℕ)
  | rotateKey (result : Outcome CoreError ℕ)
  | delete (result : Outcome CoreError Unit)
  | inject (result : Outcome CoreError String)

def SecretStore.apply (C : SecretCipher) (store : SecretStore) :
    SecretOp → SecretStore × SecretAnswer
  | .put refId value scope actor time nonce =>
      answered .put (store.put C refId value scope actor time nonce)
  | .replace refId newValue grant approval actor time nonce =>
      answered .replace (store.replace C refId newValue grant approval actor time nonce)
  | .rotate refId approval actor time nonce =>
      answered .rotate (store.rotate C refId approval actor time nonce)
  | .rotateKey newKey approval actor time nonces =>
      answered .rotateKey (store.rotateKey C newKey approval actor time nonces)
  | .delete refId actor time => answered .delete (store.delete refId actor time)
  | .inject grant refId => (store, .inject (store.inject C grant refId))

def secretStore (C : SecretCipher) : Machine SecretStore SecretOp SecretAnswer :=
  ⟨SecretStore.apply C⟩

/-! ## The map -/

structure SecretEntry where
  value : String
  scope : InjectionGrant
  version : ℕ

/-- What a caller of the map learns. -/
inductive MapAnswer
  | refused
  | done
  | version (version : ℕ)
  | count (references : ℕ)
  | value (value : String)

def SecretAnswer.view : SecretAnswer → MapAnswer
  | .put (.ok sealed) => .version sealed.version
  | .replace (.ok audit) => .version audit.version
  | .rotate (.ok version) => .version version
  | .rotateKey (.ok references) => .count references
  | .delete (.ok ()) => .done
  | .inject (.ok value) => .value value
  | .put (.error _) | .replace (.error _) | .rotate (.error _) | .rotateKey (.error _)
  | .delete (.error _) | .inject (.error _) => .refused

abbrev SecretMap := String → Option SecretEntry

namespace SecretMap

def empty : SecretMap := fun _ => none

variable (m : SecretMap)

/-- A version is left for the reference. -/
def Room (refId : String) : Prop := ∀ entry, m refId = some entry → entry.version < u64Max

def nextVersion (refId : String) : ℕ := ((m refId).map (·.version)).getD 0 + 1

/-- The entry under its next version. -/
def bump (entry : SecretEntry) : SecretEntry := { entry with version := entry.version + 1 }

/-- When an operation is carried out. -/
def Accepts : SecretOp → Prop
  | .put refId _ _ _ _ _ => isBlank refId.toList = false ∧ m.Room refId
  | .replace refId _ grant approval _ _ _ =>
      (grant.production = true → approval.isNamedGrant = true) ∧ m refId ≠ none ∧
        isBlank refId.toList = false ∧ m.Room refId
  | .rotate refId approval _ _ _ => ∃ entry, m refId = some entry ∧
      (entry.scope.production = true → approval.isNamedGrant = true) ∧ entry.version < u64Max
  | .rotateKey _ approval _ _ _ =>
      ((∃ refId entry, m refId = some entry ∧ entry.scope.production = true) →
        approval.isNamedGrant = true) ∧ ∀ refId, m.Room refId
  | .delete refId _ _ => m refId ≠ none
  | .inject grant refId => ∃ entry, m refId = some entry ∧
      entry.scope.applicationId = grant.applicationId ∧
        entry.scope.environmentName = grant.environmentName

/-- What an accepted operation makes of the map. -/
def effect : SecretOp → SecretMap
  | .put refId value scope _ _ _ =>
      Function.update m refId (some ⟨value, scope, m.nextVersion refId⟩)
  | .replace refId newValue grant _ _ _ _ =>
      Function.update m refId (some ⟨newValue, grant, m.nextVersion refId⟩)
  | .rotate refId _ _ _ _ => Function.update m refId ((m refId).map bump)
  | .rotateKey _ _ _ _ _ => fun refId => (m refId).map bump
  | .delete refId _ _ => Function.update m refId none
  | .inject _ _ => m

/-- What an accepted operation answers. -/
noncomputable def answer : SecretOp → MapAnswer
  | .put refId _ _ _ _ _ => .version (m.nextVersion refId)
  | .replace refId _ _ _ _ _ _ => .version (m.nextVersion refId)
  | .rotate refId _ _ _ _ => .version (m.nextVersion refId)
  | .rotateKey _ _ _ _ _ => .count (Set.ncard {refId | m refId ≠ none})
  | .delete _ _ _ => .done
  | .inject _ refId => .value (((m refId).map (·.value)).getD "")

end SecretMap

open Classical in
noncomputable def secretMap : Machine SecretMap SecretOp MapAnswer where
  step := fun m op => if m.Accepts op then (m.effect op, m.answer op) else (m, .refused)

theorem secretMap_step_of_accepts {m : SecretMap} {op : SecretOp} (h : m.Accepts op) :
    secretMap.step m op = (m.effect op, m.answer op) := if_pos h

theorem secretMap_step_of_refuses {m : SecretMap} {op : SecretOp} (h : ¬ m.Accepts op) :
    secretMap.step m op = (m, .refused) := if_neg h

/-! ## The map of a store -/

namespace SecretStore
variable (C : SecretCipher)

/-- The map a store stands for: what opens under the active key. -/
def view (store : SecretStore) : SecretMap := fun refId =>
  store.secrets[refId]?.bind fun sealed =>
    (openSecret C store.masterKey sealed).map fun value => ⟨value, sealed.scope, sealed.version⟩

/-- Every stored envelope was sealed under the active key for its own reference and version. -/
def Minted (store : SecretStore) : Prop :=
  ∀ refId sealed, store.secrets[refId]? = some sealed →
    ∃ value, sealed = envelope C store.masterKey refId sealed.version sealed.scope value sealed.nonce

theorem minted_new (masterKey : MasterKey) : (new masterKey).Minted C := by
  intro refId sealed h
  simp [new] at h

theorem view_new (masterKey : MasterKey) : (new masterKey).view C = .empty := by
  funext refId
  simp [view, new, SecretMap.empty]

variable {C} (hideal : C.chacha20Poly1305.Ideal) {store : SecretStore}
include hideal

/-- An envelope of a minted store opens, to what the map has under its reference. -/
theorem view_of_stored (h : store.Minted C) {refId : String} {sealed : SealedSecret}
    (hstored : store.secrets[refId]? = some sealed) :
    ∃ value, openSecret C store.masterKey sealed = some value ∧
      store.view C refId = some ⟨value, sealed.scope, sealed.version⟩ := by
  obtain ⟨value, hsealed⟩ := h refId sealed hstored
  have hopen : openSecret C store.masterKey sealed = some value := by
    rw [hsealed]
    exact openSecret_envelope hideal _ _ _ _ _ _
  refine ⟨value, hopen, ?_⟩
  rw [view, hstored, Option.bind_some, hopen, Option.map_some]

omit hideal in
/-- What the map has is the content of an envelope. -/
theorem stored_of_view {refId : String} {entry : SecretEntry}
    (hview : store.view C refId = some entry) :
    ∃ sealed, store.secrets[refId]? = some sealed ∧
      openSecret C store.masterKey sealed = some entry.value ∧
      sealed.scope = entry.scope ∧ sealed.version = entry.version := by
  obtain ⟨sealed, hstored, hentry⟩ := Option.bind_eq_some_iff.mp hview
  obtain ⟨value, hopen, rfl⟩ := Option.map_eq_some_iff.mp hentry
  exact ⟨sealed, hstored, hopen, rfl, rfl⟩

/-- One reference of a minted store. -/
theorem view_cases (h : store.Minted C) (refId : String) :
    (store.secrets[refId]? = none ∧ store.view C refId = none) ∨
      ∃ sealed value, store.secrets[refId]? = some sealed ∧
        openSecret C store.masterKey sealed = some value ∧
        store.view C refId = some ⟨value, sealed.scope, sealed.version⟩ := by
  cases hstored : store.secrets[refId]? with
  | none => exact .inl ⟨rfl, by rw [view, hstored, Option.bind_none]⟩
  | some sealed =>
    obtain ⟨value, hopen, hview⟩ := view_of_stored hideal h hstored
    exact .inr ⟨sealed, value, rfl, hopen, hview⟩

omit hideal in
/-- A fresh envelope under the active key. -/
theorem minted_insert (h : store.Minted C) (refId value : String) (version : ℕ)
    (scope : InjectionGrant) (nonce : Nonce) (audit : List SecretAudit) :
    Minted C { store with
      secrets := store.secrets.insert refId
        (envelope C store.masterKey refId version scope value nonce)
      audit := audit } := by
  intro other sealed hget
  rw [treeMap_getElem?_insert] at hget
  split_ifs at hget with hsame
  · obtain rfl := Option.some_inj.mp hget
    exact ⟨value, by rw [← hsame]; rfl⟩
  · exact h other sealed hget

theorem view_insert (refId value : String) (version : ℕ) (scope : InjectionGrant) (nonce : Nonce)
    (audit : List SecretAudit) :
    view C { store with
      secrets := store.secrets.insert refId
        (envelope C store.masterKey refId version scope value nonce)
      audit := audit } =
      Function.update (store.view C) refId (some ⟨value, scope, version⟩) := by
  funext other
  rw [Function.update_apply, view, treeMap_getElem?_insert]
  by_cases hsame : other = refId
  · rw [if_pos hsame.symm, if_pos hsame, Option.bind_some, openSecret_envelope hideal]
    rfl
  · rw [if_neg fun h => hsame h.symm, if_neg hsame]
    rfl

omit hideal in
theorem minted_erase (h : store.Minted C) (refId : String) (audit : List SecretAudit) :
    Minted C { store with secrets := store.secrets.erase refId, audit := audit } := by
  intro other sealed hget
  rw [treeMap_getElem?_erase] at hget
  split_ifs at hget
  exact h other sealed hget

omit hideal in
theorem view_erase (refId : String) (audit : List SecretAudit) :
    view C { store with secrets := store.secrets.erase refId, audit := audit } =
      Function.update (store.view C) refId none := by
  funext other
  rw [Function.update_apply, view, treeMap_getElem?_erase]
  by_cases hsame : other = refId
  · rw [if_pos hsame.symm, if_pos hsame, Option.bind_none]
  · rw [if_neg fun h => hsame h.symm, if_neg hsame]
    rfl

/-! ## Key rotation -/

variable (C) in
omit hideal in
/-- What the first loop of `rotate_key` keeps of an envelope that opens. -/
def plaintextOf (store : SecretStore) (stored : String × SealedSecret) : Plaintext :=
  ⟨stored.1, stored.2.version + 1, stored.2.scope,
    (openSecret C store.masterKey stored.2).getD ""⟩

omit hideal in
theorem openAll_eq_ok {stored : List (String × SealedSecret)}
    (h : ∀ p ∈ stored, (∃ value, openSecret C store.masterKey p.2 = some value) ∧
      p.2.version < u64Max) :
    store.openAll C stored = .ok (stored.map (store.plaintextOf C)) := by
  induction stored with
  | nil => rfl
  | cons p rest ih =>
    obtain ⟨⟨value, hopen⟩, hroom⟩ := h p List.mem_cons_self
    have hrest := ih fun q hq => h q (List.mem_cons_of_mem p hq)
    have henvelope : store.openEnvelope C p.2 = .ok value := by rw [openEnvelope, hopen]
    have hversion : nextVersion p.2.version = .ok (p.2.version + 1) := if_pos hroom
    simp only [openAll, henvelope, hversion, hrest, List.map_cons, plaintextOf, hopen,
      Option.getD_some]

omit hideal in
theorem openAll_error {stored : List (String × SealedSecret)}
    (h : ∃ p ∈ stored, ¬ p.2.version < u64Max) :
    ∃ fault, store.openAll C stored = .error fault := by
  induction stored with
  | nil =>
    obtain ⟨p, hp, -⟩ := h
    cases hp
  | cons p rest ih =>
    rw [openAll]
    cases store.openEnvelope C p.2 with
    | error fault => exact ⟨fault, rfl⟩
    | ok value =>
      by_cases hroom : p.2.version < u64Max
      · obtain ⟨q, hq, hfull⟩ := h
        have hrest : q ∈ rest := (List.mem_cons.mp hq).resolve_left fun heq => hfull (heq ▸ hroom)
        obtain ⟨fault, hfault⟩ := ih ⟨q, hrest, hfull⟩
        simp only [nextVersion, if_pos hroom, hfault]
        exact ⟨fault, rfl⟩
      · simp only [nextVersion, if_neg hroom]
        exact ⟨_, rfl⟩

variable (C) in
omit hideal in
/-- The second loop: the secrets of the store sealed anew. -/
def resealed (store : SecretStore) (newKey : MasterKey) (nonces : String → Nonce) :
    Std.TreeMap String SealedSecret :=
  store.secrets.insertMany
    ((store.secrets.toList.map (store.plaintextOf C)).map (·.reseal C newKey nonces))

/-- Every reference is sealed anew, and no other one appears. -/
theorem getElem?_resealed (h : store.Minted C) (newKey : MasterKey) (nonces : String → Nonce)
    (refId : String) :
    (store.resealed C newKey nonces)[refId]? = (store.view C refId).map fun entry =>
      envelope C newKey refId (entry.version + 1) entry.scope entry.value (nonces refId) := by
  obtain ⟨hnone, hview⟩ | ⟨sealed, value, hsome, hopen, hview⟩ := view_cases hideal h refId
  · have habsent : (((store.secrets.toList.map (store.plaintextOf C)).map
        (·.reseal C newKey nonces)).map Prod.fst).contains refId = false := by
      rw [List.contains_eq_mem, decide_eq_false_iff_not, List.map_map, List.map_map]
      intro hmem
      obtain ⟨p, hp, hkey⟩ := List.mem_map.mp hmem
      have hstored := Std.TreeMap.mem_toList_iff_getElem?_eq_some.mp hp
      rw [show p.1 = refId from hkey, hnone] at hstored
      cases hstored
    rw [hview, Option.map_none, resealed,
      Std.TreeMap.getElem?_insertMany_list_of_contains_eq_false habsent, hnone]
  · rw [hview, Option.map_some, resealed]
    have hmem := Std.TreeMap.mem_toList_iff_getElem?_eq_some.mpr hsome
    refine Std.TreeMap.getElem?_insertMany_list_of_mem Std.ReflOrd.compare_self ?_ ?_
    · rw [List.pairwise_map, List.pairwise_map]
      exact Std.TreeMap.distinct_keys_toList
    · rw [List.map_map]
      refine List.mem_map.mpr ⟨(refId, sealed), hmem, ?_⟩
      simp only [Function.comp_apply, plaintextOf, Plaintext.reseal, hopen, Option.getD_some]

theorem minted_resealed (h : store.Minted C) (newKey : MasterKey) (nonces : String → Nonce)
    (audit : List SecretAudit) : Minted C ⟨newKey, store.resealed C newKey nonces, audit⟩ := by
  intro refId sealed hget
  rw [getElem?_resealed hideal h, Option.map_eq_some_iff] at hget
  obtain ⟨entry, -, rfl⟩ := hget
  exact ⟨entry.value, rfl⟩

theorem view_resealed (h : store.Minted C) (newKey : MasterKey) (nonces : String → Nonce)
    (audit : List SecretAudit) :
    view C ⟨newKey, store.resealed C newKey nonces, audit⟩ =
      fun refId => (store.view C refId).map SecretMap.bump := by
  funext refId
  rw [view, getElem?_resealed hideal h]
  cases store.view C refId with
  | none => rfl
  | some entry =>
    rw [Option.map_some, Option.bind_some, openSecret_envelope hideal]
    rfl

/-- The number of secrets is the number of references of the map. -/
theorem length_toList_eq_ncard (h : store.Minted C) :
    store.secrets.toList.length = Set.ncard {refId | store.view C refId ≠ none} := by
  have hkeys : {refId | store.view C refId ≠ none} =
      ((store.secrets.toList.map Prod.fst).toFinset : Set String) := by
    ext refId
    rw [Set.mem_ofPred_eq, Finset.mem_coe, List.mem_toFinset, List.mem_map]
    obtain ⟨hnone, hview⟩ | ⟨sealed, value, hsome, -, hview⟩ := view_cases hideal h refId
    · refine iff_of_false (fun hne => hne hview) ?_
      rintro ⟨p, hp, rfl⟩
      rw [Std.TreeMap.mem_toList_iff_getElem?_eq_some.mp hp] at hnone
      cases hnone
    · refine iff_of_true (by rw [hview]; simp) ?_
      exact ⟨_, Std.TreeMap.mem_toList_iff_getElem?_eq_some.mpr hsome, rfl⟩
  have hnodup : (store.secrets.toList.map Prod.fst).Nodup := by
    rw [List.Nodup, List.pairwise_map]
    refine Std.TreeMap.distinct_keys_toList.imp fun {a b} hne heq => hne ?_
    rw [heq]
    exact Std.ReflOrd.compare_self
  rw [hkeys, Set.ncard_coe_finset, List.toFinset_card_of_nodup hnodup, List.length_map]

/-! ## One operation -/

variable (C) in
omit hideal in
/-- A result stands for what the map makes of the operation: it is carried out and gives the map's
effect and answer, or it is refused and nothing changes. -/
def Simulated (store : SecretStore) (op : SecretOp) (result : SecretStore × SecretAnswer) : Prop :=
  ((store.view C).Accepts op ∧ result.1.Minted C ∧
      result.1.view C = (store.view C).effect op ∧ result.2.view = (store.view C).answer op) ∨
    (¬ (store.view C).Accepts op ∧ result.1 = store ∧ result.2.view = .refused)

theorem mintVersion_cases (h : store.Minted C) (refId : String) :
    ((store.view C).Room refId ∧
        store.mintVersion refId = .ok ((store.view C).nextVersion refId)) ∨
      (¬ (store.view C).Room refId ∧ ∃ fault, store.mintVersion refId = .error fault) := by
  unfold SecretMap.Room SecretMap.nextVersion mintVersion
  obtain ⟨hnone, hview⟩ | ⟨sealed, value, hsome, -, hview⟩ := view_cases hideal h refId
  · rw [hview, hnone]
    exact .inl ⟨fun _ hentry => (by cases hentry), rfl⟩
  · simp only [hview, hsome, Option.some_inj, forall_eq', Option.map_some, Option.getD_some,
      Labrys.Core.nextVersion]
    by_cases hroom : sealed.version < u64Max
    · rw [if_pos hroom]
      exact .inl ⟨hroom, rfl⟩
    · rw [if_neg hroom]
      exact .inr ⟨hroom, _, rfl⟩

omit hideal in
/-- What `put` does in any store: it refuses and leaves the store, or writes a fresh envelope. -/
theorem put_cases (C : SecretCipher) (store : SecretStore) (refId value : String)
    (scope : InjectionGrant) (actor : String) (time : DateTime) (nonce : Nonce) :
    ((isBlank refId.toList = true ∨ ∃ fault, store.mintVersion refId = .error fault) ∧
        ∃ fault, store.put C refId value scope actor time nonce = (store, .error fault)) ∨
      ∃ version audit, isBlank refId.toList = false ∧ store.mintVersion refId = .ok version ∧
        store.put C refId value scope actor time nonce = ({ store with
          secrets := store.secrets.insert refId
            (envelope C store.masterKey refId version scope value nonce)
          audit := audit }, .ok (envelope C store.masterKey refId version scope value nonce)) := by
  unfold put
  cases hblank : isBlank refId.toList with
  | true => exact .inl ⟨.inl rfl, _, rfl⟩
  | false =>
    cases hmint : store.mintVersion refId with
    | error fault => exact .inl ⟨.inr ⟨fault, rfl⟩, fault, rfl⟩
    | ok version => exact .inr ⟨version, _, rfl, rfl, rfl⟩

/-- `put` in a minted store, seen from its map. -/
theorem put_cases_minted (h : store.Minted C) (refId value : String) (scope : InjectionGrant)
    (actor : String) (time : DateTime) (nonce : Nonce) :
    ((isBlank refId.toList = false ∧ (store.view C).Room refId) ∧ ∃ audit sealed,
        sealed.version = (store.view C).nextVersion refId ∧
        store.put C refId value scope actor time nonce = ({ store with
          secrets := store.secrets.insert refId (envelope C store.masterKey refId
            ((store.view C).nextVersion refId) scope value nonce)
          audit := audit }, .ok sealed)) ∨
      (¬ (isBlank refId.toList = false ∧ (store.view C).Room refId) ∧
        ∃ fault, store.put C refId value scope actor time nonce = (store, .error fault)) := by
  have hmint := mintVersion_cases hideal h refId
  obtain ⟨hreason, hput⟩ | ⟨version, audit, hblank, hversion, hput⟩ :=
    put_cases C store refId value scope actor time nonce
  · refine .inr ⟨fun haccepts => ?_, hput⟩
    obtain hblank | ⟨fault, hfault⟩ := hreason
    · rw [haccepts.1] at hblank
      cases hblank
    · obtain ⟨-, hversion⟩ | ⟨hfull, -⟩ := hmint
      · rw [hfault] at hversion
        cases hversion
      · exact hfull haccepts.2
  · obtain ⟨hroom, hnext⟩ | ⟨-, fault, hfault⟩ := hmint
    · rw [hversion] at hnext
      obtain rfl := Except.ok.inj hnext
      exact .inl ⟨⟨hblank, hroom⟩, audit, _, rfl, hput⟩
    · rw [hversion] at hfault
      cases hfault

theorem simulated_put (h : store.Minted C) (refId value : String) (scope : InjectionGrant)
    (actor : String) (time : DateTime) (nonce : Nonce) :
    Simulated C store (.put refId value scope actor time nonce)
      (answered .put (store.put C refId value scope actor time nonce)) := by
  obtain ⟨haccepts, audit, sealed, hversion, hput⟩ | ⟨hrefuses, fault, hput⟩ :=
    put_cases_minted hideal h refId value scope actor time nonce
  · rw [hput]
    refine .inl ⟨haccepts, minted_insert h refId value _ scope nonce audit,
      view_insert hideal refId value _ scope nonce audit, ?_⟩
    exact congrArg MapAnswer.version hversion
  · rw [hput]
    exact .inr ⟨hrefuses, rfl, rfl⟩

theorem mem_secrets_iff (h : store.Minted C) (refId : String) :
    refId ∈ store.secrets ↔ store.view C refId ≠ none := by
  rw [← Std.TreeMap.isSome_getElem?_iff_mem]
  obtain ⟨hnone, hview⟩ | ⟨sealed, value, hsome, -, hview⟩ := view_cases hideal h refId
  · rw [hnone, hview]
    simp
  · rw [hsome, hview]
    simp

theorem simulated_delete (h : store.Minted C) (refId actor : String) (time : DateTime) :
    Simulated C store (.delete refId actor time)
      (answered .delete (store.delete refId actor time)) := by
  unfold delete
  by_cases hmem : refId ∈ store.secrets
  · rw [if_neg (not_not.mpr hmem)]
    exact .inl ⟨(mem_secrets_iff hideal h refId).mp hmem, minted_erase h refId _,
      view_erase refId _, rfl⟩
  · rw [if_pos hmem]
    exact .inr ⟨fun haccepts => hmem ((mem_secrets_iff hideal h refId).mpr haccepts), rfl, rfl⟩

omit hideal in
theorem granted_iff {production granted : Bool} :
    ¬ (production && !granted) = true ↔ (production = true → granted = true) := by
  cases production <;> cases granted <;> decide

theorem simulated_replace (h : store.Minted C) (refId newValue : String) (grant : InjectionGrant)
    (approval : ExplicitApproval) (actor : String) (time : DateTime) (nonce : Nonce) :
    Simulated C store (.replace refId newValue grant approval actor time nonce)
      (answered .replace (store.replace C refId newValue grant approval actor time nonce)) := by
  unfold replace
  by_cases happroval : (grant.production && !approval.isNamedGrant) = true
  · rw [if_pos happroval]
    refine .inr ⟨fun haccepts => ?_, rfl, rfl⟩
    exact granted_iff.mpr haccepts.1 happroval
  · rw [if_neg happroval]
    have hgranted := granted_iff.mp happroval
    by_cases hmem : refId ∈ store.secrets
    · rw [if_neg (not_not.mpr hmem)]
      have hstored := (mem_secrets_iff hideal h refId).mp hmem
      obtain ⟨haccepts, audit, sealed, hversion, hput⟩ | ⟨hrefuses, fault, hput⟩ :=
        put_cases_minted hideal h refId newValue grant actor time nonce
      · rw [hput]
        refine .inl ⟨⟨hgranted, hstored, haccepts⟩, minted_insert h refId newValue _ grant nonce _,
          view_insert hideal refId newValue _ grant nonce _, ?_⟩
        exact congrArg MapAnswer.version hversion
      · rw [hput]
        exact .inr ⟨fun haccepts => hrefuses haccepts.2.2, rfl, rfl⟩
    · rw [if_pos hmem]
      refine .inr ⟨fun haccepts => hmem ?_, rfl, rfl⟩
      exact (mem_secrets_iff hideal h refId).mpr haccepts.2.1

theorem simulated_rotate (h : store.Minted C) (refId : String) (approval : ExplicitApproval)
    (actor : String) (time : DateTime) (nonce : Nonce) :
    Simulated C store (.rotate refId approval actor time nonce)
      (answered .rotate (store.rotate C refId approval actor time nonce)) := by
  unfold rotate
  obtain ⟨hnone, hview⟩ | ⟨sealed, value, hsome, hopen, hview⟩ := view_cases hideal h refId
  · rw [hnone]
    refine .inr ⟨?_, rfl, rfl⟩
    rintro ⟨entry, hentry, -⟩
    rw [hview] at hentry
    cases hentry
  · -- The map accepts exactly if the approval suffices and a version is left.
    have haccepts : (store.view C).Accepts (.rotate refId approval actor time nonce) ↔
        (sealed.scope.production = true → approval.isNamedGrant = true) ∧
          sealed.version < u64Max := by
      simp only [SecretMap.Accepts, hview, Option.some_inj, exists_eq_left']
    rw [Simulated, haccepts, hsome]
    dsimp only
    by_cases happroval : (sealed.scope.production && !approval.isNamedGrant) = true
    · rw [if_pos happroval]
      refine .inr ⟨fun hgranted => ?_, rfl, rfl⟩
      exact granted_iff.mpr hgranted.1 happroval
    · rw [if_neg happroval, openEnvelope, hopen]
      have hgranted := granted_iff.mp happroval
      by_cases hroom : sealed.version < u64Max
      · rw [nextVersion, if_pos hroom]
        refine .inl ⟨⟨hgranted, hroom⟩, minted_insert h refId value _ sealed.scope nonce _, ?_, ?_⟩
        · refine (view_insert hideal refId value _ sealed.scope nonce _).trans ?_
          rw [SecretMap.effect, hview]
          rfl
        · rw [SecretMap.answer, SecretMap.nextVersion, hview]
          rfl
      · rw [nextVersion, if_neg hroom]
        exact .inr ⟨fun hgranted => hroom hgranted.2, rfl, rfl⟩

/-- What holds of scope and version throughout the map is what holds of them throughout the store. -/
theorem forall_view_iff (h : store.Minted C) (P : InjectionGrant → ℕ → Prop) :
    (∀ refId entry, store.view C refId = some entry → P entry.scope entry.version) ↔
      ∀ p ∈ store.secrets.toList, P p.2.scope p.2.version := by
  constructor
  · intro hall p hp
    obtain ⟨value, -, hview⟩ :=
      view_of_stored hideal h (Std.TreeMap.mem_toList_iff_getElem?_eq_some.mp hp)
    exact hall p.1 _ hview
  · intro hall refId entry hentry
    obtain ⟨sealed, hstored, -, hscope, hversion⟩ := stored_of_view hentry
    rw [← hscope, ← hversion]
    exact hall _ (Std.TreeMap.mem_toList_iff_getElem?_eq_some.mpr hstored)

/-- The approval gate of `rotate_key` is open exactly if no reference of the map is a production
one. -/
theorem productionRefs_eq_nil_iff (h : store.Minted C) :
    (store.secrets.toList.filter (·.2.scope.production)).map (·.1) = [] ↔
      ¬ ∃ refId entry, store.view C refId = some entry ∧ entry.scope.production = true := by
  have hstored := forall_view_iff hideal h fun scope _ => ¬ scope.production = true
  rw [List.map_eq_nil_iff, List.filter_eq_nil_iff, ← hstored]
  simp only [not_exists, not_and]

theorem opens_of_mem (h : store.Minted C) {p : String × SealedSecret}
    (hp : p ∈ store.secrets.toList) : ∃ value, openSecret C store.masterKey p.2 = some value := by
  obtain ⟨value, hopen, -⟩ :=
    view_of_stored hideal h (Std.TreeMap.mem_toList_iff_getElem?_eq_some.mp hp)
  exact ⟨value, hopen⟩

theorem simulated_rotateKey (h : store.Minted C) (newKey : MasterKey) (approval : ExplicitApproval)
    (actor : String) (time : DateTime) (nonces : String → Nonce) :
    Simulated C store (.rotateKey newKey approval actor time nonces)
      (answered .rotateKey (store.rotateKey C newKey approval actor time nonces)) := by
  unfold rotateKey
  dsimp only
  have hrefs := productionRefs_eq_nil_iff hideal h
  have hstored : (∀ refId, (store.view C).Room refId) ↔
      ∀ p ∈ store.secrets.toList, p.2.version < u64Max :=
    forall_view_iff hideal h fun _ version => version < u64Max
  split_ifs with hgate
  · refine .inr ⟨fun haccepts => ?_, rfl, rfl⟩
    have hproduction := not_not.mp fun hnone => hgate.1 (hrefs.mpr hnone)
    rw [haccepts.1 hproduction] at hgate
    cases hgate.2
  · have hgranted : (∃ refId entry, store.view C refId = some entry ∧
        entry.scope.production = true) → approval.isNamedGrant = true := by
      intro hproduction
      by_contra hdenied
      exact hgate ⟨fun hnil => hrefs.mp hnil hproduction, by simpa using hdenied⟩
    by_cases hroom : ∀ p ∈ store.secrets.toList, p.2.version < u64Max
    · rw [openAll_eq_ok fun p hp => ⟨opens_of_mem hideal h hp, hroom p hp⟩]
      refine .inl ⟨⟨hgranted, hstored.mpr hroom⟩, minted_resealed hideal h newKey nonces _,
        view_resealed hideal h newKey nonces _, ?_⟩
      rw [SecretMap.answer, ← length_toList_eq_ncard hideal h]
      exact congrArg MapAnswer.count (List.length_map _)
    · have hfull : ∃ p ∈ store.secrets.toList, ¬ p.2.version < u64Max := by
        simpa only [not_forall, exists_prop] using hroom
      obtain ⟨fault, hfault⟩ : ∃ fault, store.openAll C store.secrets.toList = .error fault :=
        openAll_error hfull
      rw [hfault]
      exact .inr ⟨fun haccepts => hroom (hstored.mp haccepts.2), rfl, rfl⟩

theorem simulated_inject (h : store.Minted C) (grant : InjectionGrant) (refId : String) :
    Simulated C store (.inject grant refId)
      (store, .inject (store.inject C grant refId)) := by
  unfold inject
  obtain ⟨hnone, hview⟩ | ⟨sealed, value, hsome, hopen, hview⟩ := view_cases hideal h refId
  · rw [hnone]
    refine .inr ⟨?_, rfl, rfl⟩
    rintro ⟨entry, hentry, -⟩
    rw [hview] at hentry
    cases hentry
  · have haccepts : (store.view C).Accepts (.inject grant refId) ↔
        sealed.scope.applicationId = grant.applicationId ∧
          sealed.scope.environmentName = grant.environmentName := by
      simp only [SecretMap.Accepts, hview, Option.some_inj, exists_eq_left']
    rw [Simulated, haccepts, hsome]
    dsimp only
    split_ifs with hscope
    · exact .inr ⟨fun hmatch => hscope.elim (· hmatch.1) (· hmatch.2), rfl, rfl⟩
    · rw [not_or, not_not, not_not] at hscope
      refine .inl ⟨hscope, h, rfl, ?_⟩
      rw [openEnvelope, hopen, SecretMap.answer, hview]
      rfl

/-- One operation of a minted store is one operation of its map. -/
theorem simulated_apply (h : store.Minted C) (op : SecretOp) :
    Simulated C store op (store.apply C op) := by
  cases op with
  | put refId value scope actor time nonce =>
    exact simulated_put hideal h refId value scope actor time nonce
  | replace refId newValue grant approval actor time nonce =>
    exact simulated_replace hideal h refId newValue grant approval actor time nonce
  | rotate refId approval actor time nonce =>
    exact simulated_rotate hideal h refId approval actor time nonce
  | rotateKey newKey approval actor time nonces =>
    exact simulated_rotateKey hideal h newKey approval actor time nonces
  | delete refId actor time => exact simulated_delete hideal h refId actor time
  | inject grant refId => exact simulated_inject hideal h grant refId

/-! ## Operations that fail -/

section
omit hideal
variable {stored : SecretStore} {fault : Fault CoreError}

theorem put_of_error {refId value : String} {scope : InjectionGrant} {actor : String}
    {time : DateTime} {nonce : Nonce}
    (h : store.put C refId value scope actor time nonce = (stored, .error fault)) :
    stored = store := by
  obtain ⟨-, fault', hput⟩ | ⟨version, audit, -, -, hput⟩ :=
    put_cases C store refId value scope actor time nonce
  · rw [hput] at h
    exact (congrArg Prod.fst h).symm
  · rw [hput] at h
    cases h

theorem replace_of_error {refId newValue : String} {grant : InjectionGrant}
    {approval : ExplicitApproval} {actor : String} {time : DateTime} {nonce : Nonce}
    (h : store.replace C refId newValue grant approval actor time nonce = (stored, .error fault)) :
    stored = store := by
  unfold replace at h
  split_ifs at h
  · exact (congrArg Prod.fst h).symm
  · split at h
    · next hput =>
      obtain rfl := congrArg Prod.fst h
      exact put_of_error hput
    · cases h
  · exact (congrArg Prod.fst h).symm

theorem rotate_of_error {refId : String} {approval : ExplicitApproval} {actor : String}
    {time : DateTime} {nonce : Nonce}
    (h : store.rotate C refId approval actor time nonce = (stored, .error fault)) :
    stored = store := by
  unfold rotate at h
  split at h
  · exact (congrArg Prod.fst h).symm
  · split_ifs at h
    · exact (congrArg Prod.fst h).symm
    · split at h
      · exact (congrArg Prod.fst h).symm
      · split at h
        · exact (congrArg Prod.fst h).symm
        · cases h

theorem rotateKey_of_error {newKey : MasterKey} {approval : ExplicitApproval} {actor : String}
    {time : DateTime} {nonces : String → Nonce}
    (h : store.rotateKey C newKey approval actor time nonces = (stored, .error fault)) :
    stored = store := by
  unfold rotateKey at h
  dsimp only at h
  split_ifs at h
  · exact (congrArg Prod.fst h).symm
  · split at h
    · exact (congrArg Prod.fst h).symm
    · cases h

theorem delete_of_error {refId actor : String} {time : DateTime}
    (h : store.delete refId actor time = (stored, .error fault)) : stored = store := by
  unfold delete at h
  split_ifs at h
  · cases h
  · exact (congrArg Prod.fst h).symm

end

omit hideal in
/-- Whatever the store holds and whatever the cipher does, an operation that fails changes
nothing. -/
theorem apply_of_refused (op : SecretOp) (h : (store.apply C op).2.view = .refused) :
    (store.apply C op).1 = store := by
  cases op with
  | put refId value scope actor time nonce =>
    rw [apply] at h ⊢
    rcases hresult : store.put C refId value scope actor time nonce with ⟨stored, fault | sealed⟩
    · exact put_of_error hresult
    · rw [hresult] at h
      cases h
  | replace refId newValue grant approval actor time nonce =>
    rw [apply] at h ⊢
    rcases hresult : store.replace C refId newValue grant approval actor time nonce with
      ⟨stored, fault | audit⟩
    · exact replace_of_error hresult
    · rw [hresult] at h
      cases h
  | rotate refId approval actor time nonce =>
    rw [apply] at h ⊢
    rcases hresult : store.rotate C refId approval actor time nonce with ⟨stored, fault | version⟩
    · exact rotate_of_error hresult
    · rw [hresult] at h
      cases h
  | rotateKey newKey approval actor time nonces =>
    rw [apply] at h ⊢
    rcases hresult : store.rotateKey C newKey approval actor time nonces with
      ⟨stored, fault | count⟩
    · exact rotateKey_of_error hresult
    · rw [hresult] at h
      cases h
  | delete refId actor time =>
    rw [apply] at h ⊢
    rcases hresult : store.delete refId actor time with ⟨stored, fault | done⟩
    · exact delete_of_error hresult
    · rw [hresult] at h
      cases h
  | inject grant refId => rfl

end SecretStore

end Labrys.Core
