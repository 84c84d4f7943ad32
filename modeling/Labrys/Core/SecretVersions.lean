import Labrys.Core.BindingKeys
import Labrys.Core.SecretRuns

/-! # Approvals and versions of secrets

* `production_kept_iff`: which unapproved calls leave the production secrets alone.
* `Lineage`: the envelopes of each reference since its last deletion, kept along a run.
* `versions_between_deletions`: within a lineage the versions are `1, 2, …`, and no earlier envelope
  passes for the current one. -/

namespace Labrys.Core
open Foundations
set_option autoImplicit false

/-! ## Approvals -/

/-- The approval a call carries, if it asks for one. -/
def SecretOp.approval : SecretOp → Option ExplicitApproval
  | .replace _ _ _ approval _ _ _ => some approval
  | .rotate _ approval _ _ _ => some approval
  | .rotateKey _ approval _ _ _ => some approval
  | _ => none

/-- Every production secret of the first store has its value, scope and version in the second. -/
def ProductionKept (C : SecretCipher) (before after : SecretStore) : Prop :=
  ∀ (refId : String) (sealed : SealedSecret), before.secrets[refId]? = some sealed →
    sealed.scope.production = true → ∃ sealed', after.secrets[refId]? = some sealed' ∧
      sealed'.scope = sealed.scope ∧ sealed'.version = sealed.version ∧
      openSecret C after.masterKey sealed' = openSecret C before.masterKey sealed

/-- The call that the gate misses: `replace` of a production secret by a caller whose grant is not a
production one. -/
def Overwrites (store : SecretStore) : SecretOp → Prop
  | .replace refId _ grant _ _ _ _ => grant.production = false ∧ isBlank refId.toList = false ∧
      ∃ sealed, store.secrets[refId]? = some sealed ∧ sealed.scope.production = true ∧
        sealed.version < u64Max
  | _ => False

namespace SecretStore
variable {C : SecretCipher} {store : SecretStore}

theorem productionKept_refl (store : SecretStore) : ProductionKept C store store :=
  fun _ sealed hstored _ => ⟨sealed, hstored, rfl, rfl, rfl⟩

/-- A write to a reference that holds no production secret. -/
theorem productionKept_insert {refId : String} {sealed : SealedSecret} {audit : List SecretAudit}
    (h : ∀ old, store.secrets[refId]? = some old → old.scope.production = false) :
    ProductionKept C store { store with
      secrets := store.secrets.insert refId sealed, audit := audit } := by
  intro other old hstored hproduction
  refine ⟨old, ?_, rfl, rfl, rfl⟩
  rw [treeMap_getElem?_insert, if_neg, hstored]
  rintro rfl
  rw [h old hstored] at hproduction
  cases hproduction

/-- A write of another version to a reference that holds one. -/
theorem not_productionKept_insert {refId : String} {old sealed : SealedSecret}
    {audit : List SecretAudit} (hstored : store.secrets[refId]? = some old)
    (hproduction : old.scope.production = true) (hversion : sealed.version ≠ old.version) :
    ¬ ProductionKept C store { store with
      secrets := store.secrets.insert refId sealed, audit := audit } := by
  intro hkept
  obtain ⟨sealed', hstored', -, hsame, -⟩ := hkept refId old hstored hproduction
  rw [treeMap_getElem?_insert, if_pos rfl, Option.some_inj] at hstored'
  subst hstored'
  exact hversion hsame

theorem productionKept_rotate (refId : String) {approval : ExplicitApproval}
    (hdenied : approval.isNamedGrant = false) (actor : String) (time : DateTime) (nonce : Nonce) :
    ProductionKept C store (store.rotate C refId approval actor time nonce).1 := by
  unfold rotate
  split
  · exact productionKept_refl store
  · next sealed hstored =>
    split_ifs with hgate
    · exact productionKept_refl store
    · have hscope : sealed.scope.production = false := by
        cases hproduction : sealed.scope.production with
        | false => rfl
        | true => exact absurd (by rw [hproduction, hdenied]; rfl) hgate
      split
      · exact productionKept_refl store
      · split
        · exact productionKept_refl store
        · refine productionKept_insert fun old hold => ?_
          rw [hstored, Option.some_inj] at hold
          rw [← hold]
          exact hscope

theorem productionKept_rotateKey (newKey : MasterKey) {approval : ExplicitApproval}
    (hdenied : approval.isNamedGrant = false) (actor : String) (time : DateTime)
    (nonces : String → Nonce) :
    ProductionKept C store (store.rotateKey C newKey approval actor time nonces).1 := by
  unfold rotateKey
  dsimp only
  split_ifs with hgate
  · exact productionKept_refl store
  · -- The gate is open without an approval only if there is no production secret.
    split
    · exact productionKept_refl store
    · intro refId sealed hstored hproduction
      have hmem := Std.TreeMap.mem_toList_iff_getElem?_eq_some.mpr hstored
      refine absurd ⟨fun hnil => ?_, hdenied⟩ hgate
      rw [List.map_eq_nil_iff, List.filter_eq_nil_iff] at hnil
      exact hnil _ hmem hproduction

theorem productionKept_replace_iff (refId newValue : String) (grant : InjectionGrant)
    {approval : ExplicitApproval} (hdenied : approval.isNamedGrant = false) (actor : String)
    (time : DateTime) (nonce : Nonce) :
    ProductionKept C store (store.replace C refId newValue grant approval actor time nonce).1 ↔
      ¬ Overwrites store (.replace refId newValue grant approval actor time nonce) := by
  have hkept : ProductionKept C store store := productionKept_refl store
  unfold replace Overwrites
  rw [hdenied, Bool.not_false, Bool.and_true]
  split_ifs with hgrant hmem
  · exact iff_of_true hkept fun hover => by rw [hover.1] at hgrant; cases hgrant
  · rw [Bool.not_eq_true] at hgrant
    have hmint : ∀ old, store.secrets[refId]? = some old →
        store.mintVersion refId = nextVersion old.version := by
      intro old hstored
      rw [SecretStore.mintVersion, hstored]
    obtain ⟨hreason, fault, hput⟩ | ⟨version, audit, hblank, hversion, hput⟩ :=
      put_cases C store refId newValue grant actor time nonce
    · rw [hput]
      refine iff_of_true hkept ?_
      rintro ⟨-, hblank, old, hstored, -, hroom⟩
      obtain hblank' | ⟨fault', hfault⟩ := hreason
      · rw [hblank] at hblank'
        cases hblank'
      · rw [hmint old hstored, nextVersion_eq_ok_iff.mpr ⟨hroom, rfl⟩] at hfault
        cases hfault
    · rw [hput]
      by_cases hproduction : ∃ old, store.secrets[refId]? = some old ∧ old.scope.production = true
      · obtain ⟨old, hstored, hscope⟩ := hproduction
        rw [hmint old hstored, nextVersion_eq_ok_iff] at hversion
        obtain ⟨hroom, rfl⟩ := hversion
        refine iff_of_false ?_ fun hnot => hnot ⟨hgrant, hblank, old, hstored, hscope, hroom⟩
        exact not_productionKept_insert hstored hscope (Nat.succ_ne_self old.version)
      · refine iff_of_true (productionKept_insert fun old hstored => ?_) ?_
        · rw [← Bool.not_eq_true]
          exact fun hscope => hproduction ⟨old, hstored, hscope⟩
        · rintro ⟨-, -, old, hstored, hscope, -⟩
          exact hproduction ⟨old, hstored, hscope⟩
  · refine iff_of_true hkept ?_
    rintro ⟨-, -, old, hstored, -⟩
    exact hmem (Std.TreeMap.isSome_getElem?_iff_mem.mp (by rw [hstored]; rfl))

end SecretStore

/-- **Unapproved calls.** In any store, a call of `replace`, `rotate` or `rotateKey` whose approval is
not granted or names nobody keeps value, scope and version of every production secret exactly if it
is not a `replace` by a grant that is not a production one, of a reference that holds a production
secret. -/
theorem production_kept_iff (C : SecretCipher) (store : SecretStore) (op : SecretOp)
    (approval : ExplicitApproval) (hop : op.approval = some approval)
    (hdenied : approval.isNamedGrant = false) :
    ProductionKept C store (store.apply C op).1 ↔ ¬ Overwrites store op := by
  cases op with
  | replace refId newValue grant approval' actor time nonce =>
    obtain rfl := Option.some_inj.mp hop
    exact SecretStore.productionKept_replace_iff refId newValue grant hdenied actor time nonce
  | rotate refId approval' actor time nonce =>
    obtain rfl := Option.some_inj.mp hop
    exact iff_of_true (SecretStore.productionKept_rotate refId hdenied actor time nonce) id
  | rotateKey newKey approval' actor time nonces =>
    obtain rfl := Option.some_inj.mp hop
    exact iff_of_true (SecretStore.productionKept_rotateKey newKey hdenied actor time nonces) id
  | put => cases hop
  | delete => cases hop
  | inject => cases hop

def productionGrant : InjectionGrant := ⟨⟨1⟩, "production", true⟩

def productionStore : SecretStore :=
  ((SecretStore.new plainKey).put plainCipher "db/password" "hunter2" productionGrant "ada" 0
    (Vector.replicate 12 7)).1

theorem production_kept_rotate :
    let approval := ExplicitApproval.denied "" "rotate"
    let op : SecretOp := .rotate "db/password" approval "agent" 1 (Vector.replicate 12 8)
    approval.isNamedGrant = false ∧
      ProductionKept plainCipher productionStore (productionStore.apply plainCipher op).1 := by
  intro approval op
  have hdenied : approval.isNamedGrant = false := by decide
  refine ⟨hdenied, ?_⟩
  exact (production_kept_iff plainCipher productionStore op approval rfl hdenied).mpr id

/-- A caller with a staging grant overwrites a production secret without any approval. -/
theorem production_overwritten :
    let approval := ExplicitApproval.denied "" "replace"
    let op : SecretOp := .replace "db/password" "swordfish" stagingGrant approval "agent" 1
      (Vector.replicate 12 8)
    approval.isNamedGrant = false ∧
      ¬ ProductionKept plainCipher productionStore (productionStore.apply plainCipher op).1 := by
  intro approval op
  have hdenied : approval.isNamedGrant = false := by decide
  refine ⟨hdenied, fun hkept => ?_⟩
  refine (SecretStore.productionKept_replace_iff "db/password" "swordfish" stagingGrant hdenied
    "agent" 1 (Vector.replicate 12 8)).mp hkept ⟨rfl, by decide, ?_⟩
  exact ⟨envelope plainCipher plainKey "db/password" 1 productionGrant "hunter2"
    (Vector.replicate 12 7), rfl, rfl, by decide⟩

/-! ## Lineages -/

/-- The references that an operation seals anew once it is carried out. -/
def SecretOp.seals (op : SecretOp) (refId : String) : Bool :=
  match op with
  | .put sealed _ _ _ _ _ => refId = sealed
  | .replace sealed _ _ _ _ _ _ => refId = sealed
  | .rotate sealed _ _ _ _ => refId = sealed
  | .rotateKey _ _ _ _ _ => true
  | .delete _ _ _ => false
  | .inject _ _ => false

def SecretOp.deletes (op : SecretOp) (refId : String) : Bool :=
  match op with
  | .delete deleted _ _ => refId = deleted
  | _ => false

def SecretAnswer.accepted (answer : SecretAnswer) : Bool :=
  match answer.view with
  | .refused => false
  | _ => true

theorem SecretAnswer.accepted_iff (answer : SecretAnswer) :
    answer.accepted = true ↔ answer.view ≠ .refused := by
  unfold SecretAnswer.accepted
  cases answer.view <;> simp

/-- The envelopes sealed for each reference since it was last deleted, oldest first. -/
abbrev Lineage := String → List SealedSecret

/-- An operation that is carried out adds the envelope it stored, and a deletion ends the lineage. -/
def Lineage.step (lineage : Lineage) (op : SecretOp) (stored : SecretStore) : Lineage := fun refId =>
  if op.deletes refId then []
  else if op.seals refId then lineage refId ++ stored.secrets[refId]?.toList
  else lineage refId

/-- The store with the lineages of its references. -/
def trackedStore (C : SecretCipher) : Machine (SecretStore × Lineage) SecretOp SecretAnswer where
  step := fun s op =>
    let result := s.1.apply C op
    ((result.1, if result.2.accepted then s.2.step op result.1 else s.2), result.2)

def trackedNew (masterKey : MasterKey) : SecretStore × Lineage := (.new masterKey, fun _ => [])

theorem trackedStore_fst (C : SecretCipher) (s : SecretStore × Lineage) (ops : List SecretOp) :
    ((trackedStore C).run s ops).1 = (secretStore C).run s.1 ops := by
  induction ops generalizing s with
  | nil => rfl
  | cons op ops ih => exact ih ((trackedStore C).next s op)

/-- The lineage of a reference: its versions count from 1, its last envelope is the stored one, and
each was sealed for the reference. -/
structure LineageInv (C : SecretCipher) (refId : String) (stored : Option SealedSecret)
    (envelopes : List SealedSecret) : Prop where
  versions : envelopes.map (·.version) = List.range' 1 envelopes.length
  current : stored = envelopes.getLast?
  sealed : ∀ old ∈ envelopes, ∃ masterKey value,
    old = envelope C masterKey refId old.version old.scope value old.nonce

namespace LineageInv
variable {C : SecretCipher} {refId : String} {stored : Option SealedSecret}
  {envelopes : List SealedSecret}

theorem nil : LineageInv C refId none [] := ⟨rfl, rfl, fun _ h => by cases h⟩

/-- The stored version is the length of the lineage. -/
theorem version_eq (h : LineageInv C refId stored envelopes) :
    (stored.map (·.version)).getD 0 = envelopes.length := by
  have hlast := congrArg List.getLast? h.versions
  rw [List.getLast?_map, ← h.current, List.getLast?_range'] at hlast
  rw [hlast]
  split_ifs with hzero
  · rw [hzero]
    rfl
  · rw [Option.getD_some]
    omega

theorem concat (h : LineageInv C refId stored envelopes) {sealed : SealedSecret}
    (hversion : sealed.version = (stored.map (·.version)).getD 0 + 1)
    (hsealed : ∃ masterKey value,
      sealed = envelope C masterKey refId sealed.version sealed.scope value sealed.nonce) :
    LineageInv C refId (some sealed) (envelopes ++ [sealed]) := by
  rw [h.version_eq] at hversion
  refine ⟨?_, by simp, fun old hold => ?_⟩
  · rw [List.map_append, h.versions, List.length_append, List.length_singleton, List.range'_concat,
      List.map_singleton, hversion]
    congr 2
    omega
  · obtain hold | hold := List.mem_append.mp hold
    · exact h.sealed old hold
    · rw [List.mem_singleton.mp hold]
      exact hsealed

end LineageInv

/-! ## One operation and the lineages -/

namespace SecretStore
variable {C : SecretCipher} {store : SecretStore}

/-- An operation leaves the envelopes of the references it neither seals nor deletes. -/
theorem getElem?_apply {op : SecretOp} {refId : String} (hseals : op.seals refId = false)
    (hdeletes : op.deletes refId = false) :
    (store.apply C op).1.secrets[refId]? = store.secrets[refId]? := by
  cases op with
  | put sealedRef value scope actor time nonce =>
    have hne : refId ≠ sealedRef := of_decide_eq_false hseals
    obtain ⟨-, fault, hput⟩ | ⟨version, audit, -, -, hput⟩ :=
      put_cases C store sealedRef value scope actor time nonce
    · simp only [apply, answered, hput]
    · simp only [apply, answered, hput, treeMap_getElem?_insert, if_neg hne.symm]
  | replace sealedRef newValue grant approval actor time nonce =>
    have hne : refId ≠ sealedRef := of_decide_eq_false hseals
    simp only [apply, answered, replace]
    split_ifs
    · rfl
    · obtain ⟨-, fault, hput⟩ | ⟨version, audit, -, -, hput⟩ :=
        put_cases C store sealedRef newValue grant actor time nonce
      · simp only [hput]
      · simp only [hput, treeMap_getElem?_insert, if_neg hne.symm]
    · rfl
  | rotate sealedRef approval actor time nonce =>
    have hne : refId ≠ sealedRef := of_decide_eq_false hseals
    simp only [apply, answered, rotate]
    split
    · rfl
    · split_ifs
      · rfl
      · split
        · rfl
        · split
          · rfl
          · rw [treeMap_getElem?_insert, if_neg hne.symm]
  | rotateKey newKey approval actor time nonces => cases hseals
  | delete deleted actor time =>
    have hne : refId ≠ deleted := of_decide_eq_false hdeletes
    simp only [apply, answered, delete]
    split_ifs
    · rw [treeMap_getElem?_erase, if_neg hne.symm]
    · rfl
  | inject grant injected => rfl

end SecretStore

/-- What an accepted operation enters for a reference it seals: its next version, unless the
reference is not there to be rotated. -/
theorem SecretMap.effect_of_seals {m : SecretMap} {op : SecretOp} {refId : String}
    (haccepts : m.Accepts op) (hseals : op.seals refId = true) :
    (m refId = none ∧ m.effect op refId = none) ∨
      ∃ entry, m.effect op refId = some entry ∧ entry.version = m.nextVersion refId := by
  cases op with
  | put sealedRef value scope actor time nonce =>
    obtain rfl : refId = sealedRef := of_decide_eq_true hseals
    exact .inr ⟨_, Function.update_self _ _ _, rfl⟩
  | replace sealedRef newValue grant approval actor time nonce =>
    obtain rfl : refId = sealedRef := of_decide_eq_true hseals
    exact .inr ⟨_, Function.update_self _ _ _, rfl⟩
  | rotate sealedRef approval actor time nonce =>
    obtain rfl : refId = sealedRef := of_decide_eq_true hseals
    obtain ⟨entry, hentry, -⟩ := haccepts
    refine .inr ⟨bump entry, ?_, ?_⟩
    · rw [effect, Function.update_self, hentry]
      rfl
    · rw [nextVersion, hentry]
      rfl
  | rotateKey newKey approval actor time nonces =>
    cases hentry : m refId with
    | none => exact .inl ⟨rfl, by simp only [effect, hentry, Option.map_none]⟩
    | some entry =>
      refine .inr ⟨bump entry, by simp only [effect, hentry, Option.map_some], ?_⟩
      rw [nextVersion, hentry]
      rfl
  | delete deleted actor time => cases hseals
  | inject grant injected => cases hseals

theorem SecretMap.answer_ne_refused (m : SecretMap) (op : SecretOp) : m.answer op ≠ .refused := by
  cases op <;> simp [SecretMap.answer]

section Tracked
variable {C : SecretCipher} (hideal : C.chacha20Poly1305.Ideal)
include hideal

theorem map_version_view {store : SecretStore} (h : store.Minted C) (refId : String) :
    (store.view C refId).map (·.version) = store.secrets[refId]?.map (·.version) := by
  obtain ⟨hnone, hview⟩ | ⟨sealed, value, hsome, -, hview⟩ :=
    SecretStore.view_cases hideal h refId
  · rw [hnone, hview]
    rfl
  · rw [hsome, hview]
    rfl

/-- The envelope of an accepted operation continues the lineage. -/
theorem lineageInv_seals {store stored : SecretStore} (h : store.Minted C) (h' : stored.Minted C)
    {op : SecretOp} (haccepts : (store.view C).Accepts op)
    (hview : stored.view C = (store.view C).effect op) {refId : String}
    (hseals : op.seals refId = true) {envelopes : List SealedSecret}
    (hinv : LineageInv C refId store.secrets[refId]? envelopes) :
    LineageInv C refId stored.secrets[refId]?
      (envelopes ++ stored.secrets[refId]?.toList) := by
  have hstoredView := congrFun hview refId
  obtain ⟨habsent, hnone⟩ | ⟨entry, hentry, hversion⟩ :=
    SecretMap.effect_of_seals haccepts hseals
  · -- Nothing to rotate under this reference.
    have hbefore := map_version_view hideal h refId
    have hafter := map_version_view hideal h' refId
    rw [habsent, Option.map_none, eq_comm, Option.map_eq_none_iff] at hbefore
    rw [hstoredView, hnone, Option.map_none, eq_comm, Option.map_eq_none_iff] at hafter
    rw [hafter, Option.toList_none, List.append_nil]
    rwa [hbefore] at hinv
  · rw [hentry] at hstoredView
    obtain ⟨sealed, hstored, -, -, hsealed⟩ := SecretStore.stored_of_view hstoredView
    rw [hstored, Option.toList_some]
    refine hinv.concat ?_ ⟨stored.masterKey, h' refId sealed hstored⟩
    rw [hsealed, hversion, ← map_version_view hideal h refId]
    rfl

/-- The invariant of the tracked store. -/
def TrackedInv (C : SecretCipher) (s : SecretStore × Lineage) : Prop :=
  s.1.Minted C ∧ ∀ refId, LineageInv C refId s.1.secrets[refId]? (s.2 refId)

theorem trackedInv_next (s : SecretStore × Lineage) (op : SecretOp) (h : TrackedInv C s) :
    TrackedInv C ((trackedStore C).next s op) := by
  obtain ⟨store, lineage⟩ := s
  obtain ⟨hminted, hlineage⟩ := h
  dsimp only at hminted hlineage
  change TrackedInv C ((store.apply C op).1,
    if (store.apply C op).2.accepted then lineage.step op (store.apply C op).1 else lineage)
  obtain ⟨haccepts, hnext, hview, hanswer⟩ | ⟨-, hnext, hanswer⟩ :=
    SecretStore.simulated_apply hideal hminted op
  · have haccepted : (store.apply C op).2.accepted = true := by
      rw [SecretAnswer.accepted_iff, hanswer]
      exact (store.view C).answer_ne_refused op
    rw [if_pos haccepted]
    refine ⟨hnext, fun refId => ?_⟩
    dsimp only [Lineage.step]
    split_ifs with hdeletes hseals
    · -- The reference was deleted: its lineage ends.
      cases op with
      | delete deleted actor time =>
        obtain rfl : refId = deleted := of_decide_eq_true hdeletes
        have hgone := map_version_view hideal hnext refId
        rw [congrFun hview refId, SecretMap.effect, Function.update_self, Option.map_none, eq_comm,
          Option.map_eq_none_iff] at hgone
        rw [hgone]
        exact .nil
      | _ => cases hdeletes
    · exact lineageInv_seals hideal hminted hnext haccepts hview hseals (hlineage refId)
    · rw [SecretStore.getElem?_apply (by simpa using hseals) (by simpa using hdeletes)]
      exact hlineage refId
  · have hrefused : ¬ (store.apply C op).2.accepted = true := by
      rw [SecretAnswer.accepted_iff, hanswer]
      exact fun hne => hne rfl
    rw [if_neg hrefused, hnext]
    exact ⟨hminted, hlineage⟩

theorem trackedInv_run (masterKey : MasterKey) (ops : List SecretOp) :
    TrackedInv C ((trackedStore C).run (trackedNew masterKey) ops) := by
  refine (trackedStore C).run_invariant_all (trackedInv_next hideal) _ ops ?_
  refine ⟨SecretStore.minted_new C masterKey, fun refId => ?_⟩
  have hempty : (SecretStore.new masterKey).secrets[refId]? = none := by simp [SecretStore.new]
  dsimp only [trackedNew]
  rw [hempty]
  exact .nil

end Tracked

/-- Every envelope of a lineage but the last is of an earlier version than the stored one. -/
theorem LineageInv.version_lt {C : SecretCipher} {refId : String} {current : SealedSecret}
    {envelopes : List SealedSecret} (h : LineageInv C refId (some current) envelopes)
    {old : SealedSecret} (hold : old ∈ envelopes.dropLast) : old.version < current.version := by
  have hcurrent := h.version_eq
  rw [Option.map_some, Option.getD_some] at hcurrent
  have hmem : old.version ∈ envelopes.dropLast.map (·.version) := List.mem_map_of_mem hold
  rw [List.dropLast_eq_take, List.map_take, h.versions,
    List.take_range'_of_length_ge (Nat.sub_le _ 1), List.mem_range'_1] at hmem
  omega

/-- **Versions between deletions.** With an ideal cipher, along every run from a new store, the
envelopes sealed for a reference since its last deletion have the versions `1, 2, …` in the order
they were sealed, the last of them is the stored one, and every earlier one is of a smaller version
and opens under no key once it is passed off as of the current version. -/
theorem versions_between_deletions (C : SecretCipher) (hideal : C.chacha20Poly1305.Ideal)
    (masterKey : MasterKey) (ops : List SecretOp) :
    let s := (trackedStore C).run (trackedNew masterKey) ops
    s.1 = (secretStore C).run (.new masterKey) ops ∧
    ∀ refId : String,
      (s.2 refId).map (·.version) = List.range' 1 (s.2 refId).length ∧
      ((s.2 refId).map (·.version)).Pairwise (· < ·) ∧
      s.1.secrets[refId]? = (s.2 refId).getLast? ∧
      ∀ current, s.1.secrets[refId]? = some current → ∀ old ∈ (s.2 refId).dropLast,
        old.refId = refId ∧ old.version < current.version ∧
          ∀ anyKey, openSecret C anyKey { old with version := current.version } = none := by
  intro s
  refine ⟨trackedStore_fst C (trackedNew masterKey) ops, fun refId => ?_⟩
  have hinv := (trackedInv_run hideal masterKey ops).2 refId
  refine ⟨hinv.versions, ?_, hinv.current, ?_⟩
  · rw [hinv.versions]
    exact List.pairwise_lt_range'
  · intro current hcurrent old hold
    have hlt : old.version < current.version := by
      rw [hcurrent] at hinv
      exact hinv.version_lt hold
    obtain ⟨sealingKey, value, hsealed⟩ := hinv.sealed old (List.dropLast_subset _ hold)
    refine ⟨by rw [hsealed]; rfl, hlt, fun anyKey => ?_⟩
    rw [hsealed]
    have hne : (refId, old.version) ≠ (refId, current.version) := fun h => hlt.ne (Prod.mk.inj h).2
    exact openSecret_retargeted hideal sealingKey anyKey hne old.scope value old.nonce

theorem versions_between_deletions_rotated :
    let s := (trackedStore plainCipher).run (trackedNew plainKey)
      [storePassword, .rotate "db/password" (.denied "" "") "ada" 1 (Vector.replicate 12 8)]
    plainCipher.chacha20Poly1305.Ideal ∧ (s.2 "db/password").map (·.version) = [1, 2] := by
  intro s
  have hideal : plainCipher.chacha20Poly1305.Ideal := Aead.ideal_plain 32 12
  refine ⟨hideal, ?_⟩
  have hversions := (versions_between_deletions plainCipher hideal plainKey
    [storePassword, .rotate "db/password" (.denied "" "") "ada" 1 (Vector.replicate 12 8)]).2
      "db/password"
  refine hversions.1.trans ?_
  decide +kernel

/-- A reference that is deleted and stored again starts over: the pair of reference and version 1 is
sealed a second time, and the first envelope, kept by a caller, opens as the current version. -/
theorem version_reused :
    let store := (secretStore plainCipher).run (.new plainKey)
      [storePassword, .delete "db/password" "ada" 1,
        .put "db/password" "swordfish" stagingGrant "ada" 2 (Vector.replicate 12 8)]
    let old := envelope plainCipher plainKey "db/password" 1 stagingGrant "hunter2"
      (Vector.replicate 12 7)
    let current := envelope plainCipher plainKey "db/password" 1 stagingGrant "swordfish"
      (Vector.replicate 12 8)
    (secretStore plainCipher).answer (.new plainKey) storePassword = .put (.ok old) ∧
      store.secrets["db/password"]? = some current ∧ old ≠ current ∧
      old.version = current.version ∧ store.openEnvelope plainCipher old = .ok "hunter2" := by
  intro store old current
  refine ⟨rfl, rfl, ?_, rfl, ?_⟩
  · intro hsame
    exact absurd (congrArg SealedSecret.nonce hsame) (by decide)
  · have hopen : openSecret plainCipher plainKey old = some "hunter2" :=
      openSecret_envelope (Aead.ideal_plain 32 12) _ _ _ _ _ _
    have hkey : store.masterKey = plainKey := rfl
    rw [SecretStore.openEnvelope, hkey, hopen]

end Labrys.Core
