import Labrys.Core.SecretMap

/-! # Runs of the secret store

* `secretStore_refines_map`: with an ideal cipher the store simulates a plain map along every run.
* `guardText_fail_closed`: in every store a run reaches, the guard lets no live value through. -/

namespace Labrys.Core
open Foundations
set_option autoImplicit false

section Runs
variable {C : SecretCipher} (hideal : C.chacha20Poly1305.Ideal)
include hideal

/-- The store and the map agree on answers along every run, and on contents at its end. -/
theorem simulation (masterKey : MasterKey) (ops : List SecretOp) :
    ((secretStore C).adapt id SecretAnswer.view).answers (.new masterKey) ops =
        secretMap.answers .empty ops ∧
      ((secretStore C).run (.new masterKey) ops).Minted C ∧
      ((secretStore C).run (.new masterKey) ops).view C = secretMap.run .empty ops := by
  have hpair := ((secretStore C).adapt id SecretAnswer.view).answers_pair_eq secretMap
    (G := fun _ _ => True) (R := fun s => s.1.Minted C ∧ s.1.view C = s.2)
    (fun s op hs _ => ?_) (.new masterKey) .empty ops
    ⟨SecretStore.minted_new C masterKey, SecretStore.view_new C masterKey⟩
    (Machine.guarded_true _ _ ops)
  · rw [Machine.run_adapt, List.map_id] at hpair
    exact hpair
  · obtain ⟨store, m⟩ := s
    dsimp only at hs
    obtain ⟨hminted, rfl⟩ := hs
    change ((store.apply C op).1.Minted C ∧
        (store.apply C op).1.view C = (secretMap.step (store.view C) op).1) ∧
      (store.apply C op).2.view = (secretMap.step (store.view C) op).2
    obtain ⟨haccepts, hnext, hview, hanswer⟩ | ⟨hrefuses, hnext, hanswer⟩ :=
      SecretStore.simulated_apply hideal hminted op
    · rw [secretMap_step_of_accepts haccepts]
      exact ⟨⟨hnext, hview⟩, hanswer⟩
    · rw [secretMap_step_of_refuses hrefuses, hnext]
      exact ⟨⟨hminted, rfl⟩, hanswer⟩

/-- An operation that is answered otherwise than by a refusal has the map's effect. -/
theorem view_apply {store : SecretStore} (hminted : store.Minted C) {op : SecretOp}
    {stored : SecretStore} {answer : SecretAnswer} (happly : store.apply C op = (stored, answer))
    (hanswer : answer.view ≠ .refused) : stored.view C = (store.view C).effect op := by
  have hsimulated := SecretStore.simulated_apply hideal hminted op
  rw [happly] at hsimulated
  obtain ⟨-, -, hview, -⟩ | ⟨-, -, hrefused⟩ := hsimulated
  · exact hview
  · exact absurd hrefused hanswer

/-- `inject` reveals the value of the map, to grants of the stored environment. -/
theorem inject_eq_ok_iff {store : SecretStore} (hminted : store.Minted C) (grant : InjectionGrant)
    (refId value : String) :
    store.inject C grant refId = .ok value ↔ ∃ entry, store.view C refId = some entry ∧
      entry.value = value ∧ entry.scope.applicationId = grant.applicationId ∧
        entry.scope.environmentName = grant.environmentName := by
  obtain ⟨⟨entry, hentry, hscope⟩, -, -, hanswer⟩ | ⟨hrefuses, -, hanswer⟩ :=
    SecretStore.simulated_inject hideal hminted grant refId
  · rw [SecretMap.answer, hentry] at hanswer
    cases hinject : store.inject C grant refId with
    | error fault => rw [hinject] at hanswer; cases hanswer
    | ok revealed =>
      rw [hinject] at hanswer
      obtain rfl : revealed = entry.value := MapAnswer.value.inj hanswer
      rw [Except.ok.injEq, hentry]
      simp only [Option.some_inj, exists_eq_left']
      exact ⟨fun heq => ⟨heq, hscope⟩, fun heq => heq.1⟩
  · refine iff_of_false (fun hinject => ?_) ?_
    · rw [hinject] at hanswer
      cases hanswer
    · rintro ⟨entry, hentry, -, hscope⟩
      exact hrefuses ⟨entry, hentry, hscope⟩

end Runs

/-- **The store refines a map.** With an ideal cipher, along every run from a new store the answers
are those of a map from references to values, scopes and versions, and the contents are its
contents. In the store reached, `inject` reveals exactly the value in the map, to grants of the
stored application and environment; `put` and `replace` enter the new value under the next version;
the rotations change no value and no scope, and raise the version of the one reference, or of
each, by one; `delete` removes the one reference. An operation that fails leaves secrets, audit and
active key as they were, in any store. -/
theorem secretStore_refines_map (C : SecretCipher) (hideal : C.chacha20Poly1305.Ideal)
    (masterKey : MasterKey) (ops : List SecretOp) :
    let store := (secretStore C).run (.new masterKey) ops
    let m := secretMap.run .empty ops
    ((secretStore C).adapt id SecretAnswer.view).answers (.new masterKey) ops =
      secretMap.answers .empty ops ∧
    store.view C = m ∧
    (∀ grant refId value, store.inject C grant refId = .ok value ↔ ∃ entry, m refId = some entry ∧
      entry.value = value ∧ entry.scope.applicationId = grant.applicationId ∧
        entry.scope.environmentName = grant.environmentName) ∧
    (∀ refId value scope actor time nonce stored sealed,
      store.put C refId value scope actor time nonce = (stored, .ok sealed) →
        stored.view C = Function.update m refId (some ⟨value, scope, m.nextVersion refId⟩)) ∧
    (∀ refId newValue grant approval actor time nonce stored audit,
      store.replace C refId newValue grant approval actor time nonce = (stored, .ok audit) →
        stored.view C = Function.update m refId (some ⟨newValue, grant, m.nextVersion refId⟩)) ∧
    (∀ refId approval actor time nonce stored version,
      store.rotate C refId approval actor time nonce = (stored, .ok version) →
        stored.view C = Function.update m refId ((m refId).map SecretMap.bump)) ∧
    (∀ newKey approval actor time nonces stored count,
      store.rotateKey C newKey approval actor time nonces = (stored, .ok count) →
        stored.view C = fun refId => (m refId).map SecretMap.bump) ∧
    (∀ refId actor time stored, store.delete refId actor time = (stored, .ok ()) →
      stored.view C = Function.update m refId none) ∧
    ∀ (any : SecretStore) (op : SecretOp),
      ((secretStore C).answer any op).view = .refused → (secretStore C).next any op = any := by
  intro store m
  obtain ⟨hanswers, hminted, hview⟩ := simulation hideal masterKey ops
  have heffect : ∀ (op : SecretOp) (stored : SecretStore) (answer : SecretAnswer),
      store.apply C op = (stored, answer) → answer.view ≠ .refused →
        stored.view C = m.effect op := by
    intro op stored answer happly hanswer
    rw [view_apply hideal hminted happly hanswer, hview]
  refine ⟨hanswers, hview, ?_, ?_, ?_, ?_, ?_, ?_, ?_⟩
  · intro grant refId value
    rw [inject_eq_ok_iff hideal hminted, hview]
  · intro refId value scope actor time nonce stored sealed hput
    exact heffect (.put refId value scope actor time nonce) stored _
      (congrArg (answered SecretAnswer.put) hput) (by simp [SecretAnswer.view])
  · intro refId newValue grant approval actor time nonce stored audit hreplace
    exact heffect (.replace refId newValue grant approval actor time nonce) stored _
      (congrArg (answered SecretAnswer.replace) hreplace) (by simp [SecretAnswer.view])
  · intro refId approval actor time nonce stored version hrotate
    exact heffect (.rotate refId approval actor time nonce) stored _
      (congrArg (answered SecretAnswer.rotate) hrotate) (by simp [SecretAnswer.view])
  · intro newKey approval actor time nonces stored count hrotate
    exact heffect (.rotateKey newKey approval actor time nonces) stored _
      (congrArg (answered SecretAnswer.rotateKey) hrotate) (by simp [SecretAnswer.view])
  · intro refId actor time stored hdelete
    exact heffect (.delete refId actor time) stored _
      (congrArg (answered SecretAnswer.delete) hdelete) (by simp [SecretAnswer.view])
  · intro any op hrefused
    exact SecretStore.apply_of_refused op hrefused

/-- An ideal cipher under the key whose material is the one byte `a`; the digest is SHA-256 of it. -/
def plainCipher : SecretCipher where
  sha256 := fun _ => #v[0xca, 0x97, 0x81, 0x12, 0xca, 0x1b, 0xbd, 0xca, 0xfa, 0xc2, 0x31, 0xb3, 0x9a,
    0x23, 0xdc, 0x4d, 0xa7, 0x86, 0xef, 0xf8, 0x14, 0x7c, 0x4e, 0x72, 0xb9, 0x80, 0x77, 0x85, 0xaf,
    0xee, 0x48, 0xbb]
  chacha20Poly1305 := Aead.plain 32 12

def plainKey : MasterKey := ⟨[0x61], List.cons_ne_nil _ _⟩

def stagingGrant : InjectionGrant := ⟨⟨1⟩, "staging", false⟩

def storePassword : SecretOp :=
  .put "db/password" "hunter2" stagingGrant "ada" 0 (Vector.replicate 12 7)

/-- The map after one `put`. -/
theorem run_storePassword :
    secretMap.run .empty [storePassword] =
      Function.update SecretMap.empty "db/password" (some ⟨"hunter2", stagingGrant, 1⟩) := by
  have haccepts : SecretMap.empty.Accepts storePassword :=
    ⟨by decide, fun _ hentry => by cases hentry⟩
  rw [Machine.run_cons, Machine.run_nil, Machine.next, secretMap_step_of_accepts haccepts]
  rfl

theorem secretStore_refines_map_put :
    plainCipher.chacha20Poly1305.Ideal ∧
      ((secretStore plainCipher).run (.new plainKey) [storePassword]).inject plainCipher
        stagingGrant "db/password" = .ok "hunter2" := by
  have hideal : plainCipher.chacha20Poly1305.Ideal := Aead.ideal_plain 32 12
  refine ⟨hideal, ?_⟩
  have hrefines := secretStore_refines_map plainCipher hideal plainKey [storePassword]
  refine (hrefines.2.2.1 stagingGrant "db/password" "hunter2").mpr ?_
  rw [run_storePassword, Function.update_self]
  exact ⟨_, rfl, rfl, rfl, rfl⟩

/-! ## The guard on text -/

/-- No nonempty value of the map occurs in the text. -/
def SecretMap.ClearOfLive (m : SecretMap) (text : String) : Prop :=
  ∀ refId entry, m refId = some entry → entry.value ≠ "" → containsText text entry.value = false

namespace SecretStore
variable {C : SecretCipher} (hideal : C.chacha20Poly1305.Ideal) {store : SecretStore}
include hideal

omit hideal in
theorem mem_values {sealed : SealedSecret} :
    sealed ∈ store.values ↔ ∃ refId : String, store.secrets[refId]? = some sealed :=
  mem_treeMap_values

/-- In a minted store the envelopes that the guard passes over are none: no envelope leaks into a
text exactly if the text is clear of the map. -/
theorem clearOfLive_iff (h : store.Minted C) (text : String) :
    (store.view C).ClearOfLive text ↔
      ∀ sealed ∈ store.values, store.leaks C text sealed = false := by
  constructor
  · intro hclear sealed hsealed
    obtain ⟨refId, hstored⟩ := mem_values.mp hsealed
    obtain ⟨value, hopen, hview⟩ := view_of_stored hideal h hstored
    simp only [leaks, hopen, decide_eq_false_iff_not, not_and, Bool.not_eq_true]
    exact hclear refId _ hview
  · intro hnone refId entry hentry hne
    obtain ⟨sealed, hstored, hopen, -⟩ := stored_of_view hentry
    have hleaks := hnone sealed (mem_values.mpr ⟨refId, hstored⟩)
    simp only [leaks, hopen, decide_eq_false_iff_not, not_and, Bool.not_eq_true] at hleaks
    exact hleaks hne

omit hideal in
/-- A value that does not occur is not redacted. -/
theorem redactOne_of_not_leaks {text : String} {sealed : SealedSecret}
    (h : store.leaks C text sealed = false) : store.redactOne C text sealed = text := by
  unfold leaks at h
  unfold redactOne
  cases hopen : openSecret C store.masterKey sealed with
  | none => rfl
  | some value =>
    rw [hopen] at h
    exact if_neg (of_decide_eq_false h)

omit hideal in
theorem redact_of_not_leaks {text : String}
    (h : ∀ sealed ∈ store.values, store.leaks C text sealed = false) :
    store.redact C text = text := by
  unfold redact
  generalize store.values = values at h
  induction values with
  | nil => rfl
  | cons sealed rest ih =>
    rw [List.foldl_cons, redactOne_of_not_leaks (h sealed List.mem_cons_self)]
    exact ih fun other hother => h other (List.mem_cons_of_mem sealed hother)

theorem guardText_eq_ok (h : store.Minted C) {field text out : String}
    (hguard : store.guardText C field text = .ok out) : (store.view C).ClearOfLive out := by
  unfold guardText at hguard
  dsimp only at hguard
  split_ifs at hguard with hleaks
  obtain rfl := Except.ok.inj hguard
  rw [clearOfLive_iff hideal h]
  simpa only [List.any_eq_true, not_exists, not_and, Bool.not_eq_true] using hleaks

theorem guardText_of_clear (h : store.Minted C) (field : String) {text : String}
    (hclear : (store.view C).ClearOfLive text) : store.guardText C field text = .ok text := by
  rw [clearOfLive_iff hideal h] at hclear
  have hany : (store.values.any (store.leaks C text)) = false := by
    simpa only [List.any_eq_false, Bool.not_eq_true] using hclear
  rw [guardText, redact_of_not_leaks hclear, hany]
  rfl

end SecretStore

/-- **The guard is fail-closed.** With an ideal cipher, in every store that a run from a new one
reaches, every stored envelope opens under the active key; what the guard returns contains no
nonempty live value; and a text that contains none is returned as it is. -/
theorem guardText_fail_closed (C : SecretCipher) (hideal : C.chacha20Poly1305.Ideal)
    (masterKey : MasterKey) (ops : List SecretOp) :
    let store := (secretStore C).run (.new masterKey) ops
    let m := secretMap.run .empty ops
    (∀ (refId : String) (sealed : SealedSecret), store.secrets[refId]? = some sealed →
      ∃ value, openSecret C store.masterKey sealed = some value) ∧
    (∀ field text out, store.guardText C field text = .ok out → m.ClearOfLive out) ∧
    ∀ field text, m.ClearOfLive text → store.guardText C field text = .ok text := by
  intro store m
  obtain ⟨-, hminted, hview⟩ := simulation hideal masterKey ops
  have hmap : m = store.view C := hview.symm
  rw [hmap]
  refine ⟨?_, ?_, ?_⟩
  · intro refId sealed hstored
    exact SecretStore.opens_of_mem hideal hminted
      (Std.TreeMap.mem_toList_iff_getElem?_eq_some.mpr hstored)
  · intro field text out hguard
    exact SecretStore.guardText_eq_ok hideal hminted hguard
  · intro field text hclear
    exact SecretStore.guardText_of_clear hideal hminted field hclear

theorem guardText_fail_closed_clean :
    plainCipher.chacha20Poly1305.Ideal ∧
      ((secretStore plainCipher).run (.new plainKey) [storePassword]).guardText plainCipher
        "event.after" "rolled out" = .ok "rolled out" := by
  have hideal : plainCipher.chacha20Poly1305.Ideal := Aead.ideal_plain 32 12
  refine ⟨hideal, ?_⟩
  have hclosed := guardText_fail_closed plainCipher hideal plainKey [storePassword]
  refine hclosed.2.2 "event.after" "rolled out" ?_
  rw [run_storePassword]
  intro refId entry hentry _
  rw [Function.update_apply] at hentry
  split_ifs at hentry
  · obtain rfl := Option.some_inj.mp hentry
    decide
  · cases hentry

end Labrys.Core
