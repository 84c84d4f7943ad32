import Labrys.Core.SecretRuns
import Labrys.Foundations.BlockStream

/-! # Envelopes of version 0

The retired seal combined the bytes of a text with a key stream, eight bytes to a round of the
digest. Writers mint it no longer; readers open it until the reference is rotated.

* `sealLegacy`, `legacyEnvelope`: what was minted.
* `keystream_eq_fill`: the loop that makes the key stream.
* `openSecret_legacyEnvelope`: such an envelope opens to its text.
* `SecretStore.rotate_of_opens`: what rotation makes of an envelope that opens.
* `legacy_envelopes_readable`: the three together. -/

namespace Labrys.Core
open Foundations
set_option autoImplicit false

/-! ## The key stream -/

/-- One round of the loop: the counter is mixed into the digest, whose bytes are the block. -/
def mixCounter (state : UInt64 × UInt64) : UInt64 := fnv1a (toLeBytes state.2) state.1

def keystreamBlocks : BlockStream (UInt64 × UInt64) UInt8 where
  width := 8
  positive := by decide
  block := fun state => toLeBytes (mixCounter state)
  advance := fun state => (mixCounter state, state.2 + 1)
  length_block := fun state => by simp [toLeBytes]

/-- The digest that the key and the reference leave. -/
def keystreamSeed (masterKey : MasterKey) (refId : String) : UInt64 :=
  fnv1a refId.toUTF8.toList (fnv1a masterKey.bytes 0xcbf29ce484222325)

theorem keystreamFrom_eq_blocks (rounds : ℕ) (hash counter : UInt64) :
    keystreamFrom rounds hash counter = keystreamBlocks.blocks rounds (hash, counter) := by
  induction rounds generalizing hash counter with
  | zero => rfl
  | succ rounds ih =>
    rw [keystreamFrom, BlockStream.blocks, ih]
    rfl

theorem keystream_eq_stream (masterKey : MasterKey) (refId : String) (length : ℕ) :
    keystream masterKey refId length =
      keystreamBlocks.stream (keystreamSeed masterKey refId, 0) length := by
  unfold keystream BlockStream.stream
  dsimp only
  rw [keystreamFrom_eq_blocks]
  rfl

/-- The loop of the source: blocks are appended while the output is too short, then it is cut. -/
theorem keystream_eq_fill (masterKey : MasterKey) (refId : String) (length : ℕ) :
    keystream masterKey refId length =
      (keystreamBlocks.fill length [] (keystreamSeed masterKey refId, 0)).take length := by
  rw [keystream_eq_stream, BlockStream.stream_eq_take_fill]

theorem length_keystream (masterKey : MasterKey) (refId : String) (length : ℕ) :
    (keystream masterKey refId length).length = length := by
  rw [keystream_eq_stream, BlockStream.length_stream]

theorem keystream_prefix (masterKey : MasterKey) (refId : String) {n m : ℕ} (h : n ≤ m) :
    keystream masterKey refId n <+: keystream masterKey refId m := by
  rw [keystream_eq_stream, keystream_eq_stream]
  exact keystreamBlocks.stream_prefix _ h

/-! ## The retired seal -/

def sealLegacy (masterKey : MasterKey) (refId plaintext : String) : List UInt8 :=
  let stream := keystream masterKey refId plaintext.utf8ByteSize
  List.zipWith (· ^^^ ·) plaintext.toUTF8.toList stream

/-- An envelope of version 0. -/
def legacyEnvelope (masterKey : MasterKey) (refId : String) (version : ℕ) (scope : InjectionGrant)
    (value : String) (nonce : Nonce) : SealedSecret where
  refId := refId
  version := version
  scope := scope
  cipherVersion := secretEnvelopeLegacyXor
  nonce := nonce
  ciphertext := sealLegacy masterKey refId value

theorem length_toUTF8_toList (text : String) : text.toUTF8.toList.length = text.utf8ByteSize := by
  rw [← List.size_toByteArray, toByteArray_toList]
  rfl

theorem length_sealLegacy (masterKey : MasterKey) (refId plaintext : String) :
    (sealLegacy masterKey refId plaintext).length = plaintext.utf8ByteSize := by
  unfold sealLegacy
  dsimp only
  rw [List.length_zipWith, length_toUTF8_toList, length_keystream, Nat.min_self]

theorem openLegacy_legacyEnvelope (masterKey : MasterKey) (refId : String) (version : ℕ)
    (scope : InjectionGrant) (value : String) (nonce : Nonce) :
    openLegacy masterKey (legacyEnvelope masterKey refId version scope value nonce) =
      some value := by
  have hstream : value.toUTF8.toList.length ≤
      (keystream masterKey refId value.utf8ByteSize).length := by
    rw [length_toUTF8_toList, length_keystream]
  have hbytes : List.zipWith (· ^^^ ·) (sealLegacy masterKey refId value)
      (keystream masterKey refId value.utf8ByteSize) = value.toUTF8.toList :=
    zipWith_cancel (fun byte key => by rw [UInt8.xor_assoc, UInt8.xor_self, UInt8.xor_zero]) hstream
  unfold openLegacy legacyEnvelope
  dsimp only
  rw [length_sealLegacy, hbytes]
  exact fromUtf8_toUTF8 value

theorem openSecret_legacyEnvelope (C : SecretCipher) (masterKey : MasterKey) (refId : String)
    (version : ℕ) (scope : InjectionGrant) (value : String) (nonce : Nonce) :
    openSecret C masterKey (legacyEnvelope masterKey refId version scope value nonce) =
      some value := by
  have hversion : secretEnvelopeLegacyXor ≠ secretEnvelopeVersion := by decide
  unfold openSecret
  rw [openLegacy_legacyEnvelope]
  exact (if_neg hversion).trans (if_pos rfl)

/-! ## Rotation -/

/-- What rotation asks of the envelope it finds. -/
def SealedSecret.Rotatable (sealed : SealedSecret) (approval : ExplicitApproval) : Prop :=
  (sealed.scope.production = true → approval.isNamedGrant = true) ∧ sealed.version < u64Max

namespace SecretStore

/-- An envelope that opens is sealed anew if it may be rotated; else the store is left. -/
theorem rotate_of_opens {C : SecretCipher} {store : SecretStore} {refId value : String}
    {sealed : SealedSecret} (hstored : store.secrets[refId]? = some sealed)
    (hopens : openSecret C store.masterKey sealed = some value) (approval : ExplicitApproval)
    (actor : String) (time : DateTime) (nonce : Nonce) :
    (sealed.Rotatable approval ∧
        store.rotate C refId approval actor time nonce = ({ store with
          secrets := store.secrets.insert refId
            (envelope C store.masterKey refId (sealed.version + 1) sealed.scope value nonce)
          audit := store.audit ++
            [⟨refId, .rotate, sealed.version + 1, actor, time, approvedBy approval⟩] },
          .ok (sealed.version + 1))) ∨
      (¬ sealed.Rotatable approval ∧
        ∃ fault, store.rotate C refId approval actor time nonce = (store, .error fault)) := by
  have hopened : store.openEnvelope C sealed = .ok value := by
    rw [openEnvelope, hopens]
  unfold rotate
  simp only [hstored, hopened]
  by_cases hproduction : (sealed.scope.production && !approval.isNamedGrant) = true
  · rw [if_pos hproduction]
    refine .inr ⟨fun hrotatable => ?_, _, rfl⟩
    obtain ⟨hscope, hdenied⟩ := Bool.and_eq_true_iff.mp hproduction
    rw [hrotatable.1 hscope] at hdenied
    cases hdenied
  · rw [if_neg hproduction]
    have hgranted : sealed.scope.production = true → approval.isNamedGrant = true := by
      intro hscope
      rw [hscope] at hproduction
      simpa using hproduction
    by_cases hroom : sealed.version < u64Max
    · have hnext : nextVersion sealed.version = .ok (sealed.version + 1) := if_pos hroom
      rw [hnext]
      exact .inl ⟨⟨hgranted, hroom⟩, rfl⟩
    · have hnext : nextVersion sealed.version = .error (.panic addOverflowed) := if_neg hroom
      rw [hnext]
      exact .inr ⟨fun hrotatable => hroom hrotatable.2, _, rfl⟩

end SecretStore

/-- The store holds an envelope of the current version, under this version of the reference, that
opens to the text. -/
def SecretStore.HoldsCurrent (C : SecretCipher) (store : SecretStore) (refId : String) (version : ℕ)
    (text : String) : Prop :=
  ∃ sealed, store.secrets[refId]? = some sealed ∧ sealed.cipherVersion = secretEnvelopeVersion ∧
    sealed.version = version ∧ openSecret C store.masterKey sealed = some text

/-- **Legacy envelopes stay readable**: the key stream, which the loop of the source makes, has the
length it is asked for and begins every longer one; an envelope of version 0 opens to its text; and a
store that holds one rotates it, if rotation is approved and the version has a successor, into an
envelope of version 1 that opens to that text, and is left as it was otherwise. -/
theorem legacy_envelopes_readable (C : SecretCipher)
    (hopens : ∀ key nonce aad message, C.chacha20Poly1305.decrypt key nonce aad
      (C.chacha20Poly1305.encrypt key nonce aad message) = some message) :
    (∀ masterKey refId n,
      keystream masterKey refId n =
        (keystreamBlocks.fill n [] (keystreamSeed masterKey refId, 0)).take n ∧
      (keystream masterKey refId n).length = n ∧
      ∀ m, n ≤ m → keystream masterKey refId n <+: keystream masterKey refId m) ∧
    (∀ masterKey refId version scope text nonce,
      openSecret C masterKey (legacyEnvelope masterKey refId version scope text nonce) =
        some text) ∧
    ∀ (store : SecretStore) (refId : String) (sealed : SealedSecret) (text : String),
      store.secrets[refId]? = some sealed →
      sealed = legacyEnvelope store.masterKey refId sealed.version sealed.scope text sealed.nonce →
      ∀ approval actor time nonce,
        (sealed.Rotatable approval →
          (store.rotate C refId approval actor time nonce).2 = .ok (sealed.version + 1) ∧
            (store.rotate C refId approval actor time nonce).1.HoldsCurrent C refId
              (sealed.version + 1) text) ∧
        (¬ sealed.Rotatable approval →
          ∃ fault, store.rotate C refId approval actor time nonce = (store, .error fault)) := by
  refine ⟨fun masterKey refId n => ⟨keystream_eq_fill masterKey refId n,
    length_keystream masterKey refId n, fun m hle => keystream_prefix masterKey refId hle⟩,
    openSecret_legacyEnvelope C, ?_⟩
  intro store refId sealed text hstored hlegacy approval actor time nonce
  have hread : openSecret C store.masterKey sealed = some text := by
    rw [hlegacy]
    exact openSecret_legacyEnvelope C _ _ _ _ _ _
  obtain ⟨hrotatable, hrotated⟩ | ⟨hrefused, hfault⟩ :=
    SecretStore.rotate_of_opens hstored hread approval actor time nonce
  · refine ⟨fun _ => ?_, fun hrefused => absurd hrotatable hrefused⟩
    rw [hrotated]
    have hput : (store.secrets.insert refId (envelope C store.masterKey refId (sealed.version + 1)
        sealed.scope text nonce))[refId]? = some (envelope C store.masterKey refId
          (sealed.version + 1) sealed.scope text nonce) := by
      rw [treeMap_getElem?_insert, if_pos rfl]
    refine ⟨rfl, _, hput, rfl, rfl, ?_⟩
    unfold openSecret envelope sealSecret
    rw [if_pos rfl, hopens, Option.bind_some]
    exact fromUtf8_toUTF8 text
  · exact ⟨fun hrotatable => absurd hrotatable hrefused, fun _ => hfault⟩

/-- An envelope of version 0 from before the hardening, of the third version of its reference. -/
def retiredPassword : SealedSecret :=
  legacyEnvelope plainKey "db/password" 3 stagingGrant "hunter2" (Vector.replicate 12 0)

def retiredStore : SecretStore := ⟨plainKey, .insert ∅ "db/password" retiredPassword, []⟩

/-- Its rotation needs no approval. -/
theorem legacy_envelopes_readable_password :
    (retiredStore.rotate plainCipher "db/password" (.denied "" "") "ada" 0
      (Vector.replicate 12 7)).1.HoldsCurrent plainCipher "db/password" 4 "hunter2" := by
  have hstored : retiredStore.secrets["db/password"]? = some retiredPassword := by
    unfold retiredStore
    rw [treeMap_getElem?_insert, if_pos rfl]
  have hrotatable : retiredPassword.Rotatable (.denied "" "") := by
    refine ⟨fun hproduction => ?_, by decide⟩
    cases hproduction
  exact (((legacy_envelopes_readable plainCipher (Aead.ideal_plain 32 12).opens).2.2 retiredStore
    "db/password" retiredPassword "hunter2" hstored rfl (.denied "" "") "ada" 0
    (Vector.replicate 12 7)).1 hrotatable).2

end Labrys.Core
