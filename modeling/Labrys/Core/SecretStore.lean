import Labrys.Core.Deployment
import Labrys.Core.Redact
import Labrys.Foundations.Aead
import Labrys.Foundations.Runs
import Labrys.Foundations.Table

/-! # The sealed secret store

Values are held as envelopes under a master key, bound to their reference and version. The cipher,
ChaCha20-Poly1305 under the SHA-256 of the key material, belongs to other crates and is a parameter;
so is every nonce, which the source draws at random. Versions are `u64` and their increment panics
at the end of the range, before anything is written.

* `SecretStore.put`, `inject`, `rotate`, `rotateKey`, `replace`, `delete`: the operations.
* `SecretStore.redact`, `guardText`: the guard on text about to be persisted.
* `openSecret_envelope`: an envelope opens under the key that sealed it. -/

namespace Labrys.Core
open Foundations
set_option autoImplicit false

structure MasterKey where
  bytes : List UInt8
  nonempty : bytes ≠ []

def MasterKey.new (bytes : List UInt8) : Except CoreError MasterKey :=
  if h : bytes = [] then .error (.capabilityBinding "master key must not be empty")
  else .ok ⟨bytes, h⟩

abbrev Nonce := Vector UInt8 12

/-- The two primitives of other crates. -/
structure SecretCipher where
  sha256 : List UInt8 → Vector UInt8 32
  chacha20Poly1305 : Aead.ByteAead 32 12

structure InjectionGrant where
  applicationId : ApplicationId
  environmentName : String
  production : Bool
deriving DecidableEq

structure SealedSecret where
  refId : String
  version : ℕ
  scope : InjectionGrant
  cipherVersion : ℕ
  nonce : Nonce
  ciphertext : List UInt8
deriving DecidableEq

inductive SecretAction
  | store
  | rotate
  | replace
  | delete
deriving DecidableEq

structure SecretAudit where
  refId : String
  action : SecretAction
  version : ℕ
  actor : String
  time : DateTime
  approvedBy : Option String
deriving DecidableEq

def secretEnvelopeLegacyXor : ℕ := 0
def secretEnvelopeVersion : ℕ := 1

/-! ## Envelopes -/

def envelopeAad (refId : String) (version : ℕ) : List UInt8 :=
  s!"labrys-secret v{secretEnvelopeVersion}:{refId}:v{version}".toUTF8.toList

def toLeBytes (n : UInt64) : List UInt8 :=
  (List.range 8).map fun i => (n >>> (8 * i).toUInt64).toUInt8

/-- So many rounds of the key stream's loop. -/
def keystreamFrom : ℕ → UInt64 → UInt64 → List UInt8
  | 0, _, _ => []
  | rounds + 1, hash, counter =>
      let hash := fnv1a (toLeBytes counter) hash
      toLeBytes hash ++ keystreamFrom rounds hash (counter + 1)

def keystream (masterKey : MasterKey) (refId : String) (length : ℕ) : List UInt8 :=
  let hash := fnv1a refId.toUTF8.toList (fnv1a masterKey.bytes 0xcbf29ce484222325)
  (keystreamFrom ((length + 7) / 8) hash 0).take length

def openLegacy (masterKey : MasterKey) (sealed : SealedSecret) : Option String :=
  let stream := keystream masterKey sealed.refId sealed.ciphertext.length
  fromUtf8 (List.zipWith (· ^^^ ·) sealed.ciphertext stream)

section
variable (C : SecretCipher)

def MasterKey.aeadKey (masterKey : MasterKey) : Vector UInt8 32 := C.sha256 masterKey.bytes

def sealSecret (masterKey : MasterKey) (refId : String) (version : ℕ) (plaintext : String)
    (nonce : Nonce) : List UInt8 :=
  C.chacha20Poly1305.encrypt (masterKey.aeadKey C) nonce (envelopeAad refId version)
    plaintext.toUTF8.toList

/-- Readers dispatch on the version of the envelope; writers mint the current one only. -/
def openSecret (masterKey : MasterKey) (sealed : SealedSecret) : Option String :=
  if sealed.cipherVersion = secretEnvelopeVersion then
    (C.chacha20Poly1305.decrypt (masterKey.aeadKey C) sealed.nonce
      (envelopeAad sealed.refId sealed.version) sealed.ciphertext).bind fromUtf8
  else if sealed.cipherVersion = secretEnvelopeLegacyXor then openLegacy masterKey sealed
  else none

/-- The envelope that `put` and both rotations store. -/
def envelope (masterKey : MasterKey) (refId : String) (version : ℕ) (scope : InjectionGrant)
    (value : String) (nonce : Nonce) : SealedSecret where
  refId := refId
  version := version
  scope := scope
  cipherVersion := secretEnvelopeVersion
  nonce := nonce
  ciphertext := sealSecret C masterKey refId version value nonce

end

/-! ## The store -/

structure SecretStore where
  masterKey : MasterKey
  secrets : Std.TreeMap String SealedSecret
  audit : List SecretAudit

/-- `version + 1` of a `u64`. -/
def nextVersion (version : ℕ) : Outcome CoreError ℕ :=
  if version < u64Max then .ok (version + 1) else .error (.panic addOverflowed)

theorem nextVersion_eq_ok_iff {version next : ℕ} :
    nextVersion version = .ok next ↔ version < u64Max ∧ next = version + 1 := by
  unfold nextVersion
  split_ifs with hroom
  · rw [Except.ok.injEq, eq_comm]
    exact (and_iff_right hroom).symm
  · exact iff_of_false (fun h => by cases h) fun h => hroom h.1

def unknownSecret (refId : String) : CoreError := .secretNotFound s!"secret '{refId}' not found"

namespace SecretStore

def new (masterKey : MasterKey) : SecretStore := ⟨masterKey, ∅, []⟩

variable (store : SecretStore)

/-- The sealed secrets in the order of their references. -/
def values : List SealedSecret := store.secrets.toList.map (·.2)

/-- The version that the next value under `refId` takes: the stored one decides, so a reference that
is not stored starts at 1. -/
def mintVersion (refId : String) : Outcome CoreError ℕ :=
  match store.secrets[refId]? with
  | none => .ok 1
  | some sealed => nextVersion sealed.version

variable (C : SecretCipher)

/-- Stores (or replaces) a value under `refId`, scoped to the grant's application environment. -/
def put (refId value : String) (scope : InjectionGrant) (actor : String) (time : DateTime)
    (nonce : Nonce) : SecretStore × Outcome CoreError SealedSecret :=
  if isBlank refId.toList then
    (store, .error (.err (.secretNotFound "secret reference id must not be empty")))
  else
    match store.mintVersion refId with
    | .error fault => (store, .error fault)
    | .ok version =>
        let sealed := envelope C store.masterKey refId version scope value nonce
        ({ store with
            secrets := store.secrets.insert refId sealed
            audit := store.audit ++ [⟨refId, .store, version, actor, time, none⟩] }, .ok sealed)

/-- Opens any envelope under the store's active key. -/
def openEnvelope (sealed : SealedSecret) : Outcome CoreError String :=
  match openSecret C store.masterKey sealed with
  | some value => .ok value
  | none => .error (.err (.verification
      (s!"secret '{sealed.refId}' failed authentication (tampered envelope or wrong key); " ++
        "no plaintext was exposed — re-seal from a trusted source and rotate")))

/-- Reveals a value for a grant that names the environment the secret is scoped to. -/
def inject (grant : InjectionGrant) (refId : String) : Outcome CoreError String :=
  match store.secrets[refId]? with
  | none => .error (.err (unknownSecret refId))
  | some sealed =>
      if sealed.scope.applicationId ≠ grant.applicationId ∨
          sealed.scope.environmentName ≠ grant.environmentName then
        .error (.err (.capabilityBinding
          s!"secret '{refId}' is not authorized for environment '{grant.environmentName}'"))
      else store.openEnvelope C sealed

/-- The approver that an audit record names. -/
def approvedBy (approval : ExplicitApproval) : Option String :=
  if approval.isNamedGrant then some approval.approver else none

/-- Re-seals an existing value under a new version with a fresh nonce. -/
def rotate (refId : String) (approval : ExplicitApproval) (actor : String) (time : DateTime)
    (nonce : Nonce) : SecretStore × Outcome CoreError ℕ :=
  match store.secrets[refId]? with
  | none => (store, .error (.err (unknownSecret refId)))
  | some sealed =>
      if sealed.scope.production && !approval.isNamedGrant then
        (store, .error (.err (.approvalRequired
          (s!"production rotation of secret '{refId}' requires explicit human approval; " ++
            "request a granted named approval and retry"))))
      else
        match store.openEnvelope C sealed with
        | .error fault => (store, .error fault)
        | .ok value =>
            match nextVersion sealed.version with
            | .error fault => (store, .error fault)
            | .ok version =>
                ({ store with
                    secrets := store.secrets.insert refId
                      (envelope C store.masterKey refId version sealed.scope value nonce)
                    audit := store.audit ++
                      [⟨refId, .rotate, version, actor, time, approvedBy approval⟩] }, .ok version)

/-- What key rotation keeps of an opened envelope: reference, next version, scope, value. -/
structure Plaintext where
  refId : String
  version : ℕ
  scope : InjectionGrant
  value : String

/-- The first loop of `rotate_key`: every envelope is opened under the old key, before any state
changes. -/
def openAll : List (String × SealedSecret) → Outcome CoreError (List Plaintext)
  | [] => .ok []
  | (refId, sealed) :: rest =>
      match store.openEnvelope C sealed with
      | .error fault => .error fault
      | .ok value =>
          match nextVersion sealed.version with
          | .error fault => .error fault
          | .ok version =>
              match openAll rest with
              | .error fault => .error fault
              | .ok plaintexts => .ok (⟨refId, version, sealed.scope, value⟩ :: plaintexts)

def Plaintext.reseal (newKey : MasterKey) (nonces : String → Nonce) (plain : Plaintext) :
    String × SealedSecret :=
  (plain.refId, envelope C newKey plain.refId plain.version plain.scope plain.value
    (nonces plain.refId))

/-- Re-seals every live reference under `newKey`, each with the nonce drawn for it, then adopts
`newKey` as the store's active key. -/
def rotateKey (newKey : MasterKey) (approval : ExplicitApproval) (actor : String)
    (time : DateTime) (nonces : String → Nonce) : SecretStore × Outcome CoreError ℕ :=
  let productionRefs := (store.secrets.toList.filter (·.2.scope.production)).map (·.1)
  if productionRefs ≠ [] ∧ approval.isNamedGrant = false then
    let refs := ", ".intercalate productionRefs
    (store, .error (.err (.approvalRequired
      (s!"key rotation over production secrets ({refs}) requires explicit human approval; " ++
        "request a granted named approval and retry"))))
  else
    match store.openAll C store.secrets.toList with
    | .error fault => (store, .error fault)
    | .ok plaintexts =>
        ({ masterKey := newKey
           secrets := store.secrets.insertMany (plaintexts.map (·.reseal C newKey nonces))
           audit := store.audit ++ plaintexts.map fun plain =>
             ⟨plain.refId, .rotate, plain.version, actor, time, approvedBy approval⟩ },
          .ok plaintexts.length)

/-- Replaces a secret value. Production is what the caller's grant says. -/
def replace (refId newValue : String) (grant : InjectionGrant) (approval : ExplicitApproval)
    (actor : String) (time : DateTime) (nonce : Nonce) :
    SecretStore × Outcome CoreError SecretAudit :=
  if grant.production && !approval.isNamedGrant then
    (store, .error (.err (.approvalRequired
      s!"production replacement of secret '{refId}' requires explicit human approval")))
  else if refId ∉ store.secrets then
    (store, .error (.err (.secretNotFound s!"cannot replace unknown secret '{refId}'")))
  else
    match store.put C refId newValue grant actor time nonce with
    | (stored, .error fault) => (stored, .error fault)
    | (stored, .ok sealed) =>
        let audit : SecretAudit :=
          ⟨refId, .replace, sealed.version, actor, time, approvedBy approval⟩
        ({ stored with audit := stored.audit ++ [audit] }, .ok audit)

/-- Deletes a sealed secret; its audit record carries version 0. -/
def delete (refId actor : String) (time : DateTime) : SecretStore × Outcome CoreError Unit :=
  if refId ∉ store.secrets then
    (store, .error (.err (.secretNotFound s!"cannot delete unknown secret '{refId}'")))
  else
    ({ store with
        secrets := store.secrets.erase refId
        audit := store.audit ++ [⟨refId, .delete, 0, actor, time, none⟩] }, .ok ())

/-! ## The guard on text -/

/-- One round of the loop of `redact`: an envelope that does not open is passed over. -/
def redactOne (out : String) (sealed : SealedSecret) : String :=
  match openSecret C store.masterKey sealed with
  | some value =>
      if value ≠ "" ∧ containsText out value then
        replaceText out value s!"[redacted:{sealed.refId}]"
      else out
  | none => out

def redact (text : String) : String := store.values.foldl (store.redactOne C) text

/-- The value of an envelope occurs in the text. -/
def leaks (text : String) (sealed : SealedSecret) : Bool :=
  match openSecret C store.masterKey sealed with
  | some value => value ≠ "" ∧ containsText text value
  | none => false

/-- Redacts known plaintext, then rejects the payload when any known value survives redaction. -/
def guardText (field text : String) : Except CoreError String :=
  let redacted := store.redact C text
  if store.values.any (store.leaks C redacted) then
    .error (.secretLeak s!"secret value rejected before persistence in field '{field}'")
  else .ok redacted

end SecretStore

/-! ## What a sealed envelope is -/

theorem openSecret_envelope {C : SecretCipher} (hideal : C.chacha20Poly1305.Ideal)
    (masterKey : MasterKey) (refId : String) (version : ℕ) (scope : InjectionGrant)
    (value : String) (nonce : Nonce) :
    openSecret C masterKey (envelope C masterKey refId version scope value nonce) = some value := by
  unfold openSecret envelope sealSecret
  rw [if_pos rfl, hideal.opens, Option.bind_some]
  exact fromUtf8_toUTF8 value

end Labrys.Core
