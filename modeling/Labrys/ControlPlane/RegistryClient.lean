import Labrys.ControlPlane.RegistryReferences
import Labrys.Foundations.Dialogue

/-! # The registry client

A push asks a registry for an upload, uploads the config blob there, and puts the manifest under its
tag; what the registry answers decides how far it gets. The client is a dialogue over requests and
answers, so its results hold against any registry, and with anybody else talking to it.

* `OciRegistryClient.pushBytes`, `fetchDigest`, `pull`: the three entry points.
* `push_exchanges`: what is on the wire at any moment of a push, and what a finished push has seen.
-/

namespace Labrys.ControlPlane
open Foundations Labrys.Core
set_option autoImplicit false

/-! ## Artifacts -/

def DIGEST_MISMATCH_RECOVERY : String :=
  "registry digest differs from the recorded build artifact; do not promote. Re-push the " ++
    "verified production image and re-verify the digest before deploying"

structure RegistryArtifact where
  reference : String
  digest : String
  revisionSha : String
  verifiedProductionBuild : Bool
deriving DecidableEq

def RegistryArtifact.isDigestAddressable (artifact : RegistryArtifact) : Bool :=
  "sha256:".toList.isPrefixOf artifact.digest.toList && artifact.reference ≠ ""

def gateRegistryPush (artifact : RegistryArtifact) : Except CoreError Unit :=
  if artifact.verifiedProductionBuild = false then
    .error (.deployment ("registry push requires a verified production build; development or " ++
      "unverified artifacts are refused"))
  else if artifact.isDigestAddressable = false then
    .error (.deployment
      s!"registry push refused for non-digest-addressable artifact '{artifact.reference}'")
  else .ok ()

def verifyRegistryDigest (expected reported : String) : Except CoreError Unit :=
  if expected = reported then .ok ()
  else .error (.deployment (s!"registry digest mismatch: recorded {expected} but registry " ++
    s!"reported {reported}. {DIGEST_MISMATCH_RECOVERY}"))

theorem gateRegistryPush_ok_iff {artifact : RegistryArtifact} : gateRegistryPush artifact = .ok () ↔
    artifact.verifiedProductionBuild = true ∧ artifact.isDigestAddressable = true := by
  unfold gateRegistryPush
  cases artifact.verifiedProductionBuild <;> cases artifact.isDigestAddressable <;> simp

theorem verifyRegistryDigest_ok_iff {expected reported : String} :
    verifyRegistryDigest expected reported = .ok () ↔ expected = reported := by
  unfold verifyRegistryDigest
  split <;> simp [*]

/-! ## The wire -/

abbrev Bytes := List UInt8

inductive HttpMethod
  | get
  | post
  | put
deriving DecidableEq

structure HttpRequest where
  method : HttpMethod
  url : String
  basicAuth : Option (String × Option String)
  headers : List (String × String)
  body : Bytes
deriving DecidableEq

/-- A status code and the way it is printed. -/
structure StatusCode where
  code : ℕ
  display : String
deriving DecidableEq

def StatusCode.isSuccess (status : StatusCode) : Bool := 200 ≤ status.code && status.code < 300

/-- Header names are in lower case; a body that cannot be read is `none`. -/
structure HttpResponse where
  status : StatusCode
  headers : List (String × Bytes)
  body : Option String
deriving DecidableEq

/-- A header's value as text: visible ASCII and tabs. -/
def headerText (value : Bytes) : Option String :=
  if value.all fun b => (32 ≤ b && b < 127) || b == 9 then
    some (String.ofList (value.map fun b => Char.ofNat b.toNat))
  else none

def HttpResponse.header (response : HttpResponse) (name : String) : Option String :=
  (response.headers.lookup name).bind headerText

/-- What comes back of a request: a response, or the text of a failed transport. -/
abbrev HttpAnswer := Except String HttpResponse

abbrev Exchange := HttpRequest × HttpAnswer

abbrev Wire (α : Type) := Dialogue HttpRequest HttpAnswer ControlPlaneError α

/-! ## The client -/

def OCI_MANIFEST_MEDIA_TYPE : String := "application/vnd.oci.image.manifest.v1+json"

structure OciRegistryClient where
  endpoint : String
  username : Option String
  password : Option String
deriving DecidableEq

namespace OciRegistryClient

def new (endpoint : String) (username password : Option String) :
    Except ControlPlaneError OciRegistryClient :=
  let endpoint := (endpoint.toList.reverse.dropWhile fun c => c = '/').reverse
  if "http://".toList.isPrefixOf endpoint || "https://".toList.isPrefixOf endpoint then
    .ok ⟨String.ofList endpoint, username, password⟩
  else .error (.config "OCI registry endpoint must be an http(s) URL")

variable (client : OciRegistryClient)

def credentialSecrets : List String :=
  match client.password with
  | some password => if password ≠ "" then [password] else []
  | none => []

def scrub (text : String) : String := redactReason text client.credentialSecrets

def authed : Option (String × Option String) :=
  match client.username, client.password with
  | some user, some pass => some (user, some pass)
  | some user, none => some (user, none)
  | _, _ => none

def checkStatus (response : HttpResponse) (action : String) :
    Except ControlPlaneError HttpResponse :=
  if response.status.isSuccess then .ok response
  else
    let body := String.ofList ((response.body.getD "").toList.take 300)
    .error (.registry
      (client.scrub s!"registry {action} failed with {response.status.display}: {body}"))

def join (location : String) : String :=
  if "http://".toList.isPrefixOf location.toList || "https://".toList.isPrefixOf location.toList then
    location
  else client.endpoint ++ location

/-- A request that is sent, and whose answer must be a response of success. -/
def exchange (action : String) (request : HttpRequest) : Wire HttpResponse := do
  let answer ← Dialogue.send request
  let response ← Dialogue.ofExcept (answer.mapError fun err =>
    ControlPlaneError.registry (client.scrub s!"{action} failed: {err}"))
  Dialogue.ofExcept (client.checkStatus response action)

/-! ## Requests -/

def initiation (name : String) : HttpRequest :=
  ⟨.post, s!"{client.endpoint}/v2/{name}/blobs/uploads/", client.authed, [], []⟩

def blobUpload (location configDigest : String) (config : Bytes) : HttpRequest :=
  let separator := if '?' ∈ (client.join location).toList then "&" else "?"
  ⟨.put, s!"{client.join location}{separator}digest={configDigest}", client.authed,
    [("content-type", "application/octet-stream")], config⟩

def manifestPush (name tag : String) (manifest : Bytes) : HttpRequest :=
  ⟨.put, manifestUrl client.endpoint name tag, client.authed,
    [("content-type", OCI_MANIFEST_MEDIA_TYPE)], manifest⟩

def manifestFetch (name tag : String) : HttpRequest :=
  ⟨.get, manifestUrl client.endpoint name tag, client.authed,
    [("accept", OCI_MANIFEST_MEDIA_TYPE)], []⟩

end OciRegistryClient

/-! ## Digests -/

/-- Lower-case hexadecimal, two digits a byte. -/
def hexOf (bytes : Bytes) : String := String.join (bytes.map fun b => hexDigits 2 b.toNat)

variable (sha256 : Bytes → Bytes)

def sha256Hex (bytes : Bytes) : String := hexOf (sha256 bytes)

/-- The digest a registry knows content by. -/
def contentDigest (bytes : Bytes) : String := s!"sha256:{sha256Hex sha256 bytes}"

def requireManifest (manifest : Bytes) : Except ControlPlaneError Unit :=
  if manifest = [] then .error (.registry "registry push requires manifest bytes") else .ok ()

def defaultTag (artifact : RegistryArtifact) : String :=
  let defaultTag := String.ofList (artifact.revisionSha.toList.take 12)
  if defaultTag = "" then "latest" else defaultTag

def uploadLocation (response : HttpResponse) : Except ControlPlaneError String :=
  match response.header "location" with
  | some location => .ok location
  | none => .error (.registry "registry omitted the upload Location header")

def omittedDigest : ControlPlaneError :=
  .registry "registry omitted the Docker-Content-Digest header"

def reportedDigest (response : HttpResponse) : Except ControlPlaneError String :=
  let reported := (response.header "docker-content-digest").getD ""
  if reported = "" then .error omittedDigest else .ok reported

namespace OciRegistryClient
variable (client : OciRegistryClient)

/-- Computed, reported and recorded digest must all agree. -/
def verifyPushed (artifact : RegistryArtifact) (manifest : Bytes) (reported : String) :
    Except ControlPlaneError String := do
  (verifyRegistryDigest (contentDigest sha256 manifest) reported).mapError fun err =>
    .registry (client.scrub err.display)
  (verifyRegistryDigest artifact.digest reported).mapError fun err =>
    .registry (client.scrub err.display)
  return reported

/-- What is decided before anything is sent: the repository and the tag. -/
def target (artifact : RegistryArtifact) (manifest : Bytes) :
    Except ControlPlaneError (String × String) := do
  (gateRegistryPush artifact).mapError fun err => .registry err.display
  requireManifest manifest
  referenceParts artifact.reference (defaultTag artifact)

def pushBytes (artifact : RegistryArtifact) (manifest config : Bytes) : Wire String := do
  let parts ← Dialogue.ofExcept (target artifact manifest)
  let initiated ← client.exchange "blob upload initiation" (client.initiation parts.1)
  let location ← Dialogue.ofExcept (uploadLocation initiated)
  let _ ← client.exchange "blob upload"
    (client.blobUpload location (contentDigest sha256 config) config)
  let pushed ← client.exchange "manifest push" (client.manifestPush parts.1 parts.2 manifest)
  let reported ← Dialogue.ofExcept (reportedDigest pushed)
  Dialogue.ofExcept (client.verifyPushed sha256 artifact manifest reported)

def fetchedDigest (response : HttpResponse) : Except ControlPlaneError String :=
  match (response.header "docker-content-digest").filter fun digest => digest ≠ "" with
  | some digest => .ok digest
  | none => .error omittedDigest

def fetchDigest (reference tag : String) : Wire String := do
  let parts ← Dialogue.ofExcept (referenceParts reference tag)
  let response ← client.exchange "manifest fetch" (client.manifestFetch parts.1 tag)
  Dialogue.ofExcept (fetchedDigest response)

def pull (reference : String) : Wire String := do
  let parts ← Dialogue.ofExcept (referenceParts reference "latest")
  client.fetchDigest parts.1 parts.2

/-! ## What is on the wire -/

/-- A response of success came back. -/
def Accepts (answer : HttpAnswer) (response : HttpResponse) : Prop :=
  answer = .ok response ∧ response.status.isSuccess = true

variable {client}

theorem checkStatus_ok_iff {response checked : HttpResponse} {action : String} :
    client.checkStatus response action = .ok checked ↔
      response = checked ∧ response.status.isSuccess = true := by
  unfold checkStatus
  cases response.status.isSuccess <;> simp

/-- An exchange returns exactly if the answer is a response of success. -/
theorem talk_bind_exchange {α : Type} {action : String} {request : HttpRequest}
    {f : HttpResponse → Wire α} {exchanges : List Exchange} {a : α} :
    (client.exchange action request >>= f).Talk exchanges (.ok a) ↔
      ∃ response rest, exchanges = (request, .ok response) :: rest ∧
        response.status.isSuccess = true ∧ (f response).Talk rest (.ok a) := by
  change (Dialogue.ask request fun answer => _).Talk exchanges (.ok a) ↔ _
  rw [Dialogue.talk_ask]
  constructor
  · rintro ⟨answer, rest, rfl, h⟩
    cases answer with
    | error err =>
      obtain ⟨-, hend⟩ := Dialogue.talk_done.mp h
      cases hend
    | ok response =>
      change ((Dialogue.ofExcept (client.checkStatus response action) : Wire HttpResponse) >>=
        f).Talk rest (.ok a) at h
      obtain ⟨checked, hchecked, hrest⟩ := Dialogue.talk_bind_ofExcept.mp h
      obtain ⟨rfl, hsuccess⟩ := checkStatus_ok_iff.mp hchecked
      exact ⟨response, rest, rfl, hsuccess, hrest⟩
  · rintro ⟨response, rest, rfl, hsuccess, h⟩
    exact ⟨.ok response, rest, rfl,
      Dialogue.talk_bind_ofExcept.mpr ⟨response, checkStatus_ok_iff.mpr ⟨rfl, hsuccess⟩, h⟩⟩

/-- Whatever follows an exchange follows a response of success. -/
theorem leads_bind_exchange {α : Type} {action : String} {request : HttpRequest}
    {f : HttpResponse → Wire α} {exchanges : List Exchange} {rest : Wire α}
    (h : (client.exchange action request >>= f).Leads exchanges rest) :
    exchanges = [] ∨ ∃ answer tail, exchanges = (request, answer) :: tail ∧
      (tail = [] ∨ ∃ response, Accepts answer response ∧ (f response).Leads tail rest) := by
  change (Dialogue.ask request fun answer => _).Leads exchanges rest at h
  obtain rfl | ⟨answer, tail, rfl, hnext⟩ := Dialogue.leads_ask h
  · exact .inl rfl
  · refine .inr ⟨answer, tail, rfl, ?_⟩
    cases answer with
    | error err => exact .inl (Dialogue.leads_of_done hnext)
    | ok response =>
      change ((Dialogue.ofExcept (client.checkStatus response action) : Wire HttpResponse) >>=
        f).Leads tail rest at hnext
      obtain rfl | ⟨checked, hchecked, hrest⟩ := Dialogue.leads_bind_ofExcept hnext
      · exact .inl rfl
      · obtain ⟨rfl, hsuccess⟩ := checkStatus_ok_iff.mp hchecked
        exact .inr ⟨response, ⟨rfl, hsuccess⟩, hrest⟩

theorem verifyPushed_ok_iff {artifact : RegistryArtifact} {manifest : Bytes}
    {reported digest : String} :
    client.verifyPushed sha256 artifact manifest reported = .ok digest ↔
      contentDigest sha256 manifest = reported ∧ artifact.digest = reported ∧
        digest = reported := by
  unfold verifyPushed
  by_cases hcomputed : contentDigest sha256 manifest = reported
  · rw [verifyRegistryDigest_ok_iff.mpr hcomputed]
    by_cases hrecorded : artifact.digest = reported
    · rw [verifyRegistryDigest_ok_iff.mpr hrecorded]
      constructor
      · intro h
        exact ⟨hcomputed, hrecorded, (Except.ok.inj h).symm⟩
      · rintro ⟨-, -, rfl⟩
        rfl
    · rw [verifyRegistryDigest, if_neg hrecorded]
      exact iff_of_false nofun fun h => hrecorded h.2.1
  · rw [verifyRegistryDigest, if_neg hcomputed]
    exact iff_of_false nofun fun h => hcomputed h.1

theorem target_ok {artifact : RegistryArtifact} {manifest : Bytes} {parts : String × String} :
    target artifact manifest = .ok parts ↔
      artifact.verifiedProductionBuild = true ∧ artifact.isDigestAddressable = true ∧
        manifest ≠ [] ∧ referenceParts artifact.reference (defaultTag artifact) = .ok parts := by
  unfold target requireManifest
  by_cases hgate : gateRegistryPush artifact = .ok ()
  · obtain ⟨hverified, haddressable⟩ := gateRegistryPush_ok_iff.mp hgate
    rw [hgate]
    by_cases hmanifest : manifest = []
    · rw [if_pos hmanifest]
      exact iff_of_false nofun fun h => h.2.2.1 hmanifest
    · rw [if_neg hmanifest]
      constructor
      · intro h
        exact ⟨hverified, haddressable, hmanifest, h⟩
      · intro h
        exact h.2.2.2
  · have hrefused : ¬ (artifact.verifiedProductionBuild = true ∧
        artifact.isDigestAddressable = true) := fun h => hgate (gateRegistryPush_ok_iff.mpr h)
    cases hresult : gateRegistryPush artifact with
    | ok _ => exact absurd hresult hgate
    | error err => exact iff_of_false nofun fun h => hrefused ⟨h.1, h.2.1⟩

/-! ## A push, at any moment and at its end -/

/-- The exchanges of a push that has got so far: each request is sent only when a response of
success has come back of the one before. -/
inductive Pushing (client : OciRegistryClient) (artifact : RegistryArtifact)
    (manifest config : Bytes) : List Exchange → Prop
  | silent : Pushing client artifact manifest config []
  | initiated {parts answer} (htarget : target artifact manifest = .ok parts) :
      Pushing client artifact manifest config [(client.initiation parts.1, answer)]
  | uploaded {parts first location answer} (htarget : target artifact manifest = .ok parts)
      (hfirst : first.status.isSuccess = true) (hlocation : uploadLocation first = .ok location) :
      Pushing client artifact manifest config [(client.initiation parts.1, .ok first),
        (client.blobUpload location (contentDigest sha256 config) config, answer)]
  | pushed {parts first location second answer} (htarget : target artifact manifest = .ok parts)
      (hfirst : first.status.isSuccess = true) (hlocation : uploadLocation first = .ok location)
      (hsecond : second.status.isSuccess = true) :
      Pushing client artifact manifest config [(client.initiation parts.1, .ok first),
        (client.blobUpload location (contentDigest sha256 config) config, .ok second),
        (client.manifestPush parts.1 parts.2 manifest, answer)]

/-- The exchanges of a push that the registry let through and whose digest it reported. -/
structure Pushed (client : OciRegistryClient) (artifact : RegistryArtifact)
    (manifest config : Bytes) (exchanges : List Exchange) (digest : String) : Prop where
  verified : artifact.verifiedProductionBuild = true
  addressable : artifact.isDigestAddressable = true
  nonempty : manifest ≠ []
  computed : digest = contentDigest sha256 manifest
  recorded : digest = artifact.digest
  wire : ∃ name tag first location second third,
    referenceParts artifact.reference (defaultTag artifact) = .ok (name, tag) ∧
      first.status.isSuccess = true ∧ uploadLocation first = .ok location ∧
      second.status.isSuccess = true ∧ third.status.isSuccess = true ∧
      third.header "docker-content-digest" = some digest ∧
      exchanges = [(client.initiation name, .ok first),
        (client.blobUpload location (contentDigest sha256 config) config, .ok second),
        (client.manifestPush name tag manifest, .ok third)]

theorem pushing_of_leads {artifact : RegistryArtifact} {manifest config : Bytes}
    {exchanges : List Exchange} {rest : Wire String}
    (h : (client.pushBytes sha256 artifact manifest config).Leads exchanges rest) :
    Pushing sha256 client artifact manifest config exchanges := by
  unfold pushBytes at h
  obtain rfl | ⟨parts, htarget, h1⟩ := Dialogue.leads_bind_ofExcept h
  · exact .silent
  obtain rfl | ⟨answer, tail, rfl, rfl | ⟨first, ⟨rfl, hfirst⟩, h2⟩⟩ := leads_bind_exchange h1
  · exact .silent
  · exact .initiated htarget
  obtain rfl | ⟨location, hlocation, h3⟩ := Dialogue.leads_bind_ofExcept h2
  · exact .initiated htarget
  obtain rfl | ⟨answer, tail, rfl, rfl | ⟨second, ⟨rfl, hsecond⟩, h4⟩⟩ := leads_bind_exchange h3
  · exact .initiated htarget
  · exact .uploaded htarget hfirst hlocation
  obtain rfl | ⟨answer, tail, rfl, rfl | ⟨third, -, h5⟩⟩ := leads_bind_exchange h4
  · exact .uploaded htarget hfirst hlocation
  · exact .pushed htarget hfirst hlocation hsecond
  obtain rfl | ⟨reported, -, h6⟩ := Dialogue.leads_bind_ofExcept h5
  · exact .pushed htarget hfirst hlocation hsecond
  obtain rfl : tail = [] := Dialogue.leads_of_done h6
  exact .pushed htarget hfirst hlocation hsecond

theorem reportedDigest_ok_iff {response : HttpResponse} {reported : String} :
    reportedDigest response = .ok reported ↔
      response.header "docker-content-digest" = some reported ∧ reported ≠ "" := by
  unfold reportedDigest
  cases response.header "docker-content-digest" with
  | none => simp
  | some digest =>
    by_cases hdigest : digest = ""
    · subst hdigest
      simp
    · simp only [Option.getD_some, hdigest, if_false, Except.ok.injEq, Option.some.injEq]
      constructor
      · rintro rfl
        exact ⟨rfl, hdigest⟩
      · exact And.left

theorem contentDigest_ne_empty (bytes : Bytes) : contentDigest sha256 bytes ≠ "" := by
  intro h
  have htext : ("sha256:" ++ sha256Hex sha256 bytes).toList = [] := congrArg String.toList h
  rw [String.toList_append] at htext
  exact absurd (List.append_eq_nil_iff.mp htext).1 (by decide)

theorem pushed_iff_talk {artifact : RegistryArtifact} {manifest config : Bytes}
    {exchanges : List Exchange} {digest : String} :
    (client.pushBytes sha256 artifact manifest config).Talk exchanges (.ok digest) ↔
      Pushed sha256 client artifact manifest config exchanges digest := by
  unfold pushBytes
  rw [Dialogue.talk_bind_ofExcept]
  constructor
  · rintro ⟨⟨name, tag⟩, htarget, h⟩
    obtain ⟨hverified, haddressable, hnonempty, hparts⟩ := target_ok.mp htarget
    obtain ⟨first, rest, rfl, hfirst, h⟩ := talk_bind_exchange.mp h
    obtain ⟨location, hlocation, h⟩ := Dialogue.talk_bind_ofExcept.mp h
    obtain ⟨second, rest, rfl, hsecond, h⟩ := talk_bind_exchange.mp h
    obtain ⟨third, rest, rfl, hthird, h⟩ := talk_bind_exchange.mp h
    obtain ⟨reported, hreported, h⟩ := Dialogue.talk_bind_ofExcept.mp h
    obtain ⟨rfl, hverify⟩ := Dialogue.talk_ofExcept.mp h
    obtain ⟨hcomputed, hrecorded, rfl⟩ := (verifyPushed_ok_iff sha256).mp hverify.symm
    exact ⟨hverified, haddressable, hnonempty, hcomputed.symm, hrecorded.symm, name, tag, first,
      location, second, third, hparts, hfirst, hlocation, hsecond, hthird,
      (reportedDigest_ok_iff.mp hreported).1, rfl⟩
  · rintro ⟨hverified, haddressable, hnonempty, hcomputed, hrecorded, name, tag, first, location,
      second, third, hparts, hfirst, hlocation, hsecond, hthird, hheader, rfl⟩
    have htarget := target_ok.mpr ⟨hverified, haddressable, hnonempty, hparts⟩
    have hreported : reportedDigest third = .ok digest :=
      reportedDigest_ok_iff.mpr ⟨hheader, hcomputed ▸ contentDigest_ne_empty sha256 manifest⟩
    have hverify : client.verifyPushed sha256 artifact manifest digest = .ok digest :=
      (verifyPushed_ok_iff sha256).mpr ⟨hcomputed.symm, hrecorded.symm, rfl⟩
    refine ⟨(name, tag), htarget, ?_⟩
    refine talk_bind_exchange.mpr ⟨first, _, rfl, hfirst, ?_⟩
    refine Dialogue.talk_bind_ofExcept.mpr ⟨location, hlocation, ?_⟩
    refine talk_bind_exchange.mpr ⟨second, _, rfl, hsecond, ?_⟩
    refine talk_bind_exchange.mpr ⟨third, [], rfl, hthird, ?_⟩
    refine Dialogue.talk_bind_ofExcept.mpr ⟨digest, hreported, ?_⟩
    exact Dialogue.talk_ofExcept.mpr ⟨rfl, hverify.symm⟩

/-- **A push on the wire.** Whatever the registry answers, and wherever the push is cut off, what
was sent is a push that got so far; and it returns a digest exactly after a push that the registry
let through, whose manifest has that digest, as recorded and as reported. -/
theorem push_exchanges (client : OciRegistryClient) (artifact : RegistryArtifact)
    (manifest config : Bytes) :
    (∀ exchanges rest, (client.pushBytes sha256 artifact manifest config).Leads exchanges rest →
      Pushing sha256 client artifact manifest config exchanges) ∧
    ∀ exchanges digest,
      (client.pushBytes sha256 artifact manifest config).Talk exchanges (.ok digest) ↔
        Pushed sha256 client artifact manifest config exchanges digest :=
  ⟨fun _ _ => pushing_of_leads sha256, fun _ _ => pushed_iff_talk sha256⟩

end OciRegistryClient
end Labrys.ControlPlane
