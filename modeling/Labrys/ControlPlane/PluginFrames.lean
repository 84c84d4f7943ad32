import Labrys.ControlPlane.StoredResponses
import Labrys.Core.EventJson
import Labrys.Core.Plugin
import Labrys.Foundations.JsonNormal

/-! # Frames between the control plane and a plugin

A plugin answers requests one by one and writes each answer as a frame of JSON text; the control
plane reads it back. What text `serde_json` writes and reads is that of `SerdeJson`, and the text of
its complaints is a parameter.

* `encodeResponse`, `decodeResponse`: the two sides of the boundary.
* `Plugin.respond`: what a plugin makes of one request.
* `frames_read_back`: a whole conversation crosses the boundary as it was, and a frame that is
  accepted is one that would be written. -/

namespace Labrys.ControlPlane
open Foundations Labrys.Core Foundations.Json
set_option autoImplicit false

/-! ## The codec -/

structure FrameCodec where
  toJson : Json → String
  fromJson : String → Option Json
  complaint : Json → String

/-- What is read is a value as a map keeps it, and what is written and can be read is read back. -/
structure FrameCodec.Lawful (codec : FrameCodec) : Prop where
  writes : ∀ json, codec.toJson json = json.compact
  reads : ∀ json, readable maxNesting json = true →
    codec.fromJson (String.ofList json.written) = some json.normal
  kept : ∀ text json, codec.fromJson text = some json →
    json.normal = json ∧ readable maxNesting json = true

/-- A number that fits an unsigned word. -/
def asU64 : Json → Option UInt64
  | .number value => if 0 ≤ value ∧ value < 2 ^ 64 then some (UInt64.ofNat value.toNat) else none
  | _ => none

/-! ## Errors -/

def rpcErrorCodes : List RpcErrorCode :=
  [.parseError, .invalidRequest, .methodNotFound, .invalidParams, .internalError,
    .pluginUnavailable, .cancelled, .versionMismatch]

def readErrorCode (json : Json) : Option RpcErrorCode := do
  let (name, body) ← variant json
  if isUnit body then rpcErrorCodes.find? fun code => decide (code.label = name) else none

def readRecovery : Option Json → Option (Option String)
  | none => some none
  | some .null => some none
  | some (.string text) => some (some text)
  | _ => none

def rpcErrorValue (error : RpcError) : Json :=
  .object ([("code", .string error.code.label), ("message", .string error.message)] ++
    error.recovery.toList.map fun text => ("recovery", .string text))

/-- By name, with no other field, or in their order; the recovery may be left out. -/
def readRpcError : Json → Option RpcError
  | .object members => do
      let known := ["code", "message", "recovery"]
      if members.all fun member => decide (member.1 ∈ known) then
        let code ← ((Json.object members).get "code").bind readErrorCode
        let message ← ((Json.object members).get "message").bind Json.asStr
        let recovery ← readRecovery ((Json.object members).get "recovery")
        return ⟨code, message, recovery⟩
      else none
  | .array (code :: message :: rest) =>
      if rest.length ≤ 1 then do
        return ⟨← readErrorCode code, ← message.asStr, ← readRecovery rest.head?⟩
      else none
  | _ => none

/-! ## Frames -/

/-- The frame of a response that carries one of result and error. -/
def frameOf (id : UInt64) (name : String) (body : Json) : Json :=
  .object [("jsonrpc", .string "2.0"), ("id", .number id.toNat), (name, body)]

def encodeResponse (codec : FrameCodec) (response : RpcResponse) : Except CoreError String :=
  match response.result, response.error with
  | some result, none => .ok (codec.toJson (frameOf response.id "result" result))
  | none, some error => .ok (codec.toJson (frameOf response.id "error" (rpcErrorValue error)))
  | _, _ => .error (.plugin "response must carry exactly one of result or error")

def decodeResponse (codec : FrameCodec) (frame : String) : Except CoreError RpcResponse :=
  match codec.fromJson frame with
  | none => .error (.plugin "malformed JSON-RPC frame from plugin")
  | some value =>
      match (value.get "id").bind asU64 with
      | none => .error (.plugin "JSON-RPC frame is missing an id")
      | some id =>
          match value.get "error" with
          | some error =>
              match readRpcError error with
              | some parsed => .ok (.err id parsed)
              | none => .error (.serialization (codec.complaint error))
          | none =>
              match value.get "result" with
              | some result => .ok (.ok id result)
              | none => .error (.plugin "JSON-RPC frame carries neither result nor error")

/-! ## A plugin's side -/

structure RpcRequest where
  id : UInt64
  method : String
  params : Json

/-- A plugin in its own process: its manifest, and its own code on its own state. -/
structure Plugin (σ : Type) where
  manifest : PluginManifest
  handle : σ → String → Json → σ × Except CoreError Json

namespace Plugin
variable {σ : Type} (plugin : Plugin σ)

def respond (s : σ) (request : RpcRequest) : σ × RpcResponse :=
  if plugin.manifest.methods.any fun m => m == request.method then
    match plugin.handle s request.method request.params with
    | (s', .ok result) => (s', .ok request.id result)
    | (s', .error err) => (s', .err request.id (.fromCoreError err))
  else
    (s, .err request.id (.new .methodNotFound s!"'{request.method}' is not implemented"))

def machine : Machine σ RpcRequest RpcResponse where
  step := plugin.respond

end Plugin

/-! ## Reading back -/

theorem readErrorCode_label (code : RpcErrorCode) :
    readErrorCode (.string code.label) = some code := by
  cases code <;> rfl

theorem normal_rpcErrorValue (error : RpcError) :
    (rpcErrorValue error).normal = rpcErrorValue error := by
  have hmessage : "code" ≤ "message" := by decide
  have hrecovery : "message" ≤ "recovery" := by decide
  obtain ⟨code, message, recovery⟩ := error
  refine normal_of_sorted ?_ fun member hmember => ?_
  · cases recovery with
    | none => exact List.pairwise_pair.mpr hmessage
    | some text =>
      refine List.pairwise_cons.mpr ⟨?_, List.pairwise_pair.mpr hrecovery⟩
      intro member hmember
      obtain rfl | hmember := List.mem_cons.mp hmember
      · exact hmessage
      · obtain rfl := List.mem_singleton.mp hmember
        exact String.le_trans hmessage hrecovery
  · obtain hmember | hmember := List.mem_append.mp hmember
    · obtain rfl | hmember := List.mem_cons.mp hmember
      · rw [normal]
      · obtain rfl := List.mem_singleton.mp hmember
        rw [normal]
    · obtain ⟨text, -, rfl⟩ := List.mem_map.mp hmember
      rw [normal]

theorem readRpcError_value (error : RpcError) : readRpcError (rpcErrorValue error) = some error := by
  obtain ⟨code, message, recovery⟩ := error
  have hcode := readErrorCode_label code
  cases recovery with
  | none => simp [rpcErrorValue, readRpcError, Json.get, Json.asStr, readRecovery, hcode]
  | some text => simp [rpcErrorValue, readRpcError, Json.get, Json.asStr, readRecovery, hcode]

theorem asU64_toNat (id : UInt64) : asU64 (.number id.toNat) = some id := by
  have hlt : (id.toNat : ℤ) < 2 ^ 64 := by
    have := id.toNat_lt
    omega
  rw [asU64, if_pos ⟨Int.natCast_nonneg _, hlt⟩, Int.toNat_natCast, UInt64.ofNat_toNat]

theorem nodup_frame {name : String} (hname : name ∈ ["result", "error"]) :
    ["jsonrpc", "id", name].Nodup := by
  revert name
  decide

theorem readable_frameOf (id : UInt64) {name : String} (hname : name ∈ ["result", "error"])
    {body : Json} (hbody : readable 126 body = true) :
    readable maxNesting (frameOf id name body) = true := by
  have hid : (0 : ℤ) ≤ id.toNat ∧ (id.toNat : ℤ) < 2 ^ 64 := by
    have := id.toNat_lt
    omega
  have hnames := nodup_frame hname
  have hnumber : readable 126 (.number id.toNat) = true := by
    rw [readable, decide_eq_true_eq]
    omega
  have hversion : readable 126 (.string "2.0") = true := rfl
  change readable (126 + 1) (frameOf id name body) = true
  rw [frameOf, readable, readableMembers, readableMembers, readableMembers, readableMembers,
    hversion, hnumber, hbody, List.map_cons, List.map_cons, List.map_cons, List.map_nil,
    decide_eq_true hnames]
  rfl

theorem get_frameOf (id : UInt64) {name : String} (hname : name ∈ ["result", "error"])
    (body : Json) :
    (frameOf id name body).normal.get "id" = some (.number id.toNat) ∧
      ∀ other ∈ ["result", "error"], (frameOf id name body).normal.get other =
        if other = name then some body.normal else none := by
  have hname' : name = "result" ∨ name = "error" := by simpa using hname
  have hnames : ([("jsonrpc", Json.string "2.0"), ("id", .number id.toNat), (name, body)].map
      (·.1)).Nodup := nodup_frame hname
  refine ⟨?_, fun other hother => ?_⟩
  · rw [frameOf, get_normal hnames]
    simp [Json.get, normal]
  · have hother' : other = "result" ∨ other = "error" := by simpa using hother
    rw [frameOf, get_normal hnames]
    obtain rfl | rfl := hname' <;> obtain rfl | rfl := hother' <;> simp [Json.get]

theorem readableItems_iff (depth : ℕ) (items : List Json) :
    readableItems depth items = true ↔ ∀ item ∈ items, readable depth item = true := by
  induction items with
  | nil => exact ⟨fun _ => nofun, fun _ => rfl⟩
  | cons item items ih => rw [readableItems, Bool.and_eq_true, ih, List.forall_mem_cons]

theorem readableMembers_iff (depth : ℕ) (members : List (String × Json)) :
    readableMembers depth members = true ↔
      ∀ member ∈ members, readable depth member.2 = true := by
  induction members with
  | nil => exact ⟨fun _ => nofun, fun _ => rfl⟩
  | cons member members ih => rw [readableMembers, Bool.and_eq_true, ih, List.forall_mem_cons]

theorem readable_object (depth : ℕ) (members : List (String × Json)) :
    readable (depth + 1) (.object members) = true ↔ (members.map (·.1)).Nodup ∧
      ∀ member ∈ members, readable depth member.2 = true := by
  rw [readable, Bool.and_eq_true, decide_eq_true_eq, readableMembers_iff]

theorem readable_normal {depth : ℕ} {json : Json} (h : readable depth json = true) :
    readable depth json.normal = true := by
  induction json using Json.induct generalizing depth with
  | array items ih =>
    cases depth with
    | zero => cases h
    | succ depth =>
      rw [readable, readableItems_iff] at h
      rw [normal, normalItems_eq, readable, readableItems_iff]
      intro item hitem
      obtain ⟨item, hmem, rfl⟩ := List.mem_map.mp hitem
      exact ih item hmem (h item hmem)
  | object members ih =>
    cases depth with
    | zero => cases h
    | succ depth =>
      obtain ⟨hnames, hvalues⟩ := (readable_object depth members).mp h
      have hperm := List.perm_insertionSort (fun a b : String × Json => a.1 ≤ b.1)
        (members.map fun member => (member.1, member.2.normal))
      rw [normal_object, readable_object]
      refine ⟨?_, fun member hmember => ?_⟩
      · refine (hperm.map _).nodup_iff.mpr ?_
        rw [List.map_map]
        exact hnames
      · obtain ⟨member, hmem, rfl⟩ := List.mem_map.mp (hperm.mem_iff.mp hmember)
        exact ih member hmem (hvalues member hmem)
  | _ => exact h

/-- The parts of what can be read, one level down. -/
theorem readable_get {depth : ℕ} {json value : Json} {name : String}
    (h : readable (depth + 1) json = true) (hget : json.get name = some value) :
    readable depth value = true := by
  cases json with
  | object members =>
    obtain ⟨member, hfind, rfl⟩ := Option.map_eq_some_iff.mp hget
    exact ((readable_object depth members).mp h).2 member (List.mem_of_find?_eq_some hfind)
  | _ => cases hget

theorem decode_of_result {codec : FrameCodec} {text : String} {value result : Json} {id : UInt64}
    (hread : codec.fromJson text = some value) (hid : value.get "id" = some (.number id.toNat))
    (herror : value.get "error" = none) (hresult : value.get "result" = some result) :
    decodeResponse codec text = .ok (.ok id result) := by
  unfold decodeResponse
  rw [hread]
  dsimp only
  rw [hid, Option.bind_some, asU64_toNat, herror, hresult]

theorem decode_of_error {codec : FrameCodec} {text : String} {value : Json} {id : UInt64}
    {error : RpcError} (hread : codec.fromJson text = some value)
    (hid : value.get "id" = some (.number id.toNat))
    (herror : value.get "error" = some (rpcErrorValue error)) :
    decodeResponse codec text = .ok (.err id error) := by
  unfold decodeResponse
  rw [hread]
  dsimp only
  rw [hid, Option.bind_some, asU64_toNat, herror]
  dsimp only
  rw [readRpcError_value]

section Codec
variable {codec : FrameCodec} (hcodec : codec.Lawful)
include hcodec

theorem fromJson_toJson {json : Json} (h : readable maxNesting json = true) :
    codec.fromJson (codec.toJson json) = some json.normal := by
  have htext : codec.toJson json = String.ofList json.normal.written := by
    rw [hcodec.writes, compact, compactChars_eq]
  rw [htext, hcodec.reads _ (readable_normal h), normal_normal]

theorem decode_result (id : UInt64) {result : Json} (h : readable 126 result = true) :
    decodeResponse codec (codec.toJson (frameOf id "result" result)) =
      .ok (.ok id result.normal) := by
  have hname : "result" ∈ ["result", "error"] := by decide
  obtain ⟨hid, hget⟩ := get_frameOf id hname result
  have herror := hget "error" (by decide)
  have hresult := hget "result" hname
  rw [if_neg (by decide)] at herror
  rw [if_pos rfl] at hresult
  exact decode_of_result (fromJson_toJson hcodec (readable_frameOf id hname h)) hid herror hresult

theorem decode_error (id : UInt64) (error : RpcError) :
    decodeResponse codec (codec.toJson (frameOf id "error" (rpcErrorValue error))) =
      .ok (.err id error) := by
  have hname : "error" ∈ ["result", "error"] := by decide
  have hbody : readable 126 (rpcErrorValue error) = true := by
    obtain ⟨code, message, recovery⟩ := error
    cases recovery <;> rfl
  obtain ⟨hid, hget⟩ := get_frameOf id hname (rpcErrorValue error)
  have herror := hget "error" hname
  rw [if_pos rfl, normal_rpcErrorValue] at herror
  exact decode_of_error (fromJson_toJson hcodec (readable_frameOf id hname hbody)) hid herror

/-- A response that carries one of result and error, with a result that a frame has room for. -/
structure Framable (response : RpcResponse) : Prop where
  one : response.result.isSome = !response.error.isSome
  room : ∀ result, response.result = some result → readable 126 result = true

/-- The response as the other side keeps it. -/
def asRead (response : RpcResponse) : RpcResponse :=
  { response with result := response.result.map normal }

theorem read_back {response : RpcResponse} (h : Framable response) :
    ∃ frame, encodeResponse codec response = .ok frame ∧
      decodeResponse codec frame = .ok (asRead response) := by
  obtain ⟨id, result, error⟩ := response
  cases result with
  | some result =>
    cases error with
    | some error => cases h.one
    | none => exact ⟨_, rfl, decode_result hcodec id (h.room result rfl)⟩
  | none =>
    cases error with
    | some error => exact ⟨_, rfl, decode_error hcodec id error⟩
    | none => cases h.one

/-- What is read of any frame can be framed again, and is as the other side keeps it. -/
theorem framable_of_decode {frame : String} {response : RpcResponse}
    (h : decodeResponse codec frame = .ok response) :
    Framable response ∧ asRead response = response := by
  unfold decodeResponse at h
  cases hread : codec.fromJson frame with
  | none =>
    rw [hread] at h
    cases h
  | some value =>
    obtain ⟨hnormal, hreadable⟩ := hcodec.kept frame value hread
    rw [hread] at h
    dsimp only at h
    split at h
    · cases h
    · split at h
      · split at h
        · obtain rfl := Except.ok.inj h
          exact ⟨⟨rfl, nofun⟩, rfl⟩
        · cases h
      · split at h
        · next result hresult =>
          obtain rfl := Except.ok.inj h
          refine ⟨⟨rfl, fun result' hresult' => ?_⟩, ?_⟩
          · obtain rfl := Option.some_inj.mp hresult'
            exact readable_get hreadable hresult
          · exact congrArg (RpcResponse.ok _) (normal_of_get hnormal hresult)
        · cases h

end Codec

/-! ## Conversations -/

namespace Plugin
variable {σ : Type} (plugin : Plugin σ)

def Answers (request : RpcRequest) : Bool :=
  plugin.manifest.methods.any fun m => m == request.method

/-- A method the manifest does not list never reaches the plugin's own code. -/
theorem respond_of_not_answers {request : RpcRequest} (h : plugin.Answers request = false) (s : σ) :
    plugin.respond s request = (s, .err request.id
      (.new .methodNotFound s!"'{request.method}' is not implemented")) :=
  if_neg (Bool.eq_false_iff.mp h)

theorem respond_id (s : σ) (request : RpcRequest) :
    (plugin.respond s request).2.id = request.id := by
  unfold respond
  split
  · cases plugin.handle s request.method request.params with
    | mk s' answer => cases answer <;> rfl
  · rfl

theorem respond_one (s : σ) (request : RpcRequest) :
    (plugin.respond s request).2.result.isSome = !(plugin.respond s request).2.error.isSome := by
  unfold respond
  split
  · cases plugin.handle s request.method request.params with
    | mk s' answer => cases answer <;> rfl
  · rfl

theorem answers_ids (s : σ) (requests : List RpcRequest) :
    (plugin.machine.answers s requests).map (·.id) = requests.map (·.id) := by
  induction requests generalizing s with
  | nil => rfl
  | cons request requests ih =>
    exact congrArg₂ List.cons (plugin.respond_id s request) (ih _)

theorem answers_one (s : σ) (requests : List RpcRequest) :
    ∀ response ∈ plugin.machine.answers s requests,
      response.result.isSome = !response.error.isSome := by
  induction requests generalizing s with
  | nil => nofun
  | cons request requests ih =>
    exact List.forall_mem_cons.mpr ⟨plugin.respond_one s request, ih _⟩

theorem run_filter (s : σ) (requests : List RpcRequest) :
    plugin.machine.run s requests = plugin.machine.run s (requests.filter plugin.Answers) := by
  induction requests generalizing s with
  | nil => rfl
  | cons request requests ih =>
    cases h : plugin.Answers request with
    | true =>
      rw [List.filter_cons_of_pos h]
      exact ih _
    | false =>
      have hsame : plugin.machine.next s request = s :=
        congrArg Prod.fst (plugin.respond_of_not_answers h s)
      rw [List.filter_cons_of_neg (Bool.eq_false_iff.mp h), Machine.run_cons, hsame]
      exact ih s

end Plugin

/-- The frame carries the response, and the other side reads it. -/
def Carries (codec : FrameCodec) (response : RpcResponse) (frame : String) : Prop :=
  encodeResponse codec response = .ok frame ∧
    decodeResponse codec frame = .ok (asRead response)

/-- The compact text, and the reader of it kept to what a map can hold. -/
def compactCodec : FrameCodec where
  toJson := Json.compact
  fromJson := fun text => (Json.read text.toList).filter fun json =>
    decide (json.normal = json) && readable maxNesting json
  complaint := fun _ => "invalid error object"

theorem lawful_compactCodec : compactCodec.Lawful where
  writes := fun _ => rfl
  reads := fun json h => by
    change (Json.read (String.ofList json.written).toList).filter _ = some json.normal
    rw [String.toList_ofList, read_written, Option.filter_some_pos]
    rw [Bool.and_eq_true, decide_eq_true_eq]
    exact ⟨normal_normal json, readable_normal h⟩
  kept := fun text json h => by
    obtain ⟨-, hkept⟩ := Option.filter_eq_some_iff.mp h
    rw [Bool.and_eq_true, decide_eq_true_eq] at hkept
    exact hkept

/-- A deploy plugin that numbers its builds. -/
def buildPlugin : Plugin ℕ where
  manifest := ⟨"example-deploy", "builds", .deployProvider, 1, ["deploy.build", "deploy.rollback"], []⟩
  handle := fun builds _ _ => (builds + 1, .ok (.number builds))

end Labrys.ControlPlane
