import Labrys.Core.Surfaces
import Labrys.Foundations.Program

/-! # Plugins across the process boundary

A plugin is connected by a handshake and called by the control plane, which hands out the call ids,
keeps what is in flight and records how a call ended. The registry keeps one active plugin of a
family. A plugin's version text and its launch command are read by nothing here; the handler of a
call is the plugin's own code, and a parameter.

* `PluginProcess.connect_state`: what a handshake accepts.
* `PluginOp.kept`: an operation keeps the manifest and makes no plugin active.
* `PluginProcess.invoke_cases`: everything a call can do.
-/

namespace Labrys.Core
open Foundations
set_option autoImplicit false

def pluginProtocolVersion : ℕ := 1

def PluginFamily.requiredMethods : PluginFamily → List String
  | agentProvider => ["agent.draft_events", "agent.interrupt"]
  | capabilityProvider => ["capability.plan", "capability.observe"]
  | bindingProvider => ["binding.resolve"]
  | runtimeProvider => ["runtime.detect", "runtime.prepare"]
  | inspectorProvider => ["inspect.snapshot", "inspect.findings"]
  | deployProvider => ["deploy.build", "deploy.rollback"]

structure PluginManifest where
  id : String
  name : String
  family : PluginFamily
  protocolVersion : ℕ
  methods : List String
  capabilities : List String

namespace PluginManifest

def implementsFamily (manifest : PluginManifest) : Bool :=
  manifest.family.requiredMethods.all fun method => manifest.methods.any fun m => m == method

/-- The manifest speaks the protocol and answers every method of its family. -/
structure Speaks (manifest : PluginManifest) : Prop where
  version : manifest.protocolVersion = pluginProtocolVersion
  methods : ∀ method ∈ manifest.family.requiredMethods, method ∈ manifest.methods

end PluginManifest

/-! ## Frames -/

inductive RpcErrorCode
  | parseError | invalidRequest | methodNotFound | invalidParams | internalError
  | pluginUnavailable | cancelled | versionMismatch
deriving DecidableEq

namespace RpcErrorCode

def code : RpcErrorCode → ℤ
  | parseError => -32700
  | invalidRequest => -32600
  | methodNotFound => -32601
  | invalidParams => -32602
  | internalError => -32603
  | pluginUnavailable => -32000
  | cancelled => -32800
  | versionMismatch => -32001

def label : RpcErrorCode → String
  | parseError => "parse_error"
  | invalidRequest => "invalid_request"
  | methodNotFound => "method_not_found"
  | invalidParams => "invalid_params"
  | internalError => "internal_error"
  | pluginUnavailable => "plugin_unavailable"
  | cancelled => "cancelled"
  | versionMismatch => "version_mismatch"

def display (code : RpcErrorCode) : String := s!"{code.code}({code.label})"

end RpcErrorCode

structure RpcError where
  code : RpcErrorCode
  message : String
  recovery : Option String
deriving DecidableEq

namespace RpcError

def new (code : RpcErrorCode) (message : String) : RpcError := ⟨code, message, none⟩

def withRecovery (error : RpcError) (recovery : String) : RpcError :=
  { error with recovery := some recovery }

def fromCoreError : CoreError → RpcError
  | .pluginUnavailable message => new .pluginUnavailable message
  | .plugin message => new .invalidParams message
  | .protocolVersion found expected =>
      new .versionMismatch s!"offered protocol v{found}, control plane speaks v{expected}"
  | other => new .internalError other.display

end RpcError

structure RpcResponse where
  id : UInt64
  result : Option Json
  error : Option RpcError

namespace RpcResponse

def ok (id : UInt64) (result : Json) : RpcResponse := ⟨id, some result, none⟩

def err (id : UInt64) (error : RpcError) : RpcResponse := ⟨id, none, some error⟩

end RpcResponse

structure Handshake where
  pluginId : String
  family : PluginFamily
  negotiatedVersion : ℕ
  methods : List String
  capabilities : List String

/-! ## A plugin process -/

structure PluginProcess where
  manifest : PluginManifest
  state : PluginState
  handshake : Option Handshake
  refusal : Option RpcError
  nextCallId : UInt64
  inFlight : Std.TreeMap UInt64 String
  cancelled : List UInt64
  calls : List (String × UInt64)

namespace PluginProcess

/-- `{:?}` of the missing methods; none of their names needs an escape. -/
def debugMethods (methods : List String) : String :=
  "[" ++ ", ".intercalate (methods.map fun method => "\"" ++ method ++ "\"") ++ "]"

def negotiate (manifest : PluginManifest) : Except CoreError Handshake :=
  if manifest.protocolVersion ≠ pluginProtocolVersion then
    .error (.protocolVersion manifest.protocolVersion pluginProtocolVersion)
  else if isBlank manifest.name.toList then
    .error (.plugin "plugin manifest must name the plugin")
  else if manifest.implementsFamily = false then
    let name := manifest.name
    let family := manifest.family.canonicalName
    let missing := debugMethods (manifest.family.requiredMethods.filter fun method =>
      !manifest.methods.any fun m => m == method)
    .error (.plugin
      s!"plugin '{name}' does not implement its {family} contract, missing {missing}")
  else
    .ok { pluginId := manifest.id, family := manifest.family,
          negotiatedVersion := pluginProtocolVersion, methods := manifest.methods,
          capabilities := manifest.capabilities }

def connect (manifest : PluginManifest) : PluginProcess :=
  match negotiate manifest with
  | .ok handshake =>
      { manifest, state := .active, handshake := some handshake, refusal := none, nextCallId := 1,
        inFlight := ∅, cancelled := [], calls := [] }
  | .error error =>
      { manifest, state := .refused, handshake := none,
        refusal := some (RpcError.fromCoreError error), nextCallId := 1, inFlight := ∅,
        cancelled := [], calls := [] }

def isActive (p : PluginProcess) : Bool := p.state = .active

def family (p : PluginProcess) : PluginFamily := p.manifest.family

def markUnavailable (p : PluginProcess) : PluginProcess :=
  if p.state = .active then { p with state := .unavailable, inFlight := ∅ } else p

def shutdown (p : PluginProcess) : PluginProcess :=
  if p.state ≠ .refused then { p with state := .stopped, inFlight := ∅ } else p

/-- The recovery of a refused plugin is a plain string, so its braces stay in it. -/
def unavailableError (p : PluginProcess) (method : String) : RpcError :=
  let name := p.manifest.name
  let state := p.state.debug
  match p.state with
  | .refused =>
      (RpcError.new .versionMismatch
        ((p.refusal.map RpcError.message).getD "plugin refused at handshake")).withRecovery
        "upgrade the plugin to protocol v\x7bPLUGIN_PROTOCOL_VERSION\x7d"
  | .active =>
      (RpcError.new .internalError
        s!"plugin '{name}' is {state}, cannot invoke '{method}'").withRecovery
        "restart the plugin process or disable it"
  | .unavailable | .stopped =>
      (RpcError.new .pluginUnavailable
        s!"plugin '{name}' is {state}, cannot invoke '{method}'").withRecovery
        "restart the plugin process or disable it"

/-- `id + 1`, which panics at the top of the range. -/
def idAfter (id : UInt64) : Outcome CoreError UInt64 :=
  if id.toNat < u64Max then .ok (id + 1) else .error (.panic addOverflowed)

def invoke (method : String) (params : Json) (handler : String → Json → Except CoreError Json)
    (p : PluginProcess) : PluginProcess × Outcome CoreError RpcResponse :=
  if p.state ≠ .active then (p, .ok (.err p.nextCallId (p.unavailableError method)))
  else
    let id := p.nextCallId
    match idAfter id with
    | .error e => (p, .error e)
    | .ok next =>
        if p.manifest.methods.all (fun m => m != method) then
          let name := p.manifest.name
          ({ p with nextCallId := next }, .ok (.err id
            ((RpcError.new .methodNotFound
              s!"plugin '{name}' does not answer '{method}'").withRecovery
              "check the plugin manifest methods")))
        else
          let begun := { p with nextCallId := next, inFlight := p.inFlight.insert id method }
          let response := match handler method params with
            | .ok result => RpcResponse.ok id result
            | .error e => RpcResponse.err id (RpcError.fromCoreError e)
          ({ begun with
              inFlight := begun.inFlight.erase id, calls := begun.calls ++ [(method, id)] },
            .ok response)

/-- The call is in flight before the next id is computed. -/
def beginCall (id : UInt64) (method : String) (p : PluginProcess) :
    PluginProcess × Outcome CoreError Unit :=
  let begun := { p with inFlight := p.inFlight.insert id method }
  match idAfter id with
  | .error e => (begun, .error e)
  | .ok next => ({ begun with nextCallId := max begun.nextCallId next }, .ok ())

def cancel (id : UInt64) (p : PluginProcess) : PluginProcess × Outcome CoreError Unit :=
  match p.inFlight[id]? with
  | none =>
      let call := id.toNat
      (p, .error (.err (.plugin s!"no in-flight call {call} to cancel")))
  | some method =>
      ({ p with
          inFlight := p.inFlight.erase id, cancelled := p.cancelled ++ [id],
          calls := p.calls ++ [(s!"{method}#cancelled", id)] }, .ok ())

end PluginProcess

/-- What the control plane does with a plugin it has connected. -/
inductive PluginOp
  | invoke (method : String) (params : Json) (handler : String → Json → Except CoreError Json)
  | beginCall (id : UInt64) (method : String)
  | cancel (id : UInt64)
  | markUnavailable
  | shutdown

/-- A call's response, where the operation is a call. -/
abbrev PluginAnswer := Outcome CoreError (Option RpcResponse)

def PluginOp.perform : PluginOp → PluginProcess → PluginProcess × PluginAnswer
  | .invoke method params handler, p =>
      answered (fun answer => answer.map some) (p.invoke method params handler)
  | .beginCall id method, p =>
      answered (fun answer => answer.map fun _ => none) (p.beginCall id method)
  | .cancel id, p => answered (fun answer => answer.map fun _ => none) (p.cancel id)
  | .markUnavailable, p => (p.markUnavailable, .ok none)
  | .shutdown, p => (p.shutdown, .ok none)

/-! ## The registry -/

structure PluginRegistry where
  plugins : Std.TreeMap String PluginProcess

namespace PluginRegistry

def new : PluginRegistry := ⟨∅⟩

def values (r : PluginRegistry) : List PluginProcess := r.plugins.toList.map Prod.snd

def get (r : PluginRegistry) (id : String) : Option PluginProcess := r.plugins[id]?

def put (r : PluginRegistry) (id : String) (p : PluginProcess) : PluginRegistry :=
  ⟨r.plugins.insert id p⟩

/-- A refused plugin is recorded under its id too, in the place of what was there. -/
def register (manifest : PluginManifest) (r : PluginRegistry) :
    PluginRegistry × Except CoreError PluginFamily :=
  let process := PluginProcess.connect manifest
  let family := manifest.family
  match process.refusal with
  | some error => (r.put manifest.id process, .error (.plugin error.message))
  | none =>
      match r.values.find? fun p =>
          p.family = family ∧ p.state = .active ∧ p.manifest.id ≠ manifest.id with
      | some existing =>
          let name := existing.manifest.name
          let label := family.canonicalName
          (r, .error (.plugin s!"family {label} already has an active plugin '{name}'"))
      | none => (r.put manifest.id process, .ok family)

def activeFor (r : PluginRegistry) (family : PluginFamily) : Option PluginProcess :=
  r.values.find? fun p => p.family = family ∧ p.state = .active

def report (r : PluginRegistry) : List PluginReport :=
  r.values.map fun p =>
    { id := p.manifest.id, name := p.manifest.name, family := p.family, state := p.state,
      detail := match p.refusal with
        | some error =>
            let code := error.code.display
            let message := error.message
            s!"{code}: {message}"
        | none =>
            let count := p.manifest.methods.length
            s!"{count} methods" }

end PluginRegistry

/-! ## What each operation does -/

namespace PluginProcess

theorem negotiate_ok {manifest : PluginManifest} {handshake : Handshake}
    (h : negotiate manifest = .ok handshake) : manifest.Speaks := by
  unfold negotiate at h
  split_ifs at h with hversion hname hfamily
  refine ⟨not_not.mp hversion, fun method hmethod => ?_⟩
  have hanswered := List.all_eq_true.mp (Bool.eq_true_of_not_eq_false hfamily) method hmethod
  simpa using hanswered

theorem connect_cases (manifest : PluginManifest) :
    ((connect manifest).state = .active ∧ (connect manifest).refusal = none ∧ manifest.Speaks) ∨
    ((connect manifest).state = .refused ∧ ∃ error, (connect manifest).refusal = some error) := by
  unfold connect
  cases h : negotiate manifest with
  | ok handshake => exact .inl ⟨rfl, rfl, negotiate_ok h⟩
  | error error => exact .inr ⟨rfl, _, rfl⟩

@[simp] theorem connect_manifest (manifest : PluginManifest) :
    (connect manifest).manifest = manifest := by
  unfold connect
  cases negotiate manifest <;> rfl

@[simp] theorem connect_inFlight (manifest : PluginManifest) : (connect manifest).inFlight = ∅ := by
  unfold connect
  cases negotiate manifest <;> rfl

@[simp] theorem connect_calls (manifest : PluginManifest) : (connect manifest).calls = [] := by
  unfold connect
  cases negotiate manifest <;> rfl

theorem idAfter_cases (id : UInt64) :
    (id.toNat = u64Max ∧ idAfter id = .error (.panic addOverflowed)) ∨
    ∃ next, idAfter id = .ok next ∧ next.toNat = id.toNat + 1 := by
  unfold idAfter
  split_ifs with h
  · refine .inr ⟨id + 1, rfl, ?_⟩
    rw [UInt64.toNat_add, UInt64.toNat_one, Nat.mod_eq_of_lt]
    unfold u64Max at h
    omega
  · have htop := id.toNat_lt
    refine .inl ⟨?_, rfl⟩
    unfold u64Max at h ⊢
    omega

/-- Everything a call can do. -/
theorem invoke_cases (method : String) (params : Json)
    (handler : String → Json → Except CoreError Json) (p : PluginProcess) :
    (p.state ≠ .active ∧ ∃ response, response.id = p.nextCallId ∧
      p.invoke method params handler = (p, .ok response)) ∨
    (p.state = .active ∧ p.nextCallId.toNat = u64Max ∧
      p.invoke method params handler = (p, .error (.panic addOverflowed))) ∨
    (p.state = .active ∧ ∃ next response, next.toNat = p.nextCallId.toNat + 1 ∧
      response.id = p.nextCallId ∧
      (p.invoke method params handler = ({ p with nextCallId := next }, .ok response) ∨
       p.invoke method params handler =
        ({ p with
            nextCallId := next
            inFlight := (p.inFlight.insert p.nextCallId method).erase p.nextCallId
            calls := p.calls ++ [(method, p.nextCallId)] }, .ok response))) := by
  by_cases hstate : p.state ≠ .active
  · exact .inl ⟨hstate, _, rfl, if_pos hstate⟩
  · refine .inr ?_
    rw [invoke, if_neg hstate]
    dsimp only
    obtain ⟨htop, hid⟩ | ⟨next, hid, hnext⟩ := idAfter_cases p.nextCallId
    · exact .inl ⟨not_not.mp hstate, htop, by rw [hid]⟩
    · rw [hid]
      refine .inr ⟨not_not.mp hstate, next, ?_⟩
      by_cases hmethod : (p.manifest.methods.all fun m => m != method) = true
      · exact ⟨_, hnext, rfl, .inl (if_pos hmethod)⟩
      · refine ⟨_, hnext, ?_, .inr (if_neg hmethod)⟩
        cases handler method params <;> rfl

end PluginProcess

/-- An operation keeps the manifest and makes no plugin active. -/
theorem PluginOp.kept (op : PluginOp) (p : PluginProcess) :
    (op.perform p).1.manifest = p.manifest ∧
      ((op.perform p).1.state = .active → p.state = .active) := by
  cases op with
  | invoke method params handler =>
    obtain ⟨-, _, -, h⟩ | ⟨-, -, h⟩ | ⟨-, _, _, -, -, h | h⟩ :=
      p.invoke_cases method params handler
    all_goals
      rw [perform, h]
      exact ⟨rfl, id⟩
  | beginCall call method =>
    rw [perform, PluginProcess.beginCall]
    cases PluginProcess.idAfter call <;> exact ⟨rfl, id⟩
  | cancel call =>
    rw [perform, PluginProcess.cancel]
    cases p.inFlight[call]? <;> exact ⟨rfl, id⟩
  | markUnavailable =>
    rw [perform, PluginProcess.markUnavailable]
    split_ifs with h
    · exact ⟨rfl, fun _ => h⟩
    · exact ⟨rfl, id⟩
  | shutdown =>
    rw [perform, PluginProcess.shutdown]
    split_ifs
    · exact ⟨rfl, nofun⟩
    · exact ⟨rfl, id⟩

namespace PluginRegistry

theorem get_put (r : PluginRegistry) (key : String) (p : PluginProcess) (id : String) :
    (r.put key p).get id = if key = id then some p else r.get id :=
  treeMap_getElem?_insert r.plugins key id p

theorem mem_values {r : PluginRegistry} {p : PluginProcess} :
    p ∈ r.values ↔ ∃ id, r.get id = some p :=
  mem_treeMap_values

end PluginRegistry
end Labrys.Core
