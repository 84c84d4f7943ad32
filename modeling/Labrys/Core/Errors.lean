import Mathlib.Init

/-! # Error values of the two crates, with their texts -/

namespace Labrys.Core
set_option autoImplicit false

inductive CoreError
  | unsupportedVersion (found expected : Nat)
  | invalidManifest (what : String)
  | notFound (what : String)
  | approvalRequired (what : String)
  | secretLeak (what : String)
  | capabilityBinding (what : String)
  | secretNotFound (what : String)
  | reconciliation (what : String)
  | deployment (what : String)
  | verification (what : String)
  | auditIntegrity (what : String)
  | previewUnavailable (what : String)
  | policyDenied (what : String)
  | sessionState (what : String)
  | protocolVersion (found expected : Nat)
  | timeout (what : String)
  | workspaceState (what : String)
  | plugin (what : String)
  | pluginUnavailable (what : String)
  | unsupportedRuntime (what : String)
  | invalidRuntime (what : String)
  | serialization (what : String)
deriving DecidableEq, Repr

def CoreError.display : CoreError → String
  | .unsupportedVersion found expected =>
      s!"unsupported manifest version {found}, expected {expected}"
  | .invalidManifest what => "invalid manifest: " ++ what
  | .notFound what => "application not found: " ++ what
  | .approvalRequired what => "explicit approval required: " ++ what
  | .secretLeak what => "secret value must not enter agent context: " ++ what
  | .capabilityBinding what => "capability binding violation: " ++ what
  | .secretNotFound what => "secret not found: " ++ what
  | .reconciliation what => "reconciliation violation: " ++ what
  | .deployment what => "deployment violation: " ++ what
  | .verification what => "verification violation: " ++ what
  | .auditIntegrity what => "audit integrity violation: " ++ what
  | .previewUnavailable what => "preview unavailable: " ++ what
  | .policyDenied what => "policy denied action: " ++ what
  | .sessionState what => "agent session state violation: " ++ what
  | .protocolVersion found expected =>
      s!"unsupported agent protocol version {found}, expected {expected}"
  | .timeout what => "agent prompt timed out: " ++ what
  | .workspaceState what => "workspace state violation: " ++ what
  | .plugin what => "plugin protocol violation: " ++ what
  | .pluginUnavailable what => "plugin unavailable: " ++ what
  | .unsupportedRuntime what => "unsupported runtime: " ++ what
  | .invalidRuntime what => "invalid runtime configuration: " ++ what
  | .serialization what => "serialization error: " ++ what

inductive ControlPlaneError
  | database (what : String)
  | jobState (what : String)
  | core (error : CoreError)
  | notFound (what : String)
  | secretLeak (field : String)
  | execution (what : String)
  | provider (what : String)
  | domain (what : String)
  | io (what : String)
  | config (what : String)
  | conflict (what : String)
  | registry (what : String)
  | unavailable (what : String)
deriving DecidableEq, Repr

def ControlPlaneError.display : ControlPlaneError → String
  | .database what => "database error: " ++ what
  | .jobState what => "job state violation: " ++ what
  | .core error => "domain error: " ++ error.display
  | .notFound what => "not found: " ++ what
  | .secretLeak field => "secret value rejected before persistence in field '" ++ field ++ "'"
  | .execution what => "container execution error: " ++ what
  | .provider what => "provider error: " ++ what
  | .domain what => "domain delivery error: " ++ what
  | .io what => "io error: " ++ what
  | .config what => "configuration error: " ++ what
  | .conflict what => "generation conflict: " ++ what
  | .registry what => "registry error: " ++ what
  | .unavailable what => "runtime unavailable: " ++ what

/-- How a call can fail to return a value: with an error, or by a panic that unwinds the caller. -/
inductive Fault (ε : Type)
  | err (error : ε)
  | panic (message : String)
deriving DecidableEq, Repr

def Fault.map {ε δ : Type} (f : ε → δ) : Fault ε → Fault δ
  | err error => .err (f error)
  | panic message => .panic message

/-- The panic of a counter that overflows, with overflow checks on. -/
def addOverflowed : String := "attempt to add with overflow"

abbrev Outcome (ε α : Type) := Except (Fault ε) α

end Labrys.Core
