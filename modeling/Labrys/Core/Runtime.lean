import Labrys.Core.Errors

/-! # Runtimes, builds and health -/

namespace Labrys.Core
set_option autoImplicit false

inductive RuntimeKind
  | generic | node | dotNet | python | rust | expo
deriving DecidableEq, Repr

def RuntimeKind.canonicalName : RuntimeKind → String
  | generic => "generic"
  | node => "node"
  | dotNet => "dotnet"
  | python => "python"
  | rust => "rust"
  | expo => "expo"

inductive RuntimeProfile
  | development | production
deriving DecidableEq, Repr

inductive HealthStatus
  | starting
  | healthy
  | unhealthy (reason : String)
  | unknown (reason : String)
deriving DecidableEq, Repr

def HealthStatus.isHealthy (health : HealthStatus) : Bool := health = .healthy

/-- What a deployment reads of its runtime configuration. -/
structure RuntimeConfig where
  kind : RuntimeKind
  profile : RuntimeProfile
  ociImage : Option String
deriving DecidableEq, Repr

/-! ## Sandbox limits -/

inductive SupportTier
  | tier0 | tier1 | tier2 | tier3
deriving DecidableEq, Repr

inductive NetworkMode
  | disabled | isolated | bridged
deriving DecidableEq, Repr

def NetworkMode.debug : NetworkMode → String
  | disabled => "Disabled"
  | isolated => "Isolated"
  | bridged => "Bridged"

structure SandboxLimits where
  cpuMillicpus : UInt32
  memoryMb : UInt32
  timeoutSecs : UInt64
  readonlyRoot : Bool
  network : NetworkMode
  dropCapabilities : List String
  maxProcesses : UInt32
deriving DecidableEq, Repr

namespace SandboxLimits

def dockerDefault : SandboxLimits where
  cpuMillicpus := 1000
  memoryMb := 512
  timeoutSecs := 600
  readonlyRoot := true
  network := .isolated
  dropCapabilities := ["ALL"]
  maxProcesses := 128

def validate (limits : SandboxLimits) : Except CoreError Unit :=
  if limits.cpuMillicpus = 0 then
    .error (.invalidRuntime "sandbox cpu_millicpus must be > 0")
  else if limits.memoryMb = 0 then
    .error (.invalidRuntime "sandbox memory_mb must be > 0")
  else if limits.timeoutSecs = 0 then
    .error (.invalidRuntime "sandbox timeout_secs must be > 0")
  else if limits.maxProcesses = 0 then
    .error (.invalidRuntime "sandbox max_processes must be > 0")
  else .ok ()

def allowsPortExposure (limits : SandboxLimits) : Bool := limits.network ≠ .disabled

end SandboxLimits

/-- A runtime configuration with all that an execution reads of it. -/
structure RuntimePlan extends RuntimeConfig where
  tier : SupportTier
  port : UInt16
  healthcheckPath : Option String
  dockerfile : Option String
  runCommand : List String
  limits : SandboxLimits
deriving DecidableEq, Repr

/-! ## Builds -/

inductive BuildStatus
  | succeeded | failed | cancelled
deriving DecidableEq, Repr

def BuildStatus.debug : BuildStatus → String
  | succeeded => "Succeeded"
  | failed => "Failed"
  | cancelled => "Cancelled"

structure BuildResult where
  status : BuildStatus
  cancelled : Bool
  limitEnforced : Option String
  recovery : Option String
  detail : String
deriving DecidableEq, Repr

namespace BuildResult

def succeeded (detail : String) : BuildResult := ⟨.succeeded, false, none, none, detail⟩

def failed (detail : String) : BuildResult := ⟨.failed, false, none, none, detail⟩

def isSuccess (build : BuildResult) : Bool := build.status = .succeeded

end BuildResult

end Labrys.Core
