import Labrys.ControlPlane.PreviewManager
import Labrys.Core.Runtime
import Labrys.Foundations.Program

/-! # Container executors

What the control plane asks of a container runtime. An executor is given by its answers, and its calls
are programs over the containers that run. A container that an executor has started runs until it is
stopped or removed, whatever `run` answered about it. -/

namespace Labrys.ControlPlane
open Foundations Labrys.Core
set_option autoImplicit false

inductive RuntimeAvailability
  | available (dockerVersion : String)
  | unavailable (reason : String)
deriving DecidableEq

structure EffectiveLimits where
  cpuMillicpus : UInt32
  memoryMb : UInt32
  timeoutSecs : UInt64
  readonlyRoot : Bool
  network : String
  dropCapabilities : List String
  maxProcesses : UInt32
  portExposed : Bool
deriving DecidableEq

namespace EffectiveLimits

def fromConfig (config : RuntimePlan) : EffectiveLimits where
  cpuMillicpus := config.limits.cpuMillicpus
  memoryMb := config.limits.memoryMb
  timeoutSecs := config.limits.timeoutSecs
  readonlyRoot := config.limits.readonlyRoot
  network := config.limits.network.debug.toLower
  dropCapabilities := config.limits.dropCapabilities
  maxProcesses := config.limits.maxProcesses
  portExposed := config.limits.allowsPortExposure

def summary (limits : EffectiveLimits) : String :=
  s!"cpu={limits.cpuMillicpus}m memory={limits.memoryMb}MiB timeout={limits.timeoutSecs}s " ++
    s!"readonly_root={limits.readonlyRoot} network={limits.network} " ++
    s!"pids={limits.maxProcesses} exposed={limits.portExposed}"

end EffectiveLimits

def enforceLimitsBeforeSchedule (config : RuntimePlan) : Except ControlPlaneError Unit := do
  config.limits.validate.mapError .core
  if config.port = 0 then .error (.execution "execution requires a container port in 1..=65535")

/-- A container started by the executor. -/
structure RunningContainer where
  id : String
  name : String
  hostPort : Option UInt16
deriving DecidableEq

/-- What `run` does: it starts the container that it answers, or it fails, and may have started a
container before it does. -/
inductive RunAnswer
  | started (container : RunningContainer)
  | failed (error : ControlPlaneError) (left : Option String)
deriving DecidableEq

structure ContainerExecutor where
  checkAvailable : RuntimeAvailability
  build (dockerfile context tag : String) (limits : SandboxLimits) (identity : ExecutionIdentity) :
    BuildResult
  answerRun (config : RuntimePlan) (image containerName : String) (identity : ExecutionIdentity) :
    RunAnswer
  health (config : RuntimePlan) (host : String) (port : UInt16) : HealthStatus
  answerStop (containerId : String) : Except ControlPlaneError Unit
  answerRemove (containerId : String) : Except ControlPlaneError Unit

/-- The ids of the containers that run. -/
abbrev Containers := List String

namespace ContainerExecutor
variable (executor : ContainerExecutor)

def run (config : RuntimePlan) (image containerName : String) (identity : ExecutionIdentity) :
    Program Containers ControlPlaneError RunningContainer := fun running =>
  match executor.answerRun config image containerName identity with
  | .started container => (container.id :: running, .ok container)
  | .failed error left => (left.toList ++ running, .error error)

/-- A container that was stopped or removed runs no more. -/
def halted (containerId : String) (answer : Except ControlPlaneError Unit) :
    Program Containers ControlPlaneError Unit := fun running =>
  match answer with
  | .ok () => (running.filter (· ≠ containerId), .ok ())
  | .error error => (running, .error error)

def stop (containerId : String) : Program Containers ControlPlaneError Unit :=
  halted containerId (executor.answerStop containerId)

def remove (containerId : String) : Program Containers ControlPlaneError Unit :=
  halted containerId (executor.answerRemove containerId)

/-- `cleanup` stops and removes; only the removal's answer counts. -/
def cleanup (containerId : String) : Program Containers ControlPlaneError Unit := do
  (executor.stop containerId).dropError
  executor.remove containerId

/-- **A cleanup that succeeds** leaves the containers that ran before, but for its own. -/
theorem cleanup_ok {containerId : String} {running : Containers}
    (h : (executor.cleanup containerId running).2 = .ok ()) :
    (executor.cleanup containerId running).1 = running.filter (· ≠ containerId) := by
  set stopped := (executor.stop containerId running).1 with hstopped
  have hrun : executor.cleanup containerId running = executor.remove containerId stopped :=
    Program.bind_of_ok (m := (executor.stop containerId).dropError) rfl _
  have hfilter : stopped.filter (· ≠ containerId) = running.filter (· ≠ containerId) := by
    rw [hstopped, stop]
    cases executor.answerStop containerId with
    | ok value => exact List.filter_filter.trans (by simp)
    | error error => rfl
  rw [hrun, remove] at h ⊢
  cases hanswer : executor.answerRemove containerId with
  | ok value => exact hfilter
  | error error =>
    rw [hanswer] at h
    cases h

end ContainerExecutor
end Labrys.ControlPlane
