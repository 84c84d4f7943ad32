import Labrys.Core.Ids
import Labrys.Core.Time
import Labrys.Foundations.Text

/-! # Platform events and approvals

Who did what to which resource, tied together by a trace, and who approved it. A draft is what
callers hand to the event store; its free text is redacted there. -/

namespace Labrys.Core
open Foundations
set_option autoImplicit false

/-! ## Events -/

structure Correlation where
  traceId : String
  sessionId : Option AgentSessionId
  applicationId : Option ApplicationId
  environmentId : Option EnvironmentId
deriving DecidableEq

def Correlation.new (traceId : String) : Correlation := ⟨traceId, none, none, none⟩

inductive EventActor
  | agent (sessionId : AgentSessionId) (name : String)
  | platform (name : String)
  | human (name : String)
  | provider (name : String)
deriving DecidableEq

inductive EventAction
  | capabilityRequested | capabilityDecision | resourceProvisioned | secretRotated
  | secretReplaced | buildStarted | buildFinished | deploymentRolledOut | deploymentRolledBack
  | domainChanged | healthProbed | reconciled | verificationFinished | approvalRequested
  | approvalDecided
deriving DecidableEq

structure EventResource where
  kind : String
  id : String
deriving DecidableEq

inductive EventResult
  | accepted
  | denied
  | succeeded
  | failed (reason : String)
  | pending
deriving DecidableEq

structure EventDraft where
  time : DateTime
  actor : EventActor
  correlation : Correlation
  action : EventAction
  resource : Option EventResource
  before : Option String
  after : Option String
  result : EventResult
deriving DecidableEq

def EventDraft.new (time : DateTime) (actor : EventActor) (correlation : Correlation)
    (action : EventAction) (result : EventResult) : EventDraft :=
  ⟨time, actor, correlation, action, none, none, none, result⟩

/-! ## Approvals -/

structure ExplicitApproval where
  approved : Bool
  approver : String
  proposalSummary : String
deriving DecidableEq

namespace ExplicitApproval

def granted (approver proposalSummary : String) : ExplicitApproval :=
  ⟨true, approver, proposalSummary⟩

def denied (approver proposalSummary : String) : ExplicitApproval :=
  ⟨false, approver, proposalSummary⟩

/-- The test of every gate: approved, by someone who is named. -/
def isNamedGrant (approval : ExplicitApproval) : Bool :=
  approval.approved && !isBlank approval.approver.toList

end ExplicitApproval

end Labrys.Core
