import Labrys.Core.Deployment
import Labrys.Core.Events
import Labrys.Core.Resource

/-! # Provider operations and domain delivery

One scoped call to a capability provider, the approval gate in front of destructive ones, and what
a provider reports back; and the DNS, TLS and traffic state of a hostname with the gate in front of
attaching traffic. -/

namespace Labrys.Core
open Foundations
set_option autoImplicit false

def providerFailureRecovery : String :=
  "retry with backoff; inspect redacted provider diagnostics and re-run the platform readiness " ++
    "probe before promoting"

inductive ProviderKind
  | postgres | auth | fileStorage | objectStorage | generic
deriving DecidableEq, Repr

inductive ProviderAction
  | provision | readinessCheck | replace | migrate | adopt | delete
deriving DecidableEq, Repr

namespace ProviderAction

def isDestructive : ProviderAction → Bool
  | delete | replace | migrate | adopt => true
  | provision | readinessCheck => false

def debug : ProviderAction → String
  | provision => "Provision"
  | readinessCheck => "ReadinessCheck"
  | replace => "Replace"
  | migrate => "Migrate"
  | adopt => "Adopt"
  | delete => "Delete"

def label : ProviderAction → String
  | provision => "provision"
  | readinessCheck => "readiness-check"
  | replace => "replace"
  | migrate => "migrate"
  | adopt => "adopt"
  | delete => "delete"

end ProviderAction

structure ProviderOperation where
  applicationId : ApplicationId
  environmentId : Option EnvironmentId
  resourceId : ResourceId
  capability : String
  providerKey : String
  kind : ProviderKind
  action : ProviderAction
  idempotencyKey : String
  traceId : String
  secretRefs : List String
  attempt : ℕ
deriving DecidableEq

/-- The gate before any provider call: destructive actions need a granted, named approval whose
summary names the resource or the capability. -/
def ProviderOperation.requireApproval (operation : ProviderOperation)
    (approval : Option ExplicitApproval) : Except CoreError Unit :=
  if operation.action.isDestructive = false then .ok ()
  else
    let what := s!"provider {operation.action.debug} on resource {operation.resourceId}"
    match approval with
    | none => .error (.approvalRequired s!"{what} requires a granted, named human approval")
    | some approval =>
        if approval.isNamedGrant = false then
          .error (.approvalRequired s!"{what} was denied or unnamed; no provider call occurred")
        else if containsText approval.proposalSummary (toString operation.resourceId) = false ∧
            containsText approval.proposalSummary operation.capability = false then
          .error (.approvalRequired (s!"approval scope '{approval.proposalSummary}' does not " ++
            s!"match resource {operation.resourceId} capability '{operation.capability}'; " ++
            "no provider call occurred"))
        else .ok ()

inductive ProviderObservation
  | accepted (detail : String)
  | ready (detail : String)
  | degraded (reason : String)
  | failed (reason recovery : String)
deriving DecidableEq

namespace ProviderObservation

/-- The phase an observation converges toward; acceptance is never readiness. -/
def targetPhase : ProviderObservation → ResourcePhase
  | accepted _ => .provisioning
  | ready _ => .ready
  | degraded _ => .degraded
  | failed _ _ => .failed

def toEventDetail : ProviderObservation → String
  | accepted detail => s!"provider accepted: {detail}"
  | ready detail => s!"provider ready: {detail}"
  | degraded reason => s!"provider degraded: {reason}"
  | failed reason recovery => s!"provider failed: {reason} | recovery: {recovery}"

end ProviderObservation

def sanitizeFailure (reason : String) (secrets : List String) : String × String :=
  (redactReason reason secrets, providerFailureRecovery)

/-! ## Domain delivery -/

def certificateFailureRecovery : String :=
  "TLS issuance failed; traffic was not attached. Fix DNS/issuer configuration and re-issue the " ++
    "certificate before attaching traffic"

inductive DnsState
  | pending
  | propagated
  | failed (reason : String)
deriving DecidableEq

inductive CertificateState
  | pending
  | issued
  | renewing
  | failed (reason : String)
deriving DecidableEq

def CertificateState.isIssued : CertificateState → Bool
  | issued | renewing => true
  | pending | failed _ => false

def Domain.isRoutable (domain : Domain) : Bool :=
  !isBlank domain.hostname.toList && !domain.hostname.toList.any isWhiteSpace

structure DomainDelivery where
  domainId : DomainId
  deploymentId : Option DeploymentId
  dns : DnsState
  tls : CertificateState
  trafficAttached : Bool
  detail : Option String
deriving DecidableEq

namespace DomainDelivery

def new (domainId : DomainId) : DomainDelivery := ⟨domainId, none, .pending, .pending, false, none⟩

/-- `report_certificate_failure`: the failure is recorded and traffic is detached. -/
def reportCertificateFailure (delivery : DomainDelivery) (reason : String)
    (secrets : List String) : DomainDelivery :=
  { delivery with
    tls := .failed (redactReason reason secrets)
    trafficAttached := false
    detail := some (s!"certificate issuance failed: {redactReason reason secrets}. " ++
      certificateFailureRecovery) }

end DomainDelivery

/-- `plan_traffic_attachment`: what it leaves of the delivery, and its answer. A refusal leaves it
as it was, attached traffic included. -/
def planTrafficAttachment (delivery : DomainDelivery) (domain : Domain) (deployment : Deployment)
    (approval : ExplicitApproval) : DomainDelivery × Except CoreError Unit :=
  if approval.isNamedGrant = false then
    (delivery, .error (.approvalRequired
      s!"domain traffic change for '{domain.hostname}' requires explicit approval"))
  else if domain.isRoutable = false then
    (delivery, .error (.deployment s!"domain '{domain.hostname}' is not routable"))
  else if delivery.dns ≠ .propagated then
    (delivery, .error (.deployment
      s!"domain '{domain.hostname}' has no propagated DNS; traffic not attached"))
  else
    match delivery.tls with
    | .failed reason =>
        (delivery, .error (.deployment
          (s!"certificate issuance failed for '{domain.hostname}': {reason}. " ++
            certificateFailureRecovery)))
    | .pending =>
        (delivery, .error (.deployment
          s!"domain '{domain.hostname}' has no issued TLS certificate; traffic not attached"))
    | .issued | .renewing =>
        if deployment.isPromoted = false then
          (delivery, .error (.deployment
            (s!"cannot route '{domain.hostname}' to unpromoted deployment {deployment.id} " ++
              s!"({deployment.phase.debug})")))
        else
          ({ delivery with
              deploymentId := some deployment.id
              trafficAttached := true
              detail := some (s!"traffic attached to promoted deployment {deployment.id} by " ++
                approval.approver) },
            .ok ())

end Labrys.Core
