import Labrys.Core.Errors
import Labrys.Core.Events
import Labrys.Foundations.Runs
import Labrys.Foundations.Trail

/-! # Bound capabilities and their modes

A capability is bound to one environment in a mode of its provider, and every later change of mode
is recorded beside it. The record names the provider by its key; a caller who changes the mode
passes the provider again.

* `BoundCapability.transition_cases`: everything one call can do.
* `mode_history_exact`: what every history keeps, and exactly when the modes entered are modes of
  the provider that was bound.
-/

namespace Labrys.Core
open Foundations
set_option autoImplicit false

abbrev BindingId := TaggedId "bnd"

inductive CapabilityMode
  | managed | external | adopted
deriving DecidableEq, Repr

def CapabilityMode.debug : CapabilityMode → String
  | managed => "Managed"
  | external => "External"
  | adopted => "Adopted"

structure Provider where
  key : String
  capability : String
  version : ℕ
  supportsReversal : Bool
  modes : List CapabilityMode
deriving DecidableEq

namespace Provider

def supplies (provider : Provider) (capability : String) : Bool :=
  decide (provider.capability = capability)

def supportsMode (provider : Provider) (mode : CapabilityMode) : Bool :=
  decide (mode ∈ provider.modes)

/-- The provider operates in `next`, and can hand an adopted resource back if that is asked. -/
def permits (provider : Provider) (mode next : CapabilityMode) : Bool :=
  provider.supportsMode next && (decide (mode ≠ .adopted) || provider.supportsReversal)

end Provider

inductive BindingKind
  | framework (name : String)
  | generic
deriving DecidableEq

structure Binding where
  key : String
  capability : String
  provider : String
  version : ℕ
  kind : BindingKind
deriving DecidableEq

structure ResourceRef where
  id : ResourceId
  capability : String
  provider : String
  externalRef : String
deriving DecidableEq

structure ModeTransition where
  fromMode : CapabilityMode
  toMode : CapabilityMode
  approvedBy : String
  time : DateTime
  reversible : Bool
  source : Option String
deriving DecidableEq

structure BoundCapability where
  id : BindingId
  applicationId : ApplicationId
  environmentName : String
  capability : String
  provider : String
  binding : String
  mode : CapabilityMode
  resource : ResourceRef
  history : List ModeTransition
deriving DecidableEq

namespace BoundCapability

/-- `BoundCapability::bind`, with the id it draws. -/
def bind (id : BindingId) (applicationId : ApplicationId) (environmentName : String)
    (binding : Binding) (provider : Provider) (mode : CapabilityMode) (resource : ResourceRef)
    (actor : String) (time : DateTime) : Except CoreError BoundCapability :=
  if binding.capability ≠ resource.capability ∨ binding.provider ≠ resource.provider then
    .error (.capabilityBinding (s!"resource {resource.id} does not match binding " ++
      s!"'{binding.capability}/{binding.provider}'"))
  else if provider.supplies binding.capability = false ∨ provider.key ≠ binding.provider then
    .error (.capabilityBinding (s!"provider '{provider.key}' does not supply binding " ++
      s!"'{binding.capability}/{binding.provider}'"))
  else if provider.supportsMode mode = false then
    .error (.capabilityBinding
      s!"provider '{provider.key}' does not operate in mode {mode.debug}")
  else
    .ok
      { id, applicationId, environmentName, mode, resource
        capability := binding.capability
        provider := binding.provider
        binding := binding.key
        history := [⟨mode, mode, actor, time, provider.supportsReversal, none⟩] }

/-- `transition`: what the call leaves behind, and its answer. The mode is written before the
history is read, so a record with an empty history would be left changed by the panic. -/
def transition (c : BoundCapability) (next : CapabilityMode) (provider : Provider)
    (approval : ExplicitApproval) (time : DateTime) :
    BoundCapability × Outcome CoreError ModeTransition :=
  if approval.approved = false then
    (c, .error (.err (.approvalRequired (s!"capability '{c.capability}' mode change to " ++
      s!"{next.debug} requires explicit approval"))))
  else if isBlank approval.approver.toList = true then
    (c, .error (.err (.approvalRequired "mode transition approval must name an approver")))
  else if next = c.mode then
    (c, .error (.err (.capabilityBinding
      s!"capability '{c.capability}' is already in mode {next.debug}")))
  else if provider.supportsMode next = false then
    (c, .error (.err (.capabilityBinding
      s!"provider '{provider.key}' cannot operate in mode {next.debug}")))
  else if c.mode = .adopted ∧ next ≠ .adopted ∧ provider.supportsReversal = false then
    (c, .error (.err (.capabilityBinding
      s!"provider '{provider.key}' does not support reversal out of Adopted")))
  else
    match c.history.getLast? with
    | none => ({ c with mode := next }, .error (.panic "history is never empty"))
    | some last =>
        let entry : ModeTransition :=
          { fromMode := last.toMode
            toMode := next
            approvedBy := approval.approver
            time := time
            reversible := provider.supportsReversal
            source := if next = .adopted then some s!"{c.provider}:{c.resource.externalRef}"
              else none }
        ({ c with mode := next, history := c.history ++ [entry] }, .ok entry)

end BoundCapability

/-! ## One call -/

structure ModeCall where
  next : CapabilityMode
  provider : Provider
  approval : ExplicitApproval
  time : DateTime

namespace ModeCall

/-- A granted, named approval for a change the passed provider permits. -/
def Admitted (c : BoundCapability) (call : ModeCall) : Prop :=
  call.approval.isNamedGrant = true ∧ call.next ≠ c.mode ∧
    call.provider.permits c.mode call.next = true

end ModeCall

namespace BoundCapability

/-- Each transition starts where the last one ended, the last one ends in the mode, and every one
after the first names its approver. -/
def Connected (c : BoundCapability) : Prop :=
  Trail ModeTransition.fromMode ModeTransition.toMode
    (fun t => isBlank t.approvedBy.toList = false) c.history c.mode

/-- The transitions a provider can answer for: modes it supports, and no way out of `adopted`
unless it supports reversal. -/
def OperatedBy (bound : Provider) (c : BoundCapability) : Prop :=
  ∀ t ∈ c.history, bound.supportsMode t.toMode = true ∧
    (t.fromMode = .adopted → t.toMode ≠ .adopted → bound.supportsReversal = true)

/-- **One call.** It is refused and changes nothing, or it was admitted and adds the transition from
the current mode to the next one, under the name of the approver. -/
theorem transition_cases {c : BoundCapability} (hc : c.Connected) (call : ModeCall) :
    (¬ call.Admitted c ∧
      ∃ e, c.transition call.next call.provider call.approval call.time = (c, .error (.err e))) ∨
    (call.Admitted c ∧ ∃ entry : ModeTransition, entry.fromMode = c.mode ∧
      entry.toMode = call.next ∧ entry.approvedBy = call.approval.approver ∧
      c.transition call.next call.provider call.approval call.time =
        ({ c with mode := call.next, history := c.history ++ [entry] }, .ok entry)) := by
  unfold transition ModeCall.Admitted ExplicitApproval.isNamedGrant Provider.permits
  by_cases happroved : call.approval.approved = false
  · refine .inl ⟨by simp [happroved], _, by rw [if_pos happroved]⟩
  rw [if_neg happroved]
  by_cases hblank : isBlank call.approval.approver.toList = true
  · refine .inl ⟨by simp [hblank], _, by rw [if_pos hblank]⟩
  rw [if_neg hblank]
  by_cases hsame : call.next = c.mode
  · refine .inl ⟨by simp [hsame], _, by rw [if_pos hsame]⟩
  rw [if_neg hsame]
  by_cases hmode : call.provider.supportsMode call.next = false
  · refine .inl ⟨by simp [hmode], _, by rw [if_pos hmode]⟩
  rw [if_neg hmode]
  by_cases hreversal :
      c.mode = .adopted ∧ call.next ≠ .adopted ∧ call.provider.supportsReversal = false
  · refine .inl ⟨by simp [hreversal.1, hreversal.2.2], _, by rw [if_pos hreversal]⟩
  rw [if_neg hreversal]
  -- Nothing is left to refuse, and a connected history has a last entry.
  obtain ⟨last, hlast⟩ : ∃ last, c.history.getLast? = some last :=
    ⟨_, List.getLast?_eq_some_getLast hc.ne_nil⟩
  have hfrom : last.toMode = c.mode := by
    have hmap := hc.last
    rw [hlast, Option.map_some] at hmap
    exact Option.some_inj.mp hmap
  have hreverse : c.mode ≠ .adopted ∨ call.provider.supportsReversal = true := by
    by_cases hadopted : c.mode = .adopted
    · right
      by_contra hunsupported
      have hnext : call.next ≠ .adopted := hadopted ▸ hsame
      exact hreversal ⟨hadopted, hnext, by simpa using hunsupported⟩
    · exact .inl hadopted
  refine .inr ⟨⟨by simp_all, hsame, by simpa using ⟨by simpa using hmode, hreverse⟩⟩, ?_⟩
  rw [hlast]
  exact ⟨_, hfrom, rfl, rfl, rfl⟩

/-! ## Histories of calls -/

def machine : Machine BoundCapability ModeCall (Outcome CoreError ModeTransition) where
  step := fun c call => c.transition call.next call.provider call.approval call.time

variable {c c' : BoundCapability} {call : ModeCall}

theorem next_of_not_admitted (hc : c.Connected) (h : ¬ call.Admitted c) :
    machine.next c call = c := by
  obtain ⟨-, e, heq⟩ | ⟨hadmitted, -⟩ := transition_cases hc call
  · exact machine.next_of_step heq
  · exact absurd hadmitted h

theorem next_of_admitted (hc : c.Connected) (h : call.Admitted c) :
    ∃ entry : ModeTransition, entry.fromMode = c.mode ∧ entry.toMode = call.next ∧
      entry.approvedBy = call.approval.approver ∧
      machine.next c call = { c with mode := call.next, history := c.history ++ [entry] } := by
  obtain ⟨hrefused, -⟩ | ⟨-, entry, hfrom, hto, happrover, heq⟩ := transition_cases hc call
  · exact absurd h hrefused
  · exact ⟨entry, hfrom, hto, happrover, machine.next_of_step heq⟩

theorem connected_next (hc : c.Connected) (call : ModeCall) : (machine.next c call).Connected := by
  by_cases hadmitted : call.Admitted c
  · obtain ⟨entry, hfrom, hto, happrover, heq⟩ := next_of_admitted hc hadmitted
    have hnamed : isBlank entry.approvedBy.toList = false := by
      have hgrant := hadmitted.1
      rw [ExplicitApproval.isNamedGrant, Bool.and_eq_true, Bool.not_eq_true'] at hgrant
      rw [happrover]
      exact hgrant.2
    have htrail := hc.append hfrom hnamed
    rw [hto] at htrail
    rw [heq]
    exact htrail
  · rw [next_of_not_admitted hc hadmitted]
    exact hc

theorem fixed_next (hc : c.Connected) (call : ModeCall) :
    (machine.next c call).resource = c.resource ∧ (machine.next c call).provider = c.provider := by
  by_cases hadmitted : call.Admitted c
  · obtain ⟨entry, -, -, -, heq⟩ := next_of_admitted hc hadmitted
    rw [heq]
    exact ⟨rfl, rfl⟩
  · rw [next_of_not_admitted hc hadmitted]
    exact ⟨rfl, rfl⟩

/-- An admitted call is one the provider can answer for exactly if it permits the change too. -/
theorem operatedBy_next_iff {bound : Provider} (hc : c.Connected) (h : call.Admitted c)
    (hoperated : c.OperatedBy bound) :
    (machine.next c call).OperatedBy bound ↔ bound.permits c.mode call.next = true := by
  obtain ⟨entry, hfrom, hto, -, heq⟩ := next_of_admitted hc h
  have hnext : c.mode = .adopted → call.next ≠ .adopted := fun hadopted => hadopted ▸ h.2.1
  rw [heq, Provider.permits, Bool.and_eq_true, Bool.or_eq_true, decide_eq_true_eq]
  constructor
  · intro hall
    obtain ⟨hmode, hreversal⟩ := hall entry (by simp)
    rw [hto] at hmode hreversal
    refine ⟨hmode, ?_⟩
    by_cases hadopted : c.mode = .adopted
    · exact .inr (hreversal (hfrom.trans hadopted) (hnext hadopted))
    · exact .inl hadopted
  · rintro ⟨hmode, hreversal⟩ t ht
    obtain ht | ht := List.mem_append.mp ht
    · exact hoperated t ht
    · obtain rfl := List.mem_singleton.mp ht
      rw [hfrom, hto]
      exact ⟨hmode, fun hadopted _ => hreversal.resolve_left (not_not_intro hadopted)⟩

theorem bind_ok {id : BindingId} {applicationId : ApplicationId} {environmentName : String}
    {binding : Binding} {provider : Provider} {mode : CapabilityMode} {resource : ResourceRef}
    {actor : String} {time : DateTime}
    (h : bind id applicationId environmentName binding provider mode resource actor time = .ok c) :
    c.Connected ∧ c.OperatedBy provider ∧ c.provider = provider.key ∧ c.resource = resource := by
  unfold bind at h
  split_ifs at h with hresource hprovider hmode
  obtain rfl := Except.ok.inj h
  rw [not_or, not_not] at hprovider
  refine ⟨Trail.singleton _ _ _ _, fun t ht => ?_, hprovider.2.symm, rfl⟩
  obtain rfl := List.mem_singleton.mp ht
  exact ⟨by simpa using hmode, fun hfrom hto => absurd hfrom hto⟩

theorem connected_run (hc : c.Connected) (calls : List ModeCall) :
    (machine.run c calls).Connected ∧ (machine.run c calls).resource = c.resource ∧
      (machine.run c calls).provider = c.provider := by
  refine machine.run_invariant_all (P := fun reached => reached.Connected ∧
    reached.resource = c.resource ∧ reached.provider = c.provider) ?_ c calls ⟨hc, rfl, rfl⟩
  rintro reached call ⟨hreached, hresource, hprovider⟩
  obtain ⟨hresource', hprovider'⟩ := fixed_next hreached call
  exact ⟨connected_next hreached call, hresource'.trans hresource, hprovider'.trans hprovider⟩

theorem next_of_fault (hc : c.Connected) {fault : Fault CoreError}
    (h : machine.answer c call = .error fault) : machine.next c call = c := by
  obtain ⟨hrefused, -⟩ | ⟨-, entry, -, -, -, heq⟩ := transition_cases hc call
  · exact next_of_not_admitted hc hrefused
  · rw [machine.answer_of_step heq] at h
    cases h

/-- The passed provider must not permit more than the bound one. -/
def HonouredBy (bound : Provider) (c : BoundCapability) (call : ModeCall) : Prop :=
  call.Admitted c → bound.permits c.mode call.next = true

/-- **Mode history.** Along every history of calls after `bind` the transitions stay connected and
end in the mode, every later one names its approver, the resource and the provider's key stay as
they were bound, and a call that fails changes nothing. The modes entered are modes of the bound
provider, left for another one only as it permits, exactly if every admitted call asks for a change
that the bound provider permits. -/
theorem mode_history_exact {id : BindingId} {applicationId : ApplicationId}
    {environmentName : String} {binding : Binding} {bound : Provider} {mode : CapabilityMode}
    {resource : ResourceRef} {actor : String} {time : DateTime} {c : BoundCapability}
    (hbind : bind id applicationId environmentName binding bound mode resource actor time = .ok c)
    (calls : List ModeCall) :
    (∀ n, (machine.run c (calls.take n)).Connected ∧
      (machine.run c (calls.take n)).resource = resource ∧
      (machine.run c (calls.take n)).provider = bound.key ∧
      ∀ call fault, machine.answer (machine.run c (calls.take n)) call = .error fault →
        machine.next (machine.run c (calls.take n)) call = machine.run c (calls.take n)) ∧
    ((∀ n, (machine.run c (calls.take n)).OperatedBy bound) ↔
      machine.Guarded (HonouredBy bound) c calls) := by
  obtain ⟨hconnected, hoperated, hprovider, hresource⟩ := bind_ok hbind
  constructor
  · intro n
    obtain ⟨hrun, hsameResource, hsameProvider⟩ := connected_run hconnected (calls.take n)
    exact ⟨hrun, hsameResource.trans hresource, hsameProvider.trans hprovider,
      fun call fault h => next_of_fault hrun h⟩
  · refine machine.forall_run_take_iff_guarded (H := fun _ _ => True)
      (I := fun reached => reached.Connected ∧ reached.OperatedBy bound) (fun _ h => h.2) ?_ ?_ c
      calls ⟨hconnected, hoperated⟩ (machine.guarded_true c calls)
    · rintro reached call ⟨hreached, hmodes⟩ - hhonoured
      refine ⟨connected_next hreached call, ?_⟩
      by_cases hadmitted : call.Admitted reached
      · exact (operatedBy_next_iff hreached hadmitted hmodes).mpr (hhonoured hadmitted)
      · rw [next_of_not_admitted hreached hadmitted]
        exact hmodes
    · rintro reached call ⟨hreached, hmodes⟩ - hnext hadmitted
      exact (operatedBy_next_iff hreached hadmitted hmodes).mp hnext

/-! ## A provider that cannot hand back -/

def managedPostgres : Provider :=
  ⟨"postgres.managed", "database.postgres", 1, false, [.managed, .adopted]⟩

def externalPostgres : Provider :=
  ⟨"postgres.external", "database.postgres", 1, true, [.external, .managed]⟩

def adoptedCapability : BoundCapability where
  id := ⟨1⟩
  applicationId := ⟨2⟩
  environmentName := "production"
  capability := "database.postgres"
  provider := "postgres.managed"
  binding := "postgres.generic"
  mode := .adopted
  resource := ⟨⟨3⟩, "database.postgres", "postgres.managed", "prod-db"⟩
  history := [⟨.adopted, .adopted, "ada", 0, false, none⟩]

theorem bind_adoptedCapability :
    bind ⟨1⟩ ⟨2⟩ "production"
      ⟨"postgres.generic", "database.postgres", "postgres.managed", 1, .generic⟩ managedPostgres
      .adopted ⟨⟨3⟩, "database.postgres", "postgres.managed", "prod-db"⟩ "ada" 0 =
        .ok adoptedCapability := by
  decide

theorem mode_history_exact_own_provider :
    machine.Guarded (HonouredBy managedPostgres) adoptedCapability
        [⟨.managed, managedPostgres, .granted "ada" "", 1⟩] ∧
      ∀ n, (machine.run adoptedCapability
        ([⟨.managed, managedPostgres, .granted "ada" "", 1⟩].take n)).OperatedBy
          managedPostgres := by
  have hguarded : machine.Guarded (HonouredBy managedPostgres) adoptedCapability
      [⟨.managed, managedPostgres, .granted "ada" "", 1⟩] :=
    ⟨fun hadmitted => hadmitted.2.2, trivial⟩
  exact ⟨hguarded, (mode_history_exact bind_adoptedCapability _).2.mpr hguarded⟩

/-- Another provider, passed with a granted approval, takes the capability out of `adopted` into a
mode the bound provider does not have, though it supports no reversal. -/
theorem mode_history_other_provider :
    machine.answer adoptedCapability
        ⟨.external, externalPostgres, .granted "ada" "hand it back", 1⟩ =
      .ok ⟨.adopted, .external, "ada", 1, true, none⟩ ∧
    (machine.run adoptedCapability
        [⟨.external, externalPostgres, .granted "ada" "hand it back", 1⟩]).mode = .external ∧
    (machine.run adoptedCapability
        [⟨.external, externalPostgres, .granted "ada" "hand it back", 1⟩]).provider =
      managedPostgres.key ∧
    managedPostgres.supportsMode .external = false ∧ managedPostgres.supportsReversal = false ∧
    ∃ id applicationId environmentName binding mode resource actor time,
      bind id applicationId environmentName binding managedPostgres mode resource actor time =
        .ok adoptedCapability :=
  ⟨by decide, by decide, by decide, by decide, by decide, _, _, _, _, _, _, _, _,
    bind_adoptedCapability⟩

end BoundCapability
end Labrys.Core
