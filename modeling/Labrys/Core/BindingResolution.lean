import Labrys.Core.Capability
import Labrys.Foundations.Selection

/-! # Resolution of a binding

`resolve_binding` picks the binding that connects a capability to a provider: the only one for the
framework that is asked, or the only generic one if the framework has none or none is asked.

* `resolveBinding_eq_ok_iff`: what it answers.
* `binding_resolution`: the answer does not depend on the order of the lists, nor on the bindings of
  other pairs. -/

namespace Labrys.Core
open Foundations
set_option autoImplicit false

namespace Binding

def isGeneric (binding : Binding) : Bool := decide (binding.kind = .generic)

def framework (binding : Binding) : Option String :=
  match binding.kind with
  | .framework name => some name
  | .generic => none

/-- The binding connects this capability to this provider. -/
def connects (capabilityKey providerKey : String) (binding : Binding) : Bool :=
  decide (binding.capability = capabilityKey ∧ binding.provider = providerKey)

/-- It is the pair's binding for the framework. -/
def connectsFor (capabilityKey providerKey framework : String) (binding : Binding) : Bool :=
  binding.connects capabilityKey providerKey && decide (binding.framework = some framework)

/-- It is a generic binding of the pair. -/
def connectsAny (capabilityKey providerKey : String) (binding : Binding) : Bool :=
  binding.connects capabilityKey providerKey && binding.isGeneric

end Binding

section Resolution
variable (debugText : String → String)

/-- The fallback: the only generic binding among the candidates. -/
def resolveGeneric (capabilityKey providerKey : String) (framework : Option String)
    (candidates : List Binding) : Except CoreError Binding :=
  onlyOne
    (.error (.capabilityBinding
      (s!"no generic binding for '{capabilityKey}/{providerKey}' and no framework binding matches " ++
        framework.elim "None" fun framework => "Some(" ++ debugText framework ++ ")")))
    (fun count => .capabilityBinding
      s!"binding conflict: {count} generic bindings for '{capabilityKey}/{providerKey}'")
    (candidates.filter (·.isGeneric))

/-- The only candidate for the framework that is asked, before the fallback. -/
def resolveCandidates (capabilityKey providerKey : String) (framework : Option String)
    (candidates : List Binding) : Except CoreError Binding :=
  match framework with
  | some name =>
      onlyOne (resolveGeneric debugText capabilityKey providerKey framework candidates)
        (fun count => .capabilityBinding (s!"binding conflict: {count} bindings for " ++
          s!"framework '{name}' on '{capabilityKey}/{providerKey}'"))
        (candidates.filter fun b => decide (b.framework = some name))
  | none => resolveGeneric debugText capabilityKey providerKey framework candidates

/-- `resolve_binding`. The framework of a failed lookup is printed the way `Debug` does. -/
def resolveBinding (bindings : List Binding) (providers : List Provider)
    (capabilityKey providerKey : String) (framework : Option String) : Except CoreError Binding :=
  match providers.find? fun p => decide (p.key = providerKey) with
  | none => .error (.capabilityBinding s!"unknown provider '{providerKey}'")
  | some provider =>
      if provider.supplies capabilityKey = false then
        .error (.capabilityBinding (s!"provider '{providerKey}' supplies " ++
          s!"'{provider.capability}', not '{capabilityKey}'"))
      else
        let candidates := bindings.filter (·.connects capabilityKey providerKey)
        if candidates = [] then
          .error (.capabilityBinding (s!"no binding connects capability '{capabilityKey}' " ++
            s!"to provider '{providerKey}'"))
        else resolveCandidates debugText capabilityKey providerKey framework candidates

variable {debugText} {capabilityKey providerKey : String} {framework : Option String}

/-! ## The answer -/

theorem resolveGeneric_eq_ok_iff {bindings : List Binding} {b : Binding} :
    resolveGeneric debugText capabilityKey providerKey framework
        (bindings.filter (·.connects capabilityKey providerKey)) = .ok b ↔
      IsOnly (·.connectsAny capabilityKey providerKey) bindings b := by
  rw [resolveGeneric, onlyOne_eq_ok_iff, List.filter_filter, ← filter_eq_singleton_iff]
  have hsame : (fun a : Binding => a.isGeneric && a.connects capabilityKey providerKey) =
      (·.connectsAny capabilityKey providerKey) := funext fun a => Bool.and_comm _ _
  rw [hsame]
  simp

/-- The only binding of the pair for the framework, or the only generic one if none is for it. -/
def Resolves (bindings : List Binding) (capabilityKey providerKey : String)
    (framework : Option String) (b : Binding) : Prop :=
  (∃ name, framework = some name ∧
      IsOnly (·.connectsFor capabilityKey providerKey name) bindings b) ∨
    ((∀ name, framework = some name →
        ∀ c ∈ bindings, c.connectsFor capabilityKey providerKey name = false) ∧
      IsOnly (·.connectsAny capabilityKey providerKey) bindings b)

theorem filter_connectsFor (bindings : List Binding) (name : String) :
    (bindings.filter (·.connects capabilityKey providerKey)).filter
        (fun b => decide (b.framework = some name)) =
      bindings.filter (·.connectsFor capabilityKey providerKey name) := by
  rw [List.filter_filter]
  exact List.filter_congr fun b _ => Bool.and_comm _ _

/-- Whatever is resolved to connects the pair. -/
theorem Resolves.exists_connects {bindings : List Binding} {b : Binding}
    (h : Resolves bindings capabilityKey providerKey framework b) :
    bindings.filter (·.connects capabilityKey providerKey) ≠ [] := by
  have hmem : b ∈ bindings ∧ b.connects capabilityKey providerKey = true := by
    obtain ⟨name, -, before, after, rfl, hb, -⟩ | ⟨-, before, after, rfl, hb, -⟩ := h
    · exact ⟨by simp, (Bool.and_eq_true_iff.mp hb).1⟩
    · exact ⟨by simp, (Bool.and_eq_true_iff.mp hb).1⟩
  exact List.ne_nil_of_mem (List.mem_filter.mpr hmem)

theorem resolveCandidates_eq_ok_iff {bindings : List Binding} {b : Binding} :
    resolveCandidates debugText capabilityKey providerKey framework
        (bindings.filter (·.connects capabilityKey providerKey)) = .ok b ↔
      Resolves bindings capabilityKey providerKey framework b := by
  cases framework with
  | none =>
    rw [resolveCandidates, resolveGeneric_eq_ok_iff, Resolves]
    simp
  | some name =>
    rw [resolveCandidates, onlyOne_eq_ok_iff, resolveGeneric_eq_ok_iff, filter_connectsFor,
      filter_eq_singleton_iff, Resolves, List.filter_eq_nil_iff]
    simp

theorem resolveBinding_eq_ok_iff {bindings : List Binding} {providers : List Provider}
    (hkeys : (providers.map (·.key)).Nodup) {b : Binding} :
    resolveBinding debugText bindings providers capabilityKey providerKey framework = .ok b ↔
      (∃ provider ∈ providers, provider.key = providerKey ∧ provider.capability = capabilityKey) ∧
        Resolves bindings capabilityKey providerKey framework b := by
  unfold resolveBinding
  cases hfind : providers.find? fun p => decide (p.key = providerKey) with
  | none =>
    have hnone : ¬ ∃ provider ∈ providers, provider.key = providerKey ∧
        provider.capability = capabilityKey := by
      rintro ⟨provider, hmem, hkey, -⟩
      exact absurd (decide_eq_true hkey) (List.find?_eq_none.mp hfind provider hmem)
    simp [hnone]
  | some provider =>
    obtain ⟨hmem, hkey⟩ := (find?_key_eq_some_iff hkeys).mp hfind
    have hsupplies : (∃ p ∈ providers, p.key = providerKey ∧ p.capability = capabilityKey) ↔
        provider.supplies capabilityKey = true := by
      rw [Provider.supplies, decide_eq_true_iff]
      constructor
      · rintro ⟨p, hp, hpkey, hcapability⟩
        rw [← hcapability, List.inj_on_of_nodup_map hkeys hmem hp (hkey.trans hpkey.symm)]
      · exact fun hcapability => ⟨provider, hmem, hkey, hcapability⟩
    rw [hsupplies]
    dsimp only
    cases hprovider : provider.supplies capabilityKey with
    | false => simp
    | true =>
      rw [if_neg (by simp)]
      split_ifs with hcandidates
      · constructor
        · exact fun h => nomatch h
        · exact fun h => absurd hcandidates h.2.exists_connects
      · rw [and_iff_right rfl]
        exact resolveCandidates_eq_ok_iff

/-! ## What it does not depend on -/

theorem resolveGeneric_perm {candidates candidates' : List Binding}
    (h : candidates.Perm candidates') :
    resolveGeneric debugText capabilityKey providerKey framework candidates =
      resolveGeneric debugText capabilityKey providerKey framework candidates' :=
  onlyOne_perm rfl (h.filter _)

theorem resolveCandidates_perm {candidates candidates' : List Binding}
    (h : candidates.Perm candidates') :
    resolveCandidates debugText capabilityKey providerKey framework candidates =
      resolveCandidates debugText capabilityKey providerKey framework candidates' := by
  cases framework with
  | none => exact resolveGeneric_perm h
  | some name =>
    rw [resolveCandidates, resolveCandidates]
    exact onlyOne_perm (resolveGeneric_perm h) (h.filter _)

/-- The answer, errors included, is a function of the candidates up to their order. -/
theorem resolveBinding_congr {bindings bindings' : List Binding} {providers providers' : List Provider}
    (hkeys : (providers.map (·.key)).Nodup) (hproviders : providers.Perm providers')
    (hcandidates : (bindings.filter (·.connects capabilityKey providerKey)).Perm
      (bindings'.filter (·.connects capabilityKey providerKey))) :
    resolveBinding debugText bindings providers capabilityKey providerKey framework =
      resolveBinding debugText bindings' providers' capabilityKey providerKey framework := by
  have hnone : bindings.filter (·.connects capabilityKey providerKey) = [] ↔
      bindings'.filter (·.connects capabilityKey providerKey) = [] := by
    rw [← List.length_eq_zero_iff, hcandidates.length_eq, List.length_eq_zero_iff]
  unfold resolveBinding
  rw [find?_key_perm hkeys hproviders providerKey]
  dsimp only
  simp only [hnone, resolveCandidates_perm hcandidates]

/-- **Resolution of a binding**, for all bindings and all providers with distinct keys: the answer is
the only binding of the pair for the framework, or the only generic one if the framework has none or
none is asked; the answer, its error included, does not depend on the order of either list, nor on
the bindings of other pairs. -/
theorem binding_resolution (debugText : String → String) (bindings : List Binding)
    (providers : List Provider) (hkeys : (providers.map (·.key)).Nodup)
    (capabilityKey providerKey : String) (framework : Option String) :
    (∀ b, resolveBinding debugText bindings providers capabilityKey providerKey framework = .ok b ↔
      (∃ provider ∈ providers, provider.key = providerKey ∧ provider.capability = capabilityKey) ∧
        Resolves bindings capabilityKey providerKey framework b) ∧
    (∀ bindings' providers', bindings.Perm bindings' → providers.Perm providers' →
      resolveBinding debugText bindings' providers' capabilityKey providerKey framework =
        resolveBinding debugText bindings providers capabilityKey providerKey framework) ∧
    ∀ before after other, bindings = before ++ after →
      ¬ (other.capability = capabilityKey ∧ other.provider = providerKey) →
        resolveBinding debugText (before ++ other :: after) providers capabilityKey providerKey
            framework =
          resolveBinding debugText bindings providers capabilityKey providerKey framework := by
  refine ⟨fun b => resolveBinding_eq_ok_iff hkeys, fun bindings' providers' hbindings hproviders => ?_,
    fun before after other hsplit hother => ?_⟩
  · exact (resolveBinding_congr hkeys hproviders (hbindings.filter _)).symm
  · have hpasses : other.connects capabilityKey providerKey = false := decide_eq_false hother
    refine resolveBinding_congr hkeys (List.Perm.refl _) (List.Perm.of_eq ?_)
    rw [hsplit, List.filter_append, List.filter_append, List.filter_cons_of_neg (by simp [hpasses])]

end Resolution

/-- The generic binding of a provider that has one for another framework. -/
theorem binding_resolution_postgres :
    resolveBinding (fun text => "\"" ++ text ++ "\"")
      [⟨"efcore", "database", "postgres.managed", 1, .framework "efcore"⟩,
        ⟨"generic", "database", "postgres.managed", 1, .generic⟩]
      [⟨"postgres.managed", "database", 1, true, [.managed]⟩, ⟨"s3", "storage", 1, false, []⟩]
      "database" "postgres.managed" (some "django") =
        .ok ⟨"generic", "database", "postgres.managed", 1, .generic⟩ := by
  refine ((binding_resolution _ _ _ (by decide) _ _ _).1 _).mpr ⟨by decide, .inr ⟨?_, ?_⟩⟩
  · rintro name ⟨⟩
    decide
  · exact ⟨[⟨"efcore", "database", "postgres.managed", 1, .framework "efcore"⟩], [], rfl, by decide,
      by decide, by decide⟩

end Labrys.Core
