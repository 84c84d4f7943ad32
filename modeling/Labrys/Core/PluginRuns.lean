import Labrys.Core.Plugin
import Labrys.Foundations.Runs

/-! # Plugins over whole runs

* `families_kept`: one active plugin of a family in every registry that is reached.
* `calls_kept_iff`: the bookkeeping of a plugin's calls holds throughout a run exactly if every
  operation is `PluginOp.Sound` where it is made.
* `refusal_harmless_iff`: which refused registrations leave the active plugins alone.
-/

namespace Labrys.Core
open Foundations
set_option autoImplicit false

/-! ## The registry -/

inductive RegistryOp
  | register (manifest : PluginManifest)
  | plugin (id : String) (op : PluginOp)

inductive RegistryAnswer
  | registered (result : Except CoreError PluginFamily)
  | performed (answer : PluginAnswer)
  | missing

/-- `get_mut` and the operation on what it finds. -/
def PluginRegistry.withPlugin (id : String) (op : PluginOp) (r : PluginRegistry) :
    PluginRegistry × RegistryAnswer :=
  match r.get id with
  | none => (r, .missing)
  | some p => (r.put id (op.perform p).1, .performed (op.perform p).2)

def pluginRegistry : Machine PluginRegistry RegistryOp RegistryAnswer where
  step := fun r op =>
    match op with
    | .register manifest => answered .registered (r.register manifest)
    | .plugin id op => r.withPlugin id op

namespace PluginRegistry

/-- Plugins sit under their ids, active ones speak for their family, and they speak alone. -/
structure WellFormed (r : PluginRegistry) : Prop where
  keyed : ∀ id p, r.get id = some p → p.manifest.id = id
  speaks : ∀ id p, r.get id = some p → p.state = .active → p.manifest.Speaks
  alone : ∀ id p other q, r.get id = some p → r.get other = some q → p.state = .active →
    q.state = .active → p.family = q.family → id = other

theorem wellFormed_new : new.WellFormed := by
  have hnone : ∀ id, new.get id = none := fun id => by simp [get, new]
  constructor
  · intro id p h
    simp [hnone] at h
  · intro id p h
    simp [hnone] at h
  · intro id p other q h
    simp [hnone] at h

/-- A plugin may be put under its id if it speaks for its family, alone, in case it is active. -/
theorem WellFormed.put {r : PluginRegistry} (h : r.WellFormed) {id : String} {p : PluginProcess}
    (hkey : p.manifest.id = id) (hspeaks : p.state = .active → p.manifest.Speaks)
    (halone : p.state = .active → ∀ other q, r.get other = some q → q.state = .active →
      p.family = q.family → other = id) : (r.put id p).WellFormed := by
  constructor
  · intro key q hq
    rw [get_put] at hq
    split_ifs at hq with hkey'
    · obtain rfl := Option.some_inj.mp hq
      exact hkey.trans hkey'
    · exact h.keyed key q hq
  · intro key q hq
    rw [get_put] at hq
    split_ifs at hq with hkey'
    · obtain rfl := Option.some_inj.mp hq
      exact hspeaks
    · exact h.speaks key q hq
  · intro key q key' q' hq hq' hactive hactive' hfamily
    rw [get_put] at hq hq'
    split_ifs at hq with hleft <;> split_ifs at hq' with hright
    · exact hleft.symm.trans hright
    · obtain rfl := Option.some_inj.mp hq
      exact hleft.symm.trans (halone hactive key' q' hq' hactive' hfamily).symm
    · obtain rfl := Option.some_inj.mp hq'
      exact (halone hactive' key q hq hactive hfamily.symm).trans hright
    · exact h.alone key q key' q' hq hq' hactive hactive' hfamily

theorem WellFormed.register {r : PluginRegistry} (h : r.WellFormed) (manifest : PluginManifest) :
    (r.register manifest).1.WellFormed := by
  have hkey : (PluginProcess.connect manifest).manifest.id = manifest.id := by simp
  unfold PluginRegistry.register
  dsimp only
  obtain ⟨hactive, hrefusal, hspeaks⟩ | ⟨hrefused, error, hrefusal⟩ :=
    PluginProcess.connect_cases manifest
  · rw [hrefusal]
    dsimp only
    split
    · exact h
    · next hnone =>
      refine h.put hkey (fun _ => by simpa using hspeaks) fun _ other q hq hq' hfamily => ?_
      have hmem := List.find?_eq_none.mp hnone q (mem_values.mpr ⟨other, hq⟩)
      have hsame : q.family = manifest.family := by
        rw [← hfamily, PluginProcess.family, PluginProcess.connect_manifest]
      rw [← h.keyed other q hq]
      exact by_contra fun hne => hmem (decide_eq_true ⟨hsame, hq', hne⟩)
  · rw [hrefusal]
    refine h.put hkey (fun hactive => ?_) fun hactive => ?_
    · rw [hrefused] at hactive
      cases hactive
    · rw [hrefused] at hactive
      cases hactive

theorem WellFormed.withPlugin {r : PluginRegistry} (h : r.WellFormed) (id : String)
    (op : PluginOp) : (r.withPlugin id op).1.WellFormed := by
  unfold PluginRegistry.withPlugin
  cases hget : r.get id with
  | none => exact h
  | some p =>
    obtain ⟨hmanifest, hactive⟩ := op.kept p
    refine h.put ?_ (fun hnow => ?_) fun hnow other q hq hq' hfamily => ?_
    · rw [hmanifest]
      exact h.keyed id p hget
    · rw [hmanifest]
      exact h.speaks id p hget (hactive hnow)
    · refine h.alone other q id p hq hget hq' (hactive hnow) ?_
      rw [← hfamily, PluginProcess.family, hmanifest, PluginProcess.family]

theorem WellFormed.next {r : PluginRegistry} (h : r.WellFormed) (op : RegistryOp) :
    (pluginRegistry.next r op).WellFormed := by
  cases op with
  | register manifest => exact h.register manifest
  | plugin id op => exact h.withPlugin id op

theorem WellFormed.oneKey {r : PluginRegistry} (h : r.WellFormed) (family : PluginFamily) :
    OneKey r.plugins fun p => decide (p.family = family ∧ p.state = .active) := by
  intro id other p q hp hq hfor hfor'
  obtain ⟨hfamily, hactive⟩ := of_decide_eq_true hfor
  obtain ⟨hfamily', hactive'⟩ := of_decide_eq_true hfor'
  exact h.alone id p other q hp hq hactive hactive' (hfamily.trans hfamily'.symm)

end PluginRegistry

/-- **One active plugin of a family.** Whatever is registered, called, cancelled, lost and shut
down, a family has at most one active plugin, `active_for` finds it, every plugin sits under its
own id, and an active one speaks the protocol and answers the methods of its family. -/
theorem families_kept (ops : List RegistryOp) :
    let r := pluginRegistry.run .new ops
    (∀ family, (r.values.filter fun p => p.family = family ∧ p.state = .active).length ≤ 1) ∧
    (∀ p ∈ r.values, p.state = .active → r.activeFor p.family = some p) ∧
    (∀ id p, r.get id = some p → p.manifest.id = id) ∧
    ∀ p ∈ r.values, p.state = .active → p.manifest.protocolVersion = pluginProtocolVersion ∧
      ∀ method ∈ p.family.requiredMethods, method ∈ p.manifest.methods := by
  intro r
  have h : r.WellFormed := pluginRegistry.run_invariant_all (fun r op h => h.next op) .new ops
    PluginRegistry.wellFormed_new
  refine ⟨fun family => (h.oneKey family).length_filter_le, fun p hp hactive => ?_, h.keyed,
    fun p hp hactive => ?_⟩
  · obtain ⟨id, hget⟩ := PluginRegistry.mem_values.mp hp
    exact (h.oneKey p.family).find?_values hget (decide_eq_true ⟨rfl, hactive⟩)
  · obtain ⟨id, hget⟩ := PluginRegistry.mem_values.mp hp
    have hspeaks := h.speaks id p hget hactive
    exact ⟨hspeaks.version, hspeaks.methods⟩

/-! ## The calls of one plugin -/

namespace PluginProcess

def ended (p : PluginProcess) : List UInt64 := p.calls.map Prod.snd

/-- What the plugin keeps about its calls. -/
structure Booked (p : PluginProcess) : Prop where
  idle : p.state ≠ .active → ∀ id : UInt64, p.inFlight[id]? = none
  below : ∀ (id : UInt64) method, p.inFlight[id]? = some method → id < p.nextCallId
  endsOnce : p.ended.Nodup
  endedBelow : ∀ id ∈ p.ended, id < p.nextCallId

theorem booked_connect (manifest : PluginManifest) : (connect manifest).Booked := by
  have hended : (connect manifest).ended = [] := by simp [ended]
  have hnone : ∀ id : UInt64, (connect manifest).inFlight[id]? = none := fun id => by simp
  constructor
  · exact fun _ => hnone
  · intro id method h
    rw [hnone] at h
    cases h
  · rw [hended]
    exact List.nodup_nil
  · rw [hended]
    exact nofun

/-- Nothing in flight any more. -/
theorem Booked.clear {p : PluginProcess} (h : p.Booked) (state : PluginState) :
    Booked { p with state, inFlight := ∅ } :=
  ⟨fun _ _ => Std.TreeMap.getElem?_emptyc, fun _ _ hid => by simp at hid, h.endsOnce, h.endedBelow⟩

theorem lt_of_toNat_succ {id next : UInt64} (h : next.toNat = id.toNat + 1) : id < next :=
  UInt64.lt_iff_toNat_lt.mpr (h ▸ Nat.lt_succ_self _)

theorem lt_max_of_lt {a b c : UInt64} (h : c < a ∨ c < b) : c < max a b := by
  rw [UInt64.max_def]
  split_ifs with hle
  · exact h.elim (fun ha => UInt64.lt_of_lt_of_le ha hle) id
  · exact h.elim id fun hb => UInt64.lt_trans hb (UInt64.not_le.mp hle)

theorem Booked.invoke {p : PluginProcess} (h : p.Booked) (method : String) (params : Json)
    (handler : String → Json → Except CoreError Json) :
    (p.invoke method params handler).1.Booked := by
  obtain ⟨-, _, -, hrun⟩ | ⟨-, -, hrun⟩ | ⟨hactive, next, _, hnext, -, hrun | hrun⟩ :=
    p.invoke_cases method params handler
  · rwa [hrun]
  · rwa [hrun]
  · rw [hrun]
    have hlt := lt_of_toNat_succ hnext
    exact ⟨h.idle, fun id m hid => UInt64.lt_trans (h.below id m hid) hlt, h.endsOnce,
      fun id hid => UInt64.lt_trans (h.endedBelow id hid) hlt⟩
  · rw [hrun]
    have hlt := lt_of_toNat_succ hnext
    have hnew : p.nextCallId ∉ p.ended := fun hmem => UInt64.lt_irrefl _ (h.endedBelow _ hmem)
    have hended :
        (p.calls ++ [(method, p.nextCallId)]).map Prod.snd = p.ended ++ [p.nextCallId] := by
      rw [List.map_append]
      rfl
    refine ⟨fun hidle => absurd hactive hidle, fun id m hid => ?_, ?_, ?_⟩
    · dsimp only at hid
      rw [treeMap_getElem?_erase, treeMap_getElem?_insert] at hid
      split_ifs at hid
      exact UInt64.lt_trans (h.below id m hid) hlt
    · rw [ended, hended, ← List.concat_eq_append]
      exact h.endsOnce.concat hnew
    · rw [ended, hended, List.forall_mem_append]
      exact ⟨fun id hid => UInt64.lt_trans (h.endedBelow id hid) hlt, by simpa using hlt⟩

theorem Booked.beginCall {p : PluginProcess} (h : p.Booked) (hactive : p.state = .active)
    {id : UInt64} (hid : id.toNat ≠ u64Max) (method : String) :
    (p.beginCall id method).1.Booked := by
  unfold PluginProcess.beginCall
  obtain ⟨htop, -⟩ | ⟨next, hafter, hnext⟩ := idAfter_cases id
  · exact absurd htop hid
  · rw [hafter]
    refine ⟨fun hidle => absurd hactive hidle, fun other m hother => ?_, h.endsOnce,
      fun other hother => lt_max_of_lt (.inl (h.endedBelow other hother))⟩
    dsimp only at hother ⊢
    rw [treeMap_getElem?_insert] at hother
    split_ifs at hother with heq
    · exact lt_max_of_lt (.inr (heq ▸ lt_of_toNat_succ hnext))
    · exact lt_max_of_lt (.inl (h.below other m hother))

theorem Booked.cancel {p : PluginProcess} (h : p.Booked) {id : UInt64}
    (hid : (p.inFlight[id]?).isSome → id ∉ p.ended) : (p.cancel id).1.Booked := by
  unfold PluginProcess.cancel
  cases hget : p.inFlight[id]? with
  | none => exact h
  | some method =>
    have hnew : id ∉ p.ended := hid (by rw [hget]; rfl)
    have hended : (p.calls ++ [(s!"{method}#cancelled", id)]).map Prod.snd = p.ended ++ [id] := by
      rw [List.map_append]
      rfl
    refine ⟨fun hidle other => ?_, fun other m hother => ?_, ?_, ?_⟩
    · dsimp only
      rw [treeMap_getElem?_erase, h.idle hidle other, ite_self]
    · dsimp only at hother
      rw [treeMap_getElem?_erase] at hother
      split_ifs at hother
      exact h.below other m hother
    · rw [ended, hended, ← List.concat_eq_append]
      exact h.endsOnce.concat hnew
    · rw [ended, hended, List.forall_mem_append]
      exact ⟨h.endedBelow, by simpa using h.below id method hget⟩

end PluginProcess

/-! ## A plugin and what was done with it -/

def PluginOp.isInvoke : PluginOp → Bool
  | .invoke .. => true
  | _ => false

/-- An operation on a plugin, the state it met and its answer. -/
structure PluginEvent where
  op : PluginOp
  state : PluginState
  answer : PluginAnswer

namespace PluginEvent

/-- The id that a call was answered under. -/
def returned (event : PluginEvent) : Option UInt64 :=
  match event.answer with
  | .ok response => response.map RpcResponse.id
  | .error _ => none

/-- The id that a call took. -/
def used (event : PluginEvent) : Option UInt64 :=
  match event.op with
  | .beginCall id _ => some id
  | _ => event.returned

/-- A call that a plugin was asked for while it was not active. -/
def Refused (event : PluginEvent) : Prop := event.state ≠ .active ∧ event.op.isInvoke = true

end PluginEvent

/-- A plugin and what was done with it so far. -/
structure TracedPlugin where
  process : PluginProcess
  history : List PluginEvent

def TracedPlugin.start (manifest : PluginManifest) : TracedPlugin := ⟨.connect manifest, []⟩

def tracedPlugin : Machine TracedPlugin PluginOp PluginAnswer where
  step := fun t op =>
    (⟨(op.perform t.process).1, t.history ++ [⟨op, t.process.state, (op.perform t.process).2⟩]⟩,
      (op.perform t.process).2)

namespace TracedPlugin

/-- The bookkeeping of a plugin's calls. -/
structure CallsKept (t : TracedPlugin) : Prop where
  idle : t.process.state ≠ .active → ∀ id : UInt64, t.process.inFlight[id]? = none
  below : ∀ (id : UInt64) method, t.process.inFlight[id]? = some method → id < t.process.nextCallId
  endsOnce : t.process.ended.Nodup
  fresh : t.history.Pairwise fun earlier later => ∀ id, later.returned = some id →
    earlier.used ≠ some id
  inRange : ∀ event ∈ t.history, ∀ message, event.answer ≠ .error (.panic message)

/-- What an operation has to meet where it is made. -/
def Sound (t : TracedPlugin) : PluginOp → Prop
  | .invoke .. =>
      if t.process.state = .active then t.process.nextCallId.toNat ≠ u64Max
      else ∀ event ∈ t.history, ¬ event.Refused
  | .beginCall id _ => t.process.state = .active ∧ id.toNat ≠ u64Max
  | .cancel id => (t.process.inFlight[id]?).isSome → id ∉ t.process.ended
  | .markUnavailable | .shutdown => True

/-- `CallsKept`, and where the ids that were used stand. -/
structure Invariant (t : TracedPlugin) : Prop where
  booked : t.process.Booked
  fresh : t.history.Pairwise fun earlier later => ∀ id, later.returned = some id →
    earlier.used ≠ some id
  inRange : ∀ event ∈ t.history, ∀ message, event.answer ≠ .error (.panic message)
  used : ∀ event ∈ t.history, ∀ id, event.used = some id →
    id < t.process.nextCallId ∨ event.Refused
  refused : ∀ event ∈ t.history, event.Refused →
    t.process.state ≠ .active ∧ event.used = some t.process.nextCallId

theorem Invariant.kept {t : TracedPlugin} (h : t.Invariant) : t.CallsKept :=
  ⟨h.booked.idle, h.booked.below, h.booked.endsOnce, h.fresh, h.inRange⟩

theorem invariant_start (manifest : PluginManifest) : (start manifest).Invariant := by
  have hnone : ∀ event, event ∉ (start manifest).history := fun _ => List.not_mem_nil
  exact ⟨PluginProcess.booked_connect manifest, List.Pairwise.nil,
    fun event hevent => absurd hevent (hnone event),
    fun event hevent => absurd hevent (hnone event),
    fun event hevent => absurd hevent (hnone event)⟩

theorem Invariant.noneRefused {t : TracedPlugin} (h : t.Invariant)
    (hactive : t.process.state = .active) : ∀ event ∈ t.history, ¬ event.Refused :=
  fun event hevent hrefused => (h.refused event hevent hrefused).1 hactive

/-- One more event, of an operation that leaves `p`. -/
theorem Invariant.push {t : TracedPlugin} (h : t.Invariant) {p : PluginProcess}
    {event : PluginEvent} (hbooked : p.Booked)
    (hnext : t.process.nextCallId ≤ p.nextCallId)
    (hstays : t.process.state ≠ .active →
      p.state ≠ .active ∧ p.nextCallId = t.process.nextCallId)
    (hfresh : ∀ id, event.returned = some id →
      id = t.process.nextCallId ∧ ∀ earlier ∈ t.history, ¬ earlier.Refused)
    (hrange : ∀ message, event.answer ≠ .error (.panic message))
    (hused : ∀ id, event.used = some id → id < p.nextCallId ∨ event.Refused)
    (hrefused : event.Refused → p.state ≠ .active ∧ event.used = some p.nextCallId) :
    Invariant ⟨p, t.history ++ [event]⟩ := by
  refine ⟨hbooked, ?_, ?_, ?_, ?_⟩
  · refine List.pairwise_append.mpr ⟨h.fresh, List.pairwise_singleton _ _, ?_⟩
    intro earlier hearlier later hlater id hid hused'
    obtain rfl := List.mem_singleton.mp hlater
    obtain ⟨rfl, hnone⟩ := hfresh id hid
    obtain hlt | hbad := h.used earlier hearlier _ hused'
    · exact UInt64.lt_irrefl _ hlt
    · exact hnone earlier hearlier hbad
  · exact List.forall_mem_append.mpr ⟨h.inRange, by simpa using hrange⟩
  · refine List.forall_mem_append.mpr ⟨fun earlier hearlier id hid => ?_, by simpa using hused⟩
    exact (h.used earlier hearlier id hid).imp_left fun hlt => UInt64.lt_of_lt_of_le hlt hnext
  · refine List.forall_mem_append.mpr ⟨fun earlier hearlier hbad => ?_, by simpa using hrefused⟩
    obtain ⟨hidle, hid⟩ := h.refused earlier hearlier hbad
    obtain ⟨hstate, heq⟩ := hstays hidle
    exact ⟨hstate, heq ▸ hid⟩

/-- An operation that answers no call. -/
theorem Invariant.pushQuiet {t : TracedPlugin} (h : t.Invariant) {p : PluginProcess}
    {event : PluginEvent} (hbooked : p.Booked) (hnext : p.nextCallId = t.process.nextCallId)
    (hstays : t.process.state ≠ .active → p.state ≠ .active) (hreturned : event.returned = none)
    (hused : event.used = none) (hop : event.op.isInvoke = false)
    (hrange : ∀ message, event.answer ≠ .error (.panic message)) :
    Invariant ⟨p, t.history ++ [event]⟩ := by
  refine h.push hbooked (hnext ▸ UInt64.le_refl _) (fun hidle => ⟨hstays hidle, hnext⟩) ?_ hrange ?_
    ?_
  · intro id hid
    rw [hreturned] at hid
    cases hid
  · intro id hid
    rw [hused] at hid
    cases hid
  · rintro ⟨-, hinvoke⟩
    rw [hop] at hinvoke
    cases hinvoke

theorem Invariant.invoke {t : TracedPlugin} (h : t.Invariant) {method : String} {params : Json}
    {handler : String → Json → Except CoreError Json}
    (hsound : t.Sound (.invoke method params handler)) :
    (tracedPlugin.next t (.invoke method params handler)).Invariant := by
  have hbooked := h.booked.invoke method params handler
  unfold Machine.next tracedPlugin
  dsimp only [PluginOp.perform, answered]
  unfold Sound at hsound
  obtain ⟨hidle, response, hid, hrun⟩ | ⟨hactive, htop, -⟩ |
      ⟨hactive, next, response, hnext, hid, hrun⟩ :=
    t.process.invoke_cases method params handler
  · rw [if_neg hidle] at hsound
    rw [hrun] at hbooked ⊢
    refine h.push hbooked (UInt64.le_refl _) (fun _ => ⟨hidle, rfl⟩) (fun id hreturned => ?_)
      nofun (fun id _ => .inr ⟨hidle, rfl⟩) fun _ => ⟨hidle, congrArg some hid⟩
    exact ⟨(Option.some_inj.mp hreturned).symm.trans hid, hsound⟩
  · rw [if_pos hactive] at hsound
    exact absurd htop hsound
  · have hlt := PluginProcess.lt_of_toNat_succ hnext
    have hnone := h.noneRefused hactive
    obtain hrun | hrun := hrun <;>
      rw [hrun] at hbooked ⊢ <;>
      refine h.push hbooked (UInt64.le_of_lt hlt) (fun hidle => absurd hactive hidle)
        (fun id hreturned => ⟨(Option.some_inj.mp hreturned).symm.trans hid, hnone⟩) nofun
        (fun id hused => .inl ?_) (fun hrefused => absurd hactive hrefused.1)
    all_goals
      rw [← Option.some_inj.mp hused]
      exact hid ▸ hlt

theorem Invariant.beginCall {t : TracedPlugin} (h : t.Invariant) {id : UInt64} {method : String}
    (hsound : t.Sound (.beginCall id method)) :
    (tracedPlugin.next t (.beginCall id method)).Invariant := by
  obtain ⟨hactive, hid⟩ := hsound
  have hbooked := h.booked.beginCall hactive hid method
  unfold Machine.next tracedPlugin
  dsimp only [PluginOp.perform, answered]
  unfold PluginProcess.beginCall at hbooked ⊢
  obtain ⟨htop, -⟩ | ⟨next, hafter, hnext⟩ := PluginProcess.idAfter_cases id
  · exact absurd htop hid
  · rw [hafter] at hbooked ⊢
    refine h.push hbooked ?_ (fun hidle => absurd hactive hidle) nofun nofun (fun used hused => ?_)
      fun hrefused => absurd hactive hrefused.1
    · dsimp only
      rw [UInt64.max_def]
      split_ifs with hle
      · exact hle
      · exact UInt64.le_refl _
    · rw [← Option.some_inj.mp hused]
      exact .inl (PluginProcess.lt_max_of_lt (.inr (PluginProcess.lt_of_toNat_succ hnext)))

theorem Invariant.cancel {t : TracedPlugin} (h : t.Invariant) {id : UInt64}
    (hsound : t.Sound (.cancel id)) : (tracedPlugin.next t (.cancel id)).Invariant := by
  have hbooked := h.booked.cancel hsound
  unfold Machine.next tracedPlugin
  dsimp only [PluginOp.perform, answered]
  unfold PluginProcess.cancel at hbooked ⊢
  cases hget : t.process.inFlight[id]? with
  | none => exact h.pushQuiet h.booked rfl (fun hidle => hidle) rfl rfl rfl nofun
  | some method =>
    rw [hget] at hbooked
    exact h.pushQuiet hbooked rfl (fun hidle => hidle) rfl rfl rfl nofun

theorem Invariant.markUnavailable {t : TracedPlugin} (h : t.Invariant) :
    (tracedPlugin.next t .markUnavailable).Invariant := by
  unfold Machine.next tracedPlugin
  dsimp only [PluginOp.perform]
  unfold PluginProcess.markUnavailable
  split_ifs
  · exact h.pushQuiet (h.booked.clear .unavailable) rfl (fun _ => nofun) rfl rfl rfl nofun
  · exact h.pushQuiet h.booked rfl (fun hidle => hidle) rfl rfl rfl nofun

theorem Invariant.shutdown {t : TracedPlugin} (h : t.Invariant) :
    (tracedPlugin.next t .shutdown).Invariant := by
  unfold Machine.next tracedPlugin
  dsimp only [PluginOp.perform]
  unfold PluginProcess.shutdown
  split_ifs
  · exact h.pushQuiet (h.booked.clear .stopped) rfl (fun _ => nofun) rfl rfl rfl nofun
  · exact h.pushQuiet h.booked rfl (fun hidle => hidle) rfl rfl rfl nofun

theorem Invariant.next {t : TracedPlugin} (h : t.Invariant) {op : PluginOp} (hsound : t.Sound op) :
    (tracedPlugin.next t op).Invariant := by
  cases op with
  | invoke method params handler => exact h.invoke hsound
  | beginCall id method => exact h.beginCall hsound
  | cancel id => exact h.cancel hsound
  | markUnavailable => exact h.markUnavailable
  | shutdown => exact h.shutdown

/-- An operation that leaves the books kept was sound. -/
theorem Invariant.sound_of_kept {t : TracedPlugin} (h : t.Invariant) {op : PluginOp}
    (hkept : (tracedPlugin.next t op).CallsKept) : t.Sound op := by
  have hanswer : ∀ message, (op.perform t.process).2 ≠ .error (.panic message) :=
    hkept.inRange ⟨op, t.process.state, (op.perform t.process).2⟩
      (by simp [Machine.next, tracedPlugin])
  cases op with
  | invoke method params handler =>
    unfold Sound
    split_ifs with hactive
    · intro htop
      obtain ⟨hidle, -⟩ | ⟨-, -, hrun⟩ | ⟨-, next, _, hnext, -⟩ :=
        t.process.invoke_cases method params handler
      · exact hidle hactive
      · exact hanswer addOverflowed (by rw [PluginOp.perform, hrun]; rfl)
      · have hbound := next.toNat_lt
        rw [hnext, htop] at hbound
        exact absurd hbound (by decide)
    · intro event hevent hrefused
      obtain ⟨-, response, hid, hrun⟩ | ⟨hstate, -⟩ | ⟨hstate, -⟩ :=
        t.process.invoke_cases method params handler
      · have hfresh := (List.pairwise_append.mp hkept.fresh).2.2 event hevent _
          List.mem_cons_self t.process.nextCallId
        refine hfresh ?_ (h.refused event hevent hrefused).2
        dsimp only [PluginEvent.returned, PluginOp.perform, answered]
        rw [hrun]
        exact congrArg some hid
      · exact hactive hstate
      · exact hactive hstate
  | beginCall id method =>
    constructor
    · by_contra hidle
      have hstate := ((PluginOp.beginCall id method).kept t.process).2
      have hnone := hkept.idle (fun hactive => hidle (hstate hactive)) id
      have hsome : ((PluginOp.beginCall id method).perform t.process).1.inFlight[id]? =
          some method := by
        rw [PluginOp.perform, PluginProcess.beginCall]
        cases PluginProcess.idAfter id <;> exact Std.TreeMap.getElem?_insert_self
      exact Option.some_ne_none method (hsome.symm.trans hnone)
    · intro htop
      refine hanswer addOverflowed ?_
      rw [PluginOp.perform, PluginProcess.beginCall, PluginProcess.idAfter, htop,
        if_neg (lt_irrefl _)]
      rfl
  | cancel id =>
    intro hsome hmem
    obtain ⟨method, hget⟩ := Option.isSome_iff_exists.mp hsome
    have hends := hkept.endsOnce
    unfold Machine.next tracedPlugin at hends
    dsimp only [PluginOp.perform, answered] at hends
    rw [PluginProcess.cancel, hget, PluginProcess.ended, List.map_append] at hends
    exact (List.nodup_append.mp hends).2.2 id hmem id List.mem_cons_self rfl
  | markUnavailable => trivial
  | shutdown => trivial

end TracedPlugin

/-- **Call bookkeeping.** Exactly in the runs whose every operation is sound where it is made do the
calls of a plugin stay in order: begun on an active plugin and below the top of the ids, cancelled
only if their id has not ended before, made on an active plugin with an id left or, once, on
another. -/
theorem calls_kept_iff (manifest : PluginManifest) (ops : List PluginOp) :
    (∀ n, (tracedPlugin.run (.start manifest) (ops.take n)).CallsKept) ↔
      tracedPlugin.Guarded TracedPlugin.Sound (.start manifest) ops :=
  tracedPlugin.forall_run_take_iff_guarded (fun _ h => h.kept) (fun _ _ h _ hsound => h.next hsound)
    (fun _ _ h _ hkept => h.sound_of_kept hkept) _ ops (TracedPlugin.invariant_start manifest)
    (tracedPlugin.guarded_true _ ops)

/-- A deploy plugin as it should be. -/
def shipper : PluginManifest :=
  { id := "shipper", name := "Shipper", family := .deployProvider, protocolVersion := 1,
    methods := ["deploy.build", "deploy.rollback"], capabilities := [] }

/-- A call that begins on a plugin whose process is gone stays in flight. -/
theorem call_begun_on_unavailable :
    ¬ (tracedPlugin.run (.start shipper)
      [.markUnavailable, .beginCall 1 "deploy.build"]).CallsKept := by
  intro h
  have hnone := h.idle (by decide +kernel) 1
  have hsome : (tracedPlugin.run (.start shipper)
      [.markUnavailable, .beginCall 1 "deploy.build"]).process.inFlight[(1 : UInt64)]? =
      some "deploy.build" := by decide +kernel
  exact Option.some_ne_none _ (hsome.symm.trans hnone)

/-! ## Refused registrations -/

/-- The manifest states the protocol, a name and every method of its family. -/
structure PluginManifest.Acceptable (manifest : PluginManifest) : Prop where
  version : manifest.protocolVersion = pluginProtocolVersion
  named : isBlank manifest.name.toList = false
  family : manifest.implementsFamily = true

theorem PluginProcess.refusal_eq_none_iff (manifest : PluginManifest) :
    (connect manifest).refusal = none ↔ manifest.Acceptable := by
  unfold connect negotiate
  split_ifs with hversion hname hfamily
  · exact iff_of_false (by simp) fun h => hversion h.version
  · exact iff_of_false (by simp) fun h => by simp [h.named] at hname
  · exact iff_of_false (by simp) fun h => by simp [h.family] at hfamily
  · exact iff_of_true rfl ⟨not_not.mp hversion, Bool.eq_false_of_not_eq_true hname,
      Bool.eq_true_of_not_eq_false hfamily⟩

namespace PluginRegistry

/-- Every active plugin is still there and active, with its manifest and its calls. -/
def Unharmed (r r' : PluginRegistry) : Prop :=
  ∀ id p, r.get id = some p → p.state = .active → ∃ p', r'.get id = some p' ∧
    p'.state = .active ∧ p'.manifest = p.manifest ∧ p'.inFlight = p.inFlight ∧
    p'.calls = p.calls

theorem Unharmed.refl (r : PluginRegistry) : Unharmed r r :=
  fun _ p hget hactive => ⟨p, hget, hactive, rfl, rfl, rfl⟩

/-- A refusal by the handshake is recorded under the plugin's id. -/
theorem register_of_refusal {manifest : PluginManifest} {r : PluginRegistry} {error : RpcError}
    (h : (PluginProcess.connect manifest).refusal = some error) :
    r.register manifest =
      (r.put manifest.id (PluginProcess.connect manifest), .error (.plugin error.message)) := by
  unfold register
  dsimp only
  rw [h]

/-- After an accepted handshake a refusal leaves the registry as it was. -/
theorem register_error_of_acceptable {manifest : PluginManifest} {r : PluginRegistry}
    {error : CoreError} (hacceptable : manifest.Acceptable)
    (h : (r.register manifest).2 = .error error) : (r.register manifest).1 = r := by
  unfold register at h ⊢
  dsimp only at h ⊢
  rw [(PluginProcess.refusal_eq_none_iff manifest).mpr hacceptable] at h ⊢
  dsimp only at h ⊢
  split at h
  · rfl
  · cases h

end PluginRegistry

/-- **Which refused registrations harm nobody.** For every registry and manifest: if the registration
is refused, every plugin that was active still is, with its manifest, its calls in flight and its
history, if and only if the manifest is acceptable in itself or no active plugin sits under its
id. -/
theorem refusal_harmless_iff (r : PluginRegistry) (manifest : PluginManifest) :
    (∀ error, (r.register manifest).2 = .error error → r.Unharmed (r.register manifest).1) ↔
      manifest.Acceptable ∨ ∀ p, r.get manifest.id = some p → p.state ≠ .active := by
  by_cases hacceptable : manifest.Acceptable
  · refine iff_of_true (fun error herror => ?_) (.inl hacceptable)
    rw [PluginRegistry.register_error_of_acceptable hacceptable herror]
    exact .refl r
  · obtain ⟨-, hnone, -⟩ | ⟨hrefused, error, hrefusal⟩ := PluginProcess.connect_cases manifest
    · exact absurd ((PluginProcess.refusal_eq_none_iff manifest).mp hnone) hacceptable
    · rw [PluginRegistry.register_of_refusal hrefusal, or_iff_right hacceptable]
      constructor
      · intro hharmless p hget hactive
        obtain ⟨p', hget', hactive', -⟩ := hharmless _ rfl manifest.id p hget hactive
        rw [PluginRegistry.get_put, if_pos rfl] at hget'
        obtain rfl := Option.some.inj hget'
        rw [hrefused] at hactive'
        cases hactive'
      · intro hidle _ _ id p hget hactive
        have hother : manifest.id ≠ id := by
          rintro rfl
          exact hidle p hget hactive
        exact ⟨p, by rw [PluginRegistry.get_put, if_neg hother, hget], hactive, rfl, rfl, rfl⟩

/-- A second registration under the id of an active plugin, with another protocol: it is refused, and
takes the place of the active one. -/
theorem refusal_replaces_active :
    let registry := (PluginRegistry.new.register shipper).1
    let newer := { shipper with protocolVersion := 2 }
    (registry.register newer).2 =
        .error (.plugin "offered protocol v2, control plane speaks v1") ∧
      (registry.get "shipper").map PluginProcess.state = some .active ∧
      ((registry.register newer).1.get "shipper").map PluginProcess.state = some .refused := by
  decide +kernel

end Labrys.Core
