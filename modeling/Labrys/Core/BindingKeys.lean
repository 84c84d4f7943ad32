import Labrys.Core.JobQueue
import Labrys.Core.SecretStore
import Labrys.Foundations.Framing

/-! # Keys that name what they bind

A job is deduplicated under a text that joins its target, its action and its version, and an envelope
is bound by a text that joins its reference and its version. The targets and the references are free
texts and may hold the separator themselves. What follows the last separator is a version, and what
follows the one before is the name of an action; neither holds a separator, so the texts are taken
apart from the right.

* `JobQueue.enqueue_duplicate`: a job that is turned away meets one of its own key.
* `openSecret_retargeted`: an envelope opens under no other reference and no other version.
* `binding_keys_injective`: the texts determine what they join. -/

namespace Labrys.Core
open Foundations
set_option autoImplicit false

theorem colon_notMem_toString (version : ℕ) : ':' ∉ (toString version).toList := by
  intro hmem
  exact absurd (isDigit_of_mem_toString_nat hmem) (by decide)

theorem colon_notMem_versionSuffix (version : ℕ) : ':' ∉ 'v' :: (toString version).toList := by
  rw [List.mem_cons, not_or]
  exact ⟨by decide, colon_notMem_toString version⟩

theorem versionSuffix_inj {version version' : ℕ}
    (h : 'v' :: (toString version).toList = 'v' :: (toString version').toList) :
    version = version' :=
  toString_nat_injective (String.toList_inj.mp (List.cons.inj h).2)

/-! ## Jobs -/

namespace JobAction

theorem colon_notMem_asStr (action : JobAction) : ':' ∉ action.asStr.toList := by
  cases action <;> decide

theorem asStr_injective : Function.Injective asStr := by
  intro action action' h
  cases action <;> cases action' <;> first | rfl | exact absurd h (by decide)

end JobAction

namespace IdempotencyKey

/-- The text of a key, with its two separators. -/
theorem toList_text (target : String) (action : JobAction) (version : ℕ) :
    (new target action version).text.toList =
      (target.toList ++ ':' :: action.asStr.toList) ++ ':' :: 'v' :: (toString version).toList := by
  simp [new, String.toList_append]

theorem new_injective : Function.Injective fun step : String × JobAction × ℕ =>
    new step.1 step.2.1 step.2.2 := by
  rintro ⟨target, action, version⟩ ⟨target', action', version'⟩ h
  have htext := congrArg (fun key => key.text.toList) h
  dsimp only at htext
  rw [toList_text, toList_text] at htext
  obtain ⟨hhead, hversion⟩ := eq_of_last_sep (colon_notMem_versionSuffix version)
    (colon_notMem_versionSuffix version') htext
  obtain ⟨htarget, haction⟩ := eq_of_last_sep action.colon_notMem_asStr action'.colon_notMem_asStr
    hhead
  rw [String.toList_inj.mp htarget, JobAction.asStr_injective (String.toList_inj.mp haction),
    versionSuffix_inj hversion]

end IdempotencyKey

/-- A job that is turned away meets a job in flight, and that one was not enqueued for another
target, action or version. -/
theorem JobQueue.enqueue_duplicate {q : JobQueue} {id existing : JobId} {target : String}
    {action : JobAction} {version : ℕ} {policy : RetryPolicy} {time : DateTime}
    (h : (q.enqueue id target action version policy time).2 = .duplicate existing) :
    ∃ job ∈ q.values, job.id = existing ∧ job.status.isInFlight = true ∧
      ∀ target' action' version', job.idempotencyKey = .new target' action' version' →
        (target', action', version') = (target, action, version) := by
  unfold enqueue at h
  dsimp only at h
  cases hfound : q.values.find? fun job =>
      decide (job.idempotencyKey = .new target action version) && job.status.isInFlight with
  | none =>
    rw [hfound] at h
    cases h
  | some job =>
    rw [hfound] at h
    obtain rfl := EnqueueOutcome.duplicate.inj h
    have hheld := @List.find?_some _ _ job _ hfound
    obtain ⟨hkey, hflight⟩ := Bool.and_eq_true_iff.mp hheld
    refine ⟨job, List.mem_of_find?_eq_some hfound, rfl, hflight, ?_⟩
    intro target' action' version' hother
    exact IdempotencyKey.new_injective (hother.symm.trans (of_decide_eq_true hkey))

/-! ## Envelopes -/

/-- The text that an envelope is bound by. -/
theorem envelopeAad_injective : Function.Injective fun bound : String × ℕ =>
    envelopeAad bound.1 bound.2 := by
  rintro ⟨refId, version⟩ ⟨refId', version'⟩ h
  have hsplit (refId : String) (version : ℕ) :
      (s!"labrys-secret v{secretEnvelopeVersion}:{refId}:v{version}").toList =
        ("labrys-secret v1:".toList ++ refId.toList) ++
          ':' :: 'v' :: (toString version).toList := by
    change ("labrys-secret v" ++ "1" ++ ":" ++ refId ++ ":v" ++ toString version).toList = _
    simp [String.toList_append]
  have htext := congrArg String.toList (toUTF8_toList_injective h)
  rw [hsplit, hsplit] at htext
  dsimp only at htext
  obtain ⟨hhead, hversion⟩ := eq_of_last_sep (colon_notMem_versionSuffix version)
    (colon_notMem_versionSuffix version') htext
  have hsame : refId = refId' := String.toList_inj.mp (List.append_cancel_left hhead)
  rw [hsame, versionSuffix_inj hversion]

/-- An envelope passed off as one of another reference or another version opens under no key. -/
theorem openSecret_retargeted {C : SecretCipher} (hideal : C.chacha20Poly1305.Ideal)
    (masterKey masterKey' : MasterKey) {refId refId' : String} {version version' : ℕ}
    (hne : (refId, version) ≠ (refId', version')) (scope : InjectionGrant) (value : String)
    (nonce : Nonce) :
    openSecret C masterKey' { envelope C masterKey refId version scope value nonce with
      refId := refId'
      version := version' } = none := by
  have haad : envelopeAad refId version ≠ envelopeAad refId' version' :=
    fun h => hne (envelopeAad_injective h)
  unfold openSecret envelope sealSecret
  rw [if_pos rfl, hideal.decrypt_of_ne haad, Option.bind_none]

/-- **Binding keys are injective**: the key of a job determines its target, action and version, and
the associated data of an envelope determine its reference and version, whatever the texts hold. -/
theorem binding_keys_injective :
    (Function.Injective fun step : String × JobAction × ℕ =>
      IdempotencyKey.new step.1 step.2.1 step.2.2) ∧
    Function.Injective fun bound : String × ℕ => envelopeAad bound.1 bound.2 :=
  ⟨IdempotencyKey.new_injective, envelopeAad_injective⟩

end Labrys.Core
