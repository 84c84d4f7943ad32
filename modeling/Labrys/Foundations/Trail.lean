import Mathlib.Data.List.Chain

/-! # Trails of transitions

A lifecycle keeps its phase and, next to it, the list of the transitions that led there. `Trail`
says that the two agree: each transition starts where the one before it ended, the last one ends in
the phase, and every one after the first, which records the birth, is legal. -/

namespace Labrys.Foundations
set_option autoImplicit false

variable {τ φ : Type} {source target : τ → φ} {legal : τ → Prop}

structure Trail (source target : τ → φ) (legal : τ → Prop) (ts : List τ) (phase : φ) : Prop where
  connected : ts.IsChain fun a b => source b = target a
  last : ts.getLast?.map target = some phase
  edges : ∀ t ∈ ts.tail, legal t

namespace Trail

theorem singleton (source target : τ → φ) (legal : τ → Prop) (t : τ) :
    Trail source target legal [t] (target t) where
  connected := List.isChain_singleton t
  last := rfl
  edges := fun _ h => by cases h

theorem ne_nil {ts : List τ} {phase : φ} (h : Trail source target legal ts phase) : ts ≠ [] := by
  rintro rfl
  cases h.last

theorem target_getLast {ts : List τ} {phase : φ} (h : Trail source target legal ts phase)
    (hne : ts ≠ []) : target (ts.getLast hne) = phase := by
  have hlast := h.last
  rw [List.getLast?_eq_some_getLast hne, Option.map_some] at hlast
  exact Option.some_inj.mp hlast

/-- A legal transition out of the phase. -/
theorem append {ts : List τ} {phase : φ} (h : Trail source target legal ts phase) {t : τ}
    (hsource : source t = phase) (hlegal : legal t) :
    Trail source target legal (ts ++ [t]) (target t) where
  connected := by
    refine List.isChain_append.mpr ⟨h.connected, List.isChain_singleton t, fun a ha b hb => ?_⟩
    have hlast := h.last
    rw [Option.mem_def.mp ha, Option.map_some] at hlast
    obtain rfl : b = t := by simpa using hb.symm
    rw [hsource]
    exact (Option.some_inj.mp hlast).symm
  last := by simp
  edges := fun e he => by
    rw [List.tail_append_of_ne_nil h.ne_nil] at he
    obtain he | he := List.mem_append.mp he
    · exact h.edges e he
    · rw [List.mem_singleton.mp he]
      exact hlegal

end Trail
end Labrys.Foundations
