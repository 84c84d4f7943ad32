import Labrys.Foundations.Text

/-! # Replacing in a rendered text

A text is rendered symbol by symbol. Replacing a pattern before the rendering and after it comes to
the same if the rendered pattern occurs in the rendered text only where the pattern occurs in the
text.

* `Aligned`: every occurrence of the rendered pattern is one of the pattern.
* `replaceAll_flatMap`: replacing commutes with the rendering then.
* `replaceAll_append_cons_of_notMem`: a symbol that is not in the pattern parts a replacement. -/

namespace Labrys.Foundations
set_option autoImplicit false

variable {α β : Type}

theorem infix_flatMap {pat text : List α} (f : α → List β) (h : pat <:+: text) :
    pat.flatMap f <:+: text.flatMap f := by
  obtain ⟨u, v, rfl⟩ := h
  exact ⟨u.flatMap f, v.flatMap f, by simp⟩

/-! ## Occurrences -/

/-- Every occurrence of the rendered pattern in the rendered text is one of the pattern. -/
def Aligned (f : α → List β) (pat text : List α) : Prop :=
  ∀ before after, text.flatMap f = before ++ (pat.flatMap f ++ after) →
    ∃ u v, text = u ++ (pat ++ v) ∧ u.flatMap f = before

theorem aligned_iff {f : α → List β} {pat text : List α} :
    Aligned f pat text ↔ ∀ before ∈ (text.flatMap f).inits,
      pat.flatMap f <+: (text.flatMap f).drop before.length →
        ∃ u ∈ text.inits, pat <+: text.drop u.length ∧ u.flatMap f = before := by
  constructor
  · intro h before hbefore hpat
    obtain ⟨rest, hrest⟩ := (List.mem_inits _ _).mp hbefore
    rw [← hrest, List.drop_left] at hpat
    obtain ⟨after, rfl⟩ := hpat
    obtain ⟨u, v, htext, hu⟩ := h before after hrest.symm
    refine ⟨u, (List.mem_inits _ _).mpr ⟨pat ++ v, htext.symm⟩, ?_, hu⟩
    rw [htext, List.drop_left]
    exact List.prefix_append pat v
  · intro h before after htext
    have hbefore : before ∈ (text.flatMap f).inits :=
      (List.mem_inits _ _).mpr ⟨pat.flatMap f ++ after, htext.symm⟩
    have hpat : pat.flatMap f <+: (text.flatMap f).drop before.length := by
      rw [htext, List.drop_left]
      exact List.prefix_append _ after
    obtain ⟨u, hu, ⟨v, hv⟩, hrender⟩ := h before hbefore hpat
    refine ⟨u, v, ?_, hrender⟩
    rw [hv]
    exact (List.prefix_iff_eq_append.mp ((List.mem_inits _ _).mp hu)).symm

instance [DecidableEq α] [DecidableEq β] (f : α → List β) (pat text : List α) :
    Decidable (Aligned f pat text) :=
  decidable_of_iff _ aligned_iff.symm

/-- What follows some of the symbols is aligned with the text. -/
theorem Aligned.of_append {f : α → List β} (hf : ∀ a, f a ≠ []) {pat u v : List α}
    (h : Aligned f pat (u ++ v)) : Aligned f pat v := by
  intro before after hv
  have hall : (u ++ v).flatMap f = (u.flatMap f ++ before) ++ (pat.flatMap f ++ after) := by
    rw [List.flatMap_append, hv, List.append_assoc]
  obtain ⟨u', v', htext, hu'⟩ := h _ _ hall
  obtain ⟨x, rfl, rfl⟩ | ⟨x, rfl, hx⟩ := List.append_eq_append_iff.mp htext
  · rw [List.flatMap_append, List.append_cancel_left_eq] at hu'
    exact ⟨x, v', rfl, hu'⟩
  · have hlength := congrArg List.length hu'
    simp only [List.flatMap_append, List.length_append] at hlength
    have hbefore : before = [] := List.length_eq_zero_iff.mp (by omega)
    have hnil : x = [] := by
      cases x with
      | nil => rfl
      | cons a x =>
        have hpos := List.length_pos_iff.mpr (hf a)
        simp only [List.flatMap_cons, List.length_append] at hlength
        omega
    subst hnil hbefore
    exact ⟨[], v', by simpa using hx.symm, rfl⟩

/-! ## Replacing -/

theorem prefix_of_prefix_append_cons {pat u v : List α} {x : α} (hx : x ∉ pat)
    (h : pat <+: u ++ x :: v) : pat <+: u := by
  obtain hshort | ⟨w, hw⟩ := List.prefix_or_prefix_of_prefix h (List.prefix_append u (x :: v))
  · exact hshort
  · rw [← hw, List.prefix_append_right_inj] at h
    cases w with
    | nil => rw [← hw, List.append_nil]
    | cons y w =>
      obtain rfl := (List.cons_prefix_cons.mp h).1
      exact absurd (hw ▸ List.mem_append_right u List.mem_cons_self) hx

variable [DecidableEq α] [DecidableEq β]

/-- A replacement passes over symbols that no occurrence begins at. -/
theorem replaceAll_append_of_none {pat : List α} (rep : List α) {u v : List α}
    (h : ∀ x y, u = x ++ y → y ≠ [] → ¬ pat <+: y ++ v) :
    replaceAll pat rep (u ++ v) = u ++ replaceAll pat rep v := by
  induction u with
  | nil => rfl
  | cons a u ih =>
    have hhead : ¬ pat <+: a :: (u ++ v) := h [] (a :: u) rfl (List.cons_ne_nil a u)
    rw [List.cons_append, replaceAll_cons_of_not_begins rep hhead,
      ih fun x y hu hy => h (a :: x) y (by rw [hu]; rfl) hy]
    rfl

/-- **Replacing commutes with an aligned rendering.** -/
theorem replaceAll_flatMap {f : α → List β} (hf : ∀ a, f a ≠ []) {pat : List α} (hpat : pat ≠ [])
    (rep : List α) {text : List α} (h : Aligned f pat text) :
    replaceAll (pat.flatMap f) (rep.flatMap f) (text.flatMap f) =
      (replaceAll pat rep text).flatMap f := by
  have hpat' : pat.flatMap f ≠ [] := by
    obtain ⟨a, rest, rfl⟩ := List.exists_cons_of_ne_nil hpat
    simp [hf a]
  induction hlength : text.length using Nat.strong_induction_on generalizing text with
  | _ n ih =>
  cases text with
  | nil => rfl
  | cons a rest =>
    by_cases hbegins : pat <+: a :: rest
    · obtain ⟨v, hv⟩ := hbegins
      have hshorter : v.length < n := by
        have hpos := List.length_pos_iff.mpr hpat
        have htext := congrArg List.length hv
        rw [List.length_append] at htext
        omega
      rw [← hv] at h ⊢
      rw [replaceAll_of_begins hpat rep (List.prefix_append pat v), List.drop_left,
        List.flatMap_append, List.flatMap_append,
        replaceAll_of_begins hpat' _ (List.prefix_append _ _), List.drop_left,
        ih v.length hshorter (h.of_append hf) rfl]
    · -- No occurrence begins within the rendering of the first symbol.
      have hnone : ∀ x y, f a = x ++ y → y ≠ [] → ¬ pat.flatMap f <+: y ++ rest.flatMap f := by
        rintro x y hxy hy ⟨after, hafter⟩
        have htext : (a :: rest).flatMap f = x ++ (pat.flatMap f ++ after) := by
          rw [List.flatMap_cons, hxy, List.append_assoc, hafter]
        obtain ⟨u, v, hu, hrender⟩ := h _ _ htext
        cases u with
        | nil => exact hbegins ⟨v, hu.symm⟩
        | cons b u =>
          obtain rfl : a = b := (List.cons_eq_cons.mp hu).1
          have hshort := congrArg List.length hrender
          rw [List.flatMap_cons, hxy] at hshort
          have hpos := List.length_pos_iff.mpr hy
          simp only [List.length_append] at hshort
          omega
      have hrest : Aligned f pat rest := Aligned.of_append hf (u := [a]) h
      rw [replaceAll_cons_of_not_begins rep hbegins, List.flatMap_cons, List.flatMap_cons,
        replaceAll_append_of_none _ hnone,
        ih rest.length (by rw [← hlength]; exact Nat.lt_succ_self _) hrest rfl]

theorem replaceAll_map {f : α → β} (hf : Function.Injective f) {pat : List α} (hpat : pat ≠ [])
    (rep text : List α) :
    replaceAll (pat.map f) (rep.map f) (text.map f) = (replaceAll pat rep text).map f := by
  have haligned : Aligned (fun a => [f a]) pat text := by
    intro before after h
    simp only [← List.map_eq_flatMap] at h ⊢
    obtain ⟨u, w, rfl, rfl, hw⟩ := List.map_eq_append_iff.mp h
    obtain ⟨p, v, rfl, hp, -⟩ := List.map_eq_append_iff.mp hw
    obtain rfl := List.map_injective_iff.mpr hf hp
    exact ⟨u, v, rfl, rfl⟩
  have h := replaceAll_flatMap (fun a => List.cons_ne_nil (f a) []) hpat rep haligned
  simpa only [← List.map_eq_flatMap] using h

/-- **A symbol that is not in the pattern** parts a replacement. -/
theorem replaceAll_append_cons_of_notMem {pat : List α} (hpat : pat ≠ []) (rep : List α) {x : α}
    (hx : x ∉ pat) (u v : List α) :
    replaceAll pat rep (u ++ x :: v) = replaceAll pat rep u ++ x :: replaceAll pat rep v := by
  induction hlength : u.length using Nat.strong_induction_on generalizing u with
  | _ n ih =>
  by_cases hbegins : pat <+: u
  · obtain ⟨w, rfl⟩ := hbegins
    have hshorter : w.length < n := by
      have hpos := List.length_pos_iff.mpr hpat
      rw [List.length_append] at hlength
      omega
    rw [List.append_assoc, replaceAll_of_begins hpat rep (List.prefix_append pat _),
      replaceAll_of_begins hpat rep (List.prefix_append pat w), List.drop_left, List.drop_left,
      ih w.length hshorter w rfl, List.append_assoc]
  · have hnot : ¬ pat <+: u ++ x :: v := fun h => hbegins (prefix_of_prefix_append_cons hx h)
    cases u with
    | nil =>
      rw [List.nil_append] at hnot ⊢
      rw [replaceAll_cons_of_not_begins rep hnot]
      rfl
    | cons a u =>
      rw [List.cons_append] at hnot ⊢
      rw [replaceAll_cons_of_not_begins rep hnot, replaceAll_cons_of_not_begins rep hbegins,
        ih u.length (by rw [← hlength]; exact Nat.lt_succ_self _) u rfl]
      rfl

end Labrys.Foundations
