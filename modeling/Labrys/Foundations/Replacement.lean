import Mathlib.Data.Finset.Max
import Labrys.Foundations.Text

/-! # Several replacements

Replacements of several patterns by one marker, one pattern after the other. A pattern that does not
overlap a piece of the text is replaced on either side of it, so two patterns that overlap neither
each other nor the marker can be replaced in either order (`replaceAll_comm`). Patterns that do
overlap each other cannot: where one contains the other, the longer one is the text to try, and
where one begins as the other ends, the two laid over one another
(`replaceAll_of_contained`, `replaceAll_of_border`). -/

namespace Labrys.Foundations
set_option autoImplicit false

variable {α : Type}

/-- A text without a border does not fit over itself. -/
theorem append_ne_append_of_unbordered {rep : List α}
    (hunbordered : ∀ u, u <+: rep → u <:+ rep → u ≠ [] → u = rep) {x y : List α} (hx : x ≠ [])
    (hin : ¬ rep <:+: x) : rep ++ y ≠ x ++ rep := by
  intro heq
  obtain ⟨more, rfl, -⟩ | ⟨more, hsplit, hagain⟩ := List.append_eq_append_iff.mp heq
  · exact hin (List.prefix_append rep more).isInfix
  · by_cases hmore : more = []
    · rw [hmore, List.append_nil] at hsplit
      exact hin (hsplit ▸ List.infix_refl _)
    · have hwhole : more = rep :=
        hunbordered more ⟨y, hagain.symm⟩ ⟨x, hsplit.symm⟩ hmore
      rw [hwhole] at hsplit
      exact hx (List.self_eq_append_left.mp hsplit)

variable [DecidableEq α]

theorem overlaps_comm (a b : List α) : overlaps a b = overlaps b a := by
  have hiff : overlaps a b = false ↔ overlaps b a = false := by
    rw [overlaps_eq_false_iff, overlaps_eq_false_iff]
    constructor
    · rintro ⟨hab, hba, hbegin, hend⟩
      exact ⟨hba, hab, fun u hu hu' => hend u hu' hu, fun u hu hu' => hbegin u hu' hu⟩
    · rintro ⟨hba, hab, hbegin, hend⟩
      exact ⟨hab, hba, fun u hu hu' => hend u hu' hu, fun u hu hu' => hbegin u hu' hu⟩
  cases hb : overlaps b a with
  | false => exact hiff.mpr hb
  | true =>
    cases ha : overlaps a b with
    | false => exact absurd (hiff.mp ha) (by simp [hb])
    | true => rfl

/-- A text overlaps itself. -/
theorem overlaps_self (a : List α) : overlaps a a = true := by
  cases h : overlaps a a with
  | true => rfl
  | false => exact absurd (List.infix_refl a) (overlaps_eq_false_iff.mp h).1

theorem replaceAll_of_not_infix {pat : List α} (hpat : pat ≠ []) (rep : List α) {text : List α}
    (h : ¬ pat <:+: text) : replaceAll pat rep text = text := by
  obtain ⟨-, hsame⟩ | ⟨before, rest, rfl, -⟩ := replaceAll_first hpat rep text
  · exact hsame
  · exact absurd ⟨before, rest, by rw [List.append_assoc]⟩ h

/-- Replacing a pattern by itself changes nothing. -/
theorem replaceAll_self {pat : List α} (hpat : pat ≠ []) (text : List α) :
    replaceAll pat pat text = text := by
  induction hlength : text.length using Nat.strong_induction_on generalizing text with
  | _ n ih =>
    obtain ⟨-, hsame⟩ | ⟨before, rest, rfl, -, hfirst⟩ := replaceAll_first hpat pat text
    · exact hsame
    · have hshorter : rest.length < n := by
        have hpos := List.length_pos_iff.mpr hpat
        simp only [List.length_append] at hlength
        omega
      rw [hfirst, ih rest.length hshorter rest rfl]

theorem replaceAll_ne_nil {pat rep : List α} (hpat : pat ≠ []) (hrep : rep ≠ []) {text : List α}
    (h : text ≠ []) : replaceAll pat rep text ≠ [] := by
  obtain ⟨-, hsame⟩ | ⟨before, rest, rfl, -, hfirst⟩ := replaceAll_first hpat rep text
  · rwa [hsame]
  · rw [hfirst]
    simp [hrep]

/-! ## On either side of a piece -/

/-- A pattern that begins nowhere in a text is not replaced there, whatever comes after it. -/
theorem replaceAll_append_of_not_begins {pat : List α} (rep : List α) (text after : List α)
    (h : ∀ rest, rest <:+ text → rest ≠ [] → ¬ pat <+: rest ++ after) :
    replaceAll pat rep (text ++ after) = text ++ replaceAll pat rep after := by
  induction text with
  | nil => rfl
  | cons c text ih =>
    have hhere : ¬ pat <+: c :: (text ++ after) := h (c :: text) (List.suffix_refl _) (by simp)
    rw [List.cons_append, replaceAll_cons_of_not_begins rep hhere, ih fun rest hrest =>
      h rest (hrest.trans (List.suffix_cons c text))]
    rfl

/-- A pattern that does not occur in a text and does not overlap the piece after it begins in neither. -/
theorem not_begins_of_apart {pat piece : List α} (hapart : overlaps pat piece = false)
    {text : List α} (htext : ¬ pat <:+: text) (after rest : List α) (hrest : rest <:+ text ++ piece)
    (hne : rest ≠ []) : ¬ pat <+: rest ++ after := by
  obtain ⟨hin, hout, hbegin, hend⟩ := overlaps_eq_false_iff.mp hapart
  rintro ⟨tail, htail⟩
  obtain ⟨front, hfront⟩ := hrest
  obtain ⟨inner, rfl, rfl⟩ | ⟨inner, rfl, hpiece⟩ := List.append_eq_append_iff.mp hfront
  · -- The rest begins in the text.
    rw [List.append_assoc] at htail
    obtain ⟨more, rfl, -⟩ | ⟨more, rfl, hmore⟩ := List.append_eq_append_iff.mp htail
    · exact htext ⟨front, more, by rw [List.append_assoc]⟩
    · obtain ⟨beyond, rfl, -⟩ | ⟨beyond, rfl, -⟩ := List.append_eq_append_iff.mp hmore
      · exact hout ⟨inner, beyond, by rw [List.append_assoc]⟩
      · have hnil : more = [] := hend more (List.suffix_append inner more)
          (List.prefix_append more beyond)
        exact htext ⟨front, [], by rw [hnil, List.append_nil, List.append_nil]⟩
  · -- It begins in the piece.
    obtain ⟨more, rfl, -⟩ | ⟨more, rfl, -⟩ := List.append_eq_append_iff.mp htail
    · exact hin ⟨inner, more, by rw [hpiece, List.append_assoc]⟩
    · exact hne (hbegin rest (List.prefix_append rest more) ⟨inner, hpiece.symm⟩)

/-- A pattern is replaced on either side of a piece that it does not overlap. -/
theorem replaceAll_around {pat piece : List α} (hpat : pat ≠ [])
    (hapart : overlaps pat piece = false) (rep text after : List α) :
    replaceAll pat rep (text ++ (piece ++ after)) =
      replaceAll pat rep text ++ (piece ++ replaceAll pat rep after) := by
  induction hlength : text.length using Nat.strong_induction_on generalizing text with
  | _ n ih =>
    obtain ⟨hnone, hsame⟩ | ⟨before, rest, rfl, -, hfirst⟩ := replaceAll_first hpat rep text
    · have hplain := replaceAll_append_of_not_begins rep (text ++ piece) after
        fun rest hrest hne => not_begins_of_apart hapart hnone after rest hrest hne
      rw [hsame, ← List.append_assoc, hplain, List.append_assoc]
    · have hshorter : rest.length < n := by
        have hpos := List.length_pos_iff.mpr hpat
        simp only [List.length_append] at hlength
        omega
      have hsplit : before ++ (pat ++ rest) ++ (piece ++ after) =
          before ++ (pat ++ (rest ++ (piece ++ after))) := by simp only [List.append_assoc]
      rw [hsplit, hfirst, hfirst, ih rest.length hshorter rest rfl]
      simp only [List.append_assoc]

/-! ## Either order -/

section Order
variable {p q rep : List α}

/-- The first occurrence of either pattern is replaced the same way in both orders. -/
theorem replaceAll_comm_step (hq : q ≠ []) (hqrep : overlaps q rep = false)
    (hqp : overlaps q p = false) {before rest : List α}
    (hbefore : ¬ q <:+: before)
    (hfirst : ∀ after, replaceAll p rep (before ++ (p ++ after)) =
      before ++ (rep ++ replaceAll p rep after))
    (ih : replaceAll q rep (replaceAll p rep rest) = replaceAll p rep (replaceAll q rep rest)) :
    replaceAll q rep (replaceAll p rep (before ++ (p ++ rest))) =
      replaceAll p rep (replaceAll q rep (before ++ (p ++ rest))) := by
  have hkept : replaceAll q rep before = before := replaceAll_of_not_infix hq rep hbefore
  rw [hfirst, replaceAll_around hq hqrep, replaceAll_around hq hqp, hkept, hfirst, ih]

theorem replaceAll_comm (hp : p ≠ []) (hq : q ≠ []) (hprep : overlaps p rep = false)
    (hqrep : overlaps q rep = false) (hpq : overlaps p q = false) (text : List α) :
    replaceAll q rep (replaceAll p rep text) = replaceAll p rep (replaceAll q rep text) := by
  have hqp : overlaps q p = false := by rwa [overlaps_comm]
  induction hlength : text.length using Nat.strong_induction_on generalizing text with
  | _ n ih =>
    obtain ⟨hnone, hsame⟩ | ⟨before, rest, hsplit, hbefore, hfirst⟩ := replaceAll_first hp rep text
    · have hclear : ¬ p <:+: replaceAll q rep text := fun h =>
        hnone (infix_of_infix_replaceAll hq hprep text h)
      rw [hsame, replaceAll_of_not_infix hp rep hclear]
    · by_cases hinside : q <:+: before
      · -- The other pattern comes first.
        obtain ⟨hnone, -⟩ | ⟨before', rest', hsplit', hbefore', hfirst'⟩ :=
          replaceAll_first hq rep text
        · exact absurd (hinside.trans ⟨[], p ++ rest, by rw [hsplit, List.nil_append]⟩) hnone
        · have hearlier : ¬ p <:+: before' := by
            intro h
            obtain ⟨more, hmore, -⟩ | ⟨more, hmore, -⟩ :=
              List.append_eq_append_iff.mp (hsplit.symm.trans hsplit')
            · exact hbefore' (hinside.trans ⟨[], more, by rw [hmore, List.nil_append]⟩)
            · exact hbefore (h.trans ⟨[], more, by rw [hmore, List.nil_append]⟩)
          have hshorter : rest'.length < n := by
            have hpos := List.length_pos_iff.mpr hq
            rw [hsplit'] at hlength
            simp only [List.length_append] at hlength
            omega
          rw [hsplit']
          exact (replaceAll_comm_step hp hprep hpq hearlier hfirst'
            (ih rest'.length hshorter rest' rfl).symm).symm
      · have hshorter : rest.length < n := by
          have hpos := List.length_pos_iff.mpr hp
          rw [hsplit] at hlength
          simp only [List.length_append] at hlength
          omega
        rw [hsplit]
        exact replaceAll_comm_step hq hqrep hqp hinside hfirst
          (ih rest.length hshorter rest rfl)

end Order

/-! ## Lists of patterns -/

section Each
variable (rep : List α)

/-- One pattern after the other. -/
def replaceEach (pats : List (List α)) (text : List α) : List α :=
  pats.foldl (fun out pat => replaceAll pat rep out) text

@[simp] theorem replaceEach_nil (text : List α) : replaceEach rep [] text = text := rfl

@[simp] theorem replaceEach_cons (pat : List α) (pats : List (List α)) (text : List α) :
    replaceEach rep (pat :: pats) text = replaceEach rep pats (replaceAll pat rep text) := rfl

variable {rep} {pats : List (List α)}

/-- In any order, if no two different patterns overlap. -/
theorem replaceEach_perm (hne : ∀ p ∈ pats, p ≠ [])
    (hapart : ∀ p ∈ pats, ∀ q ∈ pats, p ≠ q →
      overlaps p q = false ∧ overlaps p rep = false ∧ overlaps q rep = false)
    {pats' : List (List α)} (h : pats.Perm pats') (text : List α) :
    replaceEach rep pats' text = replaceEach rep pats text := by
  refine (h.foldl_eq' (fun p hp q hq out => ?_) text).symm
  by_cases hpq : p = q
  · rw [hpq]
  · obtain ⟨hover, hprep, hqrep⟩ := hapart p hp q hq hpq
    exact replaceAll_comm (hne p hp) (hne q hq) hprep hqrep hover out

theorem replaceEach_of_not_infix (hne : ∀ p ∈ pats, p ≠ []) {text : List α}
    (h : ∀ p ∈ pats, ¬ p <:+: text) : replaceEach rep pats text = text := by
  induction pats with
  | nil => rfl
  | cons p pats ih =>
    rw [replaceEach_cons, replaceAll_of_not_infix (hne p List.mem_cons_self) rep
      (h p List.mem_cons_self)]
    exact ih (fun q hq => hne q (List.mem_cons_of_mem p hq))
      fun q hq => h q (List.mem_cons_of_mem p hq)

/-- A marker that is in place stays, and what is around it is replaced by itself. -/
theorem replaceEach_around (hne : ∀ p ∈ pats, p ≠ []) (hapart : ∀ p ∈ pats, overlaps p rep = false)
    (text after : List α) : replaceEach rep pats (text ++ (rep ++ after)) =
      replaceEach rep pats text ++ (rep ++ replaceEach rep pats after) := by
  induction pats generalizing text after with
  | nil => rfl
  | cons p pats ih =>
    rw [replaceEach_cons, replaceAll_around (hne p List.mem_cons_self)
      (hapart p List.mem_cons_self)]
    exact ih (fun q hq => hne q (List.mem_cons_of_mem p hq))
      (fun q hq => hapart q (List.mem_cons_of_mem p hq)) _ _

theorem replaceEach_ne_nil (hrep : rep ≠ []) (hne : ∀ p ∈ pats, p ≠ []) {text : List α}
    (h : text ≠ []) : replaceEach rep pats text ≠ [] := by
  induction pats generalizing text with
  | nil => exact h
  | cons p pats ih =>
    exact ih (fun q hq => hne q (List.mem_cons_of_mem p hq))
      (replaceAll_ne_nil (hne p List.mem_cons_self) hrep h)

end Each

/-! ## When the order matters -/

/-- Two different members of a list can both be brought to its front, in either order. -/
theorem exists_perm_cons_cons {β : Type} [DecidableEq β] {xs : List β} {a b : β} (ha : a ∈ xs)
    (hb : b ∈ xs) (hab : a ≠ b) :
    ∃ rest, xs.Perm (a :: b :: rest) ∧ xs.Perm (b :: a :: rest) := by
  have hb' : b ∈ xs.erase a := (List.mem_erase_of_ne hab.symm).mpr hb
  have hperm : xs.Perm (a :: b :: (xs.erase a).erase b) :=
    (List.perm_cons_erase ha).trans ((List.perm_cons_erase hb').cons a)
  exact ⟨(xs.erase a).erase b, hperm, hperm.trans (List.Perm.swap b a _)⟩

/-- The longest text with which `p` ends and `q` begins. -/
theorem exists_longest_border (p q : List α) :
    ∃ v, v <:+ p ∧ v <+: q ∧ ∀ u, u <:+ p → u <+: q → u.length ≤ v.length := by
  let borders := p.tails.toFinset.filter fun u => u <+: q
  have hmem : ∀ u, u ∈ borders ↔ u <:+ p ∧ u <+: q := by simp [borders]
  have hnonempty : borders.Nonempty := ⟨[], (hmem []).mpr ⟨List.nil_suffix, List.nil_prefix⟩⟩
  obtain ⟨v, hv, hmax⟩ := borders.exists_max_image List.length hnonempty
  exact ⟨v, ((hmem v).mp hv).1, ((hmem v).mp hv).2, fun u hu hu' => hmax u ((hmem u).mpr ⟨hu, hu'⟩)⟩

section Matters
variable {rep : List α} {pats : List (List α)}

/-- What is around a marker never goes away. -/
theorem replaceEach_eq_marker_iff (hrep : rep ≠ []) (hne : ∀ p ∈ pats, p ≠ [])
    (hapart : ∀ p ∈ pats, overlaps p rep = false) (before after : List α) :
    replaceEach rep pats (before ++ (rep ++ after)) = rep ↔ before = [] ∧ after = [] := by
  have hempty : replaceEach rep pats [] = [] :=
    replaceEach_of_not_infix hne fun p hp hinfix => hne p hp (List.infix_nil.mp hinfix)
  rw [replaceEach_around hne hapart]
  constructor
  · intro heq
    have hlength := congrArg List.length heq
    simp only [List.length_append] at hlength
    constructor
    · by_contra h
      have hpos := List.length_pos_iff.mpr (replaceEach_ne_nil hrep hne h)
      omega
    · by_contra h
      have hpos := List.length_pos_iff.mpr (replaceEach_ne_nil hrep hne h)
      omega
  · rintro ⟨rfl, rfl⟩
    rw [hempty, List.nil_append, List.append_nil]

/-- The longer pattern as the text: on its own it becomes the marker, after the shorter one more. -/
theorem replaceEach_ne_of_contained {p q : List α} (hrep : rep ≠ [])
    (hne : ∀ r ∈ p :: q :: pats, r ≠ []) (hapart : ∀ r ∈ p :: q :: pats, overlaps r rep = false)
    (hin : p <:+: q) (hpq : p ≠ q) :
    replaceEach rep (p :: q :: pats) q ≠ replaceEach rep (q :: p :: pats) q := by
  obtain ⟨hp, hneq⟩ := List.forall_mem_cons.mp hne
  obtain ⟨hq, hnerest⟩ := List.forall_mem_cons.mp hneq
  obtain ⟨hprep, hapartq⟩ := List.forall_mem_cons.mp hapart
  have hapartp : ∀ r ∈ p :: pats, overlaps r rep = false :=
    List.forall_mem_cons.mpr ⟨hprep, (List.forall_mem_cons.mp hapartq).2⟩
  have hwhole : replaceAll q rep q = [] ++ (rep ++ []) := by
    rw [replaceAll_of_begins hq rep (List.prefix_refl q), List.drop_length]
    rfl
  have hlong : replaceEach rep (q :: p :: pats) q = rep := by
    rw [replaceEach_cons, hwhole]
    exact (replaceEach_eq_marker_iff hrep (List.forall_mem_cons.mpr ⟨hp, hnerest⟩) hapartp _ _).mpr
      ⟨rfl, rfl⟩
  rw [hlong]
  -- The shorter one first leaves something around the marker.
  obtain ⟨hnone, -⟩ | ⟨before, rest, hsplit, -, hfirst⟩ := replaceAll_first hp rep q
  · exact absurd hin hnone
  · have hshort : replaceAll p rep q = before ++ (rep ++ replaceAll p rep rest) := by
      rw [hsplit, hfirst]
    rw [replaceEach_cons, hshort]
    intro heq
    obtain ⟨hbefore, hafter⟩ := (replaceEach_eq_marker_iff hrep hneq hapartq _ _).mp heq
    have hrest : rest = [] := by
      by_contra h
      exact replaceAll_ne_nil hp hrep h hafter
    exact hpq (by rw [hsplit, hbefore, hrest, List.nil_append, List.append_nil])

/-- Laid over its longest border with `p`, the pattern `q` occurs there and not before. -/
theorem replaceAll_overlaid {x v y : List α} (hne : v ++ y ≠ []) (hin : ¬ v ++ y <:+: x ++ v)
    (hlongest : ∀ u, u <:+ x ++ v → u <+: v ++ y → u.length ≤ v.length) :
    replaceAll (v ++ y) rep (x ++ (v ++ y)) = x ++ rep := by
  obtain ⟨hnone, -⟩ | ⟨before, rest, hsplit, -, hfirst⟩ :=
    replaceAll_first hne rep (x ++ (v ++ y))
  · exact absurd (List.suffix_append x (v ++ y)).isInfix hnone
  · have hbefore : x = before := by
      obtain ⟨more, rfl, hmore⟩ | ⟨more, rfl, hmore⟩ := List.append_eq_append_iff.mp hsplit
      · -- It cannot occur after the border: there is not enough text left.
        have hnil : more = [] := by
          have hlength := congrArg List.length hmore
          simp only [List.length_append] at hlength
          exact List.length_eq_zero_iff.mp (by omega)
        rw [hnil, List.append_nil]
      · -- Before it, it would lie in `p` or have a longer border with it.
        have hnil : more = [] := by
          by_contra h
          have hpos := List.length_pos_iff.mpr h
          rw [← List.append_assoc] at hmore
          obtain ⟨beyond, hbeyond, -⟩ | ⟨beyond, hbeyond, -⟩ := List.append_eq_append_iff.mp hmore
          · exact hin ⟨before, beyond, by rw [List.append_assoc, ← hbeyond, List.append_assoc]⟩
          · have hle := hlongest (more ++ v) ⟨before, by rw [List.append_assoc]⟩ ⟨beyond, hbeyond.symm⟩
            rw [List.length_append] at hle
            omega
        rw [hnil, List.append_nil]
    subst hbefore
    have hrest : rest = [] := by
      have hlength := congrArg List.length hsplit
      simp only [List.length_append] at hlength
      exact List.length_eq_zero_iff.mp (by omega)
    rw [hsplit, hfirst, hrest]
    simp [replaceAll, replaceFrom]

/-- Where no pattern occurs in another one, none occurs in a proper part of one. -/
theorem not_infix_of_part
    (hapart : ∀ r ∈ pats, ∀ s ∈ pats, r ≠ s → ¬ r <:+: s) {whole part : List α}
    (hwhole : whole ∈ pats) (hpart : part <:+: whole) (hless : part.length < whole.length) :
    ∀ r ∈ pats, ¬ r <:+: part := by
  intro r hr hinside
  by_cases heq : r = whole
  · have hlength := hinside.length_le
    rw [heq] at hlength
    omega
  · exact hapart r hr _ hwhole heq (hinside.trans hpart)

/-- Text that no pattern occurs in stays as it is on either side of the marker. -/
theorem replaceEach_around_of_not_infix (hne : ∀ r ∈ pats, r ≠ [])
    (hapart : ∀ r ∈ pats, overlaps r rep = false) {text after : List α}
    (htext : ∀ r ∈ pats, ¬ r <:+: text) (hafter : ∀ r ∈ pats, ¬ r <:+: after) :
    replaceEach rep pats (text ++ (rep ++ after)) = text ++ (rep ++ after) := by
  rw [replaceEach_around hne hapart, replaceEach_of_not_infix hne htext,
    replaceEach_of_not_infix hne hafter]

/-- The two patterns laid over one another: what the first one leaves of the second is not what the
second leaves of the first. -/
theorem replaceEach_ne_of_border {p q : List α}
    (hunbordered : ∀ u, u <+: rep → u <:+ rep → u ≠ [] → u = rep)
    (hne : ∀ r ∈ p :: q :: pats, r ≠ []) (hapart : ∀ r ∈ p :: q :: pats, overlaps r rep = false)
    (hapart' : ∀ r ∈ p :: q :: pats, ∀ s ∈ p :: q :: pats, r ≠ s → ¬ r <:+: s) (hpq : p ≠ q)
    {u : List α} (hend : u <:+ p) (hbegin : u <+: q) (hu : u ≠ []) :
    ∃ text, replaceEach rep (p :: q :: pats) text ≠ replaceEach rep (q :: p :: pats) text := by
  obtain ⟨v, ⟨x, rfl⟩, ⟨y, rfl⟩, hlongest⟩ := exists_longest_border p q
  have hv : v ≠ [] := by
    rintro rfl
    exact hu (List.length_eq_zero_iff.mp (Nat.le_zero.mp (hlongest u hend hbegin)))
  have hp : x ++ v ∈ (x ++ v) :: (v ++ y) :: pats := List.mem_cons_self
  have hq : v ++ y ∈ (x ++ v) :: (v ++ y) :: pats := List.mem_cons_of_mem _ List.mem_cons_self
  have hx : x ≠ [] := by
    rintro rfl
    exact hapart' _ hp _ hq hpq (List.prefix_append v y).isInfix
  have hy : y ≠ [] := by
    rintro rfl
    exact hapart' _ hq _ hp hpq.symm (by rw [List.append_nil]; exact (List.suffix_append x v).isInfix)
  -- Nothing else occurs in what is left over, for it would occur in one of the two.
  have hvpos := List.length_pos_iff.mpr hv
  have hleft : ∀ r ∈ (x ++ v) :: (v ++ y) :: pats, ¬ r <:+: x := by
    refine not_infix_of_part hapart' hp (List.prefix_append x v).isInfix ?_
    rw [List.length_append]
    omega
  have hright : ∀ r ∈ (x ++ v) :: (v ++ y) :: pats, ¬ r <:+: y := by
    refine not_infix_of_part hapart' hq (List.suffix_append v y).isInfix ?_
    rw [List.length_append]
    omega
  refine ⟨x ++ (v ++ y), fun heq => ?_⟩
  have hfirst : replaceAll (x ++ v) rep (x ++ (v ++ y)) = [] ++ (rep ++ y) := by
    rw [← List.append_assoc, replaceAll_of_begins (hne _ hp) rep (List.prefix_append _ _),
      List.drop_left, replaceAll_of_not_infix (hne _ hp) rep (hright _ hp), List.nil_append]
  have hsecond : replaceAll (v ++ y) rep (x ++ (v ++ y)) = x ++ (rep ++ []) := by
    rw [replaceAll_overlaid (hne _ hq) (hapart' _ hq _ hp hpq.symm) hlongest, List.append_nil]
  have hkeep : ∀ a, (∀ r ∈ a :: pats, r ∈ (x ++ v) :: (v ++ y) :: pats) → ∀ text after,
      (∀ r ∈ a :: pats, ¬ r <:+: text) → (∀ r ∈ a :: pats, ¬ r <:+: after) →
        replaceEach rep (a :: pats) (text ++ (rep ++ after)) = text ++ (rep ++ after) :=
    fun a hsub _ _ => replaceEach_around_of_not_infix (fun r hr => hne r (hsub r hr))
      fun r hr => hapart r (hsub r hr)
  have hempty : ∀ r ∈ (x ++ v) :: (v ++ y) :: pats, ¬ r <:+: [] := fun r hr hinfix =>
    hne r hr (List.infix_nil.mp hinfix)
  have hsubp : ∀ r ∈ (x ++ v) :: pats, r ∈ (x ++ v) :: (v ++ y) :: pats := by
    intro r hr
    exact (List.mem_cons.mp hr).elim (fun h => h ▸ hp) fun h =>
      List.mem_cons_of_mem _ (List.mem_cons_of_mem _ h)
  have hsubq : ∀ r ∈ (v ++ y) :: pats, r ∈ (x ++ v) :: (v ++ y) :: pats := fun r hr =>
    List.mem_cons_of_mem _ hr
  rw [replaceEach_cons rep (x ++ v), replaceEach_cons rep (v ++ y) ((x ++ v) :: pats), hfirst, hsecond,
    hkeep _ hsubq _ _ (fun r hr => hempty r (hsubq r hr)) (fun r hr => hright r (hsubq r hr)),
    hkeep _ hsubp _ _ (fun r hr => hleft r (hsubp r hr)) (fun r hr => hempty r (hsubp r hr)),
    List.nil_append, List.append_nil] at heq
  have hin : ¬ rep <:+: x := fun h => (overlaps_eq_false_iff.mp (hapart _ hp)).2.1
    (h.trans (List.prefix_append x v).isInfix)
  exact append_ne_append_of_unbordered hunbordered hx hin heq

/-- **The order does not matter** exactly if no two different patterns overlap, for patterns that do
not overlap the marker. -/
theorem replaceEach_order_iff (hrep : rep ≠ [])
    (hunbordered : ∀ u, u <+: rep → u <:+ rep → u ≠ [] → u = rep) (hne : ∀ p ∈ pats, p ≠ [])
    (hapart : ∀ p ∈ pats, overlaps p rep = false) :
    (∀ pats', pats.Perm pats' → ∀ text, replaceEach rep pats' text = replaceEach rep pats text) ↔
      ∀ p ∈ pats, ∀ q ∈ pats, p ≠ q → overlaps p q = false := by
  constructor
  · intro horder
    have hboth : ∀ p ∈ pats, ∀ q ∈ pats, p ≠ q → ∃ rest, pats.Perm (p :: q :: rest) ∧
        ∀ text, replaceEach rep (p :: q :: rest) text = replaceEach rep (q :: p :: rest) text := by
      intro p hp q hq hpq
      obtain ⟨rest, hperm, hperm'⟩ := exists_perm_cons_cons hp hq hpq
      exact ⟨rest, hperm, fun text => (horder _ hperm text).trans (horder _ hperm' text).symm⟩
    have hover : ∀ {rest p q}, pats.Perm (p :: q :: rest) →
        (∀ r ∈ p :: q :: rest, r ≠ []) ∧ ∀ r ∈ p :: q :: rest, overlaps r rep = false :=
      fun hperm => ⟨fun r hr => hne r (hperm.mem_iff.mpr hr),
        fun r hr => hapart r (hperm.mem_iff.mpr hr)⟩
    have hcontained : ∀ p ∈ pats, ∀ q ∈ pats, p ≠ q → ¬ p <:+: q := by
      intro p hp q hq hpq hin
      obtain ⟨rest, hperm, hsame⟩ := hboth p hp q hq hpq
      exact replaceEach_ne_of_contained hrep (hover hperm).1 (hover hperm).2 hin hpq (hsame q)
    have hborder : ∀ p ∈ pats, ∀ q ∈ pats, p ≠ q → ∀ u, u <:+ p → u <+: q → u = [] := by
      intro p hp q hq hpq u hend hbegin
      by_contra hu
      obtain ⟨rest, hperm, hsame⟩ := hboth p hp q hq hpq
      obtain ⟨text, htext⟩ := replaceEach_ne_of_border hunbordered (hover hperm).1 (hover hperm).2
        (fun r hr s hs => hcontained r (hperm.mem_iff.mpr hr) s (hperm.mem_iff.mpr hs)) hpq hend
        hbegin hu
      exact htext (hsame text)
    intro p hp q hq hpq
    exact overlaps_eq_false_iff.mpr ⟨hcontained p hp q hq hpq, hcontained q hq p hp hpq.symm,
      fun u hbegin hend => hborder q hq p hp hpq.symm u hend hbegin, hborder p hp q hq hpq⟩
  · intro hpairs pats' hperm text
    exact replaceEach_perm hne (fun p hp q hq hpq => ⟨hpairs p hp q hq hpq, hapart p hp, hapart q hq⟩)
      hperm text

end Matters

end Labrys.Foundations
