import Mathlib.Data.List.Infix

/-! # Searching and replacing in text

Text is a list of symbols. `replaceAll pat rep` replaces the non-overlapping occurrences of a
nonempty `pat` from the left, as a single pass that skips the rest of an occurrence once it has
been replaced. `contains` is the substring test. A replacement that a text does not overlap brings
no occurrence of the text in (`infix_of_infix_replaceAll`), and none of the pattern is left if the
pattern does not overlap it (`not_infix_replaceAll`). The UTF-8 bytes of a string decode to it
(`fromUtf8_toUTF8`). -/

namespace Labrys.Foundations
set_option autoImplicit false

variable {α : Type} [DecidableEq α]

/-- One pass of the replacement; the counter says how many symbols of the occurrence just
replaced are still to be skipped. -/
def replaceFrom (pat rep : List α) : ℕ → List α → List α
  | _, [] => []
  | skip + 1, _ :: rest => replaceFrom pat rep skip rest
  | 0, c :: rest =>
      if pat <+: c :: rest then rep ++ replaceFrom pat rep (pat.length - 1) rest
      else c :: replaceFrom pat rep 0 rest

/-- Replace the non-overlapping occurrences of `pat` by `rep`, from the left. -/
def replaceAll (pat rep text : List α) : List α := replaceFrom pat rep 0 text

def contains (text pat : List α) : Bool := decide (pat <:+: text)

/-! ## Overlaps -/

/-- One of the two texts contains the other, or one begins the way the other ends. -/
def overlaps (a b : List α) : Bool :=
  decide (a <:+: b) || decide (b <:+: a) ||
    (a.inits.any fun u => u ≠ [] && decide (u <:+ b)) ||
    (a.tails.any fun u => u ≠ [] && decide (u <+: b))

theorem overlaps_eq_false_iff {a b : List α} :
    overlaps a b = false ↔ ¬ a <:+: b ∧ ¬ b <:+: a ∧ (∀ u, u <+: a → u <:+ b → u = []) ∧
      ∀ u, u <:+ a → u <+: b → u = [] := by
  simp only [overlaps, Bool.or_eq_false_iff, decide_eq_false_iff_not, List.any_eq_false,
    List.mem_inits, List.mem_tails, Bool.and_eq_true, decide_eq_true_eq, not_and, and_assoc]
  refine and_congr_right fun _ => and_congr_right fun _ => and_congr ?_ ?_
  · exact forall_congr' fun u => forall_congr' fun _ => not_imp_not
  · exact forall_congr' fun u => forall_congr' fun _ => not_imp_not

/-- A text that does not overlap the middle of three is found in the first or in the last. -/
theorem infix_of_infix_append {q m : List α} (hq : overlaps q m = false) {u v : List α}
    (h : q <:+: u ++ (m ++ v)) : q <:+: u ∨ q <:+: v := by
  obtain ⟨hqm, hmq, hbegin, hend⟩ := overlaps_eq_false_iff.mp hq
  obtain ⟨a, b, heq⟩ := h
  rw [List.append_assoc] at heq
  rcases List.append_eq_append_iff.mp heq with ⟨x, rfl, hx⟩ | ⟨x, rfl, hx⟩
  · -- The occurrence begins in `u`.
    rcases List.append_eq_append_iff.mp hx with ⟨y, rfl, -⟩ | ⟨y, rfl, hy⟩
    · exact .inl ⟨a, y, by simp⟩
    · rcases List.append_eq_append_iff.mp hy with ⟨z, rfl, -⟩ | ⟨z, rfl, -⟩
      · exact absurd ⟨x, z, by simp⟩ hmq
      · have hnil : y = [] := hend y (List.suffix_append x y) (List.prefix_append y z)
        exact .inl ⟨a, [], by simp [hnil]⟩
  · -- It begins in `m` or in `v`.
    rcases List.append_eq_append_iff.mp hx with ⟨y, rfl, hy⟩ | ⟨y, rfl, hy⟩
    · exact .inr ⟨y, b, by simp [hy]⟩
    · rcases List.append_eq_append_iff.mp hy with ⟨z, rfl, -⟩ | ⟨z, rfl, hz⟩
      · exact absurd ⟨x, z, by simp⟩ hqm
      · have hnil : y = [] := hbegin y (List.prefix_append y z) (List.suffix_append x y)
        exact .inr ⟨[], b, by simp [hnil, hz]⟩

/-! ## What a replacement leaves -/

theorem replaceFrom_eq (pat rep : List α) (skip : ℕ) (text : List α) :
    replaceFrom pat rep skip text = replaceAll pat rep (text.drop skip) := by
  induction skip generalizing text with
  | zero => rfl
  | succ skip ih =>
    cases text with
    | nil => rfl
    | cons c rest => exact ih rest

theorem replaceAll_of_begins {pat : List α} (hpat : pat ≠ []) (rep : List α) {text : List α}
    (h : pat <+: text) :
    replaceAll pat rep text = rep ++ replaceAll pat rep (text.drop pat.length) := by
  obtain ⟨n, hn⟩ := Nat.exists_eq_succ_of_ne_zero (List.length_pos_iff.mpr hpat).ne'
  cases text with
  | nil => exact absurd (List.prefix_nil.mp h) hpat
  | cons c rest =>
    rw [replaceAll, replaceFrom, if_pos h, replaceFrom_eq, hn]
    rfl

theorem replaceAll_cons_of_not_begins {pat : List α} (rep : List α) {c : α} {rest : List α}
    (h : ¬ pat <+: c :: rest) : replaceAll pat rep (c :: rest) = c :: replaceAll pat rep rest := by
  rw [replaceAll, replaceFrom, if_neg h]
  rfl

/-- The first occurrence, if there is one, is replaced, and the pass goes on with whatever is after
it. -/
theorem replaceAll_first {pat : List α} (hpat : pat ≠ []) (rep text : List α) :
    (¬ pat <:+: text ∧ replaceAll pat rep text = text) ∨
      ∃ before rest, text = before ++ (pat ++ rest) ∧ ¬ pat <:+: before ∧
        ∀ after, replaceAll pat rep (before ++ (pat ++ after)) =
          before ++ (rep ++ replaceAll pat rep after) := by
  induction text with
  | nil => exact .inl ⟨by simpa using hpat, rfl⟩
  | cons c rest ih =>
    by_cases hprefix : pat <+: c :: rest
    · refine .inr ⟨[], (c :: rest).drop pat.length, List.prefix_append_drop hprefix,
        by simpa using hpat, fun after => ?_⟩
      rw [List.nil_append, List.nil_append, replaceAll_of_begins hpat rep (List.prefix_append _ _),
        List.drop_left]
    · obtain ⟨hnone, hrest⟩ | ⟨before, after, rfl, hnone, hrest⟩ := ih
      · rw [replaceAll_cons_of_not_begins rep hprefix]
        refine .inl ⟨fun h => ?_, by rw [hrest]⟩
        exact (List.infix_cons_iff.mp h).elim hprefix hnone
      · -- Whether the pattern begins here does not depend on what comes after the occurrence.
        have hother : ∀ other, ¬ pat <+: c :: (before ++ (pat ++ other)) := by
          intro other h
          rw [← List.append_assoc, ← List.cons_append] at h hprefix
          have hlength : pat.length ≤ (c :: (before ++ pat)).length := by
            rw [List.length_cons, List.length_append]
            omega
          have hbegins := List.prefix_of_prefix_length_le h
            (List.prefix_append (c :: (before ++ pat)) other) hlength
          exact hprefix (hbegins.trans (List.prefix_append _ after))
        refine .inr ⟨c :: before, after, rfl, fun h => ?_, fun other => ?_⟩
        · obtain h | h := List.infix_cons_iff.mp h
          · exact hprefix (h.trans (List.prefix_append (c :: before) (pat ++ after)))
          · exact hnone h
        · rw [List.cons_append, replaceAll_cons_of_not_begins rep (hother other), hrest other]
          rfl

theorem replaceAll_cases {pat : List α} (hpat : pat ≠ []) (rep text : List α) :
    (¬ pat <:+: text ∧ replaceAll pat rep text = text) ∨
      ∃ before rest, text = before ++ (pat ++ rest) ∧ ¬ pat <:+: before ∧
        replaceAll pat rep text = before ++ (rep ++ replaceAll pat rep rest) := by
  obtain hnone | ⟨before, rest, rfl, hbefore, hfirst⟩ := replaceAll_first hpat rep text
  · exact .inl hnone
  · exact .inr ⟨before, rest, rfl, hbefore, hfirst rest⟩

theorem infix_of_infix_replaceAll {pat rep : List α} (hpat : pat ≠ []) {q : List α}
    (hq : overlaps q rep = false) (text : List α) (h : q <:+: replaceAll pat rep text) :
    q <:+: text := by
  induction hlength : text.length using Nat.strong_induction_on generalizing text with
  | _ n ih =>
    obtain ⟨-, heq⟩ | ⟨before, rest, rfl, -, heq⟩ := replaceAll_cases hpat rep text
    · rwa [heq] at h
    · rw [heq] at h
      have hshorter : rest.length < n := by
        have hpos := List.length_pos_iff.mpr hpat
        simp only [List.length_append] at hlength
        omega
      obtain h | h := infix_of_infix_append hq h
      · exact h.trans (List.prefix_append before (pat ++ rest)).isInfix
      · have hrest := ih rest.length hshorter rest h rfl
        exact hrest.trans ⟨before ++ pat, [], by simp⟩

/-- **A replacement clears its pattern.** -/
theorem not_infix_replaceAll {pat rep : List α} (hpat : pat ≠ []) (hrep : overlaps pat rep = false)
    (text : List α) : ¬ pat <:+: replaceAll pat rep text := by
  induction hlength : text.length using Nat.strong_induction_on generalizing text with
  | _ n ih =>
    obtain ⟨hnone, heq⟩ | ⟨before, rest, rfl, hnone, heq⟩ := replaceAll_cases hpat rep text
    · rwa [heq]
    · rw [heq]
      have hshorter : rest.length < n := by
        have hpos := List.length_pos_iff.mpr hpat
        simp only [List.length_append] at hlength
        omega
      intro h
      obtain h | h := infix_of_infix_append hrep h
      · exact hnone h
      · exact ih rest.length hshorter rest rfl h

/-! ## Splitting -/

/-- One pass of the split, with the symbols of a separator that are still to be skipped. -/
def splitFrom (pat : List α) : ℕ → List α → List (List α)
  | _, [] => [[]]
  | skip + 1, _ :: rest => splitFrom pat skip rest
  | 0, c :: rest =>
      if pat <+: c :: rest then [] :: splitFrom pat (pat.length - 1) rest
      else (splitFrom pat 0 rest).modifyHead (c :: ·)

/-- `split(pat)`: the parts between the occurrences of a nonempty separator. -/
def splitText (pat text : List α) : List (List α) := splitFrom pat 0 text

example : splitText "://".toList "a://b:c".toList = ["a".toList, "b:c".toList] := by decide

/-! ## White space -/

def isWhiteSpace (c : Char) : Bool :=
  let n := c.toNat
  (9 ≤ n && n ≤ 13) || n = 0x20 || n = 0x85 || n = 0xA0 || n = 0x1680 ||
    (0x2000 ≤ n && n ≤ 0x200A) || n = 0x2028 || n = 0x2029 || n = 0x202F || n = 0x205F ||
    n = 0x3000

/-- Nothing is left of the text once white space is trimmed. -/
def isBlank (text : List Char) : Bool := text.all isWhiteSpace

/-- `trim`: the text without the white space around it. -/
def trim (text : List Char) : List Char :=
  ((text.dropWhile isWhiteSpace).reverse.dropWhile isWhiteSpace).reverse

/-! ## Bytes -/

theorem toList_loop_eq (bs : ByteArray) (i : ℕ) (r : List UInt8) :
    ByteArray.toList.loop bs i r = r.reverse ++ bs.data.toList.drop i := by
  induction hleft : bs.size - i generalizing i r with
  | zero =>
    have hsize : bs.data.toList.length ≤ i := by
      rw [Array.length_toList]
      exact Nat.le_of_sub_eq_zero hleft
    rw [ByteArray.toList.loop, if_neg (by omega), List.drop_eq_nil_of_le hsize, List.append_nil]
  | succ n ih =>
    have hlt : i < bs.size := by omega
    have hdata : i < bs.data.toList.length := by
      rw [Array.length_toList]
      exact hlt
    have hget : bs.get! i = bs.data.toList[i] := by
      rw [Array.getElem_toList]
      exact getElem!_pos bs.data i hlt
    rw [ByteArray.toList.loop, if_pos hlt, ih (i + 1) _ (by omega), List.reverse_cons,
      List.append_assoc, List.singleton_append, List.drop_eq_getElem_cons hdata, hget]

theorem toByteArray_toList (bs : ByteArray) : bs.toList.toByteArray = bs := by
  apply ByteArray.ext
  rw [List.data_toByteArray, ByteArray.toList, toList_loop_eq]
  simp

/-- `String::from_utf8`. -/
def fromUtf8 (bytes : List UInt8) : Option String := String.fromUTF8? bytes.toByteArray

theorem fromUtf8_toUTF8 (text : String) : fromUtf8 text.toUTF8.toList = some text := by
  have hvalid : text.toUTF8.IsValidUTF8 := text.isValidUTF8
  rw [fromUtf8, toByteArray_toList, String.fromUTF8?, dif_pos hvalid]
  rfl

/-- The bytes of a text determine it. -/
theorem toUTF8_toList_injective : Function.Injective fun text : String => text.toUTF8.toList := by
  intro a b h
  have hsome := congrArg fromUtf8 h
  simpa only [fromUtf8_toUTF8, Option.some_inj] using hsome

/-- The bytes of a text are those of its characters, one after the other. -/
theorem toUTF8_toList (text : String) :
    text.toUTF8.toList = text.toList.flatMap String.utf8EncodeChar := by
  have hbytes : text.toUTF8 = text.toList.utf8Encode := by
    have hencode := String.toByteArray_ofList (l := text.toList)
    rwa [String.ofList_toList] at hencode
  rw [hbytes, List.utf8Encode, ByteArray.toList, toList_loop_eq, List.data_toByteArray]
  simp

/-- The byte of an ASCII character stands only for that character. -/
theorem ascii_mem_utf8EncodeChar {a : Char} (ha : a.toNat ≤ 127) (c : Char) :
    UInt8.ofNat a.toNat ∈ String.utf8EncodeChar c ↔ c = a := by
  have hbyte : ∀ n : ℕ, UInt8.ofNat a.toNat = UInt8.ofNat n ↔ n % 256 = a.toNat := by
    intro n
    rw [← UInt8.toNat_inj, UInt8.toNat_ofNat', UInt8.toNat_ofNat']
    omega
  have hc : c.val.toNat = c.toNat := rfl
  simp only [String.utf8EncodeChar, hc]
  constructor
  · intro hmem
    split_ifs at hmem <;> simp only [List.mem_cons, List.not_mem_nil, or_false, hbyte] at hmem
    · exact Char.toNat_inj.mp (by omega)
    all_goals omega
  · rintro rfl
    rw [if_pos ha]
    exact List.mem_singleton_self _

theorem ascii_mem_toUTF8 {a : Char} (ha : a.toNat ≤ 127) (text : String) :
    UInt8.ofNat a.toNat ∈ text.toUTF8.toList ↔ a ∈ text.toList := by
  rw [toUTF8_toList, List.mem_flatMap]
  simp only [ascii_mem_utf8EncodeChar ha, exists_eq_right]

/-! ## Numbers as text -/

theorem toString_nat_injective : Function.Injective (toString : ℕ → String) := by
  intro m n h
  have hdigits := congrArg String.toList h
  rw [Nat.toString_eq_ofList_toDigits, Nat.toString_eq_ofList_toDigits, String.toList_ofList,
    String.toList_ofList] at hdigits
  rw [← Nat.ofDigitChars_ten_toDigits (n := m), hdigits, Nat.ofDigitChars_ten_toDigits]

/-- A number is written with digits alone. -/
theorem isDigit_of_mem_toString_nat {n : ℕ} {c : Char} (h : c ∈ (toString n).toList) :
    c.isDigit = true := by
  rw [Nat.toString_eq_ofList_toDigits, String.toList_ofList] at h
  exact Nat.isDigit_of_mem_toDigits (by decide) (by decide) h

end Labrys.Foundations
