import Labrys.Foundations.JsonText

/-! # Reading JSON back

A reader of texts without blanks, by recursion on a fuel that the length of the text bounds. It
inverts `written`, so a text determines its value. -/

namespace Labrys.Foundations.Json
set_option autoImplicit false

/-! ## Words -/

def hexDigit (c : Char) : Option ℕ := (List.range 16).find? fun n => decide (n.digitChar = c)

/-- The character that a short escape stands for. -/
def unescape (c : Char) : Option Char :=
  if c = '"' ∨ c = '\\' ∨ c = '/' then some c
  else if c = 'n' then some '\n'
  else if c = 'r' then some '\r'
  else if c = 't' then some '\t'
  else if c = 'b' then some (Char.ofNat 8)
  else if c = 'f' then some (Char.ofNat 12)
  else none

/-- The rest of a word, behind its opening quote, and what follows the closing one. -/
def readWord : List Char → Option (List Char × List Char)
  | [] => none
  | '"' :: rest => some ([], rest)
  | '\\' :: 'u' :: '0' :: '0' :: high :: low :: rest =>
      (hexDigit high).bind fun h => (hexDigit low).bind fun l =>
        (readWord rest).map fun read => (Char.ofNat (16 * h + l) :: read.1, read.2)
  | '\\' :: c :: rest =>
      (unescape c).bind fun d => (readWord rest).map fun read => (d :: read.1, read.2)
  | c :: rest =>
      if c.toNat < 32 then none else (readWord rest).map fun read => (c :: read.1, read.2)

theorem hexDigit_digitChar {n : ℕ} (h : n < 16) : hexDigit n.digitChar = some n := by
  have hall : ∀ n < 16, hexDigit n.digitChar = some n := by decide
  exact hall n h

theorem readWord_escape (c : Char) (rest : List Char) :
    readWord (escape c ++ rest) = (readWord rest).map fun read => (c :: read.1, read.2) := by
  unfold escape
  split_ifs with hquote hslash hn hr ht hb hf hcontrol
  · subst hquote
    rfl
  · subst hslash
    rfl
  · subst hn
    rfl
  · subst hr
    rfl
  · subst ht
    rfl
  · rw [← Char.ofNat_toNat c, hb]
    rfl
  · rw [← Char.ofNat_toNat c, hf]
    rfl
  · have hhigh : c.toNat / 16 < 16 := by omega
    have hlow : c.toNat % 16 < 16 := Nat.mod_lt _ (by omega)
    simp only [List.cons_append, List.nil_append, readWord, hexDigit_digitChar hhigh,
      hexDigit_digitChar hlow, Option.bind_some, Nat.div_add_mod, Char.ofNat_toNat]
  · rw [List.singleton_append, readWord.eq_def]
    split <;> simp_all

theorem readWord_escaped (word rest : List Char) :
    readWord (word.flatMap escape ++ '"' :: rest) = some (word, rest) := by
  induction word with
  | nil => rfl
  | cons c word ih =>
    rw [List.flatMap_cons, List.append_assoc, readWord_escape, ih]
    rfl

/-! ## Numbers -/

/-- The digits that the text begins with, as a number. -/
def readDigits (text : List Char) : Option (ℕ × List Char) :=
  match text.span Char.isDigit with
  | ([], _) => none
  | (digits, rest) => some (Nat.ofDigitChars 10 digits 0, rest)

def readNumber : List Char → Option (Json × List Char)
  | '-' :: rest => (readDigits rest).map fun read => (number (-read.1), read.2)
  | text => (readDigits text).map fun read => (number read.1, read.2)

/-- The text does not begin with a digit. -/
def NoDigit (text : List Char) : Prop := ∀ c ∈ text.head?, c.isDigit = false

theorem span_digits {digits rest : List Char} (hdigits : ∀ c ∈ digits, c.isDigit = true)
    (hrest : NoDigit rest) : (digits ++ rest).span Char.isDigit = (digits, rest) := by
  rw [List.span_eq_takeWhile_dropWhile, List.takeWhile_append_of_pos hdigits,
    List.dropWhile_append_of_pos hdigits]
  cases rest with
  | nil => simp
  | cons c rest =>
    have hc := hrest c rfl
    simp [hc]

theorem readDigits_toDigits (n : ℕ) {rest : List Char} (hrest : NoDigit rest) :
    readDigits (Nat.toDigits 10 n ++ rest) = some (n, rest) := by
  have hdigits : ∀ c ∈ Nat.toDigits 10 n, c.isDigit = true := fun c hc =>
    Nat.isDigit_of_mem_toDigits (by decide) (by decide) hc
  rw [readDigits, span_digits hdigits hrest]
  cases hform : Nat.toDigits 10 n with
  | nil => exact absurd hform Nat.toDigits_ne_nil
  | cons d ds =>
    dsimp only
    rw [← hform, Nat.ofDigitChars_ten_toDigits]

theorem head_int (value : ℤ) :
    ∃ c rest, (toString value).toList = c :: rest ∧ (c = '-' ∨ c.isDigit = true) := by
  rw [Int.toString_eq_repr, Int.repr_eq_if]
  split_ifs with hsign
  · rw [Nat.toList_repr]
    obtain ⟨c, rest, hdigits⟩ := List.exists_cons_of_ne_nil (@Nat.toDigits_ne_nil value.toNat 10)
    have hdigit : c.isDigit = true := Nat.isDigit_of_mem_toDigits (by decide) (by decide)
      (hdigits ▸ List.mem_cons_self)
    exact ⟨c, rest, hdigits, .inr hdigit⟩
  · exact ⟨'-', _, by rw [String.toList_append]; rfl, .inl rfl⟩

/-- What reads the digits of a number reads the number. -/
theorem readNumber_int (value : ℤ) {rest : List Char} (hrest : NoDigit rest) :
    readNumber ((toString value).toList ++ rest) = some (number value, rest) := by
  rw [Int.toString_eq_repr, Int.repr_eq_if]
  split_ifs with hsign
  · rw [Nat.toList_repr, readNumber.eq_def]
    split
    · next heq =>
      -- A digit is not a sign.
      cases hdigits : Nat.toDigits 10 value.toNat with
      | nil => exact absurd hdigits Nat.toDigits_ne_nil
      | cons d ds =>
        have hdigit : d.isDigit = true := Nat.isDigit_of_mem_toDigits (by decide) (by decide)
          (hdigits ▸ List.mem_cons_self)
        rw [hdigits] at heq
        obtain rfl := (List.cons_eq_cons.mp heq).1
        cases hdigit
    · rw [readDigits_toDigits _ hrest, Option.map_some, Int.toNat_of_nonneg hsign]
  · rw [String.toList_append, Nat.toList_repr]
    change (readDigits (Nat.toDigits 10 (-value).toNat ++ rest)).map _ = _
    rw [readDigits_toDigits _ hrest, Option.map_some, Int.toNat_of_nonneg (by omega), Int.neg_neg]

/-! ## Values -/

/-- A value without parts. -/
def readScalar : List Char → Option (Json × List Char)
  | 'n' :: 'u' :: 'l' :: 'l' :: rest => some (null, rest)
  | 't' :: 'r' :: 'u' :: 'e' :: rest => some (bool true, rest)
  | 'f' :: 'a' :: 'l' :: 's' :: 'e' :: rest => some (bool false, rest)
  | '"' :: rest => (readWord rest).map fun read => (string (String.ofList read.1), read.2)
  | text => readNumber text

/-- A name and what follows it. -/
def readName : List Char → Option (String × List Char)
  | '"' :: rest =>
      match readWord rest with
      | some (name, ':' :: rest) => some (String.ofList name, rest)
      | _ => none
  | _ => none

mutual

def readValue : ℕ → List Char → Option (Json × List Char)
  | 0, _ => none
  | _ + 1, '[' :: ']' :: rest => some (array [], rest)
  | fuel + 1, '[' :: rest => (readItems fuel rest).map fun read => (array read.1, read.2)
  | _ + 1, '\x7b' :: '\x7d' :: rest => some (object [], rest)
  | fuel + 1, '\x7b' :: rest => (readMembers fuel rest).map fun read => (object read.1, read.2)
  | _ + 1, text => readScalar text

/-- The items of an array that has some. -/
def readItems : ℕ → List Char → Option (List Json × List Char)
  | 0, _ => none
  | fuel + 1, text =>
      match readValue fuel text with
      | some (item, ']' :: rest) => some ([item], rest)
      | some (item, ',' :: rest) =>
          (readItems fuel rest).map fun read => (item :: read.1, read.2)
      | _ => none

/-- The members of an object that has some. -/
def readMembers : ℕ → List Char → Option (List (String × Json) × List Char)
  | 0, _ => none
  | fuel + 1, text =>
      (readName text).bind fun (name, rest) =>
        match readValue fuel rest with
        | some (value, '\x7d' :: rest) => some ([(name, value)], rest)
        | some (value, ',' :: rest) =>
            (readMembers fuel rest).map fun read => ((name, value) :: read.1, read.2)
        | _ => none

end

/-- The value that a text is of, its members in the order of their names. -/
def read (text : List Char) : Option Json :=
  match readValue text.length text with
  | some (json, []) => some json.normal
  | _ => none

example : read "\x7b\"ok\":[true,-1,\"a\\n\"]\x7d".toList =
    some (object [("ok", array [bool true, number (-1), string "a\n"])]) := by decide +kernel

theorem readName_quoted (name : String) (rest : List Char) :
    readName (quoted name ++ ':' :: rest) = some (name, rest) := by
  have hquoted : quoted name ++ ':' :: rest =
      '"' :: (name.toList.flatMap escape ++ '"' :: ':' :: rest) := by simp [quoted]
  rw [hquoted, readName, readWord_escaped]
  simp

theorem readScalar_word (word : String) (rest : List Char) :
    readScalar (quoted word ++ rest) = some (string word, rest) := by
  have hquoted : quoted word ++ rest = '"' :: (word.toList.flatMap escape ++ '"' :: rest) := by
    simp [quoted]
  rw [hquoted, readScalar, readWord_escaped]
  simp

theorem readScalar_number (value : ℤ) {rest : List Char} (hrest : NoDigit rest) :
    readScalar ((toString value).toList ++ rest) = some (number value, rest) := by
  have hread := readNumber_int value hrest
  obtain ⟨c, digits, htext, hc⟩ := head_int value
  rw [htext, List.cons_append] at hread ⊢
  rw [← hread]
  rw [readScalar]
  all_goals
    intro _ heq
    obtain rfl := (List.cons_eq_cons.mp heq).1
    revert hc
    decide

theorem readValue_scalar (fuel : ℕ) {c : Char} (rest : List Char) (harray : c ≠ '[')
    (hobject : c ≠ '\x7b') : readValue (fuel + 1) (c :: rest) = readScalar (c :: rest) := by
  rw [readValue]
  all_goals
    intros
    simp_all

/-! ## The round trip -/

/-- With enough fuel, the value is read off its text, whatever follows. -/
def ReadsBack (json : Json) : Prop :=
  ∀ fuel rest, json.written.length ≤ fuel → NoDigit rest →
    readValue fuel (json.written ++ rest) = some (json, rest)

theorem noDigit_cons {c : Char} (h : c.isDigit = false) (rest : List Char) :
    NoDigit (c :: rest) := by
  intro d hd
  rwa [← Option.some_inj.mp hd]

theorem readsBack_of_head {json : Json} {c : Char} {text : List Char}
    (htext : json.written = c :: text) (harray : c ≠ '[') (hobject : c ≠ '\x7b')
    (hread : ∀ rest, NoDigit rest → readScalar (json.written ++ rest) = some (json, rest)) :
    json.ReadsBack := by
  intro fuel rest hfuel hrest
  have hscalar := hread rest hrest
  rw [htext] at hfuel hscalar ⊢
  cases fuel with
  | zero => cases hfuel
  | succ fuel =>
    rw [List.cons_append] at hscalar ⊢
    rw [readValue_scalar fuel (text ++ rest) harray hobject, hscalar]

theorem readItems_written {items : List Json} (hitems : items ≠ [])
    (h : ∀ item ∈ items, item.ReadsBack) {fuel : ℕ} (rest : List Char)
    (hfuel : ([','].intercalate (items.map written)).length < fuel) :
    readItems fuel ([','].intercalate (items.map written) ++ ']' :: rest) = some (items, rest) := by
  induction items generalizing fuel with
  | nil => exact absurd rfl hitems
  | cons item items ih =>
    cases fuel with
    | zero => cases hfuel
    | succ fuel =>
      have hitem := h item List.mem_cons_self
      cases items with
      | nil =>
        rw [List.map_singleton, List.intercalate_singleton] at hfuel ⊢
        rw [readItems, hitem fuel _ (by omega) (noDigit_cons (by decide) rest)]
        rfl
      | cons next items =>
        rw [List.map_cons, List.map_cons, List.intercalate_cons_cons, ← List.map_cons,
          List.append_assoc] at hfuel ⊢
        simp only [List.length_append, List.length_singleton] at hfuel
        rw [List.append_assoc, readItems, List.singleton_append,
          hitem fuel _ (by omega) (noDigit_cons (by decide) _)]
        change (readItems fuel _).map _ = _
        rw [ih (List.cons_ne_nil next items) (fun x hx => h x (List.mem_cons_of_mem item hx))
          (by omega)]
        rfl

def memberText (member : String × Json) : List Char := quoted member.1 ++ ':' :: written member.2

theorem readMembers_written {members : List (String × Json)} (hmembers : members ≠ [])
    (h : ∀ member ∈ members, member.2.ReadsBack) {fuel : ℕ} (rest : List Char)
    (hfuel : ([','].intercalate (members.map memberText)).length < fuel) :
    readMembers fuel ([','].intercalate (members.map memberText) ++ '\x7d' :: rest) =
      some (members, rest) := by
  induction members generalizing fuel with
  | nil => exact absurd rfl hmembers
  | cons member members ih =>
    cases fuel with
    | zero => cases hfuel
    | succ fuel =>
      have hmember := h member List.mem_cons_self
      have hname : ∀ after, readName (memberText member ++ after) =
          some (member.1, written member.2 ++ after) := by
        intro after
        rw [memberText, List.append_assoc, List.cons_append, readName_quoted]
      have hlength : (written member.2).length < (memberText member).length := by
        simp [memberText]
        omega
      cases members with
      | nil =>
        rw [List.map_singleton, List.intercalate_singleton] at hfuel ⊢
        rw [readMembers, hname, Option.bind_some]
        dsimp only
        rw [hmember fuel _ (by omega) (noDigit_cons (by decide) rest)]
        rfl
      | cons next members =>
        rw [List.map_cons, List.map_cons, List.intercalate_cons_cons, ← List.map_cons,
          List.append_assoc] at hfuel ⊢
        simp only [List.length_append, List.length_singleton] at hfuel
        rw [List.append_assoc, readMembers, hname, Option.bind_some,
          List.singleton_append]
        dsimp only
        rw [hmember fuel _ (by omega) (noDigit_cons (by decide) _)]
        change (readMembers fuel _).map _ = _
        rw [ih (List.cons_ne_nil next members) (fun x hx => h x (List.mem_cons_of_mem member hx))
          (by omega)]
        rfl

theorem head_written (json : Json) : ∃ c text, json.written = c :: text ∧ c ≠ ']' := by
  cases json with
  | null => exact ⟨_, _, rfl, by decide⟩
  | bool value =>
    cases value with
    | false => exact ⟨_, _, rfl, by decide⟩
    | true => exact ⟨_, _, rfl, by decide⟩
  | number value =>
    obtain ⟨c, digits, htext, hc⟩ := head_int value
    refine ⟨c, digits, (flatMap_marks _).trans htext, ?_⟩
    rintro rfl
    revert hc
    decide
  | string text => exact ⟨_, _, flatMap_wordTokens text, by decide⟩
  | array items => exact ⟨_, _, written_array items, by decide⟩
  | object members => exact ⟨_, _, written_object members, by decide⟩

theorem readValue_items (fuel : ℕ) {c : Char} (text : List Char) (hc : c ≠ ']') :
    readValue (fuel + 1) ('[' :: c :: text) =
      (readItems fuel (c :: text)).map fun read => (array read.1, read.2) := by
  rw [readValue]
  intro rest heq
  exact hc (List.cons_eq_cons.mp heq).1

theorem readValue_members (fuel : ℕ) (text : List Char) :
    readValue (fuel + 1) ('\x7b' :: '"' :: text) =
      (readMembers fuel ('"' :: text)).map fun read => (object read.1, read.2) := by
  rw [readValue]
  intro rest heq
  cases heq

theorem exists_intercalate_cons {α : Type} (sep text : List α) (texts : List (List α)) :
    ∃ more, sep.intercalate (text :: texts) = text ++ more := by
  cases texts with
  | nil => exact ⟨[], by simp⟩
  | cons next texts => exact ⟨_, by rw [List.intercalate_cons_cons, List.append_assoc]⟩

theorem readsBack_array {items : List Json} (h : ∀ item ∈ items, item.ReadsBack) :
    (array items).ReadsBack := by
  intro fuel rest hfuel _
  rw [written_array] at hfuel ⊢
  obtain _ | fuel := fuel
  · cases hfuel
  cases items with
  | nil => rfl
  | cons item items =>
    have hinner : ([','].intercalate ((item :: items).map written)).length < fuel := by
      simp only [List.length_cons, List.length_append] at hfuel
      omega
    have hread := readItems_written (List.cons_ne_nil item items) h rest hinner
    obtain ⟨c, text, hhead, hc⟩ := head_written item
    obtain ⟨more, hmore⟩ := exists_intercalate_cons [','] item.written (items.map written)
    rw [List.cons_append, List.append_assoc, List.singleton_append]
    rw [List.map_cons, hmore, hhead, List.cons_append, List.cons_append] at hread ⊢
    rw [readValue_items fuel _ hc, hread]
    rfl

theorem readsBack_object {members : List (String × Json)}
    (h : ∀ member ∈ members, member.2.ReadsBack) : (object members).ReadsBack := by
  intro fuel rest hfuel _
  have htext : (object members).written =
      '\x7b' :: ([','].intercalate (members.map memberText) ++ ['\x7d']) := written_object members
  rw [htext] at hfuel ⊢
  obtain _ | fuel := fuel
  · cases hfuel
  cases members with
  | nil => rfl
  | cons member members =>
    have hinner : ([','].intercalate ((member :: members).map memberText)).length < fuel := by
      simp only [List.length_cons, List.length_append] at hfuel
      omega
    have hread := readMembers_written (List.cons_ne_nil member members) h rest hinner
    obtain ⟨text, hhead⟩ : ∃ text, memberText member = '"' :: text := ⟨_, rfl⟩
    obtain ⟨more, hmore⟩ := exists_intercalate_cons [','] (memberText member)
      (members.map memberText)
    rw [List.cons_append, List.append_assoc, List.singleton_append]
    rw [List.map_cons, hmore, hhead, List.cons_append, List.cons_append] at hread ⊢
    rw [readValue_members, hread]
    rfl

theorem readsBack (json : Json) : json.ReadsBack := by
  induction json using induct with
  | null => exact readsBack_of_head rfl (by decide) (by decide) fun _ _ => rfl
  | bool value =>
    cases value with
    | false => exact readsBack_of_head rfl (by decide) (by decide) fun _ _ => rfl
    | true => exact readsBack_of_head rfl (by decide) (by decide) fun _ _ => rfl
  | number value =>
    have htext : (number value).written = (toString value).toList := flatMap_marks _
    obtain ⟨c, digits, hhead, hc⟩ := head_int value
    refine readsBack_of_head (htext.trans hhead) ?_ ?_ fun rest hrest => ?_
    · rintro rfl
      revert hc
      decide
    · rintro rfl
      revert hc
      decide
    · rw [htext, readScalar_number value hrest]
  | string text =>
    have htext : (string text).written = quoted text := flatMap_wordTokens text
    refine readsBack_of_head (htext.trans rfl) (by decide) (by decide) fun rest _ => ?_
    rw [htext, readScalar_word]
  | array items ih => exact readsBack_array ih
  | object members ih => exact readsBack_object ih

/-- **The round trip.** -/
theorem read_written (json : Json) : read json.written = some json.normal := by
  have h := readsBack json json.written.length [] (le_refl _) nofun
  rw [List.append_nil] at h
  rw [read, h]

end Labrys.Foundations.Json
