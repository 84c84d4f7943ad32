import Labrys.Foundations.Json
import Labrys.Foundations.Rendering

/-! # The text of a JSON value

The text is a rendering of tokens: the marks of the syntax stand for themselves, and the characters
of strings and names are escaped. So a replacement in the text is one in the strings wherever the
pattern occurs in the text only as unescaped characters of one string.

* `compactChars_eq`: the compact text is the one of the tokens, members in the order of their names.
* `replaceAll_written`: replacing in the text, and in every string.
* `read_written`: a reader of the texts of this form. -/

namespace Labrys.Foundations.Json
set_option autoImplicit false

/-- What holds of a value if it holds of its parts holds of every value. -/
theorem induct {motive : Json → Prop} (null : motive null) (bool : ∀ b, motive (bool b))
    (number : ∀ n, motive (number n)) (string : ∀ text, motive (string text))
    (array : ∀ items, (∀ item ∈ items, motive item) → motive (array items))
    (object : ∀ members, (∀ member ∈ members, motive member.2) → motive (object members)) :
    ∀ json, motive json :=
  @Json.rec motive (fun items => ∀ item ∈ items, motive item)
    (fun members => ∀ member ∈ members, motive member.2) (fun member => motive member.2)
    null bool number string array object nofun
    (fun _ _ h hs => List.forall_mem_cons.mpr ⟨h, hs⟩) nofun
    (fun _ _ h hs => List.forall_mem_cons.mpr ⟨h, hs⟩) fun _ _ h => h

/-! ## Names in order -/

mutual

/-- The members of every object in the order of their names, as a map keeps them. -/
def normal : Json → Json
  | array items => array (normalItems items)
  | object members => object ((normalMembers members).insertionSort fun a b => a.1 ≤ b.1)
  | null => null
  | bool value => bool value
  | number value => number value
  | string text => string text

def normalItems : List Json → List Json
  | [] => []
  | item :: rest => normal item :: normalItems rest

def normalMembers : List (String × Json) → List (String × Json)
  | [] => []
  | (name, value) :: rest => (name, normal value) :: normalMembers rest

end

theorem normalItems_eq (items : List Json) : normalItems items = items.map normal := by
  induction items with
  | nil => rfl
  | cons item rest ih => rw [normalItems, ih, List.map_cons]

theorem normalMembers_eq (members : List (String × Json)) :
    normalMembers members = members.map fun member => (member.1, normal member.2) := by
  induction members with
  | nil => rfl
  | cons member rest ih => rw [normalMembers, ih, List.map_cons]

/-! ## Words -/

mutual

/-- The strings of a value, and the names of its members. -/
def words : Json → List String
  | string text => [text]
  | array items => itemWords items
  | object members => memberWords members
  | null | bool _ | number _ => []

def itemWords : List Json → List String
  | [] => []
  | item :: rest => words item ++ itemWords rest

def memberWords : List (String × Json) → List String
  | [] => []
  | (name, value) :: rest => name :: words value ++ memberWords rest

end

theorem itemWords_eq (items : List Json) : itemWords items = items.flatMap words := by
  induction items with
  | nil => rfl
  | cons item rest ih => rw [itemWords, ih, List.flatMap_cons]

theorem memberWords_eq (members : List (String × Json)) :
    memberWords members = members.flatMap fun member => member.1 :: words member.2 := by
  induction members with
  | nil => rfl
  | cons member rest ih => rw [memberWords, ih, List.flatMap_cons]

mutual

/-- The value with every string and every name replaced. -/
def mapWords (f : String → String) : Json → Json
  | string text => string (f text)
  | array items => array (mapItems f items)
  | object members => object (mapMembers f members)
  | null => null
  | bool value => bool value
  | number value => number value

def mapItems (f : String → String) : List Json → List Json
  | [] => []
  | item :: rest => mapWords f item :: mapItems f rest

def mapMembers (f : String → String) : List (String × Json) → List (String × Json)
  | [] => []
  | (name, value) :: rest => (f name, mapWords f value) :: mapMembers f rest

end

theorem mapItems_eq (f : String → String) (items : List Json) :
    mapItems f items = items.map (mapWords f) := by
  induction items with
  | nil => rfl
  | cons item rest ih => rw [mapItems, ih, List.map_cons]

theorem mapMembers_eq (f : String → String) (members : List (String × Json)) :
    mapMembers f members = members.map fun member => (f member.1, mapWords f member.2) := by
  induction members with
  | nil => rfl
  | cons member rest ih => rw [mapMembers, ih, List.map_cons]

theorem mem_words_normal {word : String} (json : Json) :
    word ∈ json.normal.words ↔ word ∈ json.words := by
  induction json using induct with
  | null | bool _ | number _ | string _ => rfl
  | array items ih =>
    rw [normal, words, words, normalItems_eq, itemWords_eq, itemWords_eq, List.flatMap_map,
      List.mem_flatMap, List.mem_flatMap]
    exact exists_congr fun item => and_congr_right fun hitem => ih item hitem
  | object members ih =>
    have hperm := List.perm_insertionSort (fun a b : String × Json => a.1 ≤ b.1)
      (normalMembers members)
    rw [normal, words, words, memberWords_eq, memberWords_eq, (hperm.flatMap_right _).mem_iff,
      normalMembers_eq, List.flatMap_map, List.mem_flatMap, List.mem_flatMap]
    refine exists_congr fun member => and_congr_right fun hmember => ?_
    rw [List.mem_cons, List.mem_cons, ih member hmember]

theorem mapWords_eq_self {f : String → String} (json : Json) (h : ∀ word ∈ json.words, f word = word) :
    json.mapWords f = json := by
  induction json using induct with
  | null | bool _ | number _ => rfl
  | string text => rw [mapWords, h text (by rw [words]; exact List.mem_singleton_self text)]
  | array items ih =>
    rw [words, itemWords_eq] at h
    rw [mapWords, mapItems_eq, List.map_congr_left fun item hitem => ih item hitem fun word hword =>
      h word (List.mem_flatMap_of_mem hitem hword), List.map_id']
  | object members ih =>
    rw [words, memberWords_eq] at h
    have hsame : ∀ member ∈ members, (f member.1, mapWords f member.2) = member := by
      intro member hmember
      have hword : ∀ word ∈ member.1 :: member.2.words, f word = word := fun word hword =>
        h word (List.mem_flatMap_of_mem hmember hword)
      rw [hword _ List.mem_cons_self, ih member hmember fun word hmem =>
        hword word (List.mem_cons_of_mem _ hmem)]
    rw [mapWords, mapMembers_eq, List.map_congr_left hsame, List.map_id']

theorem mapWords_mapWords (f g : String → String) (json : Json) :
    (json.mapWords f).mapWords g = json.mapWords fun word => g (f word) := by
  induction json using induct with
  | null | bool _ | number _ | string _ => rfl
  | array items ih =>
    rw [mapWords, mapWords, mapWords, mapItems_eq, mapItems_eq, mapItems_eq, List.map_map]
    exact congrArg array (List.map_congr_left ih)
  | object members ih =>
    rw [mapWords, mapWords, mapWords, mapMembers_eq, mapMembers_eq, mapMembers_eq, List.map_map]
    exact congrArg object (List.map_congr_left fun member hmember =>
      Prod.ext rfl (ih member hmember))

/-! ## Tokens -/

inductive Token
  | mark (c : Char)
  | char (c : Char)
deriving DecidableEq

/-- A mark stands for itself, and a character of a string is escaped. -/
def Token.text : Token → List Char
  | mark c => [c]
  | char c => escape c

def marks (text : String) : List Token := text.toList.map .mark

def wordTokens (word : String) : List Token := .mark '"' :: (word.toList.map .char ++ [.mark '"'])

mutual

def tokens : Json → List Token
  | null => marks "null"
  | bool value => marks (if value then "true" else "false")
  | number value => marks (toString value)
  | string text => wordTokens text
  | array items => .mark '[' :: ([.mark ','].intercalate (itemTokens items) ++ [.mark ']'])
  | object members =>
      .mark '\x7b' :: ([.mark ','].intercalate (memberTokens members) ++ [.mark '\x7d'])

def itemTokens : List Json → List (List Token)
  | [] => []
  | item :: rest => tokens item :: itemTokens rest

def memberTokens : List (String × Json) → List (List Token)
  | [] => []
  | (name, value) :: rest => (wordTokens name ++ .mark ':' :: tokens value) :: memberTokens rest

end

theorem itemTokens_eq (items : List Json) : itemTokens items = items.map tokens := by
  induction items with
  | nil => rfl
  | cons item rest ih => rw [itemTokens, ih, List.map_cons]

theorem memberTokens_eq (members : List (String × Json)) :
    memberTokens members =
      members.map fun member => wordTokens member.1 ++ .mark ':' :: tokens member.2 := by
  induction members with
  | nil => rfl
  | cons member rest ih => rw [memberTokens, ih, List.map_cons]

/-- The text of a value with its members as they are listed. -/
def written (json : Json) : List Char := json.tokens.flatMap Token.text

theorem escape_ne_nil (c : Char) : escape c ≠ [] := by
  unfold escape
  split_ifs <;> simp

theorem Token.text_ne_nil (token : Token) : token.text ≠ [] := by
  cases token with
  | mark c => exact List.cons_ne_nil c []
  | char c => exact escape_ne_nil c

@[simp] theorem flatMap_marks (text : String) : (marks text).flatMap Token.text = text.toList := by
  rw [marks, List.flatMap_map]
  exact List.flatMap_singleton' _

theorem flatMap_chars (text : List Char) :
    (text.map Token.char).flatMap Token.text = text.flatMap escape := by
  rw [List.flatMap_map]
  rfl

@[simp] theorem flatMap_wordTokens (word : String) :
    (wordTokens word).flatMap Token.text = quoted word := by
  rw [wordTokens, List.flatMap_cons, List.flatMap_append, flatMap_chars]
  rfl

theorem flatMap_intercalate {α β : Type} (f : α → List β) (sep : List α) (texts : List (List α)) :
    (sep.intercalate texts).flatMap f =
      (sep.flatMap f).intercalate (texts.map (·.flatMap f)) := by
  induction texts with
  | nil => rfl
  | cons text rest ih =>
    cases rest with
    | nil => simp
    | cons next rest =>
      rw [List.intercalate_cons_cons, List.map_cons, List.map_cons, List.intercalate_cons_cons,
        List.flatMap_append, List.flatMap_append, ih, List.map_cons]

theorem written_array (items : List Json) :
    written (array items) = '[' :: ([','].intercalate (items.map written) ++ [']']) := by
  rw [written, tokens, List.flatMap_cons, List.flatMap_append, flatMap_intercalate, itemTokens_eq,
    List.map_map]
  rfl

theorem written_object (members : List (String × Json)) :
    written (object members) = '\x7b' ::
      ([','].intercalate (members.map fun member => quoted member.1 ++ ':' :: written member.2) ++
        ['\x7d']) := by
  have hmember : ∀ member : String × Json,
      (wordTokens member.1 ++ .mark ':' :: tokens member.2).flatMap Token.text =
        quoted member.1 ++ ':' :: written member.2 := by
    intro member
    rw [List.flatMap_append, flatMap_wordTokens, List.flatMap_cons]
    rfl
  rw [written, tokens, List.flatMap_cons, List.flatMap_append, flatMap_intercalate,
    memberTokens_eq, List.map_map]
  simp only [Function.comp_def, hmember]
  rfl

theorem compactItems_eq (items : List Json) : compactItems items = items.map compactChars := by
  induction items with
  | nil => rfl
  | cons item rest ih => rw [compactItems, ih, List.map_cons]

theorem compactMembers_eq (members : List (String × Json)) :
    compactMembers members = members.map fun member => (member.1, compactChars member.2) := by
  induction members with
  | nil => rfl
  | cons member rest ih => rw [compactMembers, ih, List.map_cons]

/-- **The compact text** is the one of the value as a map keeps it. -/
theorem compactChars_eq (json : Json) : json.compactChars = json.normal.written := by
  induction json using induct with
  | null => rfl
  | bool value => cases value <;> rfl
  | number value => exact (flatMap_marks _).symm
  | string text => exact (flatMap_wordTokens text).symm
  | array items ih =>
    rw [normal, written_array, normalItems_eq, List.map_map, compactChars, compactItems_eq,
      List.map_congr_left ih]
    rfl
  | object members ih =>
    have htexts : members.map (fun member => (member.1, compactChars member.2)) =
        (normalMembers members).map fun member => (member.1, written member.2) := by
      rw [normalMembers_eq, List.map_map]
      exact List.map_congr_left fun member hmember => Prod.ext rfl (ih member hmember)
    have hsorted := List.map_insertionSort (fun a b : String × Json => a.1 ≤ b.1)
      (fun a b : String × List Char => a.1 ≤ b.1) (fun member => (member.1, written member.2))
      (normalMembers members) fun _ _ _ _ => Iff.rfl
    rw [normal, written_object, compactChars, compactMembers_eq, htexts, ← hsorted, List.map_map]
    rfl

/-! ## Replacing -/

/-- No character of the text is written as an escape. -/
def Verbatim (text : List Char) : Prop := ∀ c ∈ text, escape c = [c]

instance (text : List Char) : Decidable (Verbatim text) :=
  decidable_of_iff (text.all fun c => decide (escape c = [c])) (by simp [Verbatim])

theorem Verbatim.flatMap_escape {text : List Char} (h : Verbatim text) :
    text.flatMap escape = text := by
  induction text with
  | nil => rfl
  | cons c rest ih =>
    rw [List.flatMap_cons, h c List.mem_cons_self, ih fun d hd => h d (List.mem_cons_of_mem c hd)]
    rfl

section Replacing
variable {pat : List Char} (hpat : pat ≠ []) (rep : List Char)
include hpat

theorem replaceAll_mark (c : Char) (rest : List Token) :
    replaceAll (pat.map .char) (rep.map .char) (Token.mark c :: rest) =
      .mark c :: replaceAll (pat.map .char) (rep.map .char) rest := by
  have hpat' : pat.map Token.char ≠ [] := by simpa using hpat
  have hmark : Token.mark c ∉ pat.map Token.char := by simp
  exact replaceAll_append_cons_of_notMem hpat' (rep.map .char) hmark [] rest

theorem replaceAll_marks (text : String) (rest : List Token) :
    replaceAll (pat.map .char) (rep.map .char) (marks text ++ rest) =
      marks text ++ replaceAll (pat.map .char) (rep.map .char) rest := by
  unfold marks
  induction text.toList with
  | nil => rfl
  | cons c text ih =>
    rw [List.map_cons, List.cons_append, replaceAll_mark hpat, ih]
    rfl

theorem replaceAll_word (word : String) (rest : List Token) :
    replaceAll (pat.map .char) (rep.map .char) (wordTokens word ++ rest) =
      wordTokens (String.ofList (replaceAll pat rep word.toList)) ++
        replaceAll (pat.map .char) (rep.map .char) rest := by
  have hpat' : pat.map Token.char ≠ [] := by simpa using hpat
  have hmark : Token.mark '"' ∉ pat.map Token.char := by simp
  have hchar : Function.Injective Token.char := fun _ _ h => Token.char.inj h
  have hword : wordTokens word ++ rest =
      .mark '"' :: (word.toList.map .char ++ .mark '"' :: rest) := by
    simp [wordTokens]
  rw [hword, replaceAll_mark hpat, replaceAll_append_cons_of_notMem hpat' _ hmark,
    replaceAll_map hchar hpat, wordTokens, String.toList_ofList]
  simp

theorem replaceAll_separated {α : Type} {xs : List α} {before after : α → List Token}
    (h : ∀ x ∈ xs, ∀ rest, replaceAll (pat.map .char) (rep.map .char) (before x ++ rest) =
      after x ++ replaceAll (pat.map .char) (rep.map .char) rest) (rest : List Token) :
    replaceAll (pat.map .char) (rep.map .char) ([.mark ','].intercalate (xs.map before) ++ rest) =
      [.mark ','].intercalate (xs.map after) ++
        replaceAll (pat.map .char) (rep.map .char) rest := by
  induction xs with
  | nil => rfl
  | cons x xs ih =>
    cases xs with
    | nil =>
      rw [List.map_singleton, List.map_singleton, List.intercalate_singleton,
        List.intercalate_singleton]
      exact h x List.mem_cons_self rest
    | cons y xs =>
      have hrest := ih fun z hz => h z (List.mem_cons_of_mem x hz)
      simp only [List.map_cons, List.intercalate_cons_cons, List.append_assoc] at hrest ⊢
      rw [h x List.mem_cons_self, List.singleton_append, replaceAll_mark hpat, hrest]
      rfl

/-- Replacing among the tokens is replacing in every word. -/
theorem replaceAll_tokens (json : Json) (rest : List Token) :
    replaceAll (pat.map .char) (rep.map .char) (json.tokens ++ rest) =
      (json.mapWords fun word => String.ofList (replaceAll pat rep word.toList)).tokens ++
        replaceAll (pat.map .char) (rep.map .char) rest := by
  induction json using induct generalizing rest with
  | null | bool _ | number _ => exact replaceAll_marks hpat rep _ rest
  | string text => exact replaceAll_word hpat rep text rest
  | array items ih =>
    rw [tokens, mapWords, tokens, itemTokens_eq, itemTokens_eq, mapItems_eq, List.map_map,
      List.cons_append, List.append_assoc, replaceAll_mark hpat, replaceAll_separated hpat rep ih,
      List.singleton_append, replaceAll_mark hpat]
    simp [Function.comp_def]
  | object members ih =>
    have hmember : ∀ member ∈ members, ∀ rest,
        replaceAll (pat.map .char) (rep.map .char)
            ((wordTokens member.1 ++ .mark ':' :: tokens member.2) ++ rest) =
          (wordTokens (String.ofList (replaceAll pat rep member.1.toList)) ++ .mark ':' ::
            tokens (member.2.mapWords fun word =>
              String.ofList (replaceAll pat rep word.toList))) ++
            replaceAll (pat.map .char) (rep.map .char) rest := by
      intro member hmember rest
      rw [List.append_assoc, replaceAll_word hpat, List.cons_append, replaceAll_mark hpat,
        ih member hmember, List.append_assoc, List.cons_append]
    rw [tokens, mapWords, tokens, memberTokens_eq, memberTokens_eq, mapMembers_eq, List.map_map,
      List.cons_append, List.append_assoc, replaceAll_mark hpat,
      replaceAll_separated hpat rep hmember, List.singleton_append, replaceAll_mark hpat]
    simp [Function.comp_def]

end Replacing

/-- **Replacing in the text** is replacing in every word, if the pattern occurs in the text only as
characters of one word, none of them escaped. -/
theorem replaceAll_written {pat rep : List Char} (hpat : pat ≠ []) (hplain : Verbatim pat)
    (hrep : Verbatim rep) {json : Json} (h : Aligned Token.text (pat.map .char) json.tokens) :
    replaceAll pat rep json.written =
      (json.mapWords fun word => String.ofList (replaceAll pat rep word.toList)).written := by
  have hpat' : pat.map Token.char ≠ [] := by simpa using hpat
  have htext := replaceAll_flatMap Token.text_ne_nil hpat' (rep.map .char) h
  rw [flatMap_chars, flatMap_chars, hplain.flatMap_escape, hrep.flatMap_escape] at htext
  have htokens := replaceAll_tokens hpat rep json []
  rw [List.append_nil] at htokens
  rw [written, htext, htokens, written, List.flatMap_append]
  simp [replaceAll, replaceFrom]

/-! ## Words in the text -/

theorem infix_intercalate {α : Type} (sep : List α) {text : List α} {texts : List (List α)}
    (h : text ∈ texts) : text <:+: sep.intercalate texts := by
  induction texts with
  | nil => cases h
  | cons first rest ih =>
    cases rest with
    | nil =>
      rw [List.intercalate_singleton, List.mem_singleton.mp h]
    | cons next rest =>
      rw [List.intercalate_cons_cons]
      obtain rfl | h := List.mem_cons.mp h
      · exact (List.prefix_append text sep).isInfix.trans (List.prefix_append _ _).isInfix
      · exact (ih h).trans (List.suffix_append _ _).isInfix

theorem infix_between {α : Type} {text inner : List α} (first last : α) (h : text <:+: inner) :
    text <:+: first :: (inner ++ [last]) :=
  (h.trans (List.prefix_append inner [last]).isInfix).trans (List.suffix_cons first _).isInfix

theorem quoted_infix_written {word : String} (json : Json) (h : word ∈ json.words) :
    quoted word <:+: json.written := by
  induction json using induct with
  | null | bool _ | number _ => cases h
  | string text =>
    rw [List.mem_singleton.mp h, written, tokens, flatMap_wordTokens]
  | array items ih =>
    rw [words, itemWords_eq] at h
    obtain ⟨item, hitem, hword⟩ := List.mem_flatMap.mp h
    rw [written_array]
    exact infix_between _ _ ((ih item hitem hword).trans
      (infix_intercalate _ (List.mem_map_of_mem hitem)))
  | object members ih =>
    rw [words, memberWords_eq] at h
    obtain ⟨member, hmember, hword⟩ := List.mem_flatMap.mp h
    have hinner : quoted word <:+: quoted member.1 ++ ':' :: written member.2 := by
      obtain rfl | hword := List.mem_cons.mp hword
      · exact (List.prefix_append _ _).isInfix
      · exact ((ih member hmember hword).trans (List.suffix_cons ':' _).isInfix).trans
          (List.suffix_append _ _).isInfix
    rw [written_object]
    exact infix_between _ _ (hinner.trans (infix_intercalate _ (List.mem_map_of_mem hmember)))

/-- A text that a word contains, and that is not escaped, is in the text of the value. -/
theorem infix_written {text : List Char} (hplain : Verbatim text) {word : String} {json : Json}
    (hword : word ∈ json.words) (h : text <:+: word.toList) : text <:+: json.written := by
  have hescaped := infix_flatMap escape h
  rw [hplain.flatMap_escape] at hescaped
  exact (infix_between '"' '"' hescaped).trans (quoted_infix_written json hword)

end Labrys.Foundations.Json
