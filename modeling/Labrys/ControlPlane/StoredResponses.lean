import Labrys.ControlPlane.ApiSteps
import Labrys.Foundations.JsonReader

/-! # What is stored of a response

`store_replay` redacts the text that `serde_json` writes for a response and reads the result back.
Strings are escaped in that text, and the marks of the syntax stand between them, so the redaction
is one of the strings only where no secret meets either.

* `redactReason_written`: when redacting the text is redacting the strings and the names.
* `stored_response_clean`: what is stored then. -/

namespace Labrys.ControlPlane
open Foundations Labrys.Core Foundations.Json
set_option autoImplicit false

/-! ## The codec -/

mutual

/-- A value that `serde_json` reads back from its text: the names of an object are distinct, numbers
have 64 bits, and no more than `depth` arrays and objects are nested. -/
def readable : ℕ → Json → Bool
  | _, .null | _, .bool _ | _, .string _ => true
  | _, .number value => decide (-2 ^ 63 ≤ value ∧ value < 2 ^ 64)
  | 0, .array _ | 0, .object _ => false
  | depth + 1, .array items => readableItems depth items
  | depth + 1, .object members =>
      decide (members.map (·.1)).Nodup && readableMembers depth members

def readableItems : ℕ → List Json → Bool
  | _, [] => true
  | depth, item :: rest => readable depth item && readableItems depth rest

def readableMembers : ℕ → List (String × Json) → Bool
  | _, [] => true
  | depth, (_, value) :: rest => readable depth value && readableMembers depth rest

end

/-- `remaining_depth` of a reader is 128, and a value is not entered with one left. -/
def maxNesting : ℕ := 127

/-- `serde_json`: `to_string` writes no blanks and the names in order, and `from_str` reads a value
from its text, whatever order the members have in it. -/
structure SerdeJson (api : ApiState) : Prop where
  writes : ∀ json, api.toJson json = json.compact
  reads : ∀ json, readable maxNesting json = true →
    api.fromJson (String.ofList json.written) = some json.normal

/-! ## Redaction of text and of strings -/

/-- The value with the secrets redacted in its strings and names. -/
def redacted (secrets : List String) (json : Json) : Json :=
  json.mapWords fun word => redactReason word secrets

/-- The secret occurs in the text of the value only as characters of a string or a name, none of
them escaped; and it occurs in a string or a name only if none of its characters is escaped. -/
structure InWords (secret : String) (json : Json) : Prop where
  verbatim : secret.toList <:+: json.written ∨
    (∃ word ∈ json.words, containsText word secret = true) → Verbatim secret.toList
  aligned : Verbatim secret.toList → Aligned Token.text (secret.toList.map .char) json.tokens

instance (secret : String) (json : Json) : Decidable (InWords secret json) :=
  decidable_of_iff ((secret.toList <:+: json.written ∨
      (∃ word ∈ json.words, containsText word secret = true) → Verbatim secret.toList) ∧
    (Verbatim secret.toList → Aligned Token.text (secret.toList.map .char) json.tokens))
    ⟨fun h => ⟨h.1, h.2⟩, fun h => ⟨h.verbatim, h.aligned⟩⟩

/-- Each secret in turn, after those before it were redacted. -/
def RedactsWords : List String → Json → Prop
  | [], _ => True
  | secret :: rest, json =>
      (secret ≠ "" → InWords secret json) ∧ RedactsWords rest (redacted [secret] json)

def RedactsWords.decide : ∀ (secrets : List String) (json : Json),
    Decidable (RedactsWords secrets json)
  | [], _ => inferInstanceAs (Decidable True)
  | secret :: rest, json =>
      have := RedactsWords.decide rest (redacted [secret] json)
      inferInstanceAs (Decidable ((secret ≠ "" → InWords secret json) ∧
        RedactsWords rest (redacted [secret] json)))

instance (secrets : List String) (json : Json) : Decidable (RedactsWords secrets json) :=
  RedactsWords.decide secrets json

theorem redactReason_cons (text secret : String) (rest : List String) :
    redactReason text (secret :: rest) = redactReason (redactReason text [secret]) rest := by
  unfold redactReason
  by_cases hempty : secret = ""
  · simp [hempty]
  · simp [hempty]

theorem redactReason_singleton {secret : String} (hsecret : secret ≠ "") (text : String) :
    redactReason text [secret] = replaceText text secret redactionMarker := by
  simp [redactReason, hsecret]

theorem redacted_nil (json : Json) : redacted [] json = json :=
  mapWords_eq_self json fun _ _ => rfl

theorem redacted_cons (secret : String) (rest : List String) (json : Json) :
    redacted rest (redacted [secret] json) = redacted (secret :: rest) json := by
  unfold redacted
  rw [mapWords_mapWords]
  congr 1
  funext word
  exact (redactReason_cons word secret rest).symm

theorem verbatim_redactionMarker : Verbatim redactionMarker.toList := by decide

/-- One secret. -/
theorem replaceText_written {secret : String} (hsecret : secret ≠ "") {json : Json}
    (h : InWords secret json) :
    replaceText (String.ofList json.written) secret redactionMarker =
      String.ofList (redacted [secret] json).written := by
  have hpat : secret.toList ≠ [] := by rwa [Ne, String.toList_eq_nil_iff]
  have hwords : redacted [secret] json =
      json.mapWords fun word => replaceText word secret redactionMarker := by
    rw [redacted]
    congr 1
    exact funext (redactReason_singleton hsecret)
  by_cases hplain : Verbatim secret.toList
  · rw [replaceText, String.toList_ofList, hwords,
      replaceAll_written hpat hplain verbatim_redactionMarker (h.aligned hplain)]
    rfl
  · have hclear : containsText (String.ofList json.written) secret = false := by
      rw [containsText_eq_false_iff, String.toList_ofList]
      exact fun hin => hplain (h.verbatim (.inl hin))
    have hsame : ∀ word ∈ json.words, replaceText word secret redactionMarker = word := by
      intro word hword
      refine replaceText_of_not_contains hsecret _ (Bool.eq_false_iff.mpr fun hin => ?_)
      exact hplain (h.verbatim (.inr ⟨word, hword, hin⟩))
    rw [replaceText_of_not_contains hsecret _ hclear, hwords, mapWords_eq_self json hsame]

/-- **Redacting the text is redacting the words**, if every secret occurs in words only. -/
theorem redactReason_written {secrets : List String} {json : Json} (h : RedactsWords secrets json) :
    redactReason (String.ofList json.written) secrets =
      String.ofList (redacted secrets json).written := by
  induction secrets generalizing json with
  | nil => rw [redacted_nil, redactReason_nil]
  | cons secret rest ih =>
    obtain ⟨hsecret, hrest⟩ := h
    have hfirst : redactReason (String.ofList json.written) [secret] =
        String.ofList (redacted [secret] json).written := by
      by_cases hempty : secret = ""
      · have hsame : ∀ text, redactReason text [secret] = text := fun text => by
          simp [redactReason, hempty]
        rw [hsame, redacted, mapWords_eq_self json fun word _ => hsame word]
      · rw [redactReason_singleton hempty, replaceText_written hempty (hsecret hempty)]
    rw [redactReason_cons, hfirst, ih hrest, redacted_cons]

/-! ## What is stored -/

/-- The redaction of the text is one of the strings, and what it leaves can be read back. -/
structure RedactsCleanly (secrets : List String) (response : Json) : Prop where
  words : RedactsWords secrets response.normal
  escaped : ∀ secret ∈ secrets, ¬ Verbatim secret.toList →
    ∀ word ∈ (redacted secrets response.normal).words, containsText word secret = false
  readable : readable maxNesting (redacted secrets response.normal) = true

/-- No string of the stored response carries a secret, and it is the response with nothing but the
secrets redacted. -/
structure StoredClean (secrets : List String) (response stored : Json) : Prop where
  clear : ∀ word ∈ stored.words, CarriesNone secrets word
  same : stored = (redacted secrets response.normal).normal

/-- **Stored responses are clean** where redacting the text is redacting the strings: for every
response and every list of secrets. -/
theorem stored_response_clean {api : ApiState} (hserde : SerdeJson api) (response : Json)
    (h : RedactsCleanly api.secrets response) (stored : Json)
    (hstored : storedResponse api response = .ok stored) :
    StoredClean api.secrets response stored := by
  have htext : api.toJson response = String.ofList response.normal.written := by
    rw [hserde.writes, compact, compactChars_eq]
  unfold storedResponse at hstored
  rw [htext, redactGuard_eq, redactReason_written h.words] at hstored
  split_ifs at hstored with hclear
  · have hsame : stored = (redacted api.secrets response.normal).normal := by
      have hread := hserde.reads _ h.readable
      change Except.ok ((api.fromJson _).getD .null) = _ at hstored
      rw [hread] at hstored
      exact (Except.ok.inj hstored).symm
    refine ⟨fun word hword secret hsecret hne => ?_, hsame⟩
    rw [hsame, mem_words_normal] at hword
    by_cases hplain : Verbatim secret.toList
    · have hnone := hclear secret hsecret hne
      rw [containsText_eq_false_iff] at hnone ⊢
      rw [String.toList_ofList] at hnone
      exact fun hin => hnone (infix_written hplain hword hin)
    · exact h.escaped secret hsecret hplain word hword
  · cases hstored

/-! ## Concrete responses -/

/-- An API whose codec is the reader of compact texts. -/
def readingApi (secrets : List String) : ApiState where
  tokens := smallTokens
  secrets := secrets
  toJson := Json.compact
  fromJson := fun text => Json.read text.toList

theorem serdeJson_readingApi (secrets : List String) : SerdeJson (readingApi secrets) where
  writes := fun _ => rfl
  reads := fun json _ => by
    change Json.read (String.ofList json.written).toList = _
    rw [String.toList_ofList, read_written]

/-- What is stored for one secret, by the text that is left of the response. -/
theorem storedResponse_readingApi {secret : String} (hsecret : secret ≠ "") (response : Json)
    (hclear : ¬ secret.toList <:+:
      replaceAll secret.toList redactionMarker.toList response.normal.written) :
    storedResponse (readingApi [secret]) response =
      .ok ((Json.read (replaceAll secret.toList redactionMarker.toList
        response.normal.written)).getD .null) := by
  have hleft : redactReason response.compact [secret] = String.ofList
      (replaceAll secret.toList redactionMarker.toList response.normal.written) := by
    rw [redactReason_singleton hsecret, compact, compactChars_eq, replaceText,
      String.toList_ofList]
  have hnone : CarriesNone [secret] (redactReason response.compact [secret]) := by
    intro found hfound _
    rw [List.mem_singleton.mp hfound, containsText_eq_false_iff, hleft, String.toList_ofList]
    exact hclear
  change (redactGuard _ response.compact [secret] >>= fun detail =>
    pure ((Json.read detail.toList).getD .null)) = _
  rw [redactGuard_eq, if_pos hnone, hleft]
  change Except.ok ((Json.read (String.ofList _).toList).getD .null) = _
  rw [String.toList_ofList]

/-- The answer to a request that sent its own trace id. -/
def tracedResponse (traceId : String) : Json :=
  envelope "deploy" ⟨.human "ada", traceId, some "k-1"⟩ false none none none none

/-- A secret that occurs in one string, with nothing escaped, is all that is replaced. -/
theorem stored_response_clean_traced :
    ∃ stored, storedResponse (readingApi ["hunter2"]) (tracedResponse "t-hunter2") = .ok stored ∧
      StoredClean ["hunter2"] (tracedResponse "t-hunter2") stored := by
  have hcleanly : RedactsCleanly ["hunter2"] (tracedResponse "t-hunter2") :=
    ⟨by decide +kernel, by decide +kernel, by decide +kernel⟩
  have hstored := storedResponse_readingApi (by decide) (tracedResponse "t-hunter2")
    (show ¬ "hunter2".toList <:+: _ by decide +kernel)
  exact ⟨_, hstored,
    stored_response_clean (serdeJson_readingApi ["hunter2"]) _ hcleanly _ hstored⟩

/-- A secret with a quote is stored as it was presented; and a secret that is a word of the syntax
leaves nothing of the response but `null`. -/
theorem secret_stored_or_response_lost :
    (∃ stored, storedResponse (readingApi ["hunt\"er2"]) (tracedResponse "hunt\"er2") = .ok stored ∧
      ∃ word ∈ stored.words, containsText word "hunt\"er2" = true) ∧
    storedResponse (readingApi ["true"]) (tracedResponse "trace-1") = .ok .null := by
  have hkept := storedResponse_readingApi (by decide) (tracedResponse "hunt\"er2")
    (show ¬ "hunt\"er2".toList <:+: _ by decide +kernel)
  have hlost := storedResponse_readingApi (by decide) (tracedResponse "trace-1")
    (show ¬ "true".toList <:+: _ by decide +kernel)
  have hnull : (Json.read (replaceAll "true".toList redactionMarker.toList
      (tracedResponse "trace-1").normal.written)).getD .null = .null := by decide +kernel
  exact ⟨⟨_, hkept, by decide +kernel⟩, hlost.trans (congrArg Except.ok hnull)⟩

end Labrys.ControlPlane
