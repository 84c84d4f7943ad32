import Labrys.Core.Events
import Labrys.Foundations.Json

/-! # Actors and results as JSON

The event table keeps the actor and the result of an event as JSON values, in the form that the
derived serializers write: the variant's name, alone or with its fields under it. Reading is more
liberal than writing.

* `EventActor.toValue`, `EventActor.fromValue`, and the same for `EventResult`.
* `EventActor.fromValue_toValue`, `EventResult.fromValue_toValue`: what is written is read back. -/

namespace Labrys.Core
open Foundations
set_option autoImplicit false

/-! ## Identifiers in JSON -/

/-- A UUID as it is serialized: five groups of digits. -/
def Uuid.hyphenated (u : Uuid) : String :=
  let digits := u.simple.toList
  String.ofList (digits.take 8 ++ '-' :: ((digits.drop 8).take 4 ++ '-' ::
    ((digits.drop 12).take 4 ++ '-' :: ((digits.drop 16).take 4 ++ '-' :: digits.drop 20))))

theorem Uuid.parseHyphenated_groups {a b c d e : List Char} (ha : a.length = 8) (hb : b.length = 4)
    (hc : c.length = 4) (hd : d.length = 4) (he : e.length = 12) :
    parseHyphenated (a ++ '-' :: (b ++ '-' :: (c ++ '-' :: (d ++ '-' :: e)))) =
      parseSimple (a ++ b ++ c ++ d ++ e) := by
  unfold parseHyphenated
  rw [if_pos]
  · congr 1
    simp [List.drop_append, ha, hb, hc, hd, List.drop_eq_nil_of_le]
  · simp [ha, hb, hc, hd, he]

theorem Uuid.parseStr_hyphenated (u : Uuid) : Uuid.parseStr u.hyphenated = some u := by
  have hlength : u.simple.toList.length = 32 := hexDigits_length 32 u.toNat
  have hsimple : parseSimple u.simple.toList = some u := by
    have h := parseStr_simple u
    simpa only [parseStr, hlength, if_true] using h
  have hgroups := parseHyphenated_groups (a := u.simple.toList.take 8)
    (b := (u.simple.toList.drop 8).take 4) (c := (u.simple.toList.drop 12).take 4)
    (d := (u.simple.toList.drop 16).take 4) (e := u.simple.toList.drop 20)
    (by simp [hlength]) (by simp [hlength]) (by simp [hlength]) (by simp [hlength])
    (by simp [hlength])
  have hjoined : u.simple.toList.take 8 ++ (u.simple.toList.drop 8).take 4 ++
      (u.simple.toList.drop 12).take 4 ++ (u.simple.toList.drop 16).take 4 ++
      u.simple.toList.drop 20 = u.simple.toList := by
    conv_rhs => rw [← List.take_append_drop 20 u.simple.toList,
      ← List.take_append_drop 16 (u.simple.toList.take 20),
      ← List.take_append_drop 12 ((u.simple.toList.take 20).take 16),
      ← List.take_append_drop 8 (((u.simple.toList.take 20).take 16).take 12)]
    simp [List.take_take, List.drop_take]
  rw [hjoined, hsimple] at hgroups
  unfold parseStr hyphenated
  dsimp only
  rw [String.toList_ofList, if_neg (by simp [hlength]), if_pos (by simp [hlength]), hgroups]

/-! ## Variants -/

/-- The name of a variant, and what stands under it. -/
def variant : Json → Option (String × Option Json)
  | .string name => some (name, none)
  | .object [(name, body)] => some (name, some body)
  | _ => none

/-- The fields of a variant, all of them and no others: by name, or in their order. -/
def variantFields (names : List String) : Option Json → Option (List Json)
  | some (.object members) =>
      if members.all fun member => decide (member.1 ∈ names) then
        names.mapM fun name => (Json.object members).get name
      else none
  | some (.array items) => if items.length = names.length then some items else none
  | _ => none

/-- A variant without fields has nothing under it, or `null`. -/
def isUnit : Option Json → Bool
  | none => true
  | some .null => true
  | _ => false

def readId (tag : String) (json : Json) : Option (TaggedId tag) :=
  (json.asStr.bind Uuid.parseStr).map TaggedId.mk

def idValue {tag : String} (id : TaggedId tag) : Json := .string id.uuid.hyphenated

theorem readId_idValue {tag : String} (id : TaggedId tag) : readId tag (idValue id) = some id := by
  unfold readId idValue
  rw [Json.asStr, Option.bind_some, Uuid.parseStr_hyphenated, Option.map_some]

/-! ## Actors -/

namespace EventActor

def toValue : EventActor → Json
  | agent sessionId name =>
      .object [("agent", .object [("session_id", idValue sessionId), ("name", .string name)])]
  | platform name => .object [("platform", .object [("name", .string name)])]
  | human name => .object [("human", .object [("name", .string name)])]
  | provider name => .object [("provider", .object [("name", .string name)])]

/-- The one field of three of the variants. -/
def readName (body : Option Json) : Option String := do
  let fields ← variantFields ["name"] body
  (fields.head?.bind Json.asStr)

def fromValue (json : Json) : Option EventActor := do
  let (name, body) ← variant json
  match name with
  | "agent" =>
      match ← variantFields ["session_id", "name"] body with
      | [sessionId, name] => return agent (← readId "agt" sessionId) (← name.asStr)
      | _ => none
  | "platform" => platform <$> readName body
  | "human" => human <$> readName body
  | "provider" => provider <$> readName body
  | _ => none

theorem fromValue_toValue (actor : EventActor) : fromValue actor.toValue = some actor := by
  cases actor with
  | agent sessionId name =>
    have hid := readId_idValue sessionId
    simp [fromValue, toValue, variant, variantFields, Json.get, Json.asStr, hid]
  | _ name => simp [fromValue, toValue, variant, readName, variantFields, Json.get, Json.asStr]

end EventActor

/-! ## Results -/

namespace EventResult

def toValue : EventResult → Json
  | accepted => .string "accepted"
  | denied => .string "denied"
  | succeeded => .string "succeeded"
  | failed reason => .object [("failed", .object [("reason", .string reason)])]
  | pending => .string "pending"

def fromValue (json : Json) : Option EventResult := do
  let (name, body) ← variant json
  match name with
  | "accepted" => if isUnit body then some accepted else none
  | "denied" => if isUnit body then some denied else none
  | "succeeded" => if isUnit body then some succeeded else none
  | "failed" => do
      let fields ← variantFields ["reason"] body
      failed <$> fields.head?.bind Json.asStr
  | "pending" => if isUnit body then some pending else none
  | _ => none

theorem fromValue_toValue (result : EventResult) : fromValue result.toValue = some result := by
  cases result with
  | failed reason => simp [fromValue, toValue, variant, variantFields, Json.get, Json.asStr]
  | _ => rfl

end EventResult

end Labrys.Core
