import Mathlib.Data.List.Basic
import Mathlib.Data.List.Sort

/-! # JSON values

Values as a program builds them and takes them apart. The members of an object are listed in the
order they are written; a name stands for its first member. -/

namespace Labrys.Foundations
set_option autoImplicit false

inductive Json
  | null
  | bool (value : Bool)
  | number (value : Int)
  | string (text : String)
  | array (items : List Json)
  | object (members : List (String × Json))

namespace Json

def ofOption {α : Type} (f : α → Json) : Option α → Json
  | none => null
  | some a => f a

def strings (texts : List String) : Json := array (texts.map string)

def get (json : Json) (name : String) : Option Json :=
  match json with
  | object members => (members.find? fun member => decide (member.1 = name)).map (·.2)
  | _ => none

def asStr : Json → Option String
  | string text => some text
  | _ => none

def typeName : Json → String
  | null => "null"
  | bool _ => "boolean"
  | number _ => "number"
  | string _ => "string"
  | array _ => "array"
  | object _ => "object"

/-- The members with the first one of a name replaced, or a new one at the end. -/
def insertMember (name : String) (value : Json) : List (String × Json) → List (String × Json)
  | [] => [(name, value)]
  | member :: rest =>
      if member.1 = name then (name, value) :: rest else member :: insertMember name value rest

/-- `json[name] = value`: `null` becomes an object, and any other value is refused. -/
def set (json : Json) (name : String) (value : Json) : Except String Json :=
  match json with
  | null => .ok (object [(name, value)])
  | object members => .ok (object (insertMember name value members))
  | other => .error s!"cannot access key \"{name}\" in JSON {other.typeName}"

/-! ## Equality -/

mutual

def same : Json → Json → Bool
  | null, null => true
  | bool a, bool b => a == b
  | number a, number b => a == b
  | string a, string b => a == b
  | array a, array b => sameItems a b
  | object a, object b => sameMembers a b
  | _, _ => false

def sameItems : List Json → List Json → Bool
  | [], [] => true
  | a :: as, b :: bs => same a b && sameItems as bs
  | _, _ => false

def sameMembers : List (String × Json) → List (String × Json) → Bool
  | [], [] => true
  | (x, a) :: as, (y, b) :: bs => x == y && same a b && sameMembers as bs
  | _, _ => false

end

mutual

theorem same_iff : ∀ a b : Json, same a b = true ↔ a = b
  | null, b => by cases b <;> simp [same]
  | bool a, b => by cases b <;> simp [same]
  | number a, b => by cases b <;> simp [same]
  | string a, b => by cases b <;> simp [same]
  | array a, b => by cases b <;> simp [same, sameItems_iff a]
  | object a, b => by cases b <;> simp [same, sameMembers_iff a]

theorem sameItems_iff : ∀ as bs : List Json, sameItems as bs = true ↔ as = bs
  | [], bs => by cases bs <;> simp [sameItems]
  | a :: as, bs => by cases bs <;> simp [sameItems, same_iff a, sameItems_iff as]

theorem sameMembers_iff : ∀ as bs : List (String × Json), sameMembers as bs = true ↔ as = bs
  | [], bs => by cases bs <;> simp [sameMembers]
  | (x, a) :: as, bs => by
    cases bs with
    | nil => simp [sameMembers]
    | cons member bs =>
      obtain ⟨y, b⟩ := member
      simp [sameMembers, same_iff a, sameMembers_iff as, Prod.ext_iff]

end

instance : DecidableEq Json := fun a b => decidable_of_iff _ (same_iff a b)

/-! ## The compact text of a value -/

def escape (c : Char) : List Char :=
  if c = '"' then ['\\', '"']
  else if c = '\\' then ['\\', '\\']
  else if c = '\n' then ['\\', 'n']
  else if c = '\r' then ['\\', 'r']
  else if c = '\t' then ['\\', 't']
  else if c.toNat = 8 then ['\\', 'b']
  else if c.toNat = 12 then ['\\', 'f']
  else if c.toNat < 32 then
    ['\\', 'u', '0', '0', Nat.digitChar (c.toNat / 16), Nat.digitChar (c.toNat % 16)]
  else [c]

def quoted (text : String) : List Char := '"' :: (text.toList.flatMap escape ++ ['"'])

mutual

/-- No blanks, and the members of an object in the order of their names. -/
def compactChars : Json → List Char
  | null => "null".toList
  | bool value => if value then "true".toList else "false".toList
  | number value => (toString value).toList
  | string text => quoted text
  | array items => '[' :: ([','].intercalate (compactItems items) ++ [']'])
  | object members =>
      let texts := (compactMembers members).insertionSort fun a b => a.1 ≤ b.1
      '\x7b' :: ([','].intercalate (texts.map fun member => quoted member.1 ++ ':' :: member.2) ++
        ['\x7d'])

def compactItems : List Json → List (List Char)
  | [] => []
  | item :: rest => compactChars item :: compactItems rest

def compactMembers : List (String × Json) → List (String × List Char)
  | [] => []
  | (name, value) :: rest => (name, compactChars value) :: compactMembers rest

end

def compact (json : Json) : String := String.ofList json.compactChars

/-! ## Reading members -/

theorem find?_insertMember {name other : String} (h : other ≠ name) (value : Json)
    (members : List (String × Json)) :
    (insertMember name value members).find? (fun member => decide (member.1 = other)) =
      members.find? fun member => decide (member.1 = other) := by
  induction members with
  | nil =>
    have hname : ¬ name = other := fun heq => h heq.symm
    simp [insertMember, hname]
  | cons member rest ih =>
    by_cases hmember : member.1 = name
    · have hother : ¬ name = other := fun heq => h heq.symm
      simp [insertMember, hmember, hother]
    · rw [insertMember, if_neg hmember, List.find?_cons, List.find?_cons, ih]

theorem find?_insertMember_self (name : String) (value : Json) (members : List (String × Json)) :
    (insertMember name value members).find? (fun member => decide (member.1 = name)) =
      some (name, value) := by
  induction members with
  | nil => simp [insertMember]
  | cons member rest ih =>
    by_cases hmember : member.1 = name
    · simp [insertMember, hmember]
    · rw [insertMember, if_neg hmember, List.find?_cons, decide_eq_false hmember]
      exact ih

theorem get_set_self {name : String} {value json json' : Json}
    (hset : json.set name value = .ok json') : json'.get name = some value := by
  cases json with
  | null =>
    obtain rfl := Except.ok.inj hset
    simp [get]
  | object members =>
    obtain rfl := Except.ok.inj hset
    exact congrArg (Option.map (·.2)) (find?_insertMember_self name value members)
  | bool b => cases hset
  | number n => cases hset
  | string text => cases hset
  | array items => cases hset

/-- Setting one member leaves the others. -/
theorem get_set {name other : String} {value json json' : Json} (h : other ≠ name)
    (hset : json.set name value = .ok json') : json'.get other = json.get other := by
  cases json with
  | null =>
    obtain rfl := Except.ok.inj hset
    have hother : ¬ name = other := fun heq => h heq.symm
    simp [get, hother]
  | object members =>
    obtain rfl := Except.ok.inj hset
    exact congrArg (Option.map (·.2)) (find?_insertMember h value members)
  | bool b => cases hset
  | number n => cases hset
  | string text => cases hset
  | array items => cases hset

end Json
end Labrys.Foundations
