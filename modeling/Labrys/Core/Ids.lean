import Mathlib.Algebra.Order.Ring.Int
import Mathlib.Data.List.Basic
import Labrys.Foundations.Digest

/-! # Stable identifiers

Every identifier of the platform is a UUID behind a short tag: `app_`, `env_`, `res_`, `job_` and
so on, written with the UUID's 32 lower-case hexadecimal digits. The types differ by the tag only,
so they are one definition with the tag as parameter. -/

namespace Labrys.Core
open Foundations
set_option autoImplicit false

abbrev Uuid := BitVec 128

/-- So many lower-case hexadecimal digits of a number, most significant first. -/
def hexDigits (width value : ℕ) : String :=
  String.ofList ((List.range width).map fun i =>
    Nat.digitChar (value / 16 ^ (width - 1 - i) % 16))

theorem hexDigits_length (width value : ℕ) : (hexDigits width value).toList.length = width := by
  simp [hexDigits]

theorem hexDigits_injective {width a b : ℕ} (ha : a < 16 ^ width) (hb : b < 16 ^ width)
    (h : hexDigits width a = hexDigits width b) : a = b := by
  have hdigit : ∀ m < 16, ∀ n < 16, Nat.digitChar m = Nat.digitChar n → m = n := by decide
  have hsame := congrArg String.toList h
  simp only [hexDigits, String.toList_ofList, List.map_inj_left, List.mem_range] at hsame
  have hmod : a % 16 ^ width = b % 16 ^ width := mod_pow_eq_of_digits width fun i hi => by
    have hplace := hsame (width - 1 - i) (by omega)
    rw [show width - 1 - (width - 1 - i) = i by omega] at hplace
    exact hdigit _ (Nat.mod_lt _ (by omega)) _ (Nat.mod_lt _ (by omega)) hplace
  rwa [Nat.mod_eq_of_lt ha, Nat.mod_eq_of_lt hb] at hmod

def Uuid.simple (u : Uuid) : String := hexDigits 32 u.toNat

def hexValue (c : Char) : Option ℕ :=
  if '0' ≤ c ∧ c ≤ '9' then some (c.toNat - '0'.toNat)
  else if 'a' ≤ c ∧ c ≤ 'f' then some (c.toNat - 'a'.toNat + 10)
  else if 'A' ≤ c ∧ c ≤ 'F' then some (c.toNat - 'A'.toNat + 10)
  else none

def hexNumber (cs : List Char) : Option ℕ :=
  cs.foldl (fun acc c => acc.bind fun n => (hexValue c).map fun d => 16 * n + d) (some 0)

def Uuid.parseSimple (cs : List Char) : Option Uuid :=
  if cs.length = 32 then (hexNumber cs).map (BitVec.ofNat 128) else none

def Uuid.parseHyphenated (cs : List Char) : Option Uuid :=
  if cs.length = 36 ∧ cs.getD 8 ' ' = '-' ∧ cs.getD 13 ' ' = '-' ∧ cs.getD 18 ' ' = '-' ∧
      cs.getD 23 ' ' = '-' then
    Uuid.parseSimple (cs.take 8 ++ (cs.drop 9).take 4 ++ (cs.drop 14).take 4 ++
      (cs.drop 19).take 4 ++ cs.drop 24)
  else none

/-- `Uuid::parse_str`: the simple form, or the hyphenated one, bare, in braces or as a URN. -/
def Uuid.parseStr (s : String) : Option Uuid :=
  let cs := s.toList
  if cs.length = 32 then Uuid.parseSimple cs
  else if cs.length = 36 then Uuid.parseHyphenated cs
  else if cs.length = 38 ∧ cs.head? = some '\x7b' ∧ cs.getLast? = some '\x7d' then
    Uuid.parseHyphenated ((cs.drop 1).take 36)
  else if cs.length = 45 ∧ cs.take 9 = "urn:uuid:".toList then Uuid.parseHyphenated (cs.drop 9)
  else none

structure TaggedId (tag : String) where
  uuid : Uuid
deriving DecidableEq

namespace TaggedId
variable {tag : String}

def display (id : TaggedId tag) : String := tag ++ "_" ++ id.uuid.simple

instance : ToString (TaggedId tag) := ⟨display⟩

/-- `FromStr`: strips the tag and parses the rest as a UUID. The error only repeats the text. -/
def parse (tag : String) (s : String) : Option (TaggedId tag) :=
  if (tag ++ "_").toList <+: s.toList then
    (Uuid.parseStr (String.ofList (s.toList.drop (tag.length + 1)))).map TaggedId.mk
  else none

/-- Identifiers are ordered as numbers. Their texts have one tag and one length, and digits sort
before letters, so the order of the texts is the same. -/
instance : Ord (TaggedId tag) := ⟨fun a b => compare a.uuid b.uuid⟩

instance : Std.TransOrd (TaggedId tag) where
  eq_swap := Std.OrientedOrd.eq_swap (α := Uuid)
  isLE_trans := Std.TransOrd.isLE_trans (α := Uuid)

instance : Std.LawfulEqOrd (TaggedId tag) where
  compare_self := Std.ReflOrd.compare_self (α := Uuid)
  eq_of_compare {a b} h := by
    cases a
    cases b
    congr 1
    exact Std.LawfulEqOrd.eq_of_compare h

end TaggedId

/-! ## Reading back what was written -/

theorem hexValue_digitChar {n : ℕ} (h : n < 16) : hexValue (Nat.digitChar n) = some n := by
  have hall : ∀ n < 16, hexValue (Nat.digitChar n) = some n := by decide
  exact hall n h

/-- The number read from the first `k` of `width` digits. -/
theorem hexNumber_range (width value k : ℕ) (hk : k ≤ width) :
    hexNumber ((List.range k).map fun i =>
      Nat.digitChar (value / 16 ^ (width - 1 - i) % 16)) =
        some (value / 16 ^ (width - k) % 16 ^ k) := by
  induction k with
  | zero => simp [hexNumber, Nat.mod_one]
  | succ k ih =>
    unfold hexNumber at ih ⊢
    rw [List.range_succ, List.map_append, List.foldl_append, ih (by omega), List.map_singleton,
      List.foldl_cons, List.foldl_nil, Option.bind_some, hexValue_digitChar (Nat.mod_lt _ (by omega)),
      Option.map_some]
    have hplace : width - k = (width - (k + 1)) + 1 := by omega
    rw [show width - 1 - k = width - (k + 1) by omega, hplace, Nat.pow_succ, ← Nat.div_div_eq_div_mul,
      Nat.pow_succ', Nat.mod_mul, Nat.add_comm]

theorem Uuid.parseStr_simple (u : Uuid) : Uuid.parseStr u.simple = some u := by
  have hlength : u.simple.toList.length = 32 := hexDigits_length 32 u.toNat
  have hnumber : hexNumber u.simple.toList = some u.toNat := by
    have hread := hexNumber_range 32 u.toNat 32 le_rfl
    have hlt : u.toNat < 16 ^ 32 := u.isLt.trans_eq (by decide)
    rw [Nat.sub_self, Nat.pow_zero, Nat.div_one, Nat.mod_eq_of_lt hlt] at hread
    simpa only [Uuid.simple, hexDigits, String.toList_ofList] using hread
  simp only [parseStr, hlength, if_true, parseSimple, hnumber, Option.map_some,
    BitVec.ofNat_toNat, BitVec.setWidth_eq]

namespace TaggedId
variable {tag : String}

theorem toString_toList (id : TaggedId tag) :
    (toString id).toList = tag.toList ++ '_' :: id.uuid.simple.toList := by
  change (tag ++ "_" ++ id.uuid.simple).toList = _
  simp

/-- **Parsing reads back what `Display` wrote.** -/
theorem parse_toString (id : TaggedId tag) : parse tag (toString id) = some id := by
  have hprefix : (tag ++ "_").toList <+: (toString id).toList := by
    rw [toString_toList, String.toList_append]
    exact ⟨id.uuid.simple.toList, by simp⟩
  have hrest : (toString id).toList.drop (tag.length + 1) = id.uuid.simple.toList := by
    rw [toString_toList, ← String.length_toList, ← List.drop_drop, List.drop_left]
    rfl
  rw [parse, if_pos hprefix, hrest, String.ofList_toList, Uuid.parseStr_simple, Option.map_some]

theorem toString_injective : Function.Injective (toString : TaggedId tag → String) := by
  intro a b h
  have hparse := parse_toString a
  rw [h, parse_toString] at hparse
  exact (Option.some_inj.mp hparse).symm

theorem notMem_toString {c : Char} (htag : c ∉ tag.toList) (hunderscore : c ≠ '_')
    (hdigits : ∀ n < 16, Nat.digitChar n ≠ c) (id : TaggedId tag) : c ∉ (toString id).toList := by
  rw [toString_toList, List.mem_append, List.mem_cons, not_or, not_or]
  refine ⟨htag, hunderscore, fun hmem => ?_⟩
  simp only [Uuid.simple, hexDigits, String.toList_ofList, List.mem_map] at hmem
  obtain ⟨i, -, hi⟩ := hmem
  exact hdigits _ (Nat.mod_lt _ (by omega)) hi

end TaggedId

abbrev ApplicationId := TaggedId "app"
abbrev EnvironmentId := TaggedId "env"
abbrev ResourceId := TaggedId "res"
abbrev JobId := TaggedId "job"
abbrev DeploymentId := TaggedId "dep"
abbrev DomainId := TaggedId "dom"
abbrev AgentSessionId := TaggedId "agt"
abbrev PreviewId := TaggedId "prv"

end Labrys.Core
