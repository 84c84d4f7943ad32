import Mathlib.Data.List.Basic

/-! # Reading the words of a command line

Options stand in front, each alone or with the next word for its value. The first word that is no
option ends them; it and all after it are positional.

* `OptionGrammar.read`: the options and the positional words of a line, or nothing when the last
  option lacks its value.
* `OptionGrammar.read_spelled`: options that are spelled by the grammar are read as they were meant,
  whatever their values are.
* `OptionGrammar.read_spelled_singleton_iff`: a last word is positional exactly if it is no option. -/

namespace Labrys.Foundations
set_option autoImplicit false

/-- Which words are options, and which of these take the next word for a value. -/
structure OptionGrammar (ω : Type) where
  isOption : ω → Bool
  takesValue : ω → Bool

/-- An option with its value. -/
abbrev OptionUse (ω : Type) := ω × Option ω

structure CommandWords (ω : Type) where
  options : List (OptionUse ω)
  positional : List ω
deriving DecidableEq

variable {ω : Type}

def CommandWords.withOption (words : CommandWords ω) (option : OptionUse ω) : CommandWords ω :=
  { words with options := option :: words.options }

/-- The words of an option. -/
def OptionUse.spell (option : OptionUse ω) : List ω := option.1 :: option.2.toList

namespace OptionGrammar
variable (G : OptionGrammar ω)

def read : List ω → Option (CommandWords ω)
  | [] => some ⟨[], []⟩
  | word :: rest =>
      if G.isOption word then
        if G.takesValue word then
          match rest with
          | [] => none
          | value :: rest => (read rest).map fun words => words.withOption (word, some value)
        else (read rest).map fun words => words.withOption (word, none)
      else some ⟨[], word :: rest⟩

/-- The option is one, and has a value if and only if it takes one. -/
structure Fits (option : OptionUse ω) : Prop where
  isOption : G.isOption option.1 = true
  valued : G.takesValue option.1 = option.2.isSome

variable {G}

theorem read_spell_append {option : OptionUse ω} (h : G.Fits option) (rest : List ω) :
    G.read (option.spell ++ rest) = (G.read rest).map fun words => words.withOption option := by
  obtain ⟨word, value⟩ := option
  have hoption : G.isOption word = true := h.isOption
  have hvalued : G.takesValue word = value.isSome := h.valued
  cases value with
  | none =>
    have hspell : OptionUse.spell (word, none) ++ rest = word :: rest := rfl
    rw [hspell, read.eq_def]
    simp [hoption, hvalued]
  | some value =>
    have hspell : OptionUse.spell (word, some value) ++ rest = word :: value :: rest := rfl
    rw [hspell, read.eq_def]
    simp [hoption, hvalued]

/-- Options that are spelled by the grammar are read as they were meant. -/
theorem read_spelled {options : List (OptionUse ω)} (h : ∀ option ∈ options, G.Fits option)
    (rest : List ω) :
    G.read (options.flatMap OptionUse.spell ++ rest) =
      (G.read rest).map fun words => ⟨options ++ words.options, words.positional⟩ := by
  induction options with
  | nil =>
    cases hread : G.read rest with
    | none => simp [hread]
    | some words => simp [hread]
  | cons option options ih =>
    have hrest := ih fun other hother => h other (List.mem_cons_of_mem option hother)
    rw [List.flatMap_cons, List.append_assoc,
      read_spell_append (h option List.mem_cons_self), hrest, Option.map_map]
    rfl

/-- After such options a last word is positional exactly if it is no option itself. -/
theorem read_spelled_singleton_iff {options : List (OptionUse ω)}
    (h : ∀ option ∈ options, G.Fits option) {last : ω} {words : CommandWords ω} :
    G.read (options.flatMap OptionUse.spell ++ [last]) = some words ∧ words.positional = [last] ↔
      words = ⟨options, [last]⟩ ∧ G.isOption last = false := by
  rw [read_spelled h]
  cases hlast : G.isOption last with
  | false =>
    have hread : G.read [last] = some ⟨[], [last]⟩ := by simp [read, hlast]
    rw [hread, Option.map_some, List.append_nil, Option.some.injEq]
    constructor
    · rintro ⟨rfl, -⟩
      exact ⟨rfl, rfl⟩
    · rintro ⟨rfl, -⟩
      exact ⟨rfl, rfl⟩
  | true =>
    refine iff_of_false ?_ fun hboth => absurd hboth.2 (by simp)
    rintro ⟨hread, hpositional⟩
    cases hvalue : G.takesValue last with
    | true => simp [read, hlast, hvalue] at hread
    | false =>
      simp only [read, hlast, hvalue, if_true, Bool.false_eq_true, if_false, Option.map_some,
        Option.some.injEq] at hread
      rw [← hread] at hpositional
      cases hpositional

end OptionGrammar

/-! ## What a list of options says -/

section Values
variable [DecidableEq ω]

/-- The values that an option is given, in the order of its uses. -/
def valuesOf (name : ω) (options : List (OptionUse ω)) : List ω :=
  options.filterMap fun option => if option.1 = name then option.2 else none

theorem valuesOf_append (name : ω) (options more : List (OptionUse ω)) :
    valuesOf name (options ++ more) = valuesOf name options ++ valuesOf name more :=
  List.filterMap_append

theorem valuesOf_cons_self (name value : ω) (options : List (OptionUse ω)) :
    valuesOf name ((name, some value) :: options) = value :: valuesOf name options := by
  simp [valuesOf]

theorem valuesOf_cons_of_ne {name : ω} {option : OptionUse ω} (h : option.1 ≠ name)
    (options : List (OptionUse ω)) : valuesOf name (option :: options) = valuesOf name options := by
  simp [valuesOf, h]

theorem valuesOf_map_self (name : ω) (values : List ω) :
    valuesOf name (values.map fun value => (name, some value)) = values := by
  induction values with
  | nil => rfl
  | cons value values ih => rw [List.map_cons, valuesOf_cons_self, ih]

theorem valuesOf_map_of_ne {name other : ω} (h : other ≠ name) (values : List ω) :
    valuesOf name (values.map fun value => (other, some value)) = [] := by
  induction values with
  | nil => rfl
  | cons value values ih => rw [List.map_cons, valuesOf_cons_of_ne h, ih]

end Values

end Labrys.Foundations
