import Labrys.Core.Agent
import Labrys.Foundations.Trimming

/-! # Event names of external agents

An external process names its events in its own way, and `normalize` finds the platform's kind: the
name is lowered, cut into words, and its endings are looked up from the longest to the shortest, so
that a vendor's words in front of a name do not count.

* `ExternalProcessAgent.normalize`: the lookup.
* `normalize_canonical_iff`: which canonical names it knows. -/

namespace Labrys.Core
open Foundations
set_option autoImplicit false

def AgentEventKind.canonicalName : AgentEventKind → String
  | planning => "planning"
  | fileChanged => "file_changed"
  | commandRun => "command_run"
  | capabilityRequested => "capability_requested"
  | build => "build"
  | preview => "preview"
  | deployment => "deployment"
  | verification => "verification"
  | approvalRequested => "approval_requested"
  | denied => "denied"
  | interrupted => "interrupted"
  | resumed => "resumed"
  | timedOut => "timed_out"
  | completed => "completed"

structure ExternalProcessAgent where
  identity : BackendIdentity

namespace ExternalProcessAgent

/-- `to_ascii_lowercase` and `replace(['.', '-'], "_")`, symbol by symbol. -/
def foldSymbol (c : Char) : Char :=
  if c.toLower = '.' ∨ c.toLower = '-' then '_' else c.toLower

/-- The names that `normalize` knows. -/
def known (candidate : String) : Option AgentEventKind :=
  if candidate ∈ ["planning", "plan"] then some .planning
  else if candidate ∈ ["file_changed", "file", "files", "observe"] then some .fileChanged
  else if candidate ∈ ["command_run", "command", "act", "exec"] then some .commandRun
  else if candidate ∈ ["capability_requested", "capability"] then some .capabilityRequested
  else if candidate ∈ ["build"] then some .build
  else if candidate ∈ ["preview"] then some .preview
  else if candidate ∈ ["deployment", "deploy"] then some .deployment
  else if candidate ∈ ["verification", "verify"] then some .verification
  else if candidate ∈ ["completed", "complete", "done"] then some .completed
  else none

def joined (parts : List (List Char)) : List Char := ['_'].intercalate parts

/-- The kind of the longest ending that is known. -/
def longestKnown (parts : List (List Char)) : Option AgentEventKind :=
  (List.range parts.length).findSome? fun start => known (String.ofList (joined (parts.drop start)))

def normalize (agent : ExternalProcessAgent) (rawName detail : String) : Except CoreError Draft :=
  let normalized := (trim rawName.toList).map foldSymbol
  match longestKnown (normalized.splitOn '_') with
  | some kind => .ok (kind, detail)
  | none =>
      let name := agent.identity.name
      .error (.sessionState (s!"unknown backend event '{rawName}' from '{name}'; " ++
        "consumers require the normalized vocabulary"))

/-! ## Endings -/

theorem joined_append {front back : List (List Char)} (hfront : front ≠ []) (hback : back ≠ []) :
    joined (front ++ back) = joined front ++ '_' :: joined back := by
  induction front with
  | nil => exact absurd rfl hfront
  | cons word front ih =>
    cases front with
    | nil => simp [joined, List.intercalate_cons_of_ne_nil hback]
    | cons next front =>
      have hrest := ih (List.cons_ne_nil next front)
      simp only [joined, List.cons_append, List.intercalate_cons_cons] at hrest ⊢
      rw [hrest]
      simp

/-- Endings that reach into the front and are not known do not count. -/
theorem longestKnown_append (front back : List (List Char))
    (h : ∀ start < front.length,
      known (String.ofList (joined ((front ++ back).drop start))) = none) :
    longestKnown (front ++ back) = longestKnown back := by
  have hfront : (List.range front.length).findSome? (fun start =>
      known (String.ofList (joined ((front ++ back).drop start)))) = none :=
    List.findSome?_eq_none_iff.mpr fun start hstart => h start (List.mem_range.mp hstart)
  unfold longestKnown
  rw [List.length_append, List.range_add, List.findSome?_append, hfront, Option.none_or,
    List.findSome?_map]
  congr 1
  funext start
  dsimp only [Function.comp]
  rw [← List.drop_drop, List.drop_left]

def knownNames : List String :=
  ["planning", "plan", "file_changed", "file", "files", "observe", "command_run", "command", "act",
    "exec", "capability_requested", "capability", "build", "preview", "deployment", "deploy",
    "verification", "verify", "completed", "complete", "done"]

theorem mem_knownNames {candidate : String} {kind : AgentEventKind}
    (h : known candidate = some kind) : candidate ∈ knownNames := by
  have hincluded {names : List String} (hmem : candidate ∈ names) (hnames : names ⊆ knownNames) :
      candidate ∈ knownNames := hnames hmem
  unfold known at h
  split_ifs at h with hplan hfile hcommand hcapability hbuild hpreview hdeploy hverify hdone
  · exact hincluded hplan (by decide)
  · exact hincluded hfile (by decide)
  · exact hincluded hcommand (by decide)
  · exact hincluded hcapability (by decide)
  · exact hincluded hbuild (by decide)
  · exact hincluded hpreview (by decide)
  · exact hincluded hdeploy (by decide)
  · exact hincluded hverify (by decide)
  · exact hincluded hdone (by decide)

/-- No known name is a canonical name with a word in front. -/
theorem known_prefixed (front : List Char) (kind : AgentEventKind) :
    known (String.ofList (front ++ '_' :: kind.canonicalName.toList)) = none := by
  cases hfound : known (String.ofList (front ++ '_' :: kind.canonicalName.toList)) with
  | none => rfl
  | some other =>
    have hname := mem_knownNames hfound
    have hnone : (knownNames.all fun name =>
        !('_' :: kind.canonicalName.toList).isSuffixOf name.toList) = true := by
      cases kind <;> decide +kernel
    have hnot := List.all_eq_true.mp hnone _ hname
    have hsuffix : ('_' :: kind.canonicalName.toList).isSuffixOf
        (String.ofList (front ++ '_' :: kind.canonicalName.toList)).toList = true := by
      rw [String.toList_ofList]
      exact List.isSuffixOf_iff_suffix.mpr ⟨front, rfl⟩
    rw [hsuffix] at hnot
    cases hnot

/-! ## Canonical names -/

/-- The kinds of work, as opposed to those of the session's own life. -/
def Covered (kind : AgentEventKind) : Prop :=
  kind ∈ [AgentEventKind.planning, .fileChanged, .commandRun, .capabilityRequested, .build,
    .preview, .deployment, .verification, .completed]

/-- What a vendor may put in front: nothing, or any text that ends in a separator. -/
def Separated (front : List Char) : Prop :=
  front = [] ∨ ∃ words sep, front = words ++ [sep] ∧ sep ∈ ['.', '-', '_']

theorem foldSymbol_of_white {c : Char} (h : isWhiteSpace c = true) : foldSymbol c = c := by
  have hlower : c.toLower = c := by
    unfold Char.toLower
    split_ifs with hupper
    · exfalso
      have hlow : 65 ≤ c.toNat := hupper.1
      have hhigh : c.toNat ≤ 90 := hupper.2
      simp only [isWhiteSpace, Bool.or_eq_true, Bool.and_eq_true, decide_eq_true_eq] at h
      omega
    · rfl
  have hdot : c ≠ '.' := by
    rintro rfl
    exact absurd h (by decide)
  have hdash : c ≠ '-' := by
    rintro rfl
    exact absurd h (by decide)
  unfold foldSymbol
  rw [hlower, if_neg (not_or.mpr ⟨hdot, hdash⟩)]

theorem spaceless_of_folds {name : List Char} {kind : AgentEventKind}
    (h : name.map foldSymbol = kind.canonicalName.toList) : ∀ c ∈ name, isWhiteSpace c = false := by
  intro c hc
  by_contra hwhite
  have hmem : c ∈ kind.canonicalName.toList := by
    rw [← h, ← foldSymbol_of_white (Bool.eq_true_of_not_eq_false hwhite)]
    exact List.mem_map_of_mem hc
  have hdark : (kind.canonicalName.toList.all fun c => !isWhiteSpace c) = true := by
    cases kind <;> decide +kernel
  exact hwhite (by simpa using List.all_eq_true.mp hdark c hmem)

/-- White space is trimmed off the front of what the vendor put there, and the rest is folded. -/
theorem folded_name {front name : List Char} {kind : AgentEventKind} (hfront : Separated front)
    (hname : name.map foldSymbol = kind.canonicalName.toList) :
    (trim (front ++ name)).map foldSymbol = kind.canonicalName.toList ∨
      ∃ words, (trim (front ++ name)).map foldSymbol =
        words ++ '_' :: kind.canonicalName.toList := by
  have hdark := spaceless_of_folds hname
  obtain rfl | ⟨words, sep, rfl, hsep⟩ := hfront
  · left
    rw [List.nil_append, trim_of_spaceless hdark, hname]
  · right
    have hsepDark : isWhiteSpace sep = false ∧ foldSymbol sep = '_' := by
      simp only [List.mem_cons, List.not_mem_nil, or_false] at hsep
      obtain rfl | rfl | rfl := hsep <;> decide +kernel
    have hend : trimEnd name = name := by
      conv_lhs => rw [← trim_of_spaceless hdark]
      rw [trimEnd_trim, trim_of_spaceless hdark]
    refine ⟨(words.dropWhile isWhiteSpace).map foldSymbol, ?_⟩
    rw [List.append_assoc, List.singleton_append, trim_around words name hsepDark.1, hend,
      List.map_append, List.map_cons, hsepDark.2, hname]

/-- Words in front of a canonical name do not change what is found. -/
theorem longestKnown_prefixed (words : List Char) (kind : AgentEventKind) :
    longestKnown ((words ++ '_' :: kind.canonicalName.toList).splitOn '_') =
      longestKnown (kind.canonicalName.toList.splitOn '_') := by
  rw [List.splitOn_append_cons_self]
  refine longestKnown_append _ _ fun start hstart => ?_
  have hreaches : (words.splitOn '_').drop start ≠ [] := by
    rw [Ne, List.drop_eq_nil_iff]
    exact Nat.not_le.mpr hstart
  rw [List.drop_append_of_le_length hstart.le,
    joined_append hreaches (List.splitOn_ne_nil _ _)]
  have hname : joined (kind.canonicalName.toList.splitOn '_') = kind.canonicalName.toList :=
    List.intercalate_splitOn '_'
  rw [hname]
  exact known_prefixed _ kind

theorem longestKnown_canonical_iff (kind : AgentEventKind) :
    longestKnown (kind.canonicalName.toList.splitOn '_') = some kind ↔ Covered kind := by
  unfold Covered
  cases kind <;> decide +kernel

/-- **Which canonical names are known.** For every agent, whatever a vendor puts in front of the name,
in every mix of cases and separators: the name of a kind is read as that kind, with its detail, if and
only if the kind is one of work, and not one of the session's own life. -/
theorem normalize_canonical_iff (agent : ExternalProcessAgent) (kind : AgentEventKind)
    (front name : List Char) (detail : String) (hfront : Separated front)
    (hname : name.map foldSymbol = kind.canonicalName.toList) :
    agent.normalize (String.ofList (front ++ name)) detail = .ok (kind, detail) ↔
      Covered kind := by
  have hfound : longestKnown (((trim (front ++ name)).map foldSymbol).splitOn '_') =
      longestKnown (kind.canonicalName.toList.splitOn '_') := by
    obtain hplain | ⟨words, hwords⟩ := folded_name hfront hname
    · rw [hplain]
    · rw [hwords, longestKnown_prefixed]
  rw [← longestKnown_canonical_iff, ← hfound]
  unfold normalize
  rw [String.toList_ofList]
  dsimp only
  cases longestKnown (((trim (front ++ name)).map foldSymbol).splitOn '_') with
  | none => simp
  | some other => simp

theorem normalize_canonical_iff_vendor :
    (ExternalProcessAgent.mk ⟨.external, "opencode"⟩).normalize "OpenCode.File-Changed" "a.rs" =
      .ok (.fileChanged, "a.rs") :=
  (normalize_canonical_iff ⟨⟨.external, "opencode"⟩⟩ .fileChanged "OpenCode.".toList
    "File-Changed".toList "a.rs" (.inr ⟨"OpenCode".toList, '.', by decide, by decide⟩)
    (by decide +kernel)).mpr (by unfold Covered; decide)

/-- A canonical name that is not known. -/
theorem canonical_name_unknown :
    (ExternalProcessAgent.mk ⟨.external, "opencode"⟩).normalize "opencode_denied" "by policy" =
      .error (.sessionState ("unknown backend event 'opencode_denied' from 'opencode'; " ++
        "consumers require the normalized vocabulary")) := by
  decide +kernel

end ExternalProcessAgent
end Labrys.Core
