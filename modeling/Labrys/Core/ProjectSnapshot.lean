import Mathlib.Data.List.Sort
import Std.Data.TreeMap.Lemmas
import Labrys.Core.Redact
import Labrys.Foundations.Splitting

/-! # The files of a project, as the inspector sees them

A snapshot is a map from normalized paths to contents, read in the order of the paths. -/

namespace Labrys.Core
open Foundations
set_option autoImplicit false

/-! ## Text -/

/-- `eq_ignore_ascii_case`. -/
def eqIgnoreAsciiCase (a b : String) : Bool := decide (a.toLower = b.toLower)

def textStartsWith (text start : String) : Bool := start.toList.isPrefixOf text.toList

def textEndsWith (text ending : String) : Bool := ending.toList.isSuffixOf text.toList

/-- `str::lines`: the lines without their ends; an end that closes the text opens no further one. -/
def textLines (text : String) : List String :=
  let parts := splitText ['\n'] text.toList
  let ended := parts.dropLast.map fun line =>
    if line.getLast? = some '\r' then line.dropLast else line
  let last := parts.getLast?.toList.filter fun line => line ≠ []
  (ended ++ last).map String.ofList

/-- `split_whitespace`. -/
def textWords (text : String) : List String :=
  ((text.toList.splitOnP isWhiteSpace).filter fun word => word ≠ []).map String.ofList

example : textLines "FROM node:20\r\nRUN x\n" = ["FROM node:20", "RUN x"] := by decide +kernel
example : textWords " FROM  node:20 AS b" = ["FROM", "node:20", "AS", "b"] := by decide +kernel

/-! ## Paths -/

/-- Forward slashes, and without one leading `./`. -/
def normalizePath (path : String) : String :=
  let forward := path.toList.map fun c => if c = '\\' then '/' else c
  String.ofList (if "./".toList.isPrefixOf forward then forward.drop 2 else forward)

/-- The last segment of a path. -/
def fileName (path : String) : String :=
  String.ofList (path.toList.reverse.takeWhile fun c => c ≠ '/').reverse

theorem fileName_suffix (path : String) : (fileName path).toList <:+ path.toList := by
  unfold fileName
  rw [String.toList_ofList]
  exact List.reverse_prefix.mp
    (by rw [List.reverse_reverse]; exact List.takeWhile_prefix _)

/-- An ending without a slash is that of the name. -/
theorem textEndsWith_fileName {path ending : String} (h : '/' ∉ ending.toList) :
    textEndsWith (fileName path) ending = textEndsWith path ending := by
  have hname : ending.toList <:+ path.toList → ending.toList <:+ (fileName path).toList := by
    rintro ⟨before, hpath⟩
    have hsegment : ((before ++ ending.toList).reverse.takeWhile fun c => c ≠ '/').reverse =
        afterLast '/' before ++ ending.toList := afterLast_append before h
    rw [fileName, String.toList_ofList, ← hpath, hsegment]
    exact List.suffix_append _ _
  unfold textEndsWith
  rw [Bool.eq_iff_iff, List.isSuffixOf_iff_suffix, List.isSuffixOf_iff_suffix]
  exact ⟨fun hending => hending.trans (fileName_suffix path), hname⟩

/-! ## Snapshots -/

structure ProjectSnapshot where
  files : Std.TreeMap String String

/-- A path and its content. -/
abbrev ProjectFile := String × String

namespace ProjectSnapshot

def new (files : List ProjectFile) : ProjectSnapshot :=
  ⟨files.foldl (fun map file => map.insert (normalizePath file.1) file.2) ∅⟩

variable (snapshot : ProjectSnapshot)

/-- The files in the order of their paths. -/
def entries : List ProjectFile := snapshot.files.toList

def get (path : String) : Option String := snapshot.files[normalizePath path]?

def hasFile (path : String) : Bool := (snapshot.get path).isSome

def filesWithName (name : String) : List ProjectFile :=
  snapshot.entries.filter fun file => decide (fileName file.1 = name)

def filesWithExtension (extension : String) : List ProjectFile :=
  snapshot.entries.filter fun file => textEndsWith file.1 extension

def filesNamedAnywhere (names : List String) : List ProjectFile :=
  snapshot.entries.filter fun file => decide (fileName file.1 ∈ names)

def hasDir (dir : String) : Bool :=
  snapshot.entries.any fun file => decide (file.1 = dir) || textStartsWith file.1 (dir ++ "/")

def hasDirAnywhere (name : String) : Bool :=
  snapshot.entries.any fun file => decide (file.1 = name) || textStartsWith file.1 (name ++ "/") ||
    containsText file.1 ("/" ++ name ++ "/")

def anyContentContains (needle : String) : Option ProjectFile :=
  snapshot.entries.find? fun file => containsText file.2 needle

def anyContentContainsInsensitive (needle : String) : Option ProjectFile :=
  snapshot.entries.find? fun file => containsText file.2.toLower needle.toLower

end ProjectSnapshot

/-- `sort_by(|a, b| a.0.cmp(b.0))`. -/
def sortedByPath (files : List ProjectFile) : List ProjectFile :=
  files.insertionSort fun a b => a.1 ≤ b.1

end Labrys.Core
