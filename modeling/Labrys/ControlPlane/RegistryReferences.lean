import Labrys.ControlPlane.TokenFile
import Labrys.Core.Deployment
import Labrys.Foundations.Framing

/-! # References of a registry

The registry client cuts a reference into a repository name and a tag at its last colon, unless a
slash follows it: a colon before a slash belongs to the port of the host. The two go into the paths
of its requests, and on the way of a pull the name is cut once more.

* `referenceParts`, `pullUrl`: the cut, and the request of a pull.
* `referenceParts_ok`: what a cut that succeeds has found.
* `referenceParts_minted`: what is found in a reference that `build_image` mints.
* `references_split_iff`: when names and tags are told apart. -/

namespace Labrys.ControlPlane
open Foundations Labrys.Core
set_option autoImplicit false

/-! ## Cutting a reference -/

def referenceParts (reference defaultTag : String) : Except ControlPlaneError (String × String) :=
  let reference := trim reference.toList
  if reference = [] then .error (.registry "registry reference must not be empty")
  else if reference.any isWhiteSpace = true then
    .error (.registry s!"registry reference is not a plain reference: {String.ofList reference}")
  else
    match rsplitColon reference with
    | some (name, tag) =>
        if '/' ∉ tag ∧ name ≠ [] ∧ tag ≠ [] then .ok (String.ofList name, String.ofList tag)
        else .ok (String.ofList reference, defaultTag)
    | none => .ok (String.ofList reference, defaultTag)

/-- Where the manifest of a tag is. -/
def manifestUrl (endpoint name tag : String) : String := s!"{endpoint}/v2/{name}/manifests/{tag}"

/-- The request of `fetch_digest`. -/
def fetchDigestUrl (endpoint reference tag : String) : Except ControlPlaneError String := do
  let parts ← referenceParts reference tag
  return manifestUrl endpoint parts.1 tag

/-- The request of `pull`. -/
def pullUrl (endpoint reference : String) : Except ControlPlaneError String := do
  let parts ← referenceParts reference "latest"
  fetchDigestUrl endpoint parts.1 parts.2

/-! ## Names and tags -/

def lastSegment (path : List Char) : List Char := (path.reverse.takeWhile fun c => c ≠ '/').reverse

structure RepositoryName where
  text : String
  nonempty : text.toList ≠ []
  spaceless : ∀ c ∈ text.toList, isWhiteSpace c = false
  noDigest : '@' ∉ text.toList
  noTag : ':' ∉ lastSegment text.toList

structure ImageTag where
  text : String
  nonempty : text.toList ≠ []
  noColon : ':' ∉ text.toList
  noSlash : '/' ∉ text.toList
  noDigest : '@' ∉ text.toList

/-- The repository of a reference, without tag or digest. -/
def repositoryOf (reference : List Char) : List Char :=
  let plain := reference.takeWhile fun c => c ≠ '@'
  let segment := lastSegment plain
  plain.take (plain.length - segment.length) ++ segment.takeWhile fun c => c ≠ ':'

/-- A name is told from a tag, with and without one, and once more on the way of a pull. -/
structure SplitsRight (name : RepositoryName) (tag : ImageTag) (defaultTag : String) : Prop where
  tagged : referenceParts (name.text ++ ":" ++ tag.text) defaultTag = .ok (name.text, tag.text)
  bare : referenceParts name.text defaultTag = .ok (name.text, defaultTag)
  again : referenceParts name.text tag.text = .ok (name.text, tag.text)
  pulled : ∀ endpoint, pullUrl endpoint (name.text ++ ":" ++ tag.text) =
    .ok (manifestUrl endpoint name.text tag.text)

/-! ## What a cut finds -/

theorem rsplitColon_of_notMem {text : List Char} (h : ':' ∉ text) : rsplitColon text = none := by
  have htail : (text.reverse.takeWhile fun c => c ≠ ':').reverse = text := afterLast_of_notMem h
  unfold rsplitColon
  dsimp only
  rw [htail, if_neg (Nat.lt_irrefl _)]

/-- A colon that no slash follows is in the last segment. -/
theorem colon_mem_lastSegment (a : List Char) {b : List Char} (hb : '/' ∉ b) :
    ':' ∈ lastSegment (a ++ ':' :: b) := by
  have hplain : '/' ∉ ':' :: b := by
    rw [List.mem_cons, not_or]
    exact ⟨by decide, hb⟩
  have hsegment : lastSegment (a ++ ':' :: b) = lastSegment a ++ ':' :: b :=
    afterLast_append a hplain
  rw [hsegment]
  exact List.mem_append_right _ List.mem_cons_self

theorem spaceless_of_any {text : List Char} (h : text.any isWhiteSpace = false) :
    ∀ c ∈ text, isWhiteSpace c = false :=
  fun c hc => Bool.eq_false_of_not_eq_true (List.any_eq_false.mp h c hc)

theorem any_isWhiteSpace_eq_false {text : List Char} (h : ∀ c ∈ text, isWhiteSpace c = false) :
    ¬ text.any isWhiteSpace = true := by
  rw [List.any_eq_true]
  rintro ⟨c, hc, hspace⟩
  rw [h c hc] at hspace
  cases hspace

theorem referenceParts_tagged {reference name tag : String} {defaultTag : String}
    (hreference : reference.toList = name.toList ++ ':' :: tag.toList)
    (hspaceless : ∀ c ∈ reference.toList, isWhiteSpace c = false) (hname : name.toList ≠ [])
    (htag : tag.toList ≠ []) (hcolon : ':' ∉ tag.toList) (hslash : '/' ∉ tag.toList) :
    referenceParts reference defaultTag = .ok (name, tag) := by
  have hnonempty : reference.toList ≠ [] := by simp [hreference]
  unfold referenceParts
  rw [trim_of_spaceless hspaceless]
  dsimp only
  rw [if_neg hnonempty, if_neg (any_isWhiteSpace_eq_false hspaceless), hreference,
    rsplitColon_append name.toList hcolon]
  dsimp only
  rw [if_pos ⟨hslash, hname, htag⟩, String.ofList_toList, String.ofList_toList]

theorem referenceParts_bare {reference defaultTag : String} (hnonempty : reference.toList ≠ [])
    (hspaceless : ∀ c ∈ reference.toList, isWhiteSpace c = false)
    (htag : ':' ∉ lastSegment reference.toList) :
    referenceParts reference defaultTag = .ok (reference, defaultTag) := by
  unfold referenceParts
  rw [trim_of_spaceless hspaceless]
  dsimp only
  rw [if_neg hnonempty, if_neg (any_isWhiteSpace_eq_false hspaceless), String.ofList_toList]
  by_cases hcolon : ':' ∈ reference.toList
  · -- The last colon stands before a slash.
    obtain ⟨a, b, hsplit, hb⟩ := exists_last_colon hcolon
    have hslash : ¬ ('/' ∉ b ∧ a ≠ [] ∧ b ≠ []) := by
      rintro ⟨hslash, -⟩
      rw [hsplit] at htag
      exact htag (colon_mem_lastSegment a hslash)
    rw [hsplit, rsplitColon_append a hb]
    dsimp only
    rw [if_neg hslash]
  · rw [rsplitColon_of_notMem hcolon]

/-- A cut that succeeds has found a plain reference, and in it either a name and a tag or a name
alone. -/
theorem referenceParts_ok {reference defaultTag name tag : String}
    (h : referenceParts reference defaultTag = .ok (name, tag)) :
    (∀ c ∈ trim reference.toList, isWhiteSpace c = false) ∧
      ((trim reference.toList = name.toList ++ ':' :: tag.toList ∧ ':' ∉ tag.toList) ∨
        name.toList = trim reference.toList) := by
  unfold referenceParts at h
  dsimp only at h
  split at h
  · cases h
  · split at h
    · cases h
    next hplain =>
      refine ⟨fun c hc => ?_, ?_⟩
      · by_contra hspace
        exact hplain (List.any_eq_true.mpr ⟨c, hc, Bool.eq_true_of_not_eq_false hspace⟩)
      · by_cases hcolon : ':' ∈ trim reference.toList
        · obtain ⟨a, b, hsplit, hb⟩ := exists_last_colon hcolon
          rw [hsplit, rsplitColon_append a hb] at h
          dsimp only at h
          split at h
          · obtain ⟨rfl, rfl⟩ := Prod.mk.inj (Except.ok.inj h)
            rw [hsplit, String.toList_ofList, String.toList_ofList]
            exact .inl ⟨rfl, hb⟩
          · obtain ⟨rfl, -⟩ := Prod.mk.inj (Except.ok.inj h)
            rw [hsplit, String.toList_ofList]
            exact .inr rfl
        · rw [rsplitColon_of_notMem hcolon] at h
          obtain ⟨rfl, -⟩ := Prod.mk.inj (Except.ok.inj h)
          exact .inr (String.toList_ofList)

/-! ## References that are minted -/

theorem mintedReference {config : RuntimeConfig} {build : BuildResult} {revision : Revision}
    {secrets : List String} {image : Image} {base : String}
    (h : buildImage config build revision secrets = .ok image) (hbase : config.ociImage = some base) :
    image.reference.toList = (base.toList ++ '@' :: "sha256".toList) ++
      ':' :: (digestOf base revision.sourceSha).toList := by
  unfold buildImage at h
  split at h
  · cases h
  · split at h
    · cases h
    · rw [hbase] at h
      obtain rfl := Except.ok.inj h
      simp [String.toList_append]

/-- A digest is written with hexadecimal digits. -/
theorem digestOf_digit {base revisionSha : String} {c : Char}
    (hc : c ∈ (digestOf base revisionSha).toList) : ∃ n < 16, Nat.digitChar n = c := by
  have hhex {width value : ℕ} (h : c ∈ (hexDigits width value).toList) :
      ∃ n < 16, Nat.digitChar n = c := by
    simp only [hexDigits, String.toList_ofList, List.mem_map] at h
    obtain ⟨i, -, hi⟩ := h
    exact ⟨_, Nat.mod_lt _ (by decide), hi⟩
  unfold digestOf at hc
  dsimp only at hc
  rw [String.toList_append, List.mem_append] at hc
  obtain hc | hc := hc
  · exact hhex hc
  · exact hhex hc

theorem notMem_digestOf {c : Char} (h : ∀ n < 16, Nat.digitChar n ≠ c) (base revisionSha : String) :
    c ∉ (digestOf base revisionSha).toList := by
  intro hc
  obtain ⟨n, hn, hdigit⟩ := digestOf_digit hc
  exact h n hn hdigit

theorem digestOf_spaceless (base revisionSha : String) :
    ∀ c ∈ (digestOf base revisionSha).toList, isWhiteSpace c = false := by
  have hall : ∀ n < 16, isWhiteSpace (Nat.digitChar n) = false := by decide
  intro c hc
  obtain ⟨n, hn, rfl⟩ := digestOf_digit hc
  exact hall n hn

theorem digestOf_ne_nil (base revisionSha : String) : (digestOf base revisionSha).toList ≠ [] := by
  rw [← List.length_pos_iff]
  unfold digestOf
  dsimp only
  rw [String.toList_append, List.length_append, hexDigits_length, hexDigits_length]
  decide

/-- The name that is found in a minted reference keeps the `@` of the digest. -/
theorem at_mem_of_minted {config : RuntimeConfig} {build : BuildResult} {revision : Revision}
    {secrets : List String} {image : Image} {base defaultTag name tag : String}
    (h : buildImage config build revision secrets = .ok image) (hbase : config.ociImage = some base)
    (hparts : referenceParts image.reference defaultTag = .ok (name, tag)) :
    '@' ∈ name.toList := by
  have hdigest : ':' ∉ trimEnd (digestOf base revision.sourceSha).toList := by
    intro hmem
    exact notMem_digestOf (by decide) base revision.sourceSha
      (List.mem_reverse.mp ((List.dropWhile_sublist _).mem (List.mem_reverse.mp hmem)))
  have htrim : trim image.reference.toList =
      (base.toList.dropWhile isWhiteSpace ++ '@' :: "sha256".toList) ++
        ':' :: trimEnd (digestOf base revision.sourceSha).toList := by
    have hrest := trimEnd_append_cons "sha256".toList (digestOf base revision.sourceSha).toList
      (c := ':') (by decide)
    rw [mintedReference h hbase, List.append_assoc, List.cons_append,
      trim_around base.toList _ (by decide), hrest, List.append_assoc, List.cons_append]
  have hat : '@' ∈ base.toList.dropWhile isWhiteSpace ++ '@' :: "sha256".toList :=
    List.mem_append_right _ List.mem_cons_self
  obtain ⟨-, ⟨hsplit, htag⟩ | hname⟩ := referenceParts_ok hparts
  · obtain ⟨hfound, -⟩ := eq_of_last_sep htag hdigest (hsplit.symm.trans htrim)
    rw [hfound]
    exact hat
  · rw [hname, htrim]
    exact List.mem_append_left _ hat

/-- What is found in the minted reference of a plain repository: a name that goes on with the
algorithm of the digest, and the digits of the digest as the tag. -/
theorem referenceParts_minted {config : RuntimeConfig} {build : BuildResult} {revision : Revision}
    {secrets : List String} {image : Image} {base : String}
    (h : buildImage config build revision secrets = .ok image) (hbase : config.ociImage = some base)
    (hspaceless : ∀ c ∈ base.toList, isWhiteSpace c = false) (defaultTag : String) :
    referenceParts image.reference defaultTag =
      .ok (base ++ "@sha256", digestOf base revision.sourceSha) := by
  have hname : (base ++ "@sha256").toList = base.toList ++ '@' :: "sha256".toList := by
    simp [String.toList_append]
  have hreference := mintedReference h hbase
  rw [← hname] at hreference
  refine referenceParts_tagged hreference ?_ ?_ (digestOf_ne_nil _ _)
    (notMem_digestOf (by decide) _ _) (notMem_digestOf (by decide) _ _)
  · intro c hc
    rw [hreference, hname, List.mem_append, List.mem_append, List.mem_cons, List.mem_cons] at hc
    obtain (hc | rfl | hc) | rfl | hc := hc
    · exact hspaceless c hc
    · decide
    · exact spaceless_of_any (by decide : "sha256".toList.any isWhiteSpace = false) c hc
    · decide
    · exact digestOf_spaceless _ _ c hc
  · rw [hname]
    simp

theorem at_notMem_repositoryOf (reference : List Char) : '@' ∉ repositoryOf reference := by
  have hplain : '@' ∉ reference.takeWhile fun c => c ≠ '@' := notMem_upTo reference
  unfold repositoryOf
  dsimp only
  intro hmem
  obtain hmem | hmem := List.mem_append.mp hmem
  · exact hplain (List.mem_of_mem_take hmem)
  · have hsegment := (List.takeWhile_prefix _).subset hmem
    unfold lastSegment at hsegment
    exact hplain (List.mem_reverse.mp ((List.takeWhile_prefix _).subset
      (List.mem_reverse.mp hsegment)))

/-- Of no reference that `build_image` mints is the repository found. -/
theorem repository_not_found {config : RuntimeConfig} {build : BuildResult} {revision : Revision}
    {secrets : List String} {image : Image} {base defaultTag name tag : String}
    (himage : buildImage config build revision secrets = .ok image)
    (hbase : config.ociImage = some base)
    (hparts : referenceParts image.reference defaultTag = .ok (name, tag)) :
    name.toList ≠ repositoryOf base.toList := by
  intro hname
  have hat := at_mem_of_minted himage hbase hparts
  rw [hname] at hat
  exact at_notMem_repositoryOf base.toList hat

/-! ## Names and tags are told apart -/

section Split
variable (name : RepositoryName) (tag : ImageTag) (defaultTag : String)

theorem toList_reference :
    (name.text ++ ":" ++ tag.text).toList = name.text.toList ++ ':' :: tag.text.toList := by
  simp [String.toList_append]

/-- What a reference that is cut into its name and its tag is not: cut off at its end. -/
theorem spaceless_of_tagged {name : RepositoryName} {tag : ImageTag} {defaultTag : String}
    (h : referenceParts (name.text ++ ":" ++ tag.text) defaultTag = .ok (name.text, tag.text)) :
    ∀ c ∈ tag.text.toList, isWhiteSpace c = false := by
  have hstart : StartsDark name.text.toList :=
    fun c hc => name.spaceless c (List.mem_of_mem_head? hc)
  obtain ⟨hplain, ⟨hparts, -⟩ | hname⟩ := referenceParts_ok h
  · intro c hc
    refine hplain c ?_
    rw [hparts]
    exact List.mem_append_right _ (List.mem_cons_of_mem ':' hc)
  · -- The name alone is shorter.
    have hlength := congrArg List.length hname
    rw [toList_reference, trim_append_cons tag.text.toList hstart (by decide), List.length_append,
      List.length_cons] at hlength
    omega

/-- **Registry references** are cut into name and tag exactly if the tag has no white space, which is
refused. -/
theorem references_split_iff : SplitsRight name tag defaultTag ↔
    ∀ c ∈ tag.text.toList, isWhiteSpace c = false := by
  refine ⟨fun h => spaceless_of_tagged h.tagged, fun htag => ?_⟩
  have hspaceless : ∀ c ∈ (name.text ++ ":" ++ tag.text).toList, isWhiteSpace c = false := by
    intro c hc
    rw [toList_reference, List.mem_append, List.mem_cons] at hc
    obtain hc | rfl | hc := hc
    · exact name.spaceless c hc
    · decide
    · exact htag c hc
  have htagged (defaultTag : String) :
      referenceParts (name.text ++ ":" ++ tag.text) defaultTag = .ok (name.text, tag.text) :=
    referenceParts_tagged (toList_reference name tag) hspaceless name.nonempty tag.nonempty
      tag.noColon tag.noSlash
  have hbare (defaultTag : String) :
      referenceParts name.text defaultTag = .ok (name.text, defaultTag) :=
    referenceParts_bare name.nonempty name.spaceless name.noTag
  refine ⟨htagged defaultTag, hbare defaultTag, hbare tag.text, fun endpoint => ?_⟩
  unfold pullUrl
  rw [htagged]
  change fetchDigestUrl endpoint name.text tag.text = _
  unfold fetchDigestUrl
  rw [hbare]
  rfl

end Split

/-! ### Two references -/

example : repositoryOf "registry.local:5000/ns/app:1.2@sha256:ab".toList =
    "registry.local:5000/ns/app".toList := by decide

def productionConfig : RuntimeConfig := ⟨.node, .production, some "registry.local/app"⟩

def mintedRevision : Revision := .new "abc123" "cfg" none

def appName : RepositoryName where
  text := "registry.local/app"
  nonempty := by decide
  spaceless := spaceless_of_any (by decide)
  noDigest := by decide
  noTag := by decide

/-- A tag with a blank inside. -/
def blankTag : ImageTag where
  text := "1 2"
  nonempty := by decide
  noColon := by decide
  noSlash := by decide
  noDigest := by decide

/-- The tag `1 2` is refused, and the repository `registry.local/app` is not found in the reference of
its image. -/
theorem references_misread :
    ¬ SplitsRight appName blankTag "latest" ∧
      referenceParts "registry.local/app:1 2" "latest" =
        .error (.registry "registry reference is not a plain reference: registry.local/app:1 2") ∧
      ∃ image, buildImage productionConfig (.succeeded "ok") mintedRevision [] = .ok image ∧
        referenceParts image.reference "latest" =
          .ok ("registry.local/app@sha256", digestOf "registry.local/app" "abc123") ∧
        "registry.local/app@sha256".toList ≠ repositoryOf "registry.local/app".toList := by
  refine ⟨fun hsplits => ?_, by decide, ?_⟩
  · have hspaceless := spaceless_of_tagged hsplits.tagged ' ' (by decide)
    exact absurd hspaceless (by decide)
  · obtain ⟨image, himage⟩ : ∃ image,
        buildImage productionConfig (.succeeded "ok") mintedRevision [] = .ok image := ⟨_, rfl⟩
    exact ⟨image, himage, referenceParts_minted himage rfl (spaceless_of_any (by decide)) "latest",
      by decide⟩

end Labrys.ControlPlane
