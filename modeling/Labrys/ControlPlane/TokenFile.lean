import Labrys.ControlPlane.TokenRotation
import Labrys.Foundations.Splitting
import Labrys.Foundations.Trimming

/-! # The token file

One line for each token, `<id>:<scope>:<expiry>:<secret>`. The expiry holds colons of its own, so
a line is cut twice from the left and once from the right.

* `TokenHead.line`: how a line is written.
* `Written`: a file whose lines are entries, blanks and comments.
* `fromLines_grammar`: what is read from such a file, and what is refused. -/

namespace Labrys.ControlPlane
open Foundations Labrys.Core
set_option autoImplicit false

/-! ## Cutting a line -/

theorem splitColon_append {a : List Char} (b : List Char) (ha : ':' ∉ a) :
    splitColon (a ++ ':' :: b) = (a, some b) := by
  have hhead : (a ++ ':' :: b).takeWhile (fun c => c ≠ ':') = a := upTo_append_cons ha b
  have hlt : a.length < (a ++ ':' :: b).length := by simp
  unfold splitColon
  rw [hhead]
  dsimp only
  rw [if_pos hlt]
  simp

theorem rsplitColon_append (a : List Char) {b : List Char} (hb : ':' ∉ b) :
    rsplitColon (a ++ ':' :: b) = some (a, b) := by
  have htail : ((a ++ ':' :: b).reverse.takeWhile fun c => c ≠ ':').reverse = b :=
    afterLast_append_cons a hb
  have hlt : b.length < (a ++ ':' :: b).length := by
    simp only [List.length_append, List.length_cons]
    omega
  have hcut : (a ++ ':' :: b).length - (b.length + 1) = a.length := by
    simp only [List.length_append, List.length_cons]
    omega
  unfold rsplitColon
  rw [htail]
  dsimp only
  rw [if_pos hlt, hcut, List.take_left]

/-- The last colon of a text that has one. -/
theorem exists_last_colon {text : List Char} (h : ':' ∈ text) :
    ∃ a b, text = a ++ ':' :: b ∧ ':' ∉ b := by
  obtain ⟨b, a, hsplit, hb⟩ := List.eq_append_cons_of_mem (List.mem_reverse.mpr h)
  refine ⟨a.reverse, b.reverse, ?_, fun hmem => hb (List.mem_reverse.mp hmem)⟩
  have hback := congrArg List.reverse hsplit
  simpa using hback

/-! ## Writing a line -/

/-- How timestamps are written and read. No time is read from what goes on with a colon after a text
that is one, nor from what begins like `never`. -/
structure TimeFormat (source : TokenSource) (render : DateTime → String) : Prop where
  parse_render : ∀ time, source.parseTime (render time) = some time
  spaceless : ∀ time, ∀ c ∈ (render time).toList, isWhiteSpace c = false
  final : ∀ text more, (source.parseTime text).isSome →
    source.parseTime (text ++ ":" ++ more) = none
  never : ∀ more, source.parseTime ("never" ++ more) = none

/-- What stands before the secret. -/
structure TokenHead where
  id : String
  scope : TokenScope
  expiresAt : Option DateTime
  id_trimmed : trim id.toList = id.toList
  id_nonempty : id.toList ≠ []
  id_colon : ':' ∉ id.toList
  id_newline : '\n' ∉ id.toList
  id_comment : id.toList.head? ≠ some '#'

structure TokenEntry extends TokenHead where
  secret : String
  secret_trimmed : trim secret.toList = secret.toList
  secret_colon : ':' ∉ secret.toList
  secret_newline : '\n' ∉ secret.toList
  secret_long : minTokenLen ≤ secret.toUTF8.toList.length

section Writing
variable (render : DateTime → String)

def expiryText : Option DateTime → String
  | none => "never"
  | some time => render time

namespace TokenHead
variable (head : TokenHead)

def line (secret : List Char) : List Char :=
  head.id.toList ++ ':' ::
    (head.scope.name.toList ++ ':' :: ((expiryText render head.expiresAt).toList ++ ':' :: secret))

end TokenHead

namespace TokenEntry
variable (entry : TokenEntry)

def line : List Char := entry.toTokenHead.line render entry.secret.toList

def record : TokenRecord :=
  ⟨entry.id, entry.id, entry.scope, entry.expiresAt, false, entry.secret.toUTF8.toList⟩

end TokenEntry

/-- The lines of a file: entries in their order, and lines that say nothing. White space around a
line, as the carriage return of a line end, is not part of it. -/
inductive Written : List (List Char) → List TokenEntry → Prop
  | done : Written [] []
  | skip {line : List Char} {lines : List (List Char)} {entries : List TokenEntry} :
      '\n' ∉ line → trim line = [] ∨ (trim line).head? = some '#' → Written lines entries →
      Written (line :: lines) entries
  | entry {line : List Char} {lines : List (List Char)} {entries : List TokenEntry}
      (entry : TokenEntry) : '\n' ∉ line → trim line = trim (entry.line render) →
      Written lines entries → Written (line :: lines) (entry :: entries)

/-- The text of a file with the given lines. -/
def fileText (lines : List (List Char)) : String := String.ofList (['\n'].intercalate lines)

end Writing

/-! ## Reading it back -/

section Reading
variable {source : TokenSource} {render : DateTime → String}

theorem scope_parse_name (scope : TokenScope) : TokenScope.parse scope.name.toList = some scope := by
  cases scope <;> decide +kernel

theorem colon_notMem_name (scope : TokenScope) : ':' ∉ scope.name.toList := by
  cases scope <;> decide

theorem colon_dark : isWhiteSpace ':' = false := by decide

/-- A line that is cut at the colons of its id, of its scope and of its secret. -/
theorem parseTokenLine_parts {id expiry secret : List Char} {scope : TokenScope}
    (hid : ':' ∉ id) (hsecret : ':' ∉ secret) :
    parseTokenLine source
        (id ++ ':' :: (scope.name.toList ++ ':' :: (expiry ++ ':' :: secret))) =
      (parseExpiry source expiry).bind fun expiresAt =>
        if secret = [] then .error s!"secret must not be empty; expected {tokenLineHelp}"
        else (TokenRecord.new (String.ofList (trim id)) (String.ofList (trim id)) scope expiresAt
          (String.ofList secret).toUTF8.toList).mapError ControlPlaneError.display := by
  unfold parseTokenLine
  rw [splitColon_append _ hid]
  dsimp only [Option.map_some]
  rw [splitColon_append _ (colon_notMem_name scope)]
  dsimp only
  rw [rsplitColon_append expiry hsecret]
  dsimp only
  rw [scope_parse_name]
  rfl

namespace TokenHead
variable (head : TokenHead)

theorem startsDark_id : StartsDark head.id.toList := by
  rw [← head.id_trimmed]
  exact startsDark_trim _

/-- Up to the colon before the secret a line is taken as it is. -/
theorem trim_line (secret : List Char) :
    trim (head.line render secret) = head.line render (trimEnd secret) := by
  have hsplit : ∀ secret, head.line render secret =
      (head.id.toList ++ ':' :: (head.scope.name.toList ++ ':' ::
        (expiryText render head.expiresAt).toList)) ++ ':' :: secret := by
    intro secret
    unfold line
    simp only [List.append_assoc, List.cons_append]
  rw [hsplit, hsplit, trim_append_cons secret
    (startsDark_append_cons head.startsDark_id colon_dark) colon_dark]

/-- A line is neither blank nor a comment. -/
theorem line_speaks (secret : List Char) :
    ¬(head.line render secret = [] ∨ (head.line render secret).head? = some '#') := by
  unfold line
  cases hid : head.id.toList with
  | nil => exact absurd hid head.id_nonempty
  | cons c rest =>
    have hcomment := head.id_comment
    rw [hid] at hcomment
    rintro (hnil | hhash)
    · cases hnil
    · exact hcomment hhash

end TokenHead

theorem parseExpiry_text (hformat : TimeFormat source render) (expiresAt : Option DateTime) :
    parseExpiry source (expiryText render expiresAt).toList = .ok expiresAt := by
  unfold parseExpiry
  cases expiresAt with
  | none =>
    have hnever : trim "never".toList = "never".toList := by decide +kernel
    rw [expiryText, if_pos hnever]
  | some time =>
    have htrim : trim (expiryText render (some time)).toList = (render time).toList :=
      trim_of_spaceless (hformat.spaceless time)
    have hdiffers : (render time).toList ≠ "never".toList := by
      intro hsame
      have hparse := hformat.parse_render time
      rw [String.toList_inj.mp hsame, ← String.append_empty (s := "never"),
        hformat.never ""] at hparse
      cases hparse
    rw [htrim, if_neg hdiffers, String.ofList_toList]
    dsimp only
    rw [hformat.parse_render time]

/-- An expiry that a part of the secret has slipped into is none. -/
theorem parseExpiry_extended (hformat : TimeFormat source render) (expiresAt : Option DateTime)
    (more : List Char) :
    ∃ e, parseExpiry source ((expiryText render expiresAt).toList ++ ':' :: more) = .error e := by
  have hstart : StartsDark (expiryText render expiresAt).toList := by
    cases expiresAt with
    | none =>
      intro c hc
      have hfirst : "never".toList.head? = some 'n' := by decide
      rw [expiryText, hfirst] at hc
      obtain rfl := Option.some.inj hc
      decide
    | some time => exact fun c hc => hformat.spaceless time c (List.mem_of_mem_head? hc)
  unfold parseExpiry
  rw [trim_append_cons more hstart colon_dark]
  have hdiffers : (expiryText render expiresAt).toList ++ ':' :: trimEnd more ≠
      "never".toList := by
    intro hsame
    have hcolon : ':' ∈ "never".toList := by
      rw [← hsame]
      exact List.mem_append_right _ List.mem_cons_self
    exact absurd hcolon (by decide)
  have htext : String.ofList ((expiryText render expiresAt).toList ++ ':' :: trimEnd more) =
      expiryText render expiresAt ++ ":" ++ String.ofList (trimEnd more) := by
    apply String.toList_inj.mp
    simp
  rw [if_neg hdiffers, htext]
  have hnone : source.parseTime (expiryText render expiresAt ++ ":" ++
      String.ofList (trimEnd more)) = none := by
    cases expiresAt with
    | none =>
      have h := hformat.never (":" ++ String.ofList (trimEnd more))
      rwa [← String.append_assoc] at h
    | some time =>
      exact hformat.final _ _ (by rw [expiryText, hformat.parse_render time]; rfl)
  dsimp only
  rw [hnone]
  exact ⟨_, rfl⟩

theorem TokenEntry.parse_line (hformat : TimeFormat source render) (entry : TokenEntry) :
    parseTokenLine source (trim (entry.line render)) = .ok entry.record := by
  have hend : trimEnd entry.secret.toList = entry.secret.toList := by
    rw [← entry.secret_trimmed, trimEnd_trim]
  have hlong := entry.secret_long
  have hnonempty : entry.secret.toList ≠ [] := by
    intro hnil
    have hempty : entry.secret = "" := String.toList_inj.mp hnil
    rw [hempty] at hlong
    exact absurd hlong (by decide +kernel)
  have hblank : isBlank entry.id.toList = false := by
    cases hid : entry.id.toList with
    | nil => exact absurd hid entry.id_nonempty
    | cons c rest =>
      have hc : isWhiteSpace c = false := entry.toTokenHead.startsDark_id c (by rw [hid]; rfl)
      simp [isBlank, hc]
  rw [TokenEntry.line, entry.toTokenHead.trim_line, hend]
  unfold TokenHead.line
  rw [parseTokenLine_parts entry.id_colon entry.secret_colon,
    parseExpiry_text hformat entry.expiresAt]
  dsimp only [Except.bind]
  rw [if_neg hnonempty, entry.id_trimmed, String.ofList_toList, String.ofList_toList]
  unfold TokenRecord.new
  rw [hblank, if_neg Bool.false_ne_true, if_neg (Nat.not_lt.mpr hlong)]
  rfl

/-- A colon in the secret: what is cut off in front of it spoils the expiry. -/
theorem TokenHead.parse_line_colon (hformat : TimeFormat source render) (head : TokenHead)
    {secret : List Char} (hcolon : ':' ∈ secret) :
    ∃ e, parseTokenLine source (trim (head.line render secret)) = .error e := by
  obtain ⟨a, b, hsplit, hb⟩ := exists_last_colon (mem_trimEnd_of_dark hcolon colon_dark)
  obtain ⟨e, he⟩ := parseExpiry_extended hformat head.expiresAt a
  refine ⟨e, ?_⟩
  have hline : head.line render (trimEnd secret) =
      head.id.toList ++ ':' :: (head.scope.name.toList ++ ':' ::
        (((expiryText render head.expiresAt).toList ++ ':' :: a) ++ ':' :: b)) := by
    unfold TokenHead.line
    rw [hsplit]
    simp only [List.append_assoc, List.cons_append]
  rw [head.trim_line, hline, parseTokenLine_parts head.id_colon hb, he]
  rfl

theorem parseTokenLines_cons {n : ℕ} {line : List Char} {lines : List (List Char)}
    {head : TokenHead} {secret : List Char} (hline : trim line = trim (head.line render secret)) :
    parseTokenLines source n (line :: lines) =
      ((parseTokenLine source (trim line)).mapError fun e =>
        ControlPlaneError.config s!"token entry {n}: {e}").bind fun record =>
          (parseTokenLines source (n + 1) lines).map (record :: ·) := by
  have hspeaks : ¬(trim line = [] ∨ (trim line).head? = some '#') := by
    rw [hline, head.trim_line]
    exact head.line_speaks _
  conv_lhs => unfold parseTokenLines
  dsimp only
  rw [if_neg hspeaks]
  cases parseTokenLine source (trim line) with
  | error e => rfl
  | ok record => rfl

theorem parseTokenLines_written (hformat : TimeFormat source render) {lines : List (List Char)}
    {entries : List TokenEntry} (h : Written render lines entries) (n : ℕ) :
    parseTokenLines source n lines = .ok (entries.map TokenEntry.record) := by
  induction h generalizing n with
  | done => rfl
  | skip _ hskip _ ih =>
    unfold parseTokenLines
    dsimp only
    rw [if_pos hskip]
    exact ih (n + 1)
  | entry entry _ hline _ ih =>
    rw [parseTokenLines_cons hline, hline, entry.parse_line hformat, ih (n + 1)]
    rfl

/-- One line that is refused refuses the file. -/
theorem parseTokenLines_colon (hformat : TimeFormat source render) {head : TokenHead}
    {secret line : List Char} (hcolon : ':' ∈ secret)
    (hline : trim line = trim (head.line render secret)) {lines : List (List Char)}
    (hmem : line ∈ lines) (n : ℕ) : ∃ e, parseTokenLines source n lines = .error e := by
  induction lines generalizing n with
  | nil => cases hmem
  | cons first lines ih =>
    obtain rfl | hlater := List.mem_cons.mp hmem
    · obtain ⟨e, he⟩ := head.parse_line_colon hformat hcolon
      rw [parseTokenLines_cons hline, hline, he]
      exact ⟨_, rfl⟩
    · obtain ⟨e, he⟩ := ih hlater (n + 1)
      unfold parseTokenLines
      dsimp only
      rw [he]
      split_ifs
      · exact ⟨e, rfl⟩
      · split
        · exact ⟨_, rfl⟩
        · exact ⟨e, rfl⟩

theorem newline_notMem_of_written {lines : List (List Char)} {entries : List TokenEntry}
    (h : Written render lines entries) : ∀ line ∈ lines, '\n' ∉ line := by
  induction h with
  | done => exact fun _ hline => by cases hline
  | skip hnewline _ _ ih => exact List.forall_mem_cons.mpr ⟨hnewline, ih⟩
  | entry _ hnewline _ _ ih => exact List.forall_mem_cons.mpr ⟨hnewline, ih⟩

theorem splitOn_fileText {lines : List (List Char)} (hlines : ∀ line ∈ lines, '\n' ∉ line)
    (hnonempty : lines ≠ []) : (fileText lines).toList.splitOn '\n' = lines := by
  unfold fileText
  rw [String.toList_ofList, List.splitOn_intercalate '\n' hlines hnonempty]

theorem lines_ne_nil_of_written {lines : List (List Char)} {entries : List TokenEntry}
    (h : Written render lines entries) (hentries : entries ≠ []) : lines ≠ [] := by
  cases h with
  | done => exact absurd rfl hentries
  | skip => exact List.cons_ne_nil _ _
  | entry => exact List.cons_ne_nil _ _

theorem two_le_count_of_duplicateId {seen : List String} {records : List TokenRecord} {id : String}
    (h : duplicateId seen records = some id) :
    2 ≤ seen.count id + (records.map (·.id)).count id := by
  induction records generalizing seen with
  | nil => cases h
  | cons record records ih =>
    unfold duplicateId at h
    split_ifs at h with hseen
    · obtain rfl := Option.some.inj h
      have hfirst : 0 < seen.count record.id := List.count_pos_iff.mpr hseen
      rw [List.map_cons, List.count_cons_self]
      omega
    · have hlater := ih h
      rw [List.count_cons] at hlater
      rw [List.map_cons, List.count_cons]
      omega

theorem duplicateId_of_nodup {seen : List String} {records : List TokenRecord}
    (hids : (records.map (·.id)).Nodup) (hfresh : ∀ record ∈ records, record.id ∉ seen) :
    duplicateId seen records = none := by
  induction records generalizing seen with
  | nil => rfl
  | cons record records ih =>
    obtain ⟨hnew, hrest⟩ := List.nodup_cons.mp hids
    unfold duplicateId
    rw [if_neg (hfresh record List.mem_cons_self)]
    refine ih hrest fun other hother hmem => ?_
    obtain hsame | hseen := List.mem_cons.mp hmem
    · exact hnew (List.mem_map.mpr ⟨other, hother, hsame⟩)
    · exact hfresh other (List.mem_cons_of_mem record hother) hseen

theorem fromLines_of_written (hformat : TimeFormat source render) {lines : List (List Char)}
    {entries : List TokenEntry} (h : Written render lines entries) (hentries : entries ≠ []) :
    fromLines source (fileText lines) =
      (duplicateId [] (entries.map TokenEntry.record)).elim (.ok (entries.map TokenEntry.record))
        fun id => .error (.config s!"duplicate API token id '{id}'") := by
  have hlines := splitOn_fileText (newline_notMem_of_written h) (lines_ne_nil_of_written h hentries)
  unfold fromLines
  rw [hlines, parseTokenLines_written hformat h 1]
  cases entries with
  | nil => exact absurd rfl hentries
  | cons entry entries =>
    rw [List.map_cons]
    dsimp only
    cases duplicateId [] (entry.record :: entries.map TokenEntry.record) with
    | none => rfl
    | some id => rfl

/-- **The token file.** Where times are written and read back: from the lines of entries with
distinct ids, at least one, with blanks and comments between them, exactly their records are read, in
that order; a line whose secret holds a colon is refused, and with it its file; ids that are not
distinct are refused; and a reload that fails leaves the live set as it was. -/
theorem fromLines_grammar (source : TokenSource) (render : DateTime → String)
    (hformat : TimeFormat source render) :
    (∀ lines entries, Written render lines entries → entries ≠ [] →
      (entries.map fun entry => entry.id).Nodup →
      fromLines source (fileText lines) = .ok (entries.map TokenEntry.record)) ∧
    (∀ lines (line : List Char) (head : TokenHead) (secret : List Char),
      (∀ line ∈ lines, '\n' ∉ line) → line ∈ lines →
      trim line = trim (head.line render secret) → ':' ∈ secret →
      (∃ e, parseTokenLine source (trim line) = .error e) ∧
      ∃ e, fromLines source (fileText lines) = .error e) ∧
    (∀ lines entries, Written render lines entries →
      ¬(entries.map fun entry => entry.id).Nodup →
      ∃ id, 2 ≤ (entries.map fun entry => entry.id).count id ∧
        fromLines source (fileText lines) = .error (.config s!"duplicate API token id '{id}'")) ∧
    ∀ (store : TokenStore) lookup e, (store.reload source lookup).2 = .error e →
      (store.reload source lookup).1 = store := by
  have hids : ∀ entries : List TokenEntry,
      (entries.map TokenEntry.record).map (·.id) = entries.map fun entry => entry.id := by
    intro entries
    rw [List.map_map]
    rfl
  refine ⟨fun lines entries h hentries hdistinct => ?_,
    fun lines line head secret hlines hmem hline hcolon => ⟨?_, ?_⟩,
    fun lines entries h hrepeat => ?_, fun store lookup e hfailed => ?_⟩
  · rw [fromLines_of_written hformat h hentries,
      duplicateId_of_nodup ((hids entries).symm ▸ hdistinct) fun _ _ hseen => by cases hseen]
    rfl
  · rw [hline]
    exact head.parse_line_colon hformat hcolon
  · obtain ⟨e, he⟩ := parseTokenLines_colon hformat hcolon hline hmem 1
    unfold fromLines
    rw [splitOn_fileText hlines (List.ne_nil_of_mem hmem), he]
    exact ⟨e, rfl⟩
  · have hentries : entries ≠ [] := by
      rintro rfl
      exact hrepeat List.nodup_nil
    rw [fromLines_of_written hformat h hentries]
    cases hfirst : duplicateId [] (entries.map TokenEntry.record) with
    | none => exact absurd ((hids entries) ▸ (duplicateId_eq_none hfirst).1) hrepeat
    | some id =>
      have hcount := two_le_count_of_duplicateId hfirst
      rw [hids, List.count_nil, Nat.zero_add] at hcount
      exact ⟨id, hcount, rfl⟩
  · unfold TokenStore.reload at hfailed ⊢
    split at hfailed
    · rfl
    · cases hfailed

end Reading

/-! ### Two tokens -/

/-- Midnight of the first of July 2026. -/
def midsummer : DateTime := 1782864000 * nanosPerSecond

def midsummerText : String := "2026-07-01T00:00:00+00:00"

/-- One timestamp as `chrono` writes it; all other instants are tallied. -/
def tallyText (time : DateTime) : String :=
  if time = midsummer then midsummerText
  else String.ofList (List.replicate time.natAbs (if 0 ≤ time then '+' else '-'))

def tallySource : TokenSource where
  parseTime := fun text =>
    if text = midsummerText then some midsummer
    else if text.toList.all (· == '+') then some text.toList.length
    else if text.toList.all (· == '-') then some (-(text.toList.length : ℤ))
    else none
  readFile := fun _ => .error "No such file or directory (os error 2)"

theorem tallySource_none {text : String} {c : Char} (hc : c ∈ text.toList) (hplus : c ≠ '+')
    (hminus : c ≠ '-') (hstamp : text ≠ midsummerText) : tallySource.parseTime text = none := by
  have hnot : ∀ sign, c ≠ sign → text.toList.all (· == sign) = false := by
    intro sign hsign
    refine List.all_eq_false.mpr ⟨c, hc, ?_⟩
    simpa using hsign
  unfold tallySource
  dsimp only
  rw [if_neg hstamp, hnot '+' hplus, hnot '-' hminus]
  rfl

theorem tallyFormat : TimeFormat tallySource tallyText where
  parse_render := by
    intro time
    by_cases hstamp : time = midsummer
    · rw [hstamp]
      decide +kernel
    · have hdiffers : ∀ n sign, String.ofList (List.replicate n sign) ≠ midsummerText := by
        intro n sign hsame
        have hchars := congrArg String.toList hsame
        rw [String.toList_ofList] at hchars
        have htwo : '2' ∈ List.replicate n sign := by
          rw [hchars]
          decide
        have hzero : '0' ∈ List.replicate n sign := by
          rw [hchars]
          decide
        exact absurd ((List.eq_of_mem_replicate htwo).trans (List.eq_of_mem_replicate hzero).symm)
          (by decide)
      unfold tallyText tallySource
      rw [if_neg hstamp]
      dsimp only
      rw [if_neg (hdiffers _ _), String.toList_ofList]
      by_cases hpos : 0 ≤ time
      · rw [if_pos hpos]
        simp [hpos]
      · have hneg : time < 0 := not_le.mp hpos
        rw [if_neg hpos]
        simp [hneg.ne, abs_of_neg hneg]
  spaceless := by
    intro time c hc
    unfold tallyText at hc
    split_ifs at hc with hstamp hpos
    · have hall : (midsummerText.toList.all fun c => !isWhiteSpace c) = true := by decide +kernel
      simpa using List.all_eq_true.mp hall c hc
    · rw [String.toList_ofList] at hc
      rw [List.eq_of_mem_replicate hc]
      decide
    · rw [String.toList_ofList] at hc
      rw [List.eq_of_mem_replicate hc]
      decide
  final := by
    intro text more haccepted
    refine tallySource_none (c := ':') (by simp) (by decide) (by decide) fun hsame => ?_
    have hchars : text.toList ++ ':' :: more.toList = midsummerText.toList := by
      rw [← hsame]
      simp
    have hfirst : midsummerText.toList.head? = some '2' := by decide
    cases htext : text.toList with
    | nil =>
      rw [htext] at hchars
      rw [← hchars] at hfirst
      exact absurd hfirst (by simp)
    | cons c rest =>
      rw [htext] at hchars
      rw [← hchars] at hfirst
      obtain rfl := Option.some.inj hfirst
      have hnone := tallySource_none (htext ▸ List.mem_cons_self) (by decide) (by decide)
        fun hstamp => ?_
      · rw [hnone] at haccepted
        cases haccepted
      · have hlength := congrArg List.length hchars
        rw [← htext, hstamp, List.length_append, List.length_cons] at hlength
        omega
  never := by
    intro more
    refine tallySource_none (c := 'n') (by simp) (by decide) (by decide) fun hsame => ?_
    have hfirst : ("never".toList ++ more.toList).head? = midsummerText.toList.head? := by
      rw [← hsame, String.toList_append]
    have hstamp : midsummerText.toList.head? = some '2' := by decide
    rw [hstamp] at hfirst
    exact absurd (Option.some.inj hfirst) (by decide)

def opsEntry : TokenEntry where
  id := "ops"
  scope := .human
  expiresAt := none
  id_trimmed := by decide +kernel
  id_nonempty := by decide
  id_colon := by decide
  id_newline := by decide
  id_comment := by decide
  secret := "human-token-0001"
  secret_trimmed := by decide +kernel
  secret_colon := by decide
  secret_newline := by decide
  secret_long := by decide +kernel

def ciEntry : TokenEntry where
  id := "ci"
  scope := .agent
  expiresAt := some midsummer
  id_trimmed := by decide +kernel
  id_nonempty := by decide
  id_colon := by decide
  id_newline := by decide
  id_comment := by decide
  secret := "agent-token-0001"
  secret_trimmed := by decide +kernel
  secret_colon := by decide
  secret_newline := by decide
  secret_long := by decide +kernel

def twoTokens : List (List Char) :=
  ["# tokens".toList, "ops:human:never:human-token-0001\r".toList, [],
    "ci:agent:2026-07-01T00:00:00+00:00:agent-token-0001".toList]

theorem written_twoTokens : Written tallyText twoTokens [opsEntry, ciEntry] := by
  refine .skip (by decide) (.inr (by decide +kernel)) ?_
  refine .entry opsEntry (by decide) (by decide +kernel) ?_
  refine .skip (by decide) (.inl (by decide)) ?_
  exact .entry ciEntry (by decide) (by decide +kernel) .done

/-- Two tokens are read; a secret with a colon, a repeated id and a reload of such a file are
refused. -/
theorem fromLines_grammar_twoTokens :
    fromLines tallySource (fileText twoTokens) = .ok [opsEntry.record, ciEntry.record] ∧
    (∃ e, fromLines tallySource (fileText
      (twoTokens ++ ["ci:agent:2026-07-01T00:00:00+00:00:agent:token-0001".toList])) = .error e) ∧
    (∃ id : String,
      fromLines tallySource (fileText [opsEntry.line tallyText, opsEntry.line tallyText]) =
        .error (.config s!"duplicate API token id '{id}'")) ∧
    (opsStore.reload tallySource (inlineTokens "ops:human:never:human:token-0001")).1 =
      opsStore := by
  obtain ⟨hread, hcolon, hrepeat, hreload⟩ := fromLines_grammar tallySource tallyText tallyFormat
  refine ⟨hread _ _ written_twoTokens (List.cons_ne_nil _ _) (by decide), ?_, ?_, ?_⟩
  · refine (hcolon _ "ci:agent:2026-07-01T00:00:00+00:00:agent:token-0001".toList
      ciEntry.toTokenHead "agent:token-0001".toList ?_ (by decide) (by decide +kernel)
      (by decide)).2
    intro line hline
    have hall : ((twoTokens ++ ["ci:agent:2026-07-01T00:00:00+00:00:agent:token-0001".toList]).all
        fun line => !line.contains '\n') = true := by decide
    simpa using List.all_eq_true.mp hall line hline
  · have hline : '\n' ∉ opsEntry.line tallyText := by decide
    obtain ⟨id, -, hid⟩ := hrepeat _ [opsEntry, opsEntry]
      (.entry opsEntry hline rfl (.entry opsEntry hline rfl .done)) (by decide)
    exact ⟨id, hid⟩
  · refine hreload opsStore _ (.config ("token entry 1: expiry must be RFC3339 or 'never'; " ++
      "got 'never:human' (note: secrets must not contain ':')")) ?_
    decide +kernel

/-- A file without entries is refused, and not read as the empty list. -/
theorem no_entries_refused :
    Written tallyText ["# tokens".toList] [] ∧
    fromLines tallySource (fileText ["# tokens".toList]) = .error (.config
      "no API tokens configured; provide LABRYS_API_TOKENS(_FILE) or LABRYS_API_TOKEN") := by
  exact ⟨.skip (by decide) (.inr (by decide +kernel)) .done, by decide +kernel⟩

end Labrys.ControlPlane
