import Labrys.ControlPlane.Api
import Labrys.Foundations.Runs

/-! # Rotating and revoking tokens

The live set of tokens is one list in memory: `revoke` marks a record in it, and `reload` puts what
the configuration says in its place, marks and all. `authenticate` stops at the first record that
has the presented secret.

* `fromLookup`: the set that a configuration describes.
* `distinct_run`: ids stay distinct.
* `revocation_final_exact`: when a revoked secret stays rejected. -/

namespace Labrys.ControlPlane
open Foundations Labrys.Core
set_option autoImplicit false

/-! ## Token lines -/

def minTokenLen : ℕ := 16

def tokenLineHelp : String :=
  "one '<id>:<scope>:<expiry>:<secret>' line per entry " ++
    "(scope agent|human, expiry RFC3339|never, no ':' in id or secret)"

def TokenScope.parse (raw : List Char) : Option TokenScope :=
  if trim raw = "human".toList then some .human
  else if trim raw = "agent".toList then some .agent
  else none

def TokenRecord.new (id identity : String) (scope : TokenScope) (expiresAt : Option DateTime)
    (secret : List UInt8) : Except ControlPlaneError TokenRecord :=
  if isBlank id.toList then .error (.config "API token id must not be empty")
  else if secret.length < minTokenLen then
    .error (.config s!"API token '{id}' must be at least {minTokenLen} characters")
  else .ok ⟨id, identity, scope, expiresAt, false, secret⟩

/-- `rsplit_once(':')`. -/
def rsplitColon (text : List Char) : Option (List Char × List Char) :=
  let tail := (text.reverse.takeWhile fun c => c ≠ ':').reverse
  if tail.length < text.length then some (text.take (text.length - (tail.length + 1)), tail)
  else none

/-- What a process reads tokens with: `chrono` and the file system. -/
structure TokenSource where
  parseTime : String → Option DateTime
  readFile : String → Except String String

section Parsing
variable (source : TokenSource)

def parseExpiry (raw : List Char) : Except String (Option DateTime) :=
  if trim raw = "never".toList then .ok none
  else
    let text := String.ofList (trim raw)
    match source.parseTime text with
    | some time => .ok (some time)
    | none => .error
        s!"expiry must be RFC3339 or 'never'; got '{text}' (note: secrets must not contain ':')"

/-- The expiry holds colons itself: id and scope are split off from the left, the secret from the
right. -/
def parseTokenLine (line : List Char) : Except String TokenRecord :=
  match (splitColon line).2.map splitColon with
  | some (scope, some rest) =>
      match rsplitColon rest with
      | none => .error s!"expected {tokenLineHelp}"
      | some (expiry, secret) => do
          let scope ← match TokenScope.parse scope with
            | some scope => .ok scope
            | none => .error s!"scope must be 'agent' or 'human'; expected {tokenLineHelp}"
          let expiresAt ← parseExpiry source expiry
          if secret = [] then .error s!"secret must not be empty; expected {tokenLineHelp}"
          else
            let id := String.ofList (trim (splitColon line).1)
            (TokenRecord.new id id scope expiresAt (String.ofList secret).toUTF8.toList).mapError
              ControlPlaneError.display
  | _ => .error s!"expected {tokenLineHelp}"

/-- The records of the lines from number `n` on; blank lines and comments are passed over. -/
def parseTokenLines : ℕ → List (List Char) → Except ControlPlaneError (List TokenRecord)
  | _, [] => .ok []
  | n, line :: lines =>
      let line := trim line
      if line = [] ∨ line.head? = some '#' then parseTokenLines (n + 1) lines
      else
        match parseTokenLine source line with
        | .error e => .error (.config s!"token entry {n}: {e}")
        | .ok record => (parseTokenLines (n + 1) lines).map (record :: ·)

/-- The first id that occurs again. -/
def duplicateId : List String → List TokenRecord → Option String
  | _, [] => none
  | seen, record :: records =>
      if record.id ∈ seen then some record.id else duplicateId (record.id :: seen) records

/-- `from_lines`. Lines are trimmed, so where a carriage return belongs makes no difference. -/
def fromLines (raw : String) : Except ControlPlaneError (List TokenRecord) :=
  match parseTokenLines source 1 (raw.toList.splitOn '\n') with
  | .error e => .error e
  | .ok [] => .error (.config
      "no API tokens configured; provide LABRYS_API_TOKENS(_FILE) or LABRYS_API_TOKEN")
  | .ok (record :: records) =>
      match duplicateId [] (record :: records) with
      | some id => .error (.config s!"duplicate API token id '{id}'")
      | none => .ok (record :: records)

def bootstrap (secret : String) : Except ControlPlaneError (List TokenRecord) :=
  (TokenRecord.new "bootstrap" "bootstrap-operator" .human none secret.toUTF8.toList).map ([·])

def fromLookup (lookup : String → Option String) : Except ControlPlaneError (List TokenRecord) :=
  match lookup "LABRYS_API_TOKENS_FILE" with
  | some path =>
      match source.readFile (String.ofList (trim path.toList)) with
      | .error e => .error (.config (s!"cannot read LABRYS_API_TOKENS_FILE: {e}; " ++
          "check the path and permissions, then retry"))
      | .ok raw => fromLines source raw
  | none =>
      match lookup "LABRYS_API_TOKENS" with
      | some raw => fromLines source raw
      | none =>
          let secret := (lookup "LABRYS_API_TOKEN").getD ""
          if isBlank secret.toList then
            .error (.config "API token is required (LABRYS_API_TOKEN)")
          else bootstrap secret

end Parsing

/-! ## The live set -/

namespace TokenStore

/-- `revoke`, with whether a record was marked. -/
def revoke (store : TokenStore) (id : String) : TokenStore × Bool :=
  ({ store with tokens := store.tokens.map fun record =>
      if record.id = id then { record with revoked := true } else record },
    store.tokens.any fun record => decide (record.id = id) && !record.revoked)

/-- `reload`: a configuration that cannot be loaded changes nothing. -/
def reload (source : TokenSource) (store : TokenStore) (lookup : String → Option String) :
    TokenStore × Except ControlPlaneError ℕ :=
  match fromLookup source lookup with
  | .error e => (store, .error e)
  | .ok records => ({ store with tokens := records }, .ok records.length)

def Distinct (store : TokenStore) : Prop := (store.tokens.map (·.id)).Nodup

/-- Whatever the time, `authenticate` refuses what is presented. -/
def Rejects (store : TokenStore) (presented : String) : Prop :=
  ∀ now token, store.authenticate presented now ≠ .ok token

end TokenStore

inductive TokenOp
  | revoke (id : String)
  | reload (lookup : String → Option String)

inductive TokenAnswer
  | marked (marked : Bool)
  | loaded (result : Except ControlPlaneError ℕ)

def tokenMachine (source : TokenSource) : Machine TokenStore TokenOp TokenAnswer where
  step := fun store op => match op with
    | .revoke id => answered .marked (store.revoke id)
    | .reload lookup => answered .loaded (store.reload source lookup)

section Histories
variable {source : TokenSource} {store : TokenStore}

theorem duplicateId_eq_none {seen : List String} {records : List TokenRecord}
    (h : duplicateId seen records = none) :
    (records.map (·.id)).Nodup ∧ ∀ record ∈ records, record.id ∉ seen := by
  induction records generalizing seen with
  | nil => exact ⟨List.nodup_nil, fun _ hrecord => by cases hrecord⟩
  | cons record records ih =>
    unfold duplicateId at h
    split_ifs at h with hseen
    obtain ⟨hnodup, hfresh⟩ := ih h
    refine ⟨List.nodup_cons.mpr ⟨fun hmem => ?_, hnodup⟩, fun other hother => ?_⟩
    · obtain ⟨other, hother, hid⟩ := List.mem_map.mp hmem
      exact hfresh other hother (hid ▸ List.mem_cons_self)
    · obtain rfl | hother := List.mem_cons.mp hother
      · exact hseen
      · exact fun hmem => hfresh other hother (List.mem_cons_of_mem record.id hmem)

theorem TokenRecord.new_ok {id identity : String} {scope : TokenScope}
    {expiresAt : Option DateTime} {secret : List UInt8} {record : TokenRecord}
    (h : TokenRecord.new id identity scope expiresAt secret = .ok record) :
    record.revoked = false := by
  unfold TokenRecord.new at h
  split_ifs at h
  obtain rfl := Except.ok.inj h
  rfl

theorem parseTokenLine_ok {line : List Char} {record : TokenRecord}
    (h : parseTokenLine source line = .ok record) : record.revoked = false := by
  unfold parseTokenLine at h
  split at h
  · next rawScope rest hshape =>
    split at h
    · cases h
    · next expiry secret hsplit =>
      cases hscope : TokenScope.parse rawScope with
      | none => rw [hscope] at h; cases h
      | some scope =>
      cases hexpiry : parseExpiry source expiry with
      | error e => rw [hscope, hexpiry] at h; cases h
      | ok expiresAt =>
        rw [hscope, hexpiry] at h
        change (if secret = [] then _ else _) = Except.ok record at h
        split_ifs at h
        cases hnew : TokenRecord.new (String.ofList (trim (splitColon line).1))
            (String.ofList (trim (splitColon line).1)) scope expiresAt
            (String.ofList secret).toUTF8.toList with
        | error e => rw [hnew] at h; cases h
        | ok fresh =>
          rw [hnew] at h
          obtain rfl := Except.ok.inj h
          exact TokenRecord.new_ok hnew
  · cases h

theorem parseTokenLines_ok {n : ℕ} {lines : List (List Char)} {records : List TokenRecord}
    (h : parseTokenLines source n lines = .ok records) :
    ∀ record ∈ records, record.revoked = false := by
  induction lines generalizing n records with
  | nil =>
    obtain rfl := Except.ok.inj h
    exact fun _ hrecord => by cases hrecord
  | cons line lines ih =>
    unfold parseTokenLines at h
    dsimp only at h
    split_ifs at h with hskip
    · exact ih h
    · split at h
      · cases h
      · next record hline =>
        cases hrest : parseTokenLines source (n + 1) lines with
        | error e => rw [hrest] at h; cases h
        | ok rest =>
          rw [hrest] at h
          obtain rfl := Except.ok.inj h
          intro other hother
          obtain rfl | hother := List.mem_cons.mp hother
          · exact parseTokenLine_ok hline
          · exact ih hrest other hother

/-- What a configuration describes: distinct ids, and nothing revoked. -/
theorem fromLookup_ok {lookup : String → Option String} {records : List TokenRecord}
    (h : fromLookup source lookup = .ok records) :
    (records.map (·.id)).Nodup ∧ ∀ record ∈ records, record.revoked = false := by
  have hlines : ∀ raw, fromLines source raw = .ok records →
      (records.map (·.id)).Nodup ∧ ∀ record ∈ records, record.revoked = false := by
    intro raw hraw
    unfold fromLines at hraw
    split at hraw
    · cases hraw
    · cases hraw
    · next record rest hparse =>
      split at hraw
      · cases hraw
      · next hunique =>
        obtain rfl := Except.ok.inj hraw
        exact ⟨(duplicateId_eq_none hunique).1, parseTokenLines_ok hparse⟩
  unfold fromLookup at h
  split at h
  · split at h
    · cases h
    · exact hlines _ h
  · split at h
    · exact hlines _ h
    · dsimp only at h
      split_ifs at h
      unfold bootstrap at h
      obtain ⟨record, hnew, h⟩ := except_bind_eq_ok h
      obtain rfl := Except.ok.inj h
      exact ⟨List.nodup_singleton _, fun other hother =>
        List.mem_singleton.mp hother ▸ TokenRecord.new_ok hnew⟩

/-! ## What is rejected -/

theorem rejects_iff {presented : String} :
    store.Rejects presented ↔
      ∀ record, store.find presented = some record → record.revoked = true := by
  constructor
  · intro h record hfound
    by_contra hlive
    -- Before its expiry an unrevoked record is accepted.
    have hearly : ∃ now, (record.expiresAt.any fun expires => decide (expires ≤ now)) = false := by
      cases record.expiresAt with
      | none => exact ⟨0, rfl⟩
      | some expires => exact ⟨expires - 1, by simp⟩
    obtain ⟨now, hnow⟩ := hearly
    refine h now ⟨record.id, record.identity, record.scope⟩ ?_
    unfold TokenStore.authenticate
    rw [hfound]
    dsimp only
    rw [if_neg hlive, hnow, if_neg Bool.false_ne_true]
  · intro h now token hok
    obtain ⟨record, ⟨hfound, hlive, -⟩, -⟩ := store.authenticate_ok hok
    rw [h record hfound] at hlive
    cases hlive

/-- Revoking an id finds the same records, marked. -/
theorem find_revoke (id presented : String) :
    (store.revoke id).1.find presented = (store.find presented).map fun record =>
      if record.id = id then { record with revoked := true } else record := by
  unfold TokenStore.find TokenStore.revoke
  dsimp only
  rw [List.find?_map]
  congr 2
  funext record
  dsimp only [Function.comp]
  split_ifs <;> rfl

theorem rejects_revoke_iff {id presented : String} :
    (store.revoke id).1.Rejects presented ↔
      ∀ record, store.find presented = some record → record.id = id ∨ record.revoked = true := by
  rw [rejects_iff, find_revoke]
  cases store.find presented with
  | none => simp
  | some record =>
    simp only [Option.map_some, Option.some.injEq, forall_eq']
    split_ifs with hid
    · simp [hid]
    · simp [hid]


/-! ## Histories -/

theorem distinct_next (h : store.Distinct) (op : TokenOp) :
    ((tokenMachine source).next store op).Distinct := by
  cases op with
  | revoke id =>
    change ((store.tokens.map fun record =>
      if record.id = id then { record with revoked := true } else record).map (·.id)).Nodup
    have hids : (fun record : TokenRecord => record.id) ∘ (fun record =>
        if record.id = id then { record with revoked := true } else record) =
        fun record => record.id := by
      funext record
      dsimp only [Function.comp]
      split_ifs <;> rfl
    rw [List.map_map, hids]
    exact h
  | reload lookup =>
    change (store.reload source lookup).1.Distinct
    unfold TokenStore.reload
    split
    · exact h
    · next records hloaded => exact (fromLookup_ok hloaded).1

theorem distinct_run (h : store.Distinct) (ops : List TokenOp) :
    ((tokenMachine source).run store ops).Distinct :=
  (tokenMachine source).run_invariant_all (P := TokenStore.Distinct)
    (fun _ op hs => distinct_next hs op) store ops h

theorem sha256_next (op : TokenOp) :
    ((tokenMachine source).next store op).sha256 = store.sha256 := by
  cases op with
  | revoke id => rfl
  | reload lookup =>
    change (store.reload source lookup).1.sha256 = store.sha256
    unfold TokenStore.reload
    split <;> rfl

/-- The configuration of a reload, if it loads, has no record with the secret. -/
def LoadsWithout (source : TokenSource) (sha256 : List UInt8 → Vector UInt8 32)
    (presented : String) (op : TokenOp) : Prop :=
  ∀ lookup records, op = .reload lookup → fromLookup source lookup = .ok records →
    ∀ record ∈ records, sha256 record.secret ≠ sha256 presented.toUTF8.toList

/-- From a set that rejects a secret, the next one rejects it exactly if it was not loaded again. -/
theorem rejects_next_iff {presented : String} (h : store.Rejects presented) (op : TokenOp) :
    ((tokenMachine source).next store op).Rejects presented ↔
      LoadsWithout source store.sha256 presented op := by
  cases op with
  | revoke id =>
    refine iff_of_true (rejects_revoke_iff.mpr fun record hfound => ?_) fun _ _ hop => by cases hop
    exact .inr (rejects_iff.mp h record hfound)
  | reload lookup =>
    change (store.reload source lookup).1.Rejects presented ↔ _
    unfold TokenStore.reload
    cases hload : fromLookup source lookup with
    | error e =>
      refine iff_of_true h fun other records hop hok => ?_
      obtain rfl := TokenOp.reload.inj hop
      rw [hload] at hok
      cases hok
    | ok records =>
      obtain ⟨-, hlive⟩ := fromLookup_ok hload
      rw [rejects_iff]
      constructor
      · intro hall other found hop hok record hrecord hsame
        obtain rfl := TokenOp.reload.inj hop
        obtain rfl := Except.ok.inj (hload.symm.trans hok)
        -- The first record with the secret is fresh from the configuration.
        cases hfound : records.find? (fun record =>
            decide (store.sha256 record.secret = store.sha256 presented.toUTF8.toList)) with
        | none =>
          have hnone := List.find?_eq_none.mp hfound record hrecord
          exact hnone (decide_eq_true hsame)
        | some first =>
          have hrevoked := hall first hfound
          rw [hlive first (List.mem_of_find?_eq_some hfound)] at hrevoked
          cases hrevoked
      · intro hwithout record hfound
        change records.find? (fun record =>
          decide (store.sha256 record.secret = store.sha256 presented.toUTF8.toList)) =
            some record at hfound
        have hmatch : store.sha256 record.secret = store.sha256 presented.toUTF8.toList := by
          simpa using List.find?_some hfound
        exact absurd hmatch
          (hwithout lookup records rfl hload record (List.mem_of_find?_eq_some hfound))

/-- **Revocation, exactly.** Along every history of revocations and reloads from a set with distinct
ids: once `revoke` was called for the id of a record, what is presented (its secret, or any text) is
rejected in every later state exactly if the first record that answers to it was then that one or a
revoked one, and no later configuration that loads has a record that answers to it. -/
theorem revocation_final_exact (source : TokenSource) (store : TokenStore)
    (hdistinct : store.Distinct) (before after : List TokenOp) (record : TokenRecord)
    (hrecord : record ∈ ((tokenMachine source).run store before).tokens) (presented : String) :
    (∀ n, ((tokenMachine source).run store
        (before ++ .revoke record.id :: after.take n)).Rejects presented) ↔
      (∀ first, ((tokenMachine source).run store before).find presented = some first →
        first = record ∨ first.revoked = true) ∧
      ∀ op ∈ after, LoadsWithout source store.sha256 presented op := by
  set found := (tokenMachine source).run store before with hfound
  have hids : found.Distinct := distinct_run hdistinct before
  have hsha : found.sha256 = store.sha256 :=
    (tokenMachine source).run_invariant_all (P := fun s => s.sha256 = store.sha256)
      (fun _ op hs => (sha256_next op).trans hs) store before rfl
  have hrun : ∀ n, (tokenMachine source).run store (before ++ .revoke record.id :: after.take n) =
      (tokenMachine source).run (found.revoke record.id).1 (after.take n) := by
    intro n
    rw [Machine.run_append, ← hfound]
    rfl
  have hfirst : (found.revoke record.id).1.Rejects presented ↔
      ∀ first, found.find presented = some first → first = record ∨ first.revoked = true := by
    rw [rejects_revoke_iff]
    refine forall₂_congr fun first hfind => or_congr_left ⟨fun hsame => ?_, fun h => h ▸ rfl⟩
    exact List.inj_on_of_nodup_map hids (List.mem_of_find?_eq_some hfind) hrecord hsame
  have hexact := fun hrejects => (tokenMachine source).forall_run_take_iff_guarded
    (H := fun _ _ => True) (G := fun _ op => LoadsWithout source store.sha256 presented op)
    (I := fun s => s.Rejects presented ∧ s.sha256 = store.sha256)
    (P := fun s => s.Rejects presented) (fun s hs => hs.1)
    (fun s op hs _ hwithout =>
      ⟨(rejects_next_iff hs.1 op).mpr (hs.2 ▸ hwithout), (sha256_next op).trans hs.2⟩)
    (fun s op hs _ hnext => hs.2 ▸ (rejects_next_iff hs.1 op).mp hnext)
    (found.revoke record.id).1 after ⟨hrejects, hsha⟩ ((tokenMachine source).guarded_true _ _)
  rw [← hfirst, ← Machine.guarded_iff_forall (tokenMachine source) (found.revoke record.id).1]
  constructor
  · intro hall
    have hrejects : (found.revoke record.id).1.Rejects presented := by
      have hnow := hall 0
      rwa [hrun] at hnow
    refine ⟨hrejects, (hexact hrejects).mp fun n => ?_⟩
    rw [← hrun]
    exact hall n
  · rintro ⟨hrejects, hwithout⟩ n
    rw [hrun]
    exact (hexact hrejects).mpr hwithout n

end Histories

/-! ### One token, configured inline -/

def plainSource : TokenSource where
  parseTime := fun _ => none
  readFile := fun _ => .error "No such file or directory (os error 2)"

def inlineTokens (lines : String) (name : String) : Option String :=
  if name = "LABRYS_API_TOKENS" then some lines else none

def opsLine : String := "ops:human:never:human-token-0001"

def opsRecord : TokenRecord :=
  ⟨"ops", "ops", .human, none, false, "human-token-0001".toUTF8.toList⟩

def opsStore : TokenStore := ⟨smallTokens.sha256, [opsRecord]⟩

/-- A token is revoked and then rotated out. -/
theorem revocation_final_exact_rotated :
    let rotated := inlineTokens "next:human:never:human-token-0002"
    opsRecord ∈ opsStore.tokens ∧ (opsStore.revoke "ops").2 = true ∧
      ∀ n, ((tokenMachine plainSource).run opsStore
        ([] ++ .revoke "ops" :: [TokenOp.reload rotated].take n)).Rejects "human-token-0001" := by
  intro rotated
  have hrecord : opsRecord ∈ opsStore.tokens := List.mem_singleton_self opsRecord
  have hfirst : opsStore.find "human-token-0001" = some opsRecord := by decide +kernel
  have hloads : fromLookup plainSource rotated =
      .ok [⟨"next", "next", .human, none, false, "human-token-0002".toUTF8.toList⟩] := by
    decide +kernel
  refine ⟨hrecord, by decide +kernel, ?_⟩
  refine (revocation_final_exact plainSource opsStore (List.nodup_singleton _) [] _
    opsRecord hrecord _).mpr ⟨?_, ?_⟩
  · intro first hfind
    exact .inl (Option.some.inj (hfind.symm.trans hfirst))
  · intro op hop
    rw [List.mem_singleton.mp hop]
    intro lookup records hop hload
    cases hop
    rw [hloads] at hload
    cases hload
    decide +kernel

/-- A token is revoked, and the unchanged configuration is reloaded: it is accepted again. Of two ids
with one secret the second is revoked: it was never rejected. -/
theorem revoked_token_accepted :
    let unchanged := inlineTokens opsLine
    let shared : TokenStore := ⟨smallTokens.sha256, [opsRecord, { opsRecord with id := "spare" }]⟩
    fromLookup plainSource unchanged = .ok opsStore.tokens ∧
    (opsStore.revoke "ops").2 = true ∧
    ((tokenMachine plainSource).run opsStore [.revoke "ops", .reload unchanged]).authenticate
      "human-token-0001" 0 = .ok ⟨"ops", "ops", .human⟩ ∧
    (shared.revoke "spare").2 = true ∧
    (shared.revoke "spare").1.authenticate "human-token-0001" 0 = .ok ⟨"ops", "ops", .human⟩ := by
  decide +kernel

end Labrys.ControlPlane
