import Labrys.ControlPlane.EventTable
import Labrys.Core.Retention

/-! # The evidence table and its retention

`PgEvidenceStore` keeps a record of evidence in a row. Its `retain` reads all rows in the order of
their times, lets the store in memory choose what goes, and deletes the chosen ids in a transaction
of its own: between the reading and the deleting other callers append and retain. How a database
orders rows of one time is a parameter.

* `insertEvidence`, `evidenceFromRow`: a record to its row and back.
* `evidenceTable`: appends and the two halves of every `retain`, in any interleaving.
* `evidence_retained`: where every row is from, which rows may be gone, and that a `retain` without
  others in between is the one of the store in memory. -/

namespace Labrys.ControlPlane
open Foundations Labrys.Core
set_option autoImplicit false

/-! ## Rows -/

def eventResourceValue (resource : EventResource) : Json :=
  .object [("kind", .string resource.kind), ("id", .string resource.id)]

/-- A structure is read by name, with no other member, or from its fields in their order. -/
def readEventResource (json : Json) : Option EventResource := do
  let fields ← variantFields ["kind", "id"] (some json)
  match fields with
  | [kind, id] => return ⟨← kind.asStr, ← id.asStr⟩
  | _ => none

theorem readEventResource_value (resource : EventResource) :
    readEventResource (eventResourceValue resource) = some resource := by
  simp [readEventResource, eventResourceValue, variantFields, Json.get, Json.asStr]

def stageFromName (name : String) : Except ReadError VerifierStage :=
  match name with
  | "deterministic" => .ok .deterministic
  | "build_test" => .ok .buildTest
  | "health" => .ok .health
  | "schema" => .ok .schema
  | "browser" => .ok .browser
  | "advisory" => .ok .advisory
  | "human" => .ok .human
  | other => .error (.mapping s!"unknown verifier stage {other}")

/-- The columns of a row of `evidence`. -/
structure EvidenceColumns where
  id : String
  stage : String
  checkName : String
  passed : Bool
  summary : String
  resource : Option Json
  recovery : Option String
  time : DateTime
deriving DecidableEq

def EvidenceColumns.storable (row : EvidenceColumns) : Bool :=
  ([row.id, row.stage, row.checkName, row.summary] ++ row.recovery.toList).all storableText &&
    row.resource.toList.all storableJson

def evidenceColumns (evidence : VerificationEvidence) : EvidenceColumns where
  id := evidence.id
  stage := evidence.stage.canonicalName
  checkName := evidence.check
  passed := evidence.passed
  summary := evidence.summary
  resource := evidence.resource.map eventResourceValue
  recovery := evidence.recovery
  time := evidence.time

/-- The record that is kept: its summary redacted, at the time a column holds. -/
def keptEvidence (evidence : VerificationEvidence) (secrets : List String) :
    Except ControlPlaneError VerificationEvidence := do
  let summary ← redactGuard "evidence.summary" evidence.summary secrets
  let kept := { evidence with summary := summary, time := timestamptz evidence.time }
  if (evidenceColumns kept).storable then return kept else throw zeroByte

def evidenceFromRow (row : EvidenceColumns) : Except ReadError VerificationEvidence := do
  let stage ← stageFromName row.stage
  let resource ← match row.resource with
    | some value => some <$> jsonGet readEventResource value
    | none => pure none
  return ⟨row.id, stage, row.checkName, row.passed, row.summary, resource, row.recovery, row.time⟩

theorem evidenceFromRow_columns (evidence : VerificationEvidence) :
    evidenceFromRow (evidenceColumns evidence) = .ok evidence := by
  have hstage : stageFromName evidence.stage.canonicalName = .ok evidence.stage := by
    cases evidence.stage <;> rfl
  obtain ⟨id, stage, check, passed, summary, resource, recovery, time⟩ := evidence
  unfold evidenceFromRow evidenceColumns
  dsimp only at hstage ⊢
  rw [hstage]
  cases resource with
  | none => rfl
  | some resource =>
    have hresource : jsonGet readEventResource (eventResourceValue resource) = .ok resource := by
      rw [jsonGet, readEventResource_value]
    dsimp only [Option.map_some]
    rw [hresource]
    rfl

/-! ## The table -/

/-- The order in which a database returns rows for `ORDER BY at`. -/
structure TimeOrder where
  order : List EvidenceColumns → List EvidenceColumns
  perm : ∀ rows, (order rows).Perm rows
  sorted : ∀ rows, (order rows).Pairwise fun a b => a.time ≤ b.time

/-- The rows, and for each `retain` under way the ids it chose. -/
structure EvidenceTable where
  rows : List EvidenceColumns
  chosen : List (ℕ × List String)

inductive EvidenceOp
  | append (evidence : VerificationEvidence) (secrets : List String)
  | choose (caller : ℕ) (now : DateTime)
  | delete (caller : ℕ)

inductive EvidenceAnswer
  | appended (result : Except ControlPlaneError VerificationEvidence)
  | chosen (result : Except ReadError Unit)
  | removed (ids : List String)

def duplicateEvidence : ControlPlaneError :=
  .database "duplicate key value violates unique constraint \"evidence_pkey\""

namespace EvidenceTable
variable (ties : TimeOrder) (policy : RetentionPolicy) (s : EvidenceTable)

def empty : EvidenceTable := ⟨[], []⟩

/-- `all`. -/
def all : Except ReadError (List VerificationEvidence) := (ties.order s.rows).mapM evidenceFromRow

/-- `for_stage`. -/
def forStage (stage : VerifierStage) : Except ReadError (List VerificationEvidence) :=
  (ties.order (s.rows.filter fun row => decide (row.stage = stage.canonicalName))).mapM
    evidenceFromRow

def append (evidence : VerificationEvidence) (secrets : List String) :
    EvidenceTable × Except ControlPlaneError VerificationEvidence :=
  match keptEvidence evidence secrets with
  | .error e => (s, .error e)
  | .ok kept =>
      if s.rows.any fun row => decide (row.id = kept.id) then (s, .error duplicateEvidence)
      else ({ s with rows := s.rows ++ [evidenceColumns kept] }, .ok kept)

/-- The first half of `retain`. -/
def choose (caller : ℕ) (now : DateTime) : EvidenceTable × Except ReadError Unit :=
  match s.all ties with
  | .error e => (s, .error e)
  | .ok records =>
      let store := records.foldl EvidenceStore.append (.new policy)
      ({ s with chosen := (caller, (store.retain now).2) ::
          s.chosen.filter fun entry => entry.1 ≠ caller }, .ok ())

/-- The second half of `retain`: the ids are deleted in one transaction. -/
def delete (caller : ℕ) : EvidenceTable × List String :=
  let ids := ((s.chosen.find? fun entry => decide (entry.1 = caller)).map (·.2)).getD []
  (⟨s.rows.filter fun row => decide (row.id ∉ ids),
    s.chosen.filter fun entry => entry.1 ≠ caller⟩, ids)

end EvidenceTable

def evidenceTable (ties : TimeOrder) (policy : RetentionPolicy) :
    Machine EvidenceTable EvidenceOp EvidenceAnswer where
  step := fun s op =>
    match op with
    | .append evidence secrets => answered .appended (s.append evidence secrets)
    | .choose caller now => answered .chosen (s.choose ties policy caller now)
    | .delete caller => answered .removed (s.delete caller)

/-! ## Steps -/

theorem evidenceColumns_injective : Function.Injective evidenceColumns := by
  intro a b h
  have hread := congrArg evidenceFromRow h
  rw [evidenceFromRow_columns, evidenceFromRow_columns] at hread
  exact Except.ok.inj hread

theorem id_of_keptEvidence {evidence kept : VerificationEvidence} {secrets : List String}
    (h : keptEvidence evidence secrets = .ok kept) : kept.id = evidence.id := by
  unfold keptEvidence at h
  obtain ⟨summary, -, h⟩ := except_bind_eq_ok h
  dsimp only at h
  split_ifs at h
  obtain rfl := Except.ok.inj h
  rfl

/-- Rows of records are the rows of a list of records. -/
theorem exists_records {rows : List EvidenceColumns}
    (h : ∀ row ∈ rows, ∃ record, row = evidenceColumns record) :
    ∃ records : List VerificationEvidence, rows = records.map evidenceColumns := by
  induction rows with
  | nil => exact ⟨[], rfl⟩
  | cons row rows ih =>
    obtain ⟨record, rfl⟩ := h row List.mem_cons_self
    obtain ⟨records, rfl⟩ := ih fun r hr => h r (List.mem_cons_of_mem _ hr)
    exact ⟨record :: records, rfl⟩

theorem perm_of_map_columns {xs ys : List VerificationEvidence}
    (h : (xs.map evidenceColumns).Perm (ys.map evidenceColumns)) : xs.Perm ys := by
  have hread : ∀ records : List VerificationEvidence,
      (records.map evidenceColumns).filterMap (fun row => (evidenceFromRow row).toOption) =
        records := by
    intro records
    rw [List.filterMap_map]
    simp [Function.comp_def, evidenceFromRow_columns, Except.toOption]
  have hboth := h.filterMap fun row => (evidenceFromRow row).toOption
  rwa [hread, hread] at hboth

theorem foldl_append (policy : RetentionPolicy) (records : List VerificationEvidence) :
    records.foldl EvidenceStore.append (.new policy) = ⟨records, policy⟩ := by
  have happend : ∀ store : EvidenceStore, records.foldl EvidenceStore.append store =
      { store with evidence := store.evidence ++ records } := by
    induction records with
    | nil => simp
    | cons record records ih =>
      intro store
      rw [List.foldl_cons, ih, EvidenceStore.append, List.append_assoc]
      rfl
  exact happend _

namespace EvidenceTable
variable {ties : TimeOrder} {policy : RetentionPolicy} {s : EvidenceTable}

/-- Every row is that of a record, and no two have one id. -/
structure Sound (s : EvidenceTable) : Prop where
  records : ∀ row ∈ s.rows, ∃ record, row = evidenceColumns record
  unique : (s.rows.map (·.id)).Nodup

theorem Sound.all_eq (h : s.Sound) (ties : TimeOrder) : ∃ records, s.all ties = .ok records ∧
    ties.order s.rows = records.map evidenceColumns := by
  obtain ⟨records, hrecords⟩ := exists_records fun row hrow =>
    h.records row ((ties.perm s.rows).mem_iff.mp hrow)
  refine ⟨records, ?_, hrecords⟩
  have hread := mapM_map_eq_ok (g := id) fun record (_ : record ∈ records) =>
    evidenceFromRow_columns record
  rw [all, hrecords, hread, List.map_id]

theorem append_cases (s : EvidenceTable) (evidence : VerificationEvidence) (secrets : List String) :
    (s.append evidence secrets).1 = s ∨ ∃ kept, keptEvidence evidence secrets = .ok kept ∧
      (∀ row ∈ s.rows, row.id ≠ kept.id) ∧
      (s.append evidence secrets).1 = { s with rows := s.rows ++ [evidenceColumns kept] } := by
  unfold append
  cases hkept : keptEvidence evidence secrets with
  | error e => exact .inl rfl
  | ok kept =>
    dsimp only
    split_ifs with hany
    · exact .inl rfl
    · refine .inr ⟨kept, rfl, fun row hrow hid => hany ?_, rfl⟩
      exact List.any_eq_true.mpr ⟨row, hrow, decide_eq_true hid⟩

/-- What a `retain` chooses: expired rows that are no blocking failures. -/
def Chooses (policy : RetentionPolicy) (now : DateTime) (s : EvidenceTable) (ids : List String) :
    Prop :=
  ∀ id ∈ ids, ∃ record, evidenceColumns record ∈ s.rows ∧ record.id = id ∧
    policy.expired now record = true ∧ record.isBlockingFailure = false

theorem choose_cases (h : s.Sound) (ties : TimeOrder) (policy : RetentionPolicy) (caller : ℕ)
    (now : DateTime) :
    ∃ records, s.all ties = .ok records ∧ ties.order s.rows = records.map evidenceColumns ∧
      s.choose ties policy caller now =
        ({ s with chosen := (caller, ((EvidenceStore.mk records policy).retain now).2) ::
          s.chosen.filter fun entry => entry.1 ≠ caller }, .ok ()) ∧
      Chooses policy now s ((EvidenceStore.mk records policy).retain now).2 := by
  obtain ⟨records, hall, horder⟩ := h.all_eq ties
  refine ⟨records, hall, horder, ?_, fun id hid => ?_⟩
  · rw [choose, hall]
    dsimp only
    rw [foldl_append]
  · obtain ⟨removed, hparted, hids, hmay⟩ := (EvidenceStore.mk records policy).retain_conserves now
    dsimp only at hids
    rw [hids] at hid
    obtain ⟨record, hrecord, rfl⟩ := List.mem_map.mp hid
    have hmem : evidenceColumns record ∈ ties.order s.rows := by
      rw [horder]
      exact List.mem_map_of_mem (hparted.sublist_removed.subset hrecord)
    exact ⟨record, (ties.perm s.rows).mem_iff.mp hmem, rfl, hmay record hrecord⟩

theorem delete_cases (s : EvidenceTable) (caller : ℕ) :
    (∀ row ∈ (s.delete caller).1.rows, row ∈ s.rows) ∧
    (∀ row ∈ s.rows, row ∈ (s.delete caller).1.rows ∨
      ∃ entry ∈ s.chosen, row.id ∈ entry.2) ∧
    ∀ entry ∈ (s.delete caller).1.chosen, entry ∈ s.chosen := by
  refine ⟨fun row hrow => List.mem_of_mem_filter hrow, fun row hrow => ?_,
    fun entry hentry => List.mem_of_mem_filter hentry⟩
  by_cases hids : row.id ∈ (s.delete caller).2
  · right
    cases hfind : s.chosen.find? fun entry => decide (entry.1 = caller) with
    | none =>
      change row.id ∈ ((s.chosen.find? _).map _).getD [] at hids
      rw [hfind] at hids
      exact absurd hids List.not_mem_nil
    | some entry =>
      change row.id ∈ ((s.chosen.find? _).map _).getD [] at hids
      rw [hfind] at hids
      exact ⟨entry, List.mem_of_find?_eq_some hfind, hids⟩
  · exact .inl (List.mem_filter.mpr ⟨hrow, decide_eq_true hids⟩)

theorem Sound.next (h : s.Sound) (op : EvidenceOp) :
    ((evidenceTable ties policy).next s op).Sound := by
  cases op with
  | append evidence secrets =>
    change (s.append evidence secrets).1.Sound
    obtain hsame | ⟨kept, -, hnew, happended⟩ := s.append_cases evidence secrets
    · rwa [hsame]
    · rw [happended]
      refine ⟨fun row hrow => ?_, ?_⟩
      · obtain hrow | hrow := List.mem_append.mp hrow
        · exact h.records row hrow
        · exact ⟨kept, List.mem_singleton.mp hrow⟩
      · rw [List.map_append, List.nodup_append]
        refine ⟨h.unique, List.nodup_singleton _, fun id hid other hother => ?_⟩
        obtain ⟨row, hrow, rfl⟩ := List.mem_map.mp hid
        rw [List.mem_singleton.mp hother]
        exact hnew row hrow
  | choose caller now =>
    obtain ⟨records, -, -, hchoose, -⟩ := choose_cases h ties policy caller now
    change (s.choose ties policy caller now).1.Sound
    rw [hchoose]
    exact ⟨h.records, h.unique⟩
  | delete caller =>
    exact ⟨fun row hrow => h.records row ((s.delete_cases caller).1 row hrow),
      h.unique.sublist (List.filter_sublist.map _)⟩

theorem sound_run (ties : TimeOrder) (policy : RetentionPolicy) (ops : List EvidenceOp) :
    ((evidenceTable ties policy).run empty ops).Sound :=
  (evidenceTable ties policy).run_invariant_all (fun _ op h => h.next op) empty ops
    ⟨nofun, List.nodup_nil⟩

/-- The id is that of a record some operation appends. -/
def Appended (ops : List EvidenceOp) (id : String) : Prop :=
  ∃ evidence secrets, .append evidence secrets ∈ ops ∧ evidence.id = id

/-- Every row is from an append, and every chosen id is that of one. -/
structure Accounted (ops : List EvidenceOp) (s : EvidenceTable) : Prop where
  rows : ∀ row ∈ s.rows, ∃ evidence secrets kept, .append evidence secrets ∈ ops ∧
    keptEvidence evidence secrets = .ok kept ∧ row = evidenceColumns kept
  chosen : ∀ entry ∈ s.chosen, ∀ id ∈ entry.2, Appended ops id

theorem Accounted.appended {ops : List EvidenceOp} (h : Accounted ops s) {row : EvidenceColumns}
    (hrow : row ∈ s.rows) : Appended ops row.id := by
  obtain ⟨evidence, secrets, kept, hop, hkept, rfl⟩ := h.rows row hrow
  exact ⟨evidence, secrets, hop, (id_of_keptEvidence hkept).symm⟩

theorem Accounted.next {ops : List EvidenceOp} (h : Accounted ops s) (hsound : s.Sound)
    {op : EvidenceOp} (hop : op ∈ ops) :
    Accounted ops ((evidenceTable ties policy).next s op) := by
  cases op with
  | append evidence secrets =>
    change Accounted ops (s.append evidence secrets).1
    obtain hsame | ⟨kept, hkept, -, happended⟩ := s.append_cases evidence secrets
    · rwa [hsame]
    · rw [happended]
      refine ⟨fun row hrow => ?_, h.chosen⟩
      obtain hrow | hrow := List.mem_append.mp hrow
      · exact h.rows row hrow
      · exact ⟨evidence, secrets, kept, hop, hkept, List.mem_singleton.mp hrow⟩
  | choose caller now =>
    obtain ⟨records, -, -, hchoose, hchooses⟩ := choose_cases hsound ties policy caller now
    change Accounted ops (s.choose ties policy caller now).1
    rw [hchoose]
    refine ⟨h.rows, fun entry hentry id hid => ?_⟩
    obtain rfl | hentry := List.mem_cons.mp hentry
    · obtain ⟨record, hrow, rfl, -⟩ := hchooses id hid
      exact h.appended hrow
    · exact h.chosen entry (List.mem_of_mem_filter hentry) id hid
  | delete caller =>
    obtain ⟨hrows, -, hchosen⟩ := s.delete_cases caller
    exact ⟨fun row hrow => h.rows row (hrows row hrow), fun entry hentry =>
      h.chosen entry (hchosen entry hentry)⟩

theorem accounted_run (ties : TimeOrder) (policy : RetentionPolicy) (ops : List EvidenceOp) :
    Accounted ops ((evidenceTable ties policy).run empty ops) := by
  have hboth := (evidenceTable ties policy).run_invariant (G := fun _ op => op ∈ ops)
    (P := fun s => s.Sound ∧ Accounted ops s)
    (fun s op h hop => ⟨h.1.next op, h.2.next h.1 hop⟩) empty ops
    ⟨⟨nofun, List.nodup_nil⟩, ⟨nofun, nofun⟩⟩
    ((evidenceTable ties policy).guarded_of_forall (fun op hop _ => hop) empty)
  exact hboth.2

/-! ## What becomes of one record -/

/-- Some `retain` of the run looked when the record was expired, and the record is no blocking
failure. -/
def MayGo (policy : RetentionPolicy) (ops : List EvidenceOp) (record : VerificationEvidence) : Prop :=
  record.isBlockingFailure = false ∧
    ∃ caller now, .choose caller now ∈ ops ∧ policy.expired now record = true

/-- The record is there, unless it may go; and so with the choices under way. -/
structure Followed (policy : RetentionPolicy) (ops : List EvidenceOp) (record : VerificationEvidence)
    (s : EvidenceTable) : Prop where
  sound : s.Sound
  present : evidenceColumns record ∈ s.rows ∨ MayGo policy ops record
  chosen : ∀ entry ∈ s.chosen, record.id ∈ entry.2 → MayGo policy ops record

theorem Followed.next {ops : List EvidenceOp} {record : VerificationEvidence}
    (h : Followed policy ops record s) {op : EvidenceOp} (hop : op ∈ ops) :
    Followed policy ops record ((evidenceTable ties policy).next s op) := by
  refine ⟨h.sound.next op, ?_, ?_⟩
  · obtain hpresent | hgone := h.present
    · cases op with
      | append evidence secrets =>
        change evidenceColumns record ∈ (s.append evidence secrets).1.rows ∨ _
        obtain hsame | ⟨kept, -, -, happended⟩ := s.append_cases evidence secrets
        · rw [hsame]
          exact .inl hpresent
        · rw [happended]
          exact .inl (List.mem_append_left _ hpresent)
      | choose caller now =>
        obtain ⟨records, -, -, hchoose, -⟩ := choose_cases h.sound ties policy caller now
        change evidenceColumns record ∈ (s.choose ties policy caller now).1.rows ∨ _
        rw [hchoose]
        exact .inl hpresent
      | delete caller =>
        obtain hstays | ⟨entry, hentry, hid⟩ := (s.delete_cases caller).2.1 _ hpresent
        · exact .inl hstays
        · exact .inr (h.chosen entry hentry hid)
    · exact .inr hgone
  · intro entry hentry hid
    cases op with
    | append evidence secrets =>
      change entry ∈ (s.append evidence secrets).1.chosen at hentry
      obtain hsame | ⟨kept, -, -, happended⟩ := s.append_cases evidence secrets
      · rw [hsame] at hentry
        exact h.chosen entry hentry hid
      · rw [happended] at hentry
        exact h.chosen entry hentry hid
    | choose caller now =>
      obtain ⟨records, -, -, hchoose, hchooses⟩ := choose_cases h.sound ties policy caller now
      change entry ∈ (s.choose ties policy caller now).1.chosen at hentry
      rw [hchoose] at hentry
      obtain rfl | hentry := List.mem_cons.mp hentry
      · obtain ⟨found, hfound, hsame, hexpired, hnonblocking⟩ := hchooses record.id hid
        obtain hpresent | hgone := h.present
        · have hrows := List.inj_on_of_nodup_map h.sound.unique hfound hpresent hsame
          obtain rfl := evidenceColumns_injective hrows
          exact ⟨hnonblocking, caller, now, hop, hexpired⟩
        · exact hgone
      · exact h.chosen entry (List.mem_of_mem_filter hentry) hid
    | delete caller => exact h.chosen entry ((s.delete_cases caller).2.2 entry hentry) hid

/-- An append of an id that is new is accepted, and no choice under way bears it. -/
theorem followed_append (ties : TimeOrder) (policy : RetentionPolicy)
    (before after : List EvidenceOp) {evidence kept : VerificationEvidence} {secrets : List String}
    (hnew : ¬ Appended before evidence.id) (hkept : keptEvidence evidence secrets = .ok kept) :
    Followed policy after kept ((evidenceTable ties policy).run empty
      (before ++ [.append evidence secrets])) := by
  have haccounted := accounted_run ties policy before
  have hsound := sound_run ties policy (before ++ [.append evidence secrets])
  rw [Machine.run_append] at hsound ⊢
  set s := (evidenceTable ties policy).run empty before
  have hid := id_of_keptEvidence hkept
  have hnone : (s.rows.any fun row => decide (row.id = kept.id)) = false := by
    rw [List.any_eq_false]
    intro row hrow hsame
    refine hnew ?_
    rw [← hid, ← of_decide_eq_true hsame]
    exact haccounted.appended hrow
  have hnext : (s.append evidence secrets).1 = { s with rows := s.rows ++ [evidenceColumns kept] } := by
    unfold append
    rw [hkept]
    dsimp only
    rw [if_neg (Bool.eq_false_iff.mp hnone)]
  refine ⟨hsound, ?_, ?_⟩
  · change evidenceColumns kept ∈ (s.append evidence secrets).1.rows ∨ _
    rw [hnext]
    exact .inl (List.mem_append_right _ (List.mem_singleton_self _))
  · intro entry hentry hchosen
    change entry ∈ (s.append evidence secrets).1.chosen at hentry
    rw [hnext] at hentry
    rw [hid] at hchosen
    exact absurd (haccounted.chosen entry hentry _ hchosen) hnew

/-! ## One retain without others -/

theorem filter_notMem_removed {whole kept removed : List VerificationEvidence}
    (h : Parted whole kept removed) (hnodup : (whole.map (·.id)).Nodup) :
    whole.filter (fun record => decide (record.id ∉ removed.map (·.id))) = kept := by
  have hapart : ∀ record ∈ kept, record.id ∉ removed.map (·.id) := by
    intro record hrecord hid
    have hboth := (h.perm.map (·.id)).nodup_iff.mp hnodup
    rw [List.map_append, List.nodup_append] at hboth
    exact hboth.2.2 _ (List.mem_map_of_mem hrecord) _ hid rfl
  refine h.filter_eq (fun record hrecord => decide_eq_true (hapart record hrecord)) ?_
  exact fun record hrecord => decide_eq_false (not_not.mpr (List.mem_map_of_mem hrecord))

/-- The rows that a `retain` leaves, when nothing comes between its halves. -/
theorem Sound.retain_alone (h : s.Sound) (ties : TimeOrder) (policy : RetentionPolicy) (caller : ℕ)
    (now : DateTime) :
    ∃ records, s.all ties = .ok records ∧
      let store : EvidenceStore := ⟨records, policy⟩
      let s' := (evidenceTable ties policy).run s [.choose caller now, .delete caller]
      (evidenceTable ties policy).answers s [.choose caller now, .delete caller] =
        [.chosen (.ok ()), .removed (store.retain now).2] ∧
      ∃ left, s'.all ties = .ok left ∧ left.Perm (store.retain now).1.evidence := by
  obtain ⟨records, hall, horder, hchoose, -⟩ := choose_cases h ties policy caller now
  refine ⟨records, hall, ?_⟩
  intro store s'
  have hsound : s'.Sound := (evidenceTable ties policy).run_invariant_all
    (fun _ op h => h.next op) s [.choose caller now, .delete caller] h
  obtain ⟨left, hleft, hleftOrder⟩ := hsound.all_eq ties
  obtain ⟨removed, hparted, hids, -⟩ := store.retain_conserves now
  have hdelete : s'.rows = s.rows.filter fun row => decide (row.id ∉ (store.retain now).2) := by
    change (((s.choose ties policy caller now).1).delete caller).1.rows = _
    rw [hchoose, delete]
    simp [store]
  refine ⟨?_, left, hleft, ?_⟩
  · change [EvidenceAnswer.chosen (s.choose ties policy caller now).2,
      .removed (((s.choose ties policy caller now).1).delete caller).2] = _
    rw [hchoose, delete]
    simp [store]
  · have hrows : s.rows.Perm (records.map evidenceColumns) := by
      rw [← horder]
      exact (ties.perm s.rows).symm
    have hnodup : (records.map (·.id)).Nodup := by
      have hmapped := (hrows.map (·.id)).nodup_iff.mp h.unique
      rw [List.map_map] at hmapped
      exact hmapped
    have hkept : records.filter (fun record => decide (record.id ∉ removed.map (·.id))) =
        (store.retain now).1.evidence := filter_notMem_removed hparted hnodup
    have hreported : (store.retain now).2 = removed.map (·.id) := hids
    refine perm_of_map_columns ?_
    rw [← hleftOrder]
    refine (ties.perm s'.rows).trans ?_
    rw [hdelete]
    refine (hrows.filter _).trans ?_
    have hfilter : (records.map evidenceColumns).filter
        (fun row => decide (row.id ∉ (store.retain now).2)) =
        (store.retain now).1.evidence.map evidenceColumns := by
      rw [List.filter_map, ← hkept, hreported]
      rfl
    rw [hfilter]

end EvidenceTable

/-- **Evidence retained.** In any interleaving of appends and of the halves of retains: every row is
that of an append, with its summary redacted; a record whose id was new when it was appended is there
unless a `retain` that looked afterwards found it expired and it is no blocking failure; and a
`retain` with nothing between its halves removes what the store in memory does, and reports it. -/
theorem evidence_retained (ties : TimeOrder) (policy : RetentionPolicy) (ops : List EvidenceOp) :
    let s := (evidenceTable ties policy).run .empty ops
    (∀ row ∈ s.rows, ∃ evidence secrets kept, .append evidence secrets ∈ ops ∧
      keptEvidence evidence secrets = .ok kept ∧ evidenceFromRow row = .ok kept) ∧
    (∀ before evidence secrets after kept, ops = before ++ .append evidence secrets :: after →
      ¬ EvidenceTable.Appended before evidence.id → keptEvidence evidence secrets = .ok kept →
        (∃ row ∈ s.rows, evidenceFromRow row = .ok kept) ∨
          EvidenceTable.MayGo policy after kept) ∧
    ∀ caller now, ∃ records, s.all ties = .ok records ∧
      let store : EvidenceStore := ⟨records, policy⟩
      let s' := (evidenceTable ties policy).run s [.choose caller now, .delete caller]
      (evidenceTable ties policy).answers s [.choose caller now, .delete caller] =
        [.chosen (.ok ()), .removed (store.retain now).2] ∧
      ∃ left, s'.all ties = .ok left ∧ left.Perm (store.retain now).1.evidence := by
  intro s
  refine ⟨fun row hrow => ?_, ?_, fun caller now =>
    (EvidenceTable.sound_run ties policy ops).retain_alone ties policy caller now⟩
  · obtain ⟨evidence, secrets, kept, hop, hkept, rfl⟩ :=
      (EvidenceTable.accounted_run ties policy ops).rows row hrow
    exact ⟨evidence, secrets, kept, hop, hkept, evidenceFromRow_columns kept⟩
  · intro before evidence secrets after kept hops hnew hkept
    have hstart := EvidenceTable.followed_append ties policy before after hnew hkept
    have hend := (evidenceTable ties policy).run_invariant (G := fun _ op => op ∈ after)
      (P := EvidenceTable.Followed policy after kept) (fun _ op h hop => h.next hop) _ after hstart
      ((evidenceTable ties policy).guarded_of_forall (fun op hop _ => hop) _)
    have hrun : s = (evidenceTable ties policy).run ((evidenceTable ties policy).run .empty
        (before ++ [.append evidence secrets])) after := by
      rw [← Machine.run_append, List.append_assoc, List.singleton_append, ← hops]
    rw [← hrun] at hend
    exact hend.present.imp_left fun hrow => ⟨_, hrow, evidenceFromRow_columns kept⟩

/-- Rows of one time in the order in which they stand. -/
def stableOrder : TimeOrder where
  order := sortByKey (·.time)
  perm := sortByKey_perm _
  sorted := sortByKey_pairwise _

def failedHealth : VerificationEvidence :=
  ⟨"preview-1-health", .health, "preview-health-gate", false, "probe timed out", none, none, pgEpoch⟩

/-- A failure stays, however old it is when a `retain` looks. -/
theorem failed_health_retained :
    ∃ row ∈ ((evidenceTable stableOrder ⟨0, 0⟩).run .empty
        [.append failedHealth [], .choose 0 (pgEpoch + 10 ^ 18), .delete 0]).rows,
      evidenceFromRow row = .ok failedHealth := by
  have hkept : keptEvidence failedHealth [] = .ok failedHealth := by decide
  have hfate := (evidence_retained stableOrder ⟨0, 0⟩
    [.append failedHealth [], .choose 0 (pgEpoch + 10 ^ 18), .delete 0]).2.1 [] failedHealth []
      [.choose 0 (pgEpoch + 10 ^ 18), .delete 0] failedHealth rfl
      (by rintro ⟨_, _, h, -⟩; cases h) hkept
  refine hfate.resolve_right fun hgone => ?_
  have hfailure : failedHealth.isBlockingFailure = true := rfl
  rw [hgone.1] at hfailure
  cases hfailure

end Labrys.ControlPlane
