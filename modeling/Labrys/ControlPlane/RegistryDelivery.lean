import Labrys.ControlPlane.EventTable
import Labrys.ControlPlane.Providers
import Labrys.ControlPlane.RegistryClient
import Labrys.Foundations.Table

/-! # Registry deliveries

A delivery hands an artifact to a registry adapter and files one row about it, whatever the adapter
said. There are two adapters: the client of a remote registry, and a registry kept in the process
for tests. The remote registry is any machine.

* `OciRegistry`, `OciRegistryClient.registry`, `LocalTestRegistry.registry`: the adapters.
* `ProviderRuntime.pushArtifact`, `pushContent`: one delivery and its row.
* `deliveries_filed`: over any run, what each row says of its delivery. -/

namespace Labrys.ControlPlane
open Foundations Labrys.Core
set_option autoImplicit false

/-! ## Adapters -/

structure OciRegistry (τ : Type) where
  push : RegistryArtifact → Program τ ControlPlaneError String
  pull : String → Program τ ControlPlaneError String
  pushContent : RegistryArtifact → Bytes → Bytes → Program τ ControlPlaneError String :=
    fun _ _ _ => Program.ofExcept
      (.error (.registry "registry adapter does not accept content bytes"))

variable {σ : Type} (sha256 : Bytes → Bytes)

/-- The client, held with a remote registry. -/
def OciRegistryClient.registry (client : OciRegistryClient)
    (M : Machine σ HttpRequest HttpAnswer) : OciRegistry σ where
  push := fun _ => Program.ofExcept (.error (.registry
    ("registry push requires content bytes; " ++
      "use push_content with manifest and config bytes")))
  pull := fun reference => (client.pull reference).heldWith M
  pushContent := fun artifact manifest config =>
    (client.pushBytes sha256 artifact manifest config).heldWith M

structure LocalTestRegistry where
  retained : String → Option RegistryArtifact
  mismatchDigest : Option String
  refused : List String

namespace LocalTestRegistry

def push (artifact : RegistryArtifact) : Program LocalTestRegistry ControlPlaneError String :=
  fun registry =>
    match gateRegistryPush artifact with
    | .error err =>
        ({ registry with refused := registry.refused ++ [artifact.reference] },
          .error (.registry err.display))
    | .ok () =>
        let reported := registry.mismatchDigest.getD artifact.digest
        match verifyRegistryDigest artifact.digest reported with
        | .error err => (registry, .error (.registry err.display))
        | .ok () =>
            ({ registry with
                retained := Function.update registry.retained artifact.reference (some artifact) },
              .ok reported)

def pull (reference : String) : Program LocalTestRegistry ControlPlaneError String :=
  fun registry =>
    match registry.retained reference with
    | some artifact => (registry, .ok artifact.digest)
    | none => (registry, .error (.notFound s!"artifact {reference} not retained"))

def registry : OciRegistry LocalTestRegistry where
  push := push
  pull := pull

end LocalTestRegistry

/-! ## Records -/

structure RegistryDeliveryRecord where
  id : String
  applicationId : String
  reference : String
  recordedDigest : String
  reportedDigest : String
  revisionSha : String
  status : String
  detail : String
deriving DecidableEq

def RegistryDeliveryRecord.texts (record : RegistryDeliveryRecord) : List String :=
  [record.id, record.applicationId, record.reference, record.recordedDigest, record.reportedDigest,
    record.revisionSha, record.status, record.detail]

def RegistryDeliveryRecord.storable (record : RegistryDeliveryRecord) : Bool :=
  record.texts.all storableText

/-- A row of `registry_deliveries`. -/
structure RegistryDeliveryRow where
  record : RegistryDeliveryRecord
  createdAt : DateTime
  updatedAt : DateTime
deriving DecidableEq

abbrev RegistryDeliveries := Table fun row : RegistryDeliveryRow => row.record.id

namespace ProviderRuntime
variable (runtime : ProviderRuntime)

/-- The id is the primary key, and the times are kept as `timestamptz` columns do. -/
def saveRegistry (record : RegistryDeliveryRecord) (time : DateTime) :
    Program RegistryDeliveries ControlPlaneError Unit := fun rows =>
  match redactGuard "registry_deliveries.detail" record.detail runtime.secrets with
  | .error e => (rows, .error e)
  | .ok detail =>
      let record' := { record with detail := detail }
      if record'.storable then
        match hfree : rows.get record.id with
        | some _ => (rows, .error (.database "registry_deliveries_pkey"))
        | none => (rows.insert ⟨record', timestamptz time, timestamptz time⟩ hfree, .ok ())
      else (rows, .error zeroByte)

/-- The record of what an adapter said. -/
def registryRecord (id applicationId : String) (artifact : RegistryArtifact) :
    Except ControlPlaneError String → RegistryDeliveryRecord
  | .ok reported =>
      ⟨id, applicationId, artifact.reference, artifact.digest, reported, artifact.revisionSha,
        "verified", s!"digest verified for {artifact.reference}"⟩
  | .error err =>
      let detail := redactReason err.display runtime.secrets
      let status := if containsText detail "digest mismatch" then "mismatch" else "refused"
      ⟨id, applicationId, artifact.reference, artifact.digest, "", artifact.revisionSha, status,
        detail⟩

def recordRegistryPush (id applicationId : String) (artifact : RegistryArtifact)
    (reported : Except ControlPlaneError String) (time : DateTime) :
    Program RegistryDeliveries ControlPlaneError RegistryDeliveryRecord := do
  let record := runtime.registryRecord id applicationId artifact reported
  runtime.saveRegistry record time
  match reported with
  | .ok _ => return record
  | .error _ => Program.ofExcept (.error (.registry record.detail))

/-- What the adapter did to its world, and what it said, filed. -/
def filed {τ : Type} (said : Program τ ControlPlaneError String) (id applicationId : String)
    (artifact : RegistryArtifact) (time : DateTime) :
    Program (τ × RegistryDeliveries) ControlPlaneError RegistryDeliveryRecord := fun s =>
  let result := said s.1
  let recorded := runtime.recordRegistryPush id applicationId artifact result.2 time s.2
  ((result.1, recorded.1), recorded.2)

def pushArtifact {τ : Type} (registry : OciRegistry τ) (id applicationId : String)
    (artifact : RegistryArtifact) (time : DateTime) :
    Program (τ × RegistryDeliveries) ControlPlaneError RegistryDeliveryRecord :=
  runtime.filed (registry.push artifact) id applicationId artifact time

def pushContent {τ : Type} (registry : OciRegistry τ) (id applicationId : String)
    (artifact : RegistryArtifact) (manifest config : Bytes) (time : DateTime) :
    Program (τ × RegistryDeliveries) ControlPlaneError RegistryDeliveryRecord :=
  runtime.filed (registry.pushContent artifact manifest config) id applicationId artifact time

end ProviderRuntime

/-! ## Runs of deliveries -/

/-- An adapter of one's own, over a world that holds the world of another. -/
def OciRegistry.within {τ υ : Type} (get : υ → τ) (set : τ → υ → υ) (registry : OciRegistry τ) :
    OciRegistry υ :=
  let lift := fun said : Program τ ControlPlaneError String =>
    fun w => (set (said (get w)).1 w, (said (get w)).2)
  { push := fun artifact => lift (registry.push artifact)
    pull := fun reference => lift (registry.pull reference)
    pushContent := fun artifact manifest config =>
      lift (registry.pushContent artifact manifest config) }

inductive RegistryAdapter
  | oci (client : OciRegistryClient)
  | localTest

/-- The remote registry, and the one in the process. -/
structure Registries (σ : Type) where
  remote : σ
  testing : LocalTestRegistry

def RegistryAdapter.registry (M : Machine σ HttpRequest HttpAnswer) :
    RegistryAdapter → OciRegistry (Registries σ)
  | oci client =>
      (client.registry sha256 M).within Registries.remote fun remote w => { w with remote := remote }
  | localTest =>
      LocalTestRegistry.registry.within Registries.testing
        fun testing w => { w with testing := testing }

/-- One call of `push_artifact`, or of `push_content` with manifest and config. -/
structure Delivery where
  adapter : RegistryAdapter
  id : String
  applicationId : String
  artifact : RegistryArtifact
  content : Option (Bytes × Bytes)
  time : DateTime

/-- What the adapter says of a delivery. -/
def Delivery.said (M : Machine σ HttpRequest HttpAnswer) (delivery : Delivery) :
    Program (Registries σ) ControlPlaneError String :=
  let registry := delivery.adapter.registry sha256 M
  match delivery.content with
  | none => registry.push delivery.artifact
  | some (manifest, config) => registry.pushContent delivery.artifact manifest config

def deliver (runtime : ProviderRuntime) (M : Machine σ HttpRequest HttpAnswer)
    (delivery : Delivery) :
    Program (Registries σ × RegistryDeliveries) ControlPlaneError RegistryDeliveryRecord :=
  let registry := delivery.adapter.registry sha256 M
  match delivery.content with
  | none =>
      runtime.pushArtifact registry delivery.id delivery.applicationId delivery.artifact
        delivery.time
  | some (manifest, config) =>
      runtime.pushContent registry delivery.id delivery.applicationId delivery.artifact manifest
        config delivery.time

def deliveries (runtime : ProviderRuntime) (M : Machine σ HttpRequest HttpAnswer) :
    Machine (Registries σ × RegistryDeliveries) Delivery
      (Except ControlPlaneError RegistryDeliveryRecord) where
  step := fun s delivery => deliver sha256 runtime M delivery s

/-! ## What is confirmed -/

/-- An adapter has confirmed a digest: the remote registry let the push through, or the one in the
process retained the artifact. -/
inductive Confirmed (M : Machine σ HttpRequest HttpAnswer) (w : Registries σ) :
    Delivery → String → Prop
  | pushed {client id applicationId artifact manifest config time digest}
      (h : client.Pushed sha256 artifact manifest config
        ((client.pushBytes sha256 artifact manifest config).exchanges M w.remote) digest) :
      Confirmed M w ⟨.oci client, id, applicationId, artifact, some (manifest, config), time⟩ digest
  | retained {id applicationId artifact time}
      (hverified : artifact.verifiedProductionBuild = true)
      (haddressable : artifact.isDigestAddressable = true)
      (hreported : w.testing.mismatchDigest.getD artifact.digest = artifact.digest) :
      Confirmed M w ⟨.localTest, id, applicationId, artifact, none, time⟩ artifact.digest

/-- What a row says of the delivery it is about, in the world the delivery found. -/
structure Accounts (runtime : ProviderRuntime) (M : Machine σ HttpRequest HttpAnswer)
    (w : Registries σ) (delivery : Delivery) (row : RegistryDeliveryRow) : Prop where
  id : row.record.id = delivery.id
  applicationId : row.record.applicationId = delivery.applicationId
  reference : row.record.reference = delivery.artifact.reference
  recordedDigest : row.record.recordedDigest = delivery.artifact.digest
  revisionSha : row.record.revisionSha = delivery.artifact.revisionSha
  times : row.createdAt = timestamptz delivery.time ∧ row.updatedAt = timestamptz delivery.time
  clean : CarriesNone runtime.secrets row.record.detail
  verdict : (row.record.status = "verified" ∧
      Confirmed sha256 M w delivery row.record.reportedDigest) ∨
    ((row.record.status = "mismatch" ∨ row.record.status = "refused") ∧
      row.record.reportedDigest = "" ∧ ∀ digest, ¬ Confirmed sha256 M w delivery digest)

/-! ## One delivery -/

variable {runtime : ProviderRuntime} {M : Machine σ HttpRequest HttpAnswer}

theorem localTest_push_ok_iff {artifact : RegistryArtifact} {registry : LocalTestRegistry}
    {digest : String} : (LocalTestRegistry.push artifact registry).2 = .ok digest ↔
      artifact.verifiedProductionBuild = true ∧ artifact.isDigestAddressable = true ∧
        registry.mismatchDigest.getD artifact.digest = artifact.digest ∧
        digest = artifact.digest := by
  unfold LocalTestRegistry.push
  cases hgate : gateRegistryPush artifact with
  | error err =>
    refine iff_of_false nofun fun h => ?_
    rw [gateRegistryPush_ok_iff.mpr ⟨h.1, h.2.1⟩] at hgate
    cases hgate
  | ok _ =>
    obtain ⟨hverified, haddressable⟩ := gateRegistryPush_ok_iff.mp hgate
    dsimp only
    cases hverify : verifyRegistryDigest artifact.digest
        (registry.mismatchDigest.getD artifact.digest) with
    | error err =>
      refine iff_of_false nofun fun h => ?_
      rw [verifyRegistryDigest_ok_iff.mpr h.2.2.1.symm] at hverify
      cases hverify
    | ok _ =>
      have hsame := verifyRegistryDigest_ok_iff.mp hverify
      dsimp only
      rw [← hsame]
      constructor
      · intro h
        exact ⟨hverified, haddressable, rfl, (Except.ok.inj h).symm⟩
      · rintro ⟨-, -, -, rfl⟩
        rfl

/-- An adapter returns a digest exactly if it is confirmed. -/
theorem said_ok_iff {w : Registries σ} {delivery : Delivery} {digest : String} :
    (delivery.said sha256 M w).2 = .ok digest ↔ Confirmed sha256 M w delivery digest := by
  obtain ⟨adapter, id, applicationId, artifact, content, time⟩ := delivery
  cases adapter with
  | oci client =>
    cases content with
    | none => exact iff_of_false nofun nofun
    | some content =>
      obtain ⟨manifest, config⟩ := content
      have htalk := Dialogue.talk_heldWith M (client.pushBytes sha256 artifact manifest config)
        w.remote
      constructor
      · intro h
        change ((client.pushBytes sha256 artifact manifest config).heldWith M w.remote).2 =
          .ok digest at h
        rw [h] at htalk
        exact .pushed ((OciRegistryClient.push_exchanges sha256 client artifact manifest
          config).2 _ _ |>.mp htalk)
      · rintro ⟨h⟩
        exact htalk.unique ((OciRegistryClient.pushed_iff_talk sha256).mpr h)
  | localTest =>
    cases content with
    | none =>
      change (LocalTestRegistry.push artifact w.testing).2 = .ok digest ↔ _
      rw [localTest_push_ok_iff]
      constructor
      · rintro ⟨hverified, haddressable, hreported, rfl⟩
        exact .retained hverified haddressable hreported
      · rintro ⟨⟩
        next hverified haddressable hreported => exact ⟨hverified, haddressable, hreported, rfl⟩
    | some content => exact iff_of_false nofun nofun

/-! ## One row -/

/-- Where a record is saved, its detail has passed the guard, no text has a zero byte and no row had
its id. -/
theorem saveRegistry_cases (runtime : ProviderRuntime) (record : RegistryDeliveryRecord)
    (time : DateTime) (rows : RegistryDeliveries) :
    (∃ e, runtime.saveRegistry record time rows = (rows, .error e)) ∨
      ∃ detail, ∃ hfree : rows.get record.id = none, CarriesNone runtime.secrets detail ∧
        runtime.saveRegistry record time rows =
          (rows.insert ⟨{ record with detail := detail }, timestamptz time, timestamptz time⟩ hfree,
            .ok ()) := by
  unfold ProviderRuntime.saveRegistry
  cases hguard : redactGuard "registry_deliveries.detail" record.detail runtime.secrets with
  | error e => exact .inl ⟨e, rfl⟩
  | ok detail =>
    dsimp only
    split_ifs
    · split
      · exact .inl ⟨_, rfl⟩
      next hfree => exact .inr ⟨detail, hfree, carriesNone_of_redactGuard hguard, rfl⟩
    · exact .inl ⟨_, rfl⟩

theorem status_registryRecord (runtime : ProviderRuntime) (id applicationId : String)
    (artifact : RegistryArtifact) (reported : Except ControlPlaneError String) :
    ((runtime.registryRecord id applicationId artifact reported).status = "verified" ∧
        reported = .ok (runtime.registryRecord id applicationId artifact reported).reportedDigest) ∨
      (((runtime.registryRecord id applicationId artifact reported).status = "mismatch" ∨
          (runtime.registryRecord id applicationId artifact reported).status = "refused") ∧
        (runtime.registryRecord id applicationId artifact reported).reportedDigest = "" ∧
        ∀ digest, reported ≠ .ok digest) := by
  cases reported with
  | ok digest => exact .inl ⟨rfl, rfl⟩
  | error err =>
    refine .inr ⟨?_, rfl, nofun⟩
    change (if _ then "mismatch" else "refused") = "mismatch" ∨
      (if _ then "mismatch" else "refused") = "refused"
    split
    · exact .inl rfl
    · exact .inr rfl

/-- Filing fails and leaves the rows as they were, or files one row; a record is the answer only of a
confirmed delivery. -/
theorem recordRegistryPush_cases (runtime : ProviderRuntime) (id applicationId : String)
    (artifact : RegistryArtifact) (reported : Except ControlPlaneError String) (time : DateTime)
    (rows : RegistryDeliveries)
    {record : RegistryDeliveryRecord}
    (hrecord : runtime.registryRecord id applicationId artifact reported = record) :
    (∃ e, runtime.recordRegistryPush id applicationId artifact reported time rows =
        (rows, .error e)) ∨
      ∃ detail, ∃ hfree : rows.get record.id = none, CarriesNone runtime.secrets detail ∧
        (runtime.recordRegistryPush id applicationId artifact reported time rows).1 =
          rows.insert ⟨{ record with detail := detail }, timestamptz time, timestamptz time⟩ hfree ∧
        ∀ answer, (runtime.recordRegistryPush id applicationId artifact reported time rows).2 =
          .ok answer → answer = record ∧ ∃ digest, reported = .ok digest := by
  subst hrecord
  obtain ⟨e, hsave⟩ | ⟨detail, hfree, hclean, hsave⟩ := saveRegistry_cases runtime
    (runtime.registryRecord id applicationId artifact reported) time rows
  · exact .inl ⟨e, Program.bind_of_error hsave _⟩
  · refine .inr ⟨detail, hfree, hclean, ?_⟩
    cases reported with
    | ok digest =>
      have hrun : runtime.recordRegistryPush id applicationId artifact (.ok digest) time rows =
          (_, .ok (runtime.registryRecord id applicationId artifact (.ok digest))) :=
        Program.bind_of_ok hsave _
      rw [hrun]
      exact ⟨rfl, fun answer h => ⟨(Except.ok.inj h).symm, digest, rfl⟩⟩
    | error err =>
      have hrun : runtime.recordRegistryPush id applicationId artifact (.error err) time rows =
          (_, .error (.registry
            (runtime.registryRecord id applicationId artifact (.error err)).detail)) :=
        Program.bind_of_ok hsave _
      rw [hrun]
      exact ⟨rfl, nofun⟩

theorem deliver_eq (delivery : Delivery) (s : Registries σ × RegistryDeliveries) :
    deliver sha256 runtime M delivery s =
      ((((delivery.said sha256 M s.1).1,
          (runtime.recordRegistryPush delivery.id delivery.applicationId delivery.artifact
            (delivery.said sha256 M s.1).2 delivery.time s.2).1)),
        (runtime.recordRegistryPush delivery.id delivery.applicationId delivery.artifact
          (delivery.said sha256 M s.1).2 delivery.time s.2).2) := by
  obtain ⟨adapter, id, applicationId, artifact, content, time⟩ := delivery
  cases content <;> rfl

/-- The row of one delivery accounts for it. -/
theorem accounts_registryRecord {w : Registries σ} {delivery : Delivery} {detail : String}
    {record : RegistryDeliveryRecord}
    (hrecord : runtime.registryRecord delivery.id delivery.applicationId delivery.artifact
      (delivery.said sha256 M w).2 = record)
    (hclean : CarriesNone runtime.secrets detail) :
    Accounts sha256 runtime M w delivery
      ⟨{ record with detail := detail }, timestamptz delivery.time, timestamptz delivery.time⟩ := by
  have hverdict := status_registryRecord runtime delivery.id delivery.applicationId
    delivery.artifact (delivery.said sha256 M w).2
  rw [hrecord] at hverdict
  have hfields : record.id = delivery.id ∧ record.applicationId = delivery.applicationId ∧
      record.reference = delivery.artifact.reference ∧
      record.recordedDigest = delivery.artifact.digest ∧
      record.revisionSha = delivery.artifact.revisionSha := by
    rw [← hrecord]
    cases (delivery.said sha256 M w).2 <;> exact ⟨rfl, rfl, rfl, rfl, rfl⟩
  obtain ⟨hid, happlication, hreference, hrecorded, hrevision⟩ := hfields
  refine ⟨hid, happlication, hreference, hrecorded, hrevision, ⟨rfl, rfl⟩, hclean, ?_⟩
  obtain ⟨hstatus, hreported⟩ | ⟨hstatus, hempty, hnone⟩ := hverdict
  · exact .inl ⟨hstatus, (said_ok_iff sha256).mp hreported⟩
  · exact .inr ⟨hstatus, hempty, fun digest h => hnone digest ((said_ok_iff sha256).mpr h)⟩

/-- What one delivery adds. -/
theorem next_rows_cases (runtime : ProviderRuntime) (M : Machine σ HttpRequest HttpAnswer)
    (s : Registries σ × RegistryDeliveries) (delivery : Delivery) :
    (((deliveries sha256 runtime M).next s delivery).2 = s.2 ∧
        ∀ answer, (deliveries sha256 runtime M).answer s delivery ≠ .ok answer) ∨
      ∃ row, ((deliveries sha256 runtime M).next s delivery).2.rows = s.2.rows ++ [row] ∧
        Accounts sha256 runtime M s.1 delivery row ∧
        ∀ answer, (deliveries sha256 runtime M).answer s delivery = .ok answer →
          row.record = { answer with detail := row.record.detail } ∧
            row.record.status = "verified" := by
  have hnext : ((deliveries sha256 runtime M).next s delivery).2 =
      (deliver sha256 runtime M delivery s).1.2 := rfl
  have hanswer : (deliveries sha256 runtime M).answer s delivery =
      (deliver sha256 runtime M delivery s).2 := rfl
  rw [hnext, hanswer, deliver_eq]
  obtain ⟨e, hfiled⟩ | ⟨detail, hfree, hclean, hrows, hok⟩ := recordRegistryPush_cases runtime
    delivery.id delivery.applicationId delivery.artifact (delivery.said sha256 M s.1).2
    delivery.time s.2 rfl
  · left
    rw [hfiled]
    exact ⟨rfl, nofun⟩
  · right
    refine ⟨_, congrArg Table.rows hrows, accounts_registryRecord sha256 rfl hclean, ?_⟩
    intro answer h
    obtain ⟨rfl, digest, hdigest⟩ := hok answer h
    refine ⟨rfl, ?_⟩
    rw [hdigest]
    rfl

/-! ## Any deliveries -/

/-- **Deliveries filed.** Over any run of deliveries, to any remote registry and to the one in the
process: every row is that of one delivery, accounts for it in the world it found, and says
`verified` exactly if the digest was confirmed there; and every delivery that answered with a record
has its verified row at the end. -/
theorem deliveries_filed (runtime : ProviderRuntime) (M : Machine σ HttpRequest HttpAnswer)
    (w : Registries σ) (calls : List Delivery) :
    (∀ row ∈ ((deliveries sha256 runtime M).run (w, Table.empty) calls).2.rows,
      ∃ before delivery after, calls = before ++ delivery :: after ∧
        Accounts sha256 runtime M ((deliveries sha256 runtime M).run (w, Table.empty) before).1
          delivery row) ∧
    ∀ before delivery after record, calls = before ++ delivery :: after →
      (deliveries sha256 runtime M).answer
        ((deliveries sha256 runtime M).run (w, Table.empty) before) delivery = .ok record →
      ∃ row ∈ ((deliveries sha256 runtime M).run (w, Table.empty) calls).2.rows,
        row.record = { record with detail := row.record.detail } ∧
          row.record.status = "verified" := by
  constructor
  · intro row hrow
    have horigin := (deliveries sha256 runtime M).run_mem_origin
      (fun s => s.2.rows) (Q := fun s delivery row =>
        Accounts sha256 runtime M s.1 delivery row) ?_ hrow
    · obtain hinitial | horigin := horigin
      · cases hinitial
      · exact horigin
    · intro s delivery r hr
      obtain ⟨hsame, -⟩ | ⟨row', hrows, haccounts, -⟩ :=
        next_rows_cases sha256 runtime M s delivery
      · rw [hsame] at hr
        exact .inl hr
      · rw [hrows, List.mem_append, List.mem_singleton] at hr
        obtain hold | rfl := hr
        · exact .inl hold
        · exact .inr haccounts
  · rintro before delivery after record rfl hrecord
    obtain ⟨-, hnone⟩ | ⟨row, hrows, -, hok⟩ := next_rows_cases sha256 runtime M
      ((deliveries sha256 runtime M).run (w, Table.empty) before) delivery
    · exact absurd hrecord (hnone record)
    · refine ⟨row, ?_, hok record hrecord⟩
      rw [Machine.run_append, Machine.run_cons]
      refine (deliveries sha256 runtime M).run_invariant_all
        (P := fun s => row ∈ s.2.rows) ?_ _ after ?_
      · intro s i hmem
        obtain ⟨hsame, -⟩ | ⟨row', hrows', -, -⟩ :=
          next_rows_cases sha256 runtime M s i
        · rwa [hsame]
        · rw [hrows']
          exact List.mem_append_left _ hmem
      · rw [hrows]
        exact List.mem_append_right _ (List.mem_singleton_self row)

end Labrys.ControlPlane
