import Labrys.ControlPlane.DispatchTargets
import Labrys.ControlPlane.HealthEndpoint

/-! # What a reader of one application sees of another

Two installations that differ only in what belongs to one application are read through the logs,
health and doctor endpoints of another one, through `labrys logs` and through the dashboard. Health
reads by application and environment. The others do not filter: the log store, the number of dead
letters and the failed evidence are shown to every application (`reads_isolated_iff`).

* `ReadDb.SameBut`: the two databases differ only in one application's records.
* `ReadDb.SharedSame`: what is shown to every application is the same. -/

namespace Labrys.ControlPlane
open Foundations Labrys.Core
set_option autoImplicit false

/-! ## What is one application's own -/

/-- The leading segment of a job's target names its application. -/
def JobRow.isOf (id : ApplicationId) (row : JobRow) : Bool :=
  decide (TaggedId.parse "app" (ProviderJobDispatcher.firstSegment row.target) = some id)

/-- The databases differ only in the logs, evidence, jobs, deployments and events of one
application. -/
structure ReadDb.SameBut (id : ApplicationId) (s t : ReadDb) : Prop where
  rest : t =
    { s with
      api := { s.api with
        deployments := t.api.deployments
        db := { s.api.db with jobs := t.api.db.jobs, events := t.api.db.events } }
      createdAt := t.createdAt
      logs := t.logs
      evidence := t.evidence }
  logs : Foundations.SameBut (LogEntry.isOf id) s.logs.rows t.logs.rows
  evidence : Foundations.SameBut (fun row : EvidenceRow => decide (row.applicationId = some id))
    s.evidence.rows t.evidence.rows
  jobs : Foundations.SameBut (JobRow.isOf id) s.api.db.jobs.jobs.rows t.api.db.jobs.jobs.rows
  deployments : Foundations.SameBut (fun d : Deployment => decide (d.applicationId = id))
    s.api.deployments.rows t.api.deployments.rows
  createdAt : ∀ d ∈ s.api.deployments.rows, d.applicationId ≠ id →
    s.createdAt d.id = t.createdAt d.id
  events : Foundations.SameBut
    (fun event : EventDraft => decide (event.correlation.applicationId = some id))
    s.api.db.events t.api.db.events

/-! ## What every application is shown -/

def ReadDb.entries (s : ReadDb) : List LogEntry :=
  sortByKey (fun entry : LogEntry => entry.sequence.toNat) s.logs.rows

/-- What the doctor shows of a failed check. -/
def shownEvidence (record : VerificationEvidence) : String × String :=
  (record.toEventDetail,
    record.recovery.getD "inspect the failing check and re-run verification")

/-- The same lines of the log, as far as they are shown, as many dead letters, and the same failed
checks, as far as they are shown. -/
structure ReadDb.SharedSame (s t : ReadDb) : Prop where
  logs : s.entries.map LogEntry.shown = t.entries.map LogEntry.shown
  dead : (PgJobQueue.deadLetters s).length = (PgJobQueue.deadLetters t).length
  evidence : (failedEvidence s).map shownEvidence = (failedEvidence t).map shownEvidence

section Isolation
variable {mine other : ApplicationId} {s t : ReadDb}

/-! ## Health -/

theorem listForEnvironment_of_sameBut (h : s.SameBut other t) (hne : mine ≠ other)
    (environmentId : EnvironmentId) :
    PgDeploymentStore.listForEnvironment mine environmentId s =
      PgDeploymentStore.listForEnvironment mine environmentId t := by
  have hrows : (s.api.deployments.rows.filter fun d =>
        decide (d.applicationId = mine ∧ d.environmentId = environmentId)) =
      t.api.deployments.rows.filter fun d =>
        decide (d.applicationId = mine ∧ d.environmentId = environmentId) := by
    refine h.deployments.filter fun d hd => ?_
    have hmine : d.applicationId = mine := (of_decide_eq_true hd).1
    simp [hmine, hne]
  have hcreated : ∀ d ∈ s.api.deployments.rows.filter fun d =>
        decide (d.applicationId = mine ∧ d.environmentId = environmentId),
      s.createdAt d.id = t.createdAt d.id := by
    intro d hd
    obtain ⟨hrow, hmine⟩ := List.mem_filter.mp hd
    exact h.createdAt d hrow fun heq => hne ((of_decide_eq_true hmine).1.symm.trans heq)
  unfold PgDeploymentStore.listForEnvironment
  rw [← hrows]
  have hsorted := List.map_insertionSort s.listsBefore t.listsBefore id
    (s.api.deployments.rows.filter fun d =>
      decide (d.applicationId = mine ∧ d.environmentId = environmentId)) fun a ha b hb => by
        simp only [ReadDb.listsBefore, id, hcreated a ha, hcreated b hb]
  simpa using hsorted

theorem deployTarget_eq (app : Application) (environment : EnvironmentRow) :
    deployTarget app environment = toString app.id ++ ":" ++ ("deploy:" ++ environment.name) := by
  have hcolon : ":deploy:" = ":" ++ "deploy:" := by decide
  change toString app.id ++ ":deploy:" ++ environment.name = _
  rw [hcolon, String.append_assoc, String.append_assoc, String.append_assoc]

/-- The deploy job of an environment is its application's own. -/
theorem isOf_of_target {app : Application} (happ : app.id ≠ other) {environment : EnvironmentRow}
    {row : JobRow} (hrow : row.target = deployTarget app environment) :
    row.isOf other = false := by
  unfold JobRow.isOf
  rw [hrow, deployTarget_eq, ProviderJobDispatcher.parse_firstSegment, decide_eq_false_iff_not,
    Option.some.injEq]
  exact happ

theorem latestForTarget_of_sameBut (h : s.SameBut other t) {app : Application}
    (happ : app.id ≠ other) (environment : EnvironmentRow) :
    PgJobQueue.latestForTarget (deployTarget app environment) s =
      PgJobQueue.latestForTarget (deployTarget app environment) t := by
  have hrows : (s.api.db.jobs.jobs.rows.filter fun row =>
        decide (row.target = deployTarget app environment)) =
      t.api.db.jobs.jobs.rows.filter fun row =>
        decide (row.target = deployTarget app environment) :=
    h.jobs.filter fun row hrow => isOf_of_target happ (of_decide_eq_true hrow)
  unfold PgJobQueue.latestForTarget
  dsimp only
  rw [hrows]

/-- Health is read by application and environment. -/
theorem healthResponse_of_sameBut (h : s.SameBut other t) {app : Application}
    (happ : app.id ≠ other) (query : PageQuery) (ctx : ActorContext) :
    healthResponse query ctx app s = healthResponse query ctx app t := by
  have hfound : ∀ environment, environmentHealth app environment s =
      environmentHealth app environment t := by
    intro environment
    unfold environmentHealth currentDeployment
    rw [listForEnvironment_of_sameBut h happ, latestForTarget_of_sameBut h happ]
  unfold healthResponse
  simp only [hfound]

/-! ## Logs -/

theorem wanted_nodup (query : PageQuery) : query.wanted.Nodup := by
  unfold PageQuery.wanted
  cases query.source with
  | none => decide
  | some name =>
    dsimp only
    cases LogSource.all.find? fun source => decide (source.canonicalName = name) with
    | none => exact List.nodup_nil
    | some source => exact List.nodup_singleton source

/-- The lines of the wanted sources, in the order of the log. -/
theorem wantedEntries_eq (query : PageQuery) (s : ReadDb) :
    wantedEntries query s =
      s.entries.filter fun entry => decide (entry.source ∈ query.wanted) := by
  have hnodup : (s.logs.rows.map fun entry : LogEntry => entry.sequence.toNat).Nodup := by
    have hkeys := s.logs.nodup.map (f := UInt64.toNat) fun a b hab => UInt64.toNat_inj.mp hab
    rwa [List.map_map] at hkeys
  exact sortByKey_flatMap (fun entry : LogEntry => entry.source) hnodup (wanted_nodup query)

theorem logItem_eq_iff {a b : LogEntry} : logItem a = logItem b ↔ a.shown = b.shown := by
  simp only [logItem, LogEntry.shown, Json.object.injEq, List.cons.injEq, Prod.mk.injEq,
    Json.number.injEq, Json.string.injEq, Nat.cast_inj, UInt64.toNat_inj,
    LogSource.canonicalName_injective.eq_iff, LogLevel.lowercase_injective.eq_iff, true_and,
    and_true]

theorem map_page {α β : Type} (f : α → β) (limit offset : ℕ) (xs : List α) :
    (page limit offset xs).map f = page limit offset (xs.map f) := by
  rw [page, page, List.map_take, List.map_drop]

theorem logsData_of_shown (query : PageQuery)
    (h : s.entries.map LogEntry.shown = t.entries.map LogEntry.shown) :
    logsData query (wantedEntries query s) = logsData query (wantedEntries query t) := by
  have hselects : ∀ a b : LogEntry, a.shown = b.shown →
      decide (a.source ∈ query.wanted) = decide (b.source ∈ query.wanted) := by
    intro a b hab
    simp only [LogEntry.shown, Prod.mk.injEq] at hab
    rw [hab.2.1]
  have hshown : (wantedEntries query s).map LogEntry.shown =
      (wantedEntries query t).map LogEntry.shown := by
    rw [wantedEntries_eq, wantedEntries_eq]
    exact filter_shown hselects h
  have hitems := map_eq_of_shown (fun a b => logItem_eq_iff.mpr) hshown
  have hlength : (wantedEntries query s).length = (wantedEntries query t).length := by
    simpa using congrArg List.length hshown
  unfold logsData
  rw [map_page, map_page, hitems, hlength]

/-- The query for one line of the log. -/
def oneLine (i : ℕ) : PageQuery := ⟨some 1, some i, none, none⟩

/-- The pages of one line each tell what the log shows. -/
theorem shown_of_pages (h : ∀ i, logsData (oneLine i) (wantedEntries (oneLine i) s) =
      logsData (oneLine i) (wantedEntries (oneLine i) t)) :
    s.entries.map LogEntry.shown = t.entries.map LogEntry.shown := by
  have hall : ∀ (i : ℕ) (r : ReadDb), wantedEntries (oneLine i) r = r.entries := by
    intro i r
    rw [wantedEntries_eq]
    refine List.filter_eq_self.mpr fun entry _ => decide_eq_true ?_
    change entry.source ∈ LogSource.all
    cases entry.source <;> decide
  have hclamp : ∀ i, clampPage (oneLine i) = (1, i) := by
    intro i
    simp [clampPage, oneLine]
  have hitems : s.entries.map logItem = t.entries.map logItem := by
    refine eq_of_page_eq fun i => ?_
    have hdata := h i
    simp only [logsData, hall, hclamp, Json.object.injEq, List.cons.injEq, Prod.mk.injEq,
      Json.array.injEq, true_and, and_true, map_page] at hdata
    exact hdata.2
  rw [← List.forall₂_eq_eq_eq, List.forall₂_map_left_iff, List.forall₂_map_right_iff] at hitems ⊢
  exact hitems.imp fun a b => logItem_eq_iff.mp

theorem data_of_envelope {command : String} {ctx : ActorContext} {replayed : Bool}
    {resource : Option Json} {data data' : Json} {job : Option Job} {recovery : Option String}
    (h : envelope command ctx replayed resource (some data) job recovery =
      envelope command ctx replayed resource (some data') job recovery) : data = data' := by
  simp only [envelope, Json.object.injEq, List.cons.injEq, Prod.mk.injEq, true_and, and_true,
    Json.ofOption] at h
  exact h

/-! ## Doctor -/

theorem errorFinding_inj {code message recovery code' message' recovery' : String} :
    errorFinding code message recovery = errorFinding code' message' recovery' ↔
      code = code' ∧ message = message' ∧ recovery = recovery' := by
  simp [errorFinding]

theorem evidenceFinding_eq_iff {a b : VerificationEvidence} :
    evidenceFinding a = evidenceFinding b ↔ shownEvidence a = shownEvidence b := by
  rw [evidenceFinding, evidenceFinding, errorFinding_inj, shownEvidence, shownEvidence,
    Prod.mk.injEq]
  simp

theorem deadFindings_eq_iff {xs ys : List JobId} :
    deadFindings xs = deadFindings ys ↔ xs.length = ys.length := by
  cases xs with
  | nil => cases ys <;> simp [deadFindings]
  | cons x xs =>
    cases ys with
    | nil => simp [deadFindings]
    | cons y ys =>
      have hmessage : ∀ n : ℕ, s!"{n} job(s) exhausted retries" =
          toString n ++ " job(s) exhausted retries" := fun _ => rfl
      simp only [deadFindings, List.cons_ne_nil, if_false, List.cons.injEq, and_true,
        errorFinding_inj, true_and, hmessage, String.append_left_inj,
        toString_nat_injective.eq_iff]

theorem map_evidenceFinding_eq_iff {xs ys : List VerificationEvidence} :
    xs.map evidenceFinding = ys.map evidenceFinding ↔
      xs.map shownEvidence = ys.map shownEvidence := by
  rw [← List.forall₂_eq_eq_eq, ← List.forall₂_eq_eq_eq, List.forall₂_map_left_iff,
    List.forall₂_map_right_iff, List.forall₂_map_left_iff, List.forall₂_map_right_iff]
  exact ⟨fun h => h.imp fun a b => evidenceFinding_eq_iff.mp,
    fun h => h.imp fun a b => evidenceFinding_eq_iff.mpr⟩

/-- The finding on dead letters is none of those on evidence, so the two parts are told apart. -/
theorem findings_eq_iff {xs ys : List JobId} {es fs : List VerificationEvidence} :
    deadFindings xs ++ es.map evidenceFinding = deadFindings ys ++ fs.map evidenceFinding ↔
      deadFindings xs = deadFindings ys ∧ es.map evidenceFinding = fs.map evidenceFinding := by
  have hapart : ∀ (gs : List VerificationEvidence) (message recovery : String),
      errorFinding "doctor.dead_letters" message recovery ∉ gs.map evidenceFinding := by
    intro gs message recovery hmem
    obtain ⟨record, -, hrecord⟩ := List.mem_map.mp hmem
    have hcode := (errorFinding_inj.mp hrecord).1
    simp at hcode
  refine ⟨fun h => ?_, fun h => by rw [h.1, h.2]⟩
  unfold deadFindings at h ⊢
  split_ifs at h ⊢ with hxs hys hys
  · exact ⟨rfl, h⟩
  · have hmem : _ ∈ es.map evidenceFinding := h ▸ List.mem_append_left _ (List.mem_singleton.mpr rfl)
    exact absurd hmem (hapart es _ _)
  · have hmem : _ ∈ fs.map evidenceFinding :=
      h.symm ▸ List.mem_append_left _ (List.mem_singleton.mpr rfl)
    exact absurd hmem (hapart fs _ _)
  · obtain ⟨hdead, hevidence⟩ := List.cons.inj h
    exact ⟨congrArg (fun finding => [finding]) hdead, hevidence⟩

theorem doctorFindings_eq_iff (h : s.SameBut other t) {app : Application}
    (happ : app.id ≠ other) :
    doctorFindings app s = doctorFindings app t ↔
      (PgJobQueue.deadLetters s).length = (PgJobQueue.deadLetters t).length ∧
        (failedEvidence s).map shownEvidence = (failedEvidence t).map shownEvidence := by
  have hhealth : healthFinding app s = healthFinding app t := by
    funext environment
    unfold healthFinding
    rw [listForEnvironment_of_sameBut h happ]
  have hplugins : t.plugins = s.plugins := by rw [h.rest]
  unfold doctorFindings
  rw [hhealth, hplugins, List.append_left_inj, List.append_assoc, List.append_assoc,
    List.append_right_inj, findings_eq_iff, deadFindings_eq_iff, map_evidenceFinding_eq_iff]

theorem doctorResponse_eq_iff (h : s.SameBut other t) {app : Application} (happ : app.id ≠ other)
    (ctx : ActorContext) :
    doctorResponse ctx app s = doctorResponse ctx app t ↔
      (PgJobQueue.deadLetters s).length = (PgJobQueue.deadLetters t).length ∧
        (failedEvidence s).map shownEvidence = (failedEvidence t).map shownEvidence := by
  rw [← doctorFindings_eq_iff h happ]
  constructor
  · intro heq
    have hdata := data_of_envelope heq
    simp only [Json.object.injEq, List.cons.injEq, Prod.mk.injEq, Json.array.injEq, true_and,
      and_true] at hdata
    exact hdata.2
  · intro heq
    obtain ⟨hdead, hevidence⟩ := (doctorFindings_eq_iff h happ).mp heq
    have hplugins : t.plugins = s.plugins := by rw [h.rest]
    have hok : doctorOk s = doctorOk t := by
      have hdeadNil : PgJobQueue.deadLetters s = [] ↔ PgJobQueue.deadLetters t = [] := by
        rw [← List.length_eq_zero_iff, hdead, List.length_eq_zero_iff]
      have hevidenceNil : failedEvidence s = [] ↔ failedEvidence t = [] := by
        rw [← List.map_eq_nil_iff, hevidence, List.map_eq_nil_iff]
      unfold doctorOk
      rw [hplugins]
      simp only [hdeadNil, hevidenceNil]
    unfold doctorResponse
    rw [heq, hok]

end Isolation

/-! ## Two installations -/

/-- The tables that applications are loaded from. -/
def ApiDb.registry (s : ApiDb) :
    Table (fun row : ApplicationRow => row.id) × Table (fun row : EnvironmentRow => row.id) :=
  (s.applications, s.environments)

theorem respects_registry_reading {α : Type} {handler : Fault ControlPlaneError → Fault ApiError}
    {f : Platform → Outcome ControlPlaneError α}
    (hf : ∀ s s' : ApiDb, s'.registry = s.registry → f s'.platform = f s.platform) :
    (statement handler (reading f)).Respects ApiDb.registry := by
  intro s
  refine ⟨trivial, fun s' hs => ⟨hs, ?_⟩⟩
  change Script.done ((f s'.platform).mapError handler) =
    Script.done ((f s.platform).mapError handler)
  rw [hf s s' hs]

theorem respects_registry_loadApp (ctx : ActorContext) (raw : String) :
    (loadApp ctx raw).Respects ApiDb.registry := by
  unfold loadApp
  dsimp only
  split
  · trivial
  · refine Script.Respects.bind (respects_registry_reading fun s s' hs => ?_) fun _ =>
      Script.Respects.bind (respects_registry_reading fun s s' hs => ?_) fun _ => trivial
    · change found _ (s'.applications.get _) = found _ (s.applications.get _)
      rw [(Prod.mk.inj hs).1]
    · change Except.ok ((s'.environments.rows.filter _).insertionSort _) =
        Except.ok ((s.environments.rows.filter _).insertionSort _)
      rw [(Prod.mk.inj hs).2]

section Isolated
variable {mine other : ApplicationId} {s t : ReadDb} {api : ApiState} {headers : Headers}
  {draws : Draws} {raw : String} {ctx : ActorContext} {app : Application}

/-- The request is admitted and its application registered in both databases. -/
theorem Reads.of_sameBut (hreads : Reads api headers draws raw ctx app s)
    (h : s.SameBut other t) : Reads api headers draws raw ctx app t where
  actor := hreads.actor
  loaded := by
    have hregistry : t.api.registry = s.api.registry := by rw [h.rest]; rfl
    rw [((respects_registry_loadApp ctx raw).run_congr hregistry).2, hreads.loaded]

/-- The responses to one application are the same in both installations: its logs, health and
doctor in the API, its logs in the CLI, and its dashboard. -/
structure SameAnswers (api : ApiState) (headers : Headers) (draws : Draws) (raw : String)
    (s t : ReadDb) (formats : Formats) (secrets : List String) (mine : ApplicationId)
    (u v : PlatformState) : Prop where
  logs : ∀ query, (logs api headers draws raw query s).2 = (logs api headers draws raw query t).2
  health : ∀ query,
    (health api headers draws raw query s).2 = (health api headers draws raw query t).2
  doctor : (doctor api headers draws raw s).2 = (doctor api headers draws raw t).2
  cli : ∀ (cli : Cli) (input : CliInput), input.request.command = .logs →
    input.request.applicationId = some mine →
    (Cli.execute formats secrets ⟨cli, u⟩ input).2 = (Cli.execute formats secrets ⟨cli, v⟩ input).2
  dashboard : ∀ environment now,
    renderDashboard formats u mine environment now = renderDashboard formats v mine environment now

theorem logs_of_shown (hreads : Reads api headers draws raw ctx app s) (h : s.SameBut other t)
    (hshown : s.entries.map LogEntry.shown = t.entries.map LogEntry.shown) (query : PageQuery) :
    (logs api headers draws raw query s).2 = (logs api headers draws raw query t).2 := by
  by_cases hsource : query.source.isSome ∧ query.wanted = []
  · obtain ⟨name, hname⟩ := Option.isSome_iff_exists.mp hsource.1
    rw [hreads.logs_refused hname hsource.2, (hreads.of_sameBut h).logs_refused hname hsource.2]
  · rw [hreads.logs hsource, (hreads.of_sameBut h).logs hsource, logsData_of_shown query hshown]

theorem shown_of_logs_api (hreads : Reads api headers draws raw ctx app s)
    (h : s.SameBut other t)
    (hlogs : ∀ query,
      (logs api headers draws raw query s).2 = (logs api headers draws raw query t).2) :
    s.entries.map LogEntry.shown = t.entries.map LogEntry.shown := by
  refine shown_of_pages fun i => ?_
  have hsource : ¬ ((oneLine i).source.isSome ∧ (oneLine i).wanted = []) := by simp [oneLine]
  have hsame := hlogs (oneLine i)
  rw [hreads.logs hsource, (hreads.of_sameBut h).logs hsource] at hsame
  exact data_of_envelope (Except.ok.inj hsame)

/-- **Reads are isolated up to what every application is shown.** For two installations that differ
only in what belongs to another application, an application gets the same responses exactly if the
logs show the same lines, as many jobs are dead letters, and the same checks have failed. -/
theorem reads_isolated_iff (hne : mine ≠ other) (hdb : s.SameBut other t)
    (hreads : Reads api headers draws raw ctx app s) (hmine : app.id = mine)
    {u v : PlatformState} (hstate : PlatformState.SameBut other u v) (hknown : u.knows mine = true)
    (formats : Formats) (secrets : List String) :
    SameAnswers api headers draws raw s t formats secrets mine u v ↔
      s.SharedSame t ∧ u.logs.shown = v.logs.shown := by
  have happ : app.id ≠ other := hmine ▸ hne
  have hreads' := hreads.of_sameBut hdb
  constructor
  · intro h
    have hdoctor := h.doctor
    rw [hreads.doctor, hreads'.doctor] at hdoctor
    obtain ⟨hdead, hevidence⟩ :=
      (doctorResponse_eq_iff hdb happ ctx).mp (Except.ok.inj hdoctor)
    refine ⟨⟨shown_of_logs_api hreads hdb h.logs, hdead, hevidence⟩, ?_⟩
    have hknown' : v.knows mine = true := (hstate.knows mine).trans hknown
    exact shown_of_logs hknown hknown' (h.cli .new (logsInput mine) rfl rfl)
  · rintro ⟨hshared, hshown⟩
    refine ⟨logs_of_shown hreads hdb hshared.logs, fun query => ?_, ?_, ?_, ?_⟩
    · rw [hreads.health, hreads'.health, healthResponse_of_sameBut hdb happ]
    · rw [hreads.doctor, hreads'.doctor,
        (doctorResponse_eq_iff hdb happ ctx).mpr ⟨hshared.dead, hshared.evidence⟩]
    · exact fun cli input => execute_logs_of_shown formats secrets hstate hshown cli input
    · exact renderDashboard_of_shown formats hstate hne hshown

end Isolated

/-! ## Two neighbours -/

def smallState : PlatformState :=
  PlatformState.new.addApplication smallApplication ["development", "production"]

/-- `smallReads` with a deployment of another application. -/
def deployedNextDoor : ReadDb :=
  { smallReads with
    api := { smallDb with deployments := ⟨[foreignDeployment], by decide⟩ } }

theorem reads_isolated_deployedNextDoor :
    smallReads.SameBut ⟨2⟩ deployedNextDoor ∧
      SameAnswers (smallApi []) (humanRequest 1 "k-1" (.deploy "" emptyBody)).headers (smallDraws 1)
        (toString smallApplication) smallReads deployedNextDoor ⟨fun _ => "", id⟩ []
        smallApplication smallState smallState := by
  have hdb : smallReads.SameBut ⟨2⟩ deployedNextDoor :=
    ⟨rfl, rfl, rfl, rfl, rfl, fun _ _ _ => rfl, rfl⟩
  have hstate : PlatformState.SameBut ⟨2⟩ smallState smallState :=
    ⟨rfl, rfl, rfl, fun _ _ => rfl⟩
  refine ⟨hdb, (reads_isolated_iff (by decide) hdb (reads_savedHistory []) rfl hstate
    (by decide) _ _).mpr ⟨⟨rfl, rfl, rfl⟩, rfl⟩⟩

/-- A line that another application logged. -/
def foreignLine : LogEntry where
  sequence := 1
  time := 0
  source := .runtime
  level := .info
  correlation := { Correlation.new "trace-9" with applicationId := some ⟨2⟩ }
  message := "charging card 4242"

/-- Every application is shown it. -/
theorem foreign_line_shown :
    let t : ReadDb := { smallReads with logs := ⟨[foreignLine], by decide⟩ }
    smallApplication ≠ ⟨2⟩ ∧ smallReads.SameBut ⟨2⟩ t ∧
      ¬ SameAnswers (smallApi []) (humanRequest 1 "k-1" (.deploy "" emptyBody)).headers
        (smallDraws 1) (toString smallApplication) smallReads t ⟨fun _ => "", id⟩ []
        smallApplication smallState smallState := by
  intro t
  have hdb : smallReads.SameBut ⟨2⟩ t :=
    ⟨rfl, rfl, rfl, rfl, rfl, fun _ _ _ => rfl, rfl⟩
  refine ⟨by decide, hdb, fun hsame => ?_⟩
  have hshown := shown_of_logs_api (reads_savedHistory []) hdb hsame.logs
  exact absurd hshown (by decide)

end Labrys.ControlPlane
