import Labrys.ControlPlane.ReadApi
import Labrys.Core.DeploymentRollback

/-! # The health endpoint against the rollout

The API has no pointer to the deployment that serves: `health` takes the one whose last transition
is the latest. A promotion writes its transition on the deployment it supersedes, and a rollback
writes one on each side at the same time, so the endpoint finds the rollout's current deployment
only when none of the others has moved since (`health_agrees_iff`).

* `StoredIn`: the store lists the deployments of the rollout for its environment, as it does once
  they are saved (`storedIn_saveAll`).
* `NoneMovedSince`: no other deployment has moved since the current one. -/

namespace Labrys.ControlPlane
open Foundations Labrys.Core
set_option autoImplicit false

/-! ## The listing -/

section Listing
variable {s : ReadDb} {applicationId : ApplicationId} {environmentId : EnvironmentId}

theorem listsBefore_total (s : ReadDb) (a b : Deployment) :
    s.listsBefore a b ∨ s.listsBefore b a := by
  unfold ReadDb.listsBefore
  obtain hlt | heq | hgt := lt_trichotomy (s.createdAt a.id) (s.createdAt b.id)
  · exact .inl (.inl hlt)
  · obtain hle | hle := String.le_total (toString a.id) (toString b.id)
    · exact .inl (.inr ⟨heq, hle⟩)
    · exact .inr (.inr ⟨heq.symm, hle⟩)
  · exact .inr (.inl hgt)

theorem listsBefore_trans {a b c : Deployment} (hab : s.listsBefore a b)
    (hbc : s.listsBefore b c) : s.listsBefore a c := by
  obtain hab | ⟨hab, hab'⟩ := hab
  · obtain hbc | ⟨hbc, -⟩ := hbc
    · exact .inl (hab.trans hbc)
    · exact .inl (hbc ▸ hab)
  · obtain hbc | ⟨hbc, hbc'⟩ := hbc
    · exact .inl (hab ▸ hbc)
    · exact .inr ⟨hab.trans hbc, String.le_trans hab' hbc'⟩

theorem listsBefore_antisymm {a b : Deployment} (hab : s.listsBefore a b)
    (hba : s.listsBefore b a) : a.id = b.id := by
  obtain hab | ⟨hab, hab'⟩ := hab
  · obtain hba | ⟨hba, -⟩ := hba
    · exact absurd hba hab.not_gt
    · exact absurd hba hab.ne'
  · obtain hba | ⟨-, hba'⟩ := hba
    · exact absurd hab hba.ne'
    · exact TaggedId.toString_injective (String.le_antisymm hab' hba')

theorem mem_listForEnvironment {d : Deployment} :
    d ∈ PgDeploymentStore.listForEnvironment applicationId environmentId s ↔
      d ∈ s.api.deployments.rows ∧ d.applicationId = applicationId ∧
        d.environmentId = environmentId := by
  rw [PgDeploymentStore.listForEnvironment, List.mem_insertionSort, List.mem_filter,
    decide_eq_true_iff]

theorem listForEnvironment_pairwise (applicationId : ApplicationId)
    (environmentId : EnvironmentId) (s : ReadDb) :
    (PgDeploymentStore.listForEnvironment applicationId environmentId s).Pairwise
      s.listsBefore := by
  have : Std.Total s.listsBefore := ⟨listsBefore_total s⟩
  have : IsTrans Deployment s.listsBefore := ⟨fun _ _ _ => listsBefore_trans⟩
  exact List.pairwise_insertionSort _ _

theorem listForEnvironment_nodup (applicationId : ApplicationId) (environmentId : EnvironmentId)
    (s : ReadDb) :
    (PgDeploymentStore.listForEnvironment applicationId environmentId s).Nodup := by
  have hrows : s.api.deployments.rows.Nodup := List.Nodup.of_map _ s.api.deployments.nodup
  exact (List.perm_insertionSort _ _).nodup_iff.mpr (hrows.filter _)

/-- A row of the table is known by its id. -/
theorem eq_of_id_eq {d e : Deployment} (hd : d ∈ s.api.deployments.rows)
    (he : e ∈ s.api.deployments.rows) (h : d.id = e.id) : d = e :=
  List.inj_on_of_nodup_map s.api.deployments.nodup hd he h

end Listing

/-! ## The rollout and the store -/

/-- The store lists for the environment the deployments of the rollout, and no other ones. -/
def StoredIn (r : Rollout) (applicationId : ApplicationId) (environmentId : EnvironmentId)
    (s : ReadDb) : Prop :=
  (PgDeploymentStore.listForEnvironment applicationId environmentId s).Perm r.deployments

/-- Every other deployment of the rollout moved last before `d` did, or at the same time and is
listed before it: it was first saved earlier, or at the same time under a smaller id. -/
def NoneMovedSince (r : Rollout) (s : ReadDb) (d : Deployment) : Prop :=
  ∀ e ∈ r.deployments, e.id ≠ d.id → e.lastTransition.time < d.lastTransition.time ∨
    (e.lastTransition.time = d.lastTransition.time ∧ s.listsBefore e d)

instance (r : Rollout) (s : ReadDb) (d : Deployment) : Decidable (NoneMovedSince r s d) :=
  inferInstanceAs (Decidable (∀ e ∈ r.deployments, e.id ≠ d.id →
    e.lastTransition.time < d.lastTransition.time ∨
      (e.lastTransition.time = d.lastTransition.time ∧ s.listsBefore e d)))

/-! ## Saving the rollout -/

namespace PgDeploymentStore

/-- `save`: the record is replaced by id, and `created_at` is bound by the first save only. -/
def save (now : DateTime) (d : Deployment) (s : ReadDb) : ReadDb :=
  { s with
    api := { s.api with
      deployments := s.api.deployments.upsert d (fun old => { d with id := old.id }) fun _ => rfl }
    createdAt := fun id =>
      if id = d.id ∧ (s.api.deployments.get id).isNone then now else s.createdAt id }

/-- The deployments of a rollout saved one after the other, each at its own time. -/
def saveAll (time : Deployment → DateTime) (deployments : List Deployment) (s : ReadDb) : ReadDb :=
  deployments.foldl (fun s d => save (time d) d s) s

variable {time : Deployment → DateTime} {s : ReadDb}

theorem get_save (now : DateTime) (d : Deployment) (id : DeploymentId) :
    (save now d s).api.deployments.get id =
      if id = d.id then some d else s.api.deployments.get id := by
  by_cases hid : id = d.id
  · rw [if_pos hid, hid]
    refine (Table.get_upsert_self _ d _ _).trans ?_
    cases hget : s.api.deployments.get d.id with
    | none => rfl
    | some old =>
      have hold : old.id = d.id := Table.key_of_get hget
      rw [Option.map_some, Option.getD_some, hold]
  · rw [if_neg hid]
    exact Table.get_upsert_of_ne _ d _ _ hid

theorem get_saveAll {deployments : List Deployment}
    (hnodup : (deployments.map (·.id)).Nodup) (id : DeploymentId) :
    (saveAll time deployments s).api.deployments.get id =
      (deployments.find? fun d => decide (d.id = id)).or (s.api.deployments.get id) := by
  induction deployments generalizing s with
  | nil => rfl
  | cons d rest ih =>
    rw [List.map_cons, List.nodup_cons] at hnodup
    have hsaved := ih (s := save (time d) d s) hnodup.2
    rw [get_save] at hsaved
    rw [List.find?_cons]
    by_cases hid : d.id = id
    · have hfree : (rest.find? fun e => decide (e.id = id)) = none := by
        rw [List.find?_eq_none]
        intro e he heq
        have heid : e.id = id := by simpa using heq
        exact hnodup.1 (List.mem_map.mpr ⟨e, he, heid.trans hid.symm⟩)
      rw [hfree, if_pos hid.symm] at hsaved
      rw [decide_eq_true hid]
      exact hsaved
    · rw [if_neg fun heq => hid heq.symm] at hsaved
      rw [decide_eq_false hid]
      exact hsaved

end PgDeploymentStore

/-- Deployments of an environment that had none are listed once they are saved. -/
theorem storedIn_saveAll {r : Rollout} (hnodup : (r.deployments.map (·.id)).Nodup)
    {applicationId : ApplicationId} {environmentId : EnvironmentId} (time : Deployment → DateTime)
    {s : ReadDb} (hown : ∀ d ∈ r.deployments,
      d.applicationId = applicationId ∧ d.environmentId = environmentId)
    (hnone : PgDeploymentStore.listForEnvironment applicationId environmentId s = []) :
    StoredIn r applicationId environmentId (PgDeploymentStore.saveAll time r.deployments s) := by
  refine (List.perm_ext_iff_of_nodup (listForEnvironment_nodup _ _ _)
    (List.Nodup.of_map _ hnodup)).mpr fun d => ?_
  rw [mem_listForEnvironment, Table.mem_rows_iff, PgDeploymentStore.get_saveAll hnodup]
  constructor
  · rintro ⟨hget, hmine⟩
    cases hfind : r.deployments.find? fun e => decide (e.id = d.id) with
    | some e =>
      rw [hfind, Option.some_or, Option.some.injEq] at hget
      rw [← hget]
      exact List.mem_of_find?_eq_some hfind
    | none =>
      rw [hfind, Option.none_or] at hget
      have hlisted : d ∈ PgDeploymentStore.listForEnvironment applicationId environmentId s :=
        mem_listForEnvironment.mpr ⟨Table.mem_of_get hget, hmine⟩
      rw [hnone] at hlisted
      cases hlisted
  · intro hd
    have hfind : (r.deployments.find? fun e => decide (e.id = d.id)) = some d := by
      cases hfound : r.deployments.find? fun e => decide (e.id = d.id) with
      | none =>
        have hnot := List.find?_eq_none.mp hfound d hd
        simp at hnot
      | some e =>
        have heid : e.id = d.id := by simpa using List.find?_some hfound
        rw [List.inj_on_of_nodup_map hnodup (List.mem_of_find?_eq_some hfound) hd heid]
    rw [hfind, Option.some_or]
    exact ⟨rfl, hown d hd⟩

/-! ## Which deployment the endpoint takes -/

section Current
variable {r : Rollout} {app : Application} {environment : EnvironmentRow} {s : ReadDb}
  {d : Deployment}

/-- The endpoint takes a deployment of the rollout for the current one exactly if none of the
others has moved since. -/
theorem currentDeployment_eq_some_iff (hstored : StoredIn r app.id environment.id s)
    (hd : d ∈ r.deployments) :
    currentDeployment app environment s = some d ↔ NoneMovedSince r s d := by
  have hrows : ∀ e ∈ PgDeploymentStore.listForEnvironment app.id environment.id s,
      e ∈ s.api.deployments.rows := fun e he => (mem_listForEnvironment.mp he).1
  have hanti : ∀ e ∈ PgDeploymentStore.listForEnvironment app.id environment.id s,
      ∀ f ∈ PgDeploymentStore.listForEnvironment app.id environment.id s,
      s.listsBefore e f → s.listsBefore f e → e = f :=
    fun e he f hf hef hfe => eq_of_id_eq (hrows e he) (hrows f hf) (listsBefore_antisymm hef hfe)
  rw [currentDeployment, lastMaxBy_eq_some_iff, isLastMax_iff_of_pairwise
    (listForEnvironment_pairwise _ _ s) (listForEnvironment_nodup _ _ s) hanti]
  have hlisted := hstored.mem_iff.mpr hd
  constructor
  · rintro ⟨-, h⟩ e he hne
    exact h e (hstored.mem_iff.mpr he) fun heq => hne (congrArg (·.id) heq)
  · refine fun h => ⟨hlisted, fun e he hne => h e (hstored.mem_iff.mp he) fun hid => hne ?_⟩
    exact eq_of_id_eq (hrows e he) (hrows d hlisted) hid

end Current

/-! ## The response -/

/-- The entry of an environment that serves a healthy deployment. -/
def healthyEntry (environment : EnvironmentRow) (d : Deployment) : Json :=
  .object [("environment", .string environment.name), ("state", .string "healthy"),
    ("deployment", .string (toString d.id)), ("digest", .ofOption .string (d.image.map (·.digest))),
    ("job", .null)]

/-- The response has an entry that reports `d` as the healthy deployment of the environment. -/
def ReportsHealthy (response : Json) (environment : EnvironmentRow) (d : Deployment) : Prop :=
  ∃ data entries, response.get "data" = some data ∧
    data.get "environments" = some (.array entries) ∧ healthyEntry environment d ∈ entries

theorem reportsHealthy_healthResponse {query : PageQuery} {ctx : ActorContext} {app : Application}
    {s : ReadDb} {environment : EnvironmentRow} {d : Deployment} :
    ReportsHealthy (healthResponse query ctx app s) environment d ↔
      ∃ other ∈ query.environments app,
        (environmentHealth app other s).value other = healthyEntry environment d := by
  have hdata : (healthResponse query ctx app s).get "data" = some (.object
      [("state", .string (overallHealth ((query.environments app).map fun environment =>
          environmentHealth app environment s)).text),
        ("environments", .array ((query.environments app).map fun environment =>
          (environmentHealth app environment s).value environment))]) := rfl
  unfold ReportsHealthy
  rw [hdata]
  constructor
  · rintro ⟨data, entries, hsome, hentries, hmem⟩
    obtain rfl := Option.some.inj hsome
    have hlisted := Json.array.inj (Option.some.inj hentries)
    rw [← hlisted] at hmem
    exact List.mem_map.mp hmem
  · rintro ⟨other, hother, hvalue⟩
    exact ⟨_, _, rfl, rfl, List.mem_map.mpr ⟨other, hother, hvalue⟩⟩

section Entries
variable {app : Application} {environment other : EnvironmentRow} {s : ReadDb} {d : Deployment}

theorem value_of_current (hcurrent : currentDeployment app environment s = some d)
    (hhealthy : d.phase = .healthy) :
    (environmentHealth app environment s).value environment = healthyEntry environment d := by
  have hstate : ReportedState.ofPhase d.phase = .healthy := by rw [hhealthy]; rfl
  unfold environmentHealth
  rw [hcurrent]
  simp only [EnvironmentHealth.value, hstate, healthyEntry]
  rfl

/-- An entry that names a deployment is that of an environment the deployment is found for. -/
theorem current_of_value
    (h : (environmentHealth app other s).value other = healthyEntry environment d) :
    ∃ e, currentDeployment app other s = some e ∧ e.id = d.id := by
  unfold environmentHealth at h
  cases hcurrent : currentDeployment app other s with
  | none =>
    rw [hcurrent] at h
    simp [EnvironmentHealth.value, healthyEntry] at h
  | some e =>
    rw [hcurrent] at h
    simp only [EnvironmentHealth.value, healthyEntry, Json.object.injEq, List.cons.injEq,
      Prod.mk.injEq, Json.string.injEq, true_and] at h
    exact ⟨e, rfl, TaggedId.toString_injective h.2.2.1⟩

theorem currentDeployment_mem (h : currentDeployment app other s = some d) :
    d ∈ PgDeploymentStore.listForEnvironment app.id other.id s :=
  (lastMaxBy_eq_some_iff.mp h).mem

/-- A deployment is found for its own environment only. -/
theorem current_of_other {e : Deployment}
    (hd : d ∈ PgDeploymentStore.listForEnvironment app.id environment.id s)
    (he : currentDeployment app other s = some e) (hid : e.id = d.id) :
    currentDeployment app environment s = some d := by
  obtain ⟨hrow, -, henvironment⟩ := mem_listForEnvironment.mp hd
  obtain ⟨hrow', -, henvironment'⟩ := mem_listForEnvironment.mp (currentDeployment_mem he)
  obtain rfl := eq_of_id_eq hrow' hrow hid
  have hsame : other.id = environment.id := henvironment'.symm.trans henvironment
  rw [← he, currentDeployment, currentDeployment, hsame]

end Entries

/-- For any rollout whose deployments are stored. -/
theorem reportsHealthy_iff {r : Rollout} {query : PageQuery} {ctx : ActorContext}
    {app : Application} {s : ReadDb} {environment : EnvironmentRow} {d : Deployment}
    (henvironment : environment ∈ query.environments app)
    (hstored : StoredIn r app.id environment.id s) (hd : d ∈ r.deployments)
    (hhealthy : d.phase = .healthy) :
    ReportsHealthy (healthResponse query ctx app s) environment d ↔ NoneMovedSince r s d := by
  rw [reportsHealthy_healthResponse, ← currentDeployment_eq_some_iff hstored hd]
  constructor
  · rintro ⟨other, -, hvalue⟩
    obtain ⟨e, he, hid⟩ := current_of_value hvalue
    exact current_of_other (hstored.mem_iff.mpr hd) he hid
  · exact fun h => ⟨environment, henvironment, value_of_current h hhealthy⟩

/-- The deployment that the rollout serves. -/
def serving (r : Rollout) : Option Deployment := r.current.bind r.get

theorem mem_of_serving {r : Rollout} {d : Deployment} (h : serving r = some d) :
    d ∈ r.deployments := by
  obtain ⟨current, -, hget⟩ := Option.bind_eq_some_iff.mp h
  exact Rollout.mem_of_get hget

/-- **The health endpoint agrees with the rollout exactly while nothing else has moved.** After any
history of an environment whose deployments are stored, an admitted request that covers the
environment is answered, and reports the healthy deployment that the rollout serves as the healthy
one of the environment exactly if no other deployment of the rollout has moved since it did. -/
theorem health_agrees_iff (ops : List RolloutOp) {api : ApiState} {headers : Headers}
    {draws : Draws} {raw : String} {ctx : ActorContext} {app : Application} {s : ReadDb}
    (hreads : Reads api headers draws raw ctx app s) {query : PageQuery}
    {environment : EnvironmentRow} (henvironment : environment ∈ query.environments app)
    (hstored : StoredIn (rollout.run .new ops) app.id environment.id s) {d : Deployment}
    (hserving : serving (rollout.run .new ops) = some d) (hhealthy : d.phase = .healthy) :
    ∃ response, health api headers draws raw query s = (s, .ok response) ∧
      (ReportsHealthy response environment d ↔ NoneMovedSince (rollout.run .new ops) s d) :=
  ⟨_, hreads.health query,
    reportsHealthy_iff henvironment hstored (mem_of_serving hserving) hhealthy⟩

/-! ## Two histories -/

def allPages : PageQuery := ⟨none, none, none, none⟩

def smallReads : ReadDb where
  api := smallDb
  createdAt := fun _ => 0
  logs := .empty
  evidence := .empty
  plugins := []

def smallEnvironment : EnvironmentRow := ⟨⟨1⟩, smallApplication, "development"⟩

def smallApp : Application where
  row := ⟨smallApplication, "web", .importedLocal ".", "human"⟩
  environments := [smallEnvironment, ⟨⟨2⟩, smallApplication, "production"⟩]

def smallContext : ActorContext := ⟨.human "ada", "trace-1", some "k-1"⟩

/-- The deployments of a history, each first saved when it began. -/
def savedHistory (ops : List RolloutOp) : ReadDb :=
  PgDeploymentStore.saveAll (fun d => (d.transitions.head d.evidence).time)
    (rollout.run .new ops).deployments smallReads

theorem others_saveAll (time : Deployment → DateTime) (deployments : List Deployment) (s : ReadDb) :
    (PgDeploymentStore.saveAll time deployments s).api.others = s.api.others := by
  induction deployments generalizing s with
  | nil => rfl
  | cons d rest ih => exact (ih (PgDeploymentStore.save (time d) d s)).trans rfl

theorem reads_savedHistory (ops : List RolloutOp) :
    Reads (smallApi []) (humanRequest 1 "k-1" (.deploy "" emptyBody)).headers (smallDraws 1)
      (toString smallApplication) smallContext smallApp (savedHistory ops) where
  actor := by decide +kernel
  loaded := by
    have hsmall : ((loadApp smallContext (toString smallApplication)).run smallDb).2 =
        .ok smallApp := by decide +kernel
    have hothers : (savedHistory ops).api.others = smallDb.others := others_saveAll _ _ smallReads
    rw [((respects_loadApp _).run_congr hothers).2, hsmall]

/-- The deployments of a history of `smallEnvironment` are listed once they are saved. -/
theorem storedIn_savedHistory {ops : List RolloutOp}
    (hnodup : ((rollout.run .new ops).deployments.map (·.id)).Nodup)
    (hown : ∀ d ∈ (rollout.run .new ops).deployments,
      d.applicationId = smallApplication ∧ d.environmentId = smallEnvironment.id) :
    StoredIn (rollout.run .new ops) smallApplication smallEnvironment.id (savedHistory ops) :=
  storedIn_saveAll hnodup _ hown rfl

/-- The second deployment is promoted when it is observed healthy. -/
def promotedAtOnce : List RolloutOp :=
  deployed ⟨1⟩ 0 ++ [.promote ⟨1⟩ 1] ++ deployed ⟨2⟩ 2 ++ [.promote ⟨2⟩ 2]

theorem health_agrees_promotedAtOnce :
    ∃ d response, serving (rollout.run .new promotedAtOnce) = some d ∧ d.id = ⟨2⟩ ∧
      health (smallApi []) (humanRequest 1 "k-1" (.deploy "" emptyBody)).headers (smallDraws 1)
        (toString smallApplication) allPages (savedHistory promotedAtOnce) =
          (savedHistory promotedAtOnce, .ok response) ∧
      ReportsHealthy response smallEnvironment d := by
  obtain ⟨d, hserving⟩ : ∃ d, serving (rollout.run .new promotedAtOnce) = some d :=
    Option.isSome_iff_exists.mp (by decide +kernel)
  have hfacts : (serving (rollout.run .new promotedAtOnce)).all (fun d =>
      decide (d.id = ⟨2⟩ ∧ d.phase = .healthy ∧
        NoneMovedSince (rollout.run .new promotedAtOnce) (savedHistory promotedAtOnce) d)) =
      true := by decide +kernel
  rw [hserving, Option.all_some, decide_eq_true_iff] at hfacts
  obtain ⟨hid, hhealthy, hlast⟩ := hfacts
  have hstored : StoredIn (rollout.run .new promotedAtOnce) smallApplication smallEnvironment.id
      (savedHistory promotedAtOnce) :=
    storedIn_savedHistory (by decide +kernel) (by decide +kernel)
  have henvironment : smallEnvironment ∈ allPages.environments smallApp := by decide
  obtain ⟨response, hresponse, hiff⟩ := health_agrees_iff promotedAtOnce
    (reads_savedHistory promotedAtOnce) henvironment hstored hserving hhealthy
  exact ⟨d, response, hserving, hid, hresponse, hiff.mpr hlast⟩

/-- The second deployment is promoted after it was observed healthy. It serves, it is healthy and
nothing is in progress, and the endpoint reports the superseded one. -/
theorem promoted_hidden :
    ∃ d response, serving (rollout.run .new promotedTwice) = some d ∧ d.phase = .healthy ∧
      (∀ e ∈ (rollout.run .new promotedTwice).deployments,
        ReportedState.ofPhase e.phase ≠ .inProgress) ∧
      StoredIn (rollout.run .new promotedTwice) smallApplication smallEnvironment.id
        (savedHistory promotedTwice) ∧
      health (smallApi []) (humanRequest 1 "k-1" (.deploy "" emptyBody)).headers (smallDraws 1)
        (toString smallApplication) allPages (savedHistory promotedTwice) =
          (savedHistory promotedTwice, .ok response) ∧
      ¬ ReportsHealthy response smallEnvironment d ∧
      (currentDeployment smallApp smallEnvironment (savedHistory promotedTwice)).map
        (fun e => (e.id, e.phase)) = some (⟨1⟩, .superseded) := by
  obtain ⟨d, hserving⟩ : ∃ d, serving (rollout.run .new promotedTwice) = some d :=
    Option.isSome_iff_exists.mp (by decide +kernel)
  have hfacts : (serving (rollout.run .new promotedTwice)).all (fun d =>
      decide (d.phase = .healthy ∧
        ¬ NoneMovedSince (rollout.run .new promotedTwice) (savedHistory promotedTwice) d)) =
      true := by decide +kernel
  rw [hserving, Option.all_some, decide_eq_true_iff] at hfacts
  obtain ⟨hhealthy, hmoved⟩ := hfacts
  have hstored : StoredIn (rollout.run .new promotedTwice) smallApplication smallEnvironment.id
      (savedHistory promotedTwice) :=
    storedIn_savedHistory (by decide +kernel) (by decide +kernel)
  have henvironment : smallEnvironment ∈ allPages.environments smallApp := by decide
  refine ⟨d, _, hserving, hhealthy, by decide +kernel, hstored,
    (reads_savedHistory promotedTwice).health allPages, fun hreports => hmoved ?_,
    by decide +kernel⟩
  exact (reportsHealthy_iff henvironment hstored (mem_of_serving hserving) hhealthy).mp hreports

end Labrys.ControlPlane
