import Labrys.ControlPlane.ApiJobs

/-! # The application of a rollback

The path of a rollback names an application and its body a deployment, which is looked up among
those of every application. A request is answered without the deployments table until it gets to
that lookup, and from there on the application of the deployment is not asked for.

* `reaches_or_stops`: how far a rollback gets.
* `rollback_inside_exact`: when it stays inside the application of its path. -/

namespace Labrys.ControlPlane
open Foundations Labrys.Core
set_option autoImplicit false

variable {api : ApiState} {ctx : ActorContext} {draws : Draws} {headers : Headers}

/-! ## What does not look at deployments -/

/-- The database less its deployments. -/
def ApiDb.others (s : ApiDb) : ApiDb := { s with deployments := .empty }

theorem ApiDb.eq_of_others {s s' : ApiDb} (h : s'.others = s.others) :
    s' = { s with deployments := s'.deployments } := by
  obtain ⟨db, applications, environments, deployments, replays⟩ := s
  obtain ⟨db', applications', environments', deployments', replays'⟩ := s'
  obtain ⟨rfl, rfl, rfl, -, rfl⟩ := ApiDb.mk.inj h
  rfl

theorem respects_others {α : Type} {handler : Fault ControlPlaneError → Fault ApiError}
    {m : Statement α}
    (h : ∀ s deployments, m { s with deployments := deployments } =
      ({ (m s).1 with deployments := deployments }, (m s).2)) :
    (statement handler m).Respects ApiDb.others := by
  intro s
  refine ⟨trivial, fun s' hs => ?_⟩
  dsimp only
  rw [ApiDb.eq_of_others hs, h]
  exact ⟨rfl, rfl⟩

theorem respects_admission {endpoint : Endpoint} :
    (endpoint.admission api headers draws).Respects ApiDb.others := by
  have hauthorized : (authorized api headers draws endpoint.target).Respects ApiDb.others := by
    unfold authorized
    split
    · trivial
    · trivial
    · exact (respects_others fun _ _ => rfl).bind fun _ => trivial
  exact hauthorized.bind fun _ => Script.Respects.bind trivial fun _ =>
    Script.Respects.bind trivial fun _ => trivial

theorem respects_check (admitted : ActorContext × String) :
    (Endpoint.check admitted).Respects ApiDb.others := by
  refine respects_others fun s deployments => ?_
  unfold checkReplay
  dsimp only
  split
  · rfl
  · split <;> rfl

theorem respects_loadApp (raw : String) : (loadApp ctx raw).Respects ApiDb.others := by
  unfold loadApp
  dsimp only
  split
  · trivial
  · exact (respects_others fun _ _ => rfl).bind fun _ =>
      (respects_others fun _ _ => rfl).bind fun _ => trivial

theorem keeps_loadApp (raw : String) : (loadApp ctx raw).Keeps fun s => s.db.jobs := by
  unfold loadApp
  dsimp only
  split
  · trivial
  · exact Script.Steps.bind (steps_statement fun _ => rfl) fun _ =>
      Script.Steps.bind (steps_statement fun _ => rfl) fun _ => trivial

/-! ## How far a rollback gets -/

/-- The request gets to the lookup of its target: it is admitted, nothing is stored under its key,
its application is registered and its target reads. -/
structure Reaches (api : ApiState) (headers : Headers) (draws : Draws) (raw : String)
    (body : MutationBody) (s : ApiDb) (ctx : ActorContext) (key : String) (app : Application)
    (id : DeploymentId) : Prop where
  keyed : headers.idempotencyOf = some key
  actor : admitActor api.tokens headers (headers.traceOf draws.traceId) draws.authTime = .ok ctx
  policy : (rollback api draws raw body).policy ctx = .ok ()
  fresh : s.replays.get key = none
  loaded : ((loadApp ctx raw).run s).2 = .ok app
  target : rollbackTarget ctx body = .ok id

def unknownTarget (ctx : ActorContext) (id : DeploymentId) : ApiError :=
  .notFound ctx.traceId s!"rollback target {id} does not exist"
    "list candidates with `labrys deployments --application <id>`"

/-- The rest of the work, once the target reads. -/
def rollbackTo (api : ApiState) (ctx : ActorContext) (draws : Draws) (body : MutationBody)
    (app : Application) (id : DeploymentId) : ApiScript Json := do
  let approver := (namedApprover body).getD ""
  let target ← statement (Fault.map fun _ => unknownTarget ctx id) (PgDeploymentStore.get id)
  settle (safeTarget ctx id target)
  accept api ctx draws "rollback"
    { jobTarget := s!"{app.id}:rollback:{id}"
      action := .rollout
      eventAction := .reconciled
      eventResource := ⟨"deployment", toString id⟩
      detail := s!"rollback to {id} approved by {approver}; " ++ databaseDataWarning
      resource := resourceValue "deployment" (toString id)
      data := pure (.object [("application_id", .string (toString app.id)),
        ("target", .string (toString id)), ("approved_by", .string approver),
        ("database_data_restored", .bool false), ("warning", .string databaseDataWarning)])
      recovery := "traffic moves when the controller converges; " ++
        "database data is never restored by rollback" }

theorem work_rollback (raw : String) (body : MutationBody) :
    (rollback api draws raw body).work ctx = (loadApp ctx raw >>= fun app =>
      settle (rollbackTarget ctx body) >>= fun id => rollbackTo api ctx draws body app id) := rfl

/-- From here on the deployments play no part: they may be others, and no job is enqueued. -/
def Stops (m : ApiScript Json) (s : ApiDb) : Prop :=
  (∀ s', ApiDb.others s' = s.others →
    (m.run s').1.others = (m.run s).1.others ∧ (m.run s').2 = (m.run s).2) ∧
  (m.run s).1.db.jobs = s.db.jobs

theorem stops_done (result : Except (Fault ApiError) Json) (s : ApiDb) : Stops (.done result) s :=
  ⟨fun _ hs => ⟨hs, rfl⟩, rfl⟩

/-- A first part that does not look at deployments, and goes on to a rest that reaches what is asked
for or stops. -/
theorem stops_bind {α : Type} {reached : Prop} {m : ApiScript α} {f : α → ApiScript Json} {s : ApiDb}
    (hm : m.Respects ApiDb.others) (hjobs : m.Keeps fun s => s.db.jobs)
    (hf : ∀ s₁ a, m.run s = (s₁, .ok a) → reached ∨ Stops (f a) s₁) :
    reached ∨ Stops (m >>= f) s := by
  have hviews : ∀ s', ApiDb.others s' = s.others →
      (m.run s').1.others = (m.run s).1.others ∧ (m.run s').2 = (m.run s).2 :=
    fun s' hs => hm.run_congr hs
  have hkept : (m.run s).1.db.jobs = s.db.jobs := hjobs.run s
  cases hrun : (m.run s).2 with
  | error e =>
    have herror : ∀ s', ApiDb.others s' = s.others → (m >>= f).run s' = ((m.run s').1, .error e) := by
      intro s' hs
      have hfails : (m.run s').2 = .error e := (hviews s' hs).2.trans hrun
      rw [Script.run_bind, Program.bind_of_snd_error hfails]
    refine .inr ⟨fun s' hs => ?_, ?_⟩
    · rw [herror s' hs, herror s rfl]
      exact ⟨(hviews s' hs).1, rfl⟩
    · rw [herror s rfl]
      exact hkept
  | ok a =>
    have hok : ∀ s', ApiDb.others s' = s.others → (m >>= f).run s' = (f a).run (m.run s').1 := by
      intro s' hs
      have hreturns : (m.run s').2 = .ok a := (hviews s' hs).2.trans hrun
      rw [Script.run_bind, Program.bind_of_snd_ok hreturns]
    refine (hf _ a (Program.run_of_snd hrun)).imp id fun hstops => ⟨fun s' hs => ?_, ?_⟩
    · rw [hok s' hs, hok s rfl]
      exact hstops.1 _ (hviews s' hs).1
    · rw [hok s rfl]
      exact hstops.2.trans hkept

/-- **How far a rollback gets**: to the lookup of its target, or it is answered whatever the
deployments are, and enqueues nothing. -/
theorem reaches_or_stops (api : ApiState) (headers : Headers) (draws : Draws) (raw : String)
    (body : MutationBody) (s : ApiDb) :
    (∃ ctx key app id, Reaches api headers draws raw body s ctx key app id) ∨
      Stops ((rollback api draws raw body).handle api headers draws) s := by
  refine stops_bind respects_admission (Endpoint.keeps_admission fun _ _ => rfl) ?_
  rintro s₁ ⟨ctx, key⟩ hadmitted
  obtain ⟨rfl, hpolicy, hactor, hkey⟩ := Endpoint.admission_eq hadmitted
  refine stops_bind (respects_check _) (steps_statement fun s => ?_) fun s₂ replayed hchecked => ?_
  · rw [checkReplay_fst]
  obtain rfl : s₁ = s₂ := (checkReplay_fst _ s₁).symm.trans (congrArg Prod.fst hchecked)
  obtain ⟨rfl, hfresh⟩ | ⟨response, rfl, -⟩ :=
    checkReplay_ok (ok_of_mapError (congrArg Prod.snd hchecked))
  · change _ ∨ Stops ((rollback api draws raw body).work ctx >>=
      (rollback api draws raw body).store api (ctx, key)) s₁
    rw [work_rollback, Script.bind_assoc]
    refine stops_bind (respects_loadApp raw) (keeps_loadApp raw) fun s₂ app hloaded => ?_
    rw [Script.bind_assoc]
    cases htarget : rollbackTarget ctx body with
    | error e => exact .inr (stops_done _ _)
    | ok id =>
      exact .inl ⟨ctx, key, app, id, hkey, hactor, hpolicy, hfresh, congrArg Prod.snd hloaded,
        htarget⟩
  · exact .inr (stops_done _ _)

/-! ## The lookup -/

def NotFound (e : Fault ApiError) : Prop := ∃ error, e = .err error ∧ error.status = 404

theorem raises_internal {α : Type} (m : Statement α) :
    (statement ctx.internal m).Raises fun e => ¬ NotFound e := by
  intro s
  cases hresult : (m s).2 with
  | ok a =>
    change Script.Raises _ (.done ((m s).2.mapError ctx.internal))
    rw [hresult]
    trivial
  | error e =>
    change Script.Raises _ (.done ((m s).2.mapError ctx.internal))
    rw [hresult]
    rintro ⟨error, heq, hstatus⟩
    cases e with
    | err e =>
      cases heq
      cases hstatus
    | panic message => cases heq

theorem raises_safeTarget (id : DeploymentId) (target : Deployment) :
    (settle (safeTarget ctx id target)).Raises fun e => ¬ NotFound e := by
  unfold safeTarget
  split_ifs
  · rintro ⟨error, heq, hstatus⟩
    cases heq
    cases hstatus
  · trivial
  · rintro ⟨error, heq, hstatus⟩
    cases heq
    cases hstatus

theorem raises_accept (command : String) (mutation : Mutation)
    (hdata : mutation.data.Raises fun e => ¬ NotFound e) :
    (accept api ctx draws command mutation).Raises fun e => ¬ NotFound e := by
  have henqueue : (enqueue ctx draws mutation.jobTarget mutation.action).Raises
      fun e => ¬ NotFound e :=
    (raises_internal _).bind fun _ => (raises_internal _).bind fun _ => trivial
  exact henqueue.bind fun _ => (raises_internal _).bind fun _ => hdata.bind fun _ => trivial

section Lookup
variable {raw : String} {body : MutationBody} {s : ApiDb} {key : String} {app : Application}
  {id : DeploymentId}

theorem Reaches.congr (h : Reaches api headers draws raw body s ctx key app id) {s' : ApiDb}
    (hs : s'.others = s.others) : Reaches api headers draws raw body s' ctx key app id where
  keyed := h.keyed
  actor := h.actor
  policy := h.policy
  fresh := by
    rw [ApiDb.eq_of_others hs]
    exact h.fresh
  loaded := ((respects_loadApp raw).run_congr hs).2.trans h.loaded
  target := h.target

/-- The rest of a request that reaches the lookup. -/
theorem Reaches.run (h : Reaches api headers draws raw body s ctx key app id) :
    ((rollback api draws raw body).handle api headers draws).run s =
      (rollbackTo api ctx draws body app id >>=
        (rollback api draws raw body).store api (ctx, key)).run s := by
  set endpoint := rollback api draws raw body with hendpoint
  have hload : (loadApp ctx raw).run s = (s, .ok app) := by
    have hrun : (loadApp ctx raw).run s = (((loadApp ctx raw).run s).1, .ok app) :=
      Program.run_of_snd h.loaded
    rw [hrun, (loadApp_ok hrun).1]
  rw [handle_of_free h.actor h.policy h.keyed h.fresh, hendpoint, work_rollback, Script.bind_assoc,
    Script.run_bind, Program.bind_of_ok hload, h.target]
  rfl

theorem Reaches.run_unknown (h : Reaches api headers draws raw body s ctx key app id)
    (hget : s.deployments.get id = none) :
    ((rollback api draws raw body).handle api headers draws).run s =
      (s, .error (.err (unknownTarget ctx id))) := by
  have hlookup : (statement (Fault.map fun _ => unknownTarget ctx id)
      (PgDeploymentStore.get id)).run s = (s, .error (.err (unknownTarget ctx id))) := by
    rw [run_statement]
    unfold PgDeploymentStore.get reading
    change (s, (found (toString id) (s.deployments.get id)).mapError _) = _
    rw [hget]
    rfl
  rw [h.run]
  unfold rollbackTo
  rw [Script.bind_assoc, Script.run_bind, Program.bind_of_error hlookup]

/-- A stored target is never reported as an unknown one. -/
theorem Reaches.run_known (h : Reaches api headers draws raw body s ctx key app id)
    {target : Deployment} (hget : s.deployments.get id = some target) :
    (((rollback api draws raw body).handle api headers draws).run s).2 ≠
      .error (.err (unknownTarget ctx id)) := by
  have hlookup : (statement (Fault.map fun _ => unknownTarget ctx id)
      (PgDeploymentStore.get id)).run s = (s, .ok target) := by
    rw [run_statement]
    unfold PgDeploymentStore.get reading
    change (s, (found (toString id) (s.deployments.get id)).mapError _) = _
    rw [hget]
    rfl
  rw [h.run]
  unfold rollbackTo
  rw [Script.bind_assoc, Script.run_bind, Program.bind_of_ok hlookup, Script.bind_assoc]
  intro herror
  -- What is left is refused as 422 by `safeTarget`, or fails with a 500 of the store.
  refine Script.Raises.run (Q := fun e => ¬ NotFound e) ?_ herror ⟨_, rfl, rfl⟩
  refine (raises_safeTarget id target).bind fun _ => ?_
  refine (raises_accept _ _ ?_).bind fun response => ?_
  · trivial
  · exact (raises_internal _).bind fun _ => trivial

end Lookup

/-! ## Inside the application -/

/-- The application of the path, the deployment that the body names, and what is stored under its
id. -/
def Targets (raw : String) (body : MutationBody) (s : ApiDb) (app : ApplicationId)
    (id : DeploymentId) (target : Deployment) : Prop :=
  TaggedId.parse "app" raw = some app ∧ body.target.bind (TaggedId.parse "dep") = some id ∧
    s.deployments.get id = some target

/-- The request enqueues a job only for a deployment of its application, and one of another
application is answered, and treated, as one that is not there. -/
def StaysInside (api : ApiState) (headers : Headers) (draws : Draws) (raw : String)
    (body : MutationBody) (s : ApiDb) : Prop :=
  let script := (rollback api draws raw body).handle api headers draws
  ((script.run s).1.db.jobs ≠ s.db.jobs →
    ∃ app id target, Targets raw body s app id target ∧ target.applicationId = app) ∧
  ∀ app id target, Targets raw body s app id target → target.applicationId ≠ app →
    ∀ s', ApiDb.others s' = s.others → s'.deployments.get id = none →
      (script.run s).1.others = (script.run s').1.others ∧ (script.run s).2 = (script.run s').2

/-- **Rollbacks stay inside their application** exactly if what they look up is its own: for every
request and every state, whatever the target. -/
theorem rollback_inside_exact (api : ApiState) (headers : Headers) (draws : Draws) (raw : String)
    (body : MutationBody) (s : ApiDb) :
    StaysInside api headers draws raw body s ↔
      ∀ ctx key app id target, Reaches api headers draws raw body s ctx key app id →
        s.deployments.get id = some target → target.applicationId = app.id := by
  have htargets : ∀ {ctx key app id target}, Reaches api headers draws raw body s ctx key app id →
      s.deployments.get id = some target → Targets raw body s app.id id target := by
    intro ctx key app id target hreaches hget
    have hload : (loadApp ctx raw).run s = (((loadApp ctx raw).run s).1, .ok app) :=
      Program.run_of_snd hreaches.loaded
    exact ⟨(loadApp_ok hload).2, rollbackTarget_ok hreaches.target, hget⟩
  constructor
  · rintro ⟨-, hforeign⟩ ctx key app id target hreaches hget
    by_contra hother
    have hsame := (hforeign app.id id target (htargets hreaches hget) hother s.others rfl rfl).2
    have hothers : Reaches api headers draws raw body s.others ctx key app id := hreaches.congr rfl
    rw [hothers.run_unknown rfl] at hsame
    exact hreaches.run_known hget hsame
  · intro hown
    obtain ⟨ctx, key, app, id, hreaches⟩ | hstops := reaches_or_stops api headers draws raw body s
    · have honly : ∀ app' id' target', Targets raw body s app' id' target' →
          app' = app.id ∧ s.deployments.get id = some target' := by
        rintro app' id' target' ⟨hparse, hnamed, hget⟩
        have hload : (loadApp ctx raw).run s = (((loadApp ctx raw).run s).1, .ok app) :=
          Program.run_of_snd hreaches.loaded
        obtain rfl : id' = id :=
          Option.some_inj.mp (hnamed.symm.trans (rollbackTarget_ok hreaches.target))
        exact ⟨Option.some_inj.mp (hparse.symm.trans (loadApp_ok hload).2), hget⟩
      refine ⟨fun hjobs => ?_, fun app' id' target' htarget hother => ?_⟩
      · cases hget : s.deployments.get id with
        | none =>
          rw [hreaches.run_unknown hget] at hjobs
          exact absurd rfl hjobs
        | some target =>
          exact ⟨app.id, id, target, htargets hreaches hget, hown _ _ _ _ _ hreaches hget⟩
      · obtain ⟨rfl, hget⟩ := honly app' id' target' htarget
        exact absurd (hown _ _ _ _ _ hreaches hget) hother
    · refine ⟨fun hjobs => absurd hstops.2 hjobs, fun app id target _ _ s' hs _ => ?_⟩
      obtain ⟨hothers, hresult⟩ := hstops.1 s' hs
      exact ⟨hothers.symm, hresult.symm⟩

/-- A healthy deployment of another application than `smallApplication`. -/
def foreignDeployment : Deployment where
  id := ⟨7⟩
  applicationId := ⟨2⟩
  environmentId := ⟨3⟩
  revision := Revision.new "4f2a" "c0" none
  build := some (.succeeded "built")
  image := some ⟨"registry.local/app@sha256:4f2a", "sha256:4f2a", .native, .node, "4f2a"⟩
  runtime := ⟨.node, .production, some "registry.local/app"⟩
  resources := []
  health := .healthy
  phase := .healthy
  logs := []
  rollbackTarget := none
  transitions := [⟨.pending, .pending, 1, none⟩, ⟨.pending, .building, 2, none⟩,
    ⟨.building, .deploying, 3, none⟩, ⟨.deploying, .healthy, 4, none⟩]
  evidence := by simp

/-- An approved rollback of one application to the deployment of another: its job is enqueued. -/
theorem rollback_to_foreign :
    let s : ApiDb := { smallDb with deployments := ⟨[foreignDeployment], by decide⟩ }
    let raw := toString smallApplication
    let body := { emptyBody with
      approval := some "ada", target := some (toString foreignDeployment.id) }
    let request := humanRequest 1 "k-1" (.rollback raw body)
    foreignDeployment.applicationId ≠ smallApplication ∧
    ((request.script (smallApi [])).run s).1.db.jobs.jobs.rows.map (·.target) =
      [s!"{raw}:rollback:dep_00000000000000000000000000000007"] ∧
    ((request.script (smallApi [])).run s).2.isOk = true ∧
    ((request.script (smallApi [])).run smallDb).2.isOk = false ∧
    ¬ StaysInside (smallApi []) request.headers request.draws raw body s := by
  intro s raw body request
  have haccepted : ((request.script (smallApi [])).run s).2.isOk = true := by decide +kernel
  have hrefused : ((request.script (smallApi [])).run smallDb).2.isOk = false := by decide +kernel
  refine ⟨by decide, by decide +kernel, haccepted, hrefused, fun hinside => ?_⟩
  have htargets : Targets raw body s smallApplication ⟨7⟩ foreignDeployment :=
    ⟨by decide +kernel, by decide +kernel, by decide +kernel⟩
  have hsame : ((request.script (smallApi [])).run s).2 =
      ((request.script (smallApi [])).run smallDb).2 :=
    (hinside.2 _ _ _ htargets (by decide) smallDb rfl rfl).2
  rw [hsame, hrefused] at haccepted
  cases haccepted

end Labrys.ControlPlane
