import Labrys.ControlPlane.Replays
import Labrys.Foundations.Once

/-! # Requests of one key, interleaved

The replay check, the work and the storing of the response are separate statements, and nothing
reserves a key between them. Requests of one key that overlap can therefore all find it free and all
do their work; and a request that stops between its work and the storing leaves its work to be done
again.

* `ApiRequest.keyed`: a handler as work behind a stored answer, and `lawful_keyed`, that it is one.
* `adds_platform`: how much one request may add to the platform's tables.
* `idempotent_when_safe`: every interleaving in which no request finds the key free while another
  one is at work, or after one that left something behind. -/

namespace Labrys.ControlPlane
open Foundations Labrys.Core
set_option autoImplicit false

variable {api : ApiState} {ctx : ActorContext} {draws : Draws}

/-! ## What a handler's work sees -/

theorem respects_statement {α : Type} {handler : Fault ControlPlaneError → Fault ApiError}
    {m : Statement α} (write : Platform → Platform) (result : Platform → Outcome ControlPlaneError α)
    (hwrite : ∀ s, (m s).1.platform = write s.platform)
    (hresult : ∀ s, (m s).2 = result s.platform) :
    (statement handler m).Respects ApiDb.platform := by
  refine fun s => ⟨trivial, fun s' hs => ⟨?_, ?_⟩⟩
  · exact (hwrite s').trans ((congrArg write hs).trans (hwrite s).symm)
  · have hsame : (m s').2 = (m s).2 :=
      (hresult s').trans ((congrArg result hs).trans (hresult s).symm)
    exact congrArg (fun result => Script.done (result.mapError handler)) hsame

/-- The work of a handler sees and changes the platform's tables only. -/
theorem respects_work (call : ApiCall) :
    ((call.endpoint api draws).work ctx).Respects ApiDb.platform := by
  have hrule : WorkRule api ctx draws (fun m _ => m.Respects ApiDb.platform) 0 0 0 := {
    done := fun _ => trivial
    mono := fun hm _ => hm
    bind := Script.Respects.bind
    read := fun _ f => respects_statement id f (fun _ => rfl) fun _ => rfl
    save := fun app => respects_statement
      (fun platform => { platform with
        applications := PgApplicationStore.upsertApplication app.row platform.applications
        environments := app.environments.foldl PgApplicationStore.upsertEnvironment
          platform.environments })
      (fun _ => .ok ()) (fun _ => rfl) fun _ => rfl
    job := fun target action => respects_statement
      (fun platform => { platform with
        jobs := (platform.jobs.enqueue draws.jobId target action 1 .default draws.now).1 })
      (fun platform => (platform.jobs.enqueue draws.jobId target action 1 .default draws.now).2)
      (fun _ => rfl) fun _ => rfl
    event := fun draft _ => by
      cases hredact : redactEvent draft api.secrets with
      | error e =>
        refine respects_statement id (fun _ => .error (.err e)) (fun s => ?_) fun s => ?_
        · rw [events_append, hredact]
          rfl
        · rw [events_append, hredact]
      | ok stored =>
        refine respects_statement
          (fun platform => { platform with events := platform.events ++ [stored] })
          (fun _ => .ok ()) (fun s => ?_) fun s => ?_
        · rw [events_append, hredact]
          rfl
        · rw [events_append, hredact] }
  exact hrule.work call

/-! ## How much a request adds -/

theorem length_enqueue (t : JobsTable) (id : JobId) (target : String) (action : JobAction)
    (version : ℕ) (policy : RetryPolicy) (time : DateTime) :
    ∃ k ≤ 1, (t.enqueue id target action version policy time).1.jobs.rows.length =
      t.jobs.rows.length + k := by
  unfold JobsTable.enqueue
  split
  · exact ⟨0, Nat.zero_le 1, rfl⟩
  · split
    · exact ⟨0, Nat.zero_le 1, rfl⟩
    · exact ⟨1, Nat.le_refl 1, by simp [JobsTable.insert, Table.insert]⟩

theorem adds_statement {α : Type} {handler : Fault ControlPlaneError → Fault ApiError}
    {m : Statement α} {count : ApiDb → ℕ} {n : ℕ}
    (h : ∀ s, ∃ k ≤ n, count (m s).1 = count s + k) : (statement handler m).Adds count n := by
  intro s
  obtain ⟨k, hk, hcount⟩ := h s
  exact ⟨k, hk, hcount, trivial⟩

theorem adds_statement_zero {α : Type} {handler : Fault ControlPlaneError → Fault ApiError}
    {m : Statement α} {count : ApiDb → ℕ} (h : ∀ s, count (m s).1 = count s) :
    (statement handler m).Adds count 0 :=
  adds_statement fun s => ⟨0, Nat.le_refl 0, h s⟩

theorem adds_applications (call : ApiCall) :
    ((call.endpoint api draws).work ctx).Adds (fun s => s.applications.rows.length) 1 := by
  have hrule : WorkRule api ctx draws
      (fun m n => m.Adds (fun s => s.applications.rows.length) n) 1 0 0 := {
    done := fun _ => trivial
    mono := Script.Adds.mono
    bind := Script.Adds.bind
    read := fun _ _ => adds_statement_zero fun _ => rfl
    save := fun app => adds_statement fun s => by
      change ∃ k ≤ 1, (PgApplicationStore.upsertApplication app.row s.applications).rows.length = _
      unfold PgApplicationStore.upsertApplication
      rw [Table.length_upsert]
      split
      · exact ⟨0, Nat.zero_le 1, rfl⟩
      · exact ⟨1, Nat.le_refl 1, rfl⟩
    job := fun _ _ => adds_statement_zero fun _ => rfl
    event := fun _ _ => adds_statement_zero fun _ => rfl }
  exact hrule.work call

theorem adds_jobs (call : ApiCall) :
    ((call.endpoint api draws).work ctx).Adds (fun s => s.db.jobs.jobs.rows.length) 1 := by
  have hrule : WorkRule api ctx draws
      (fun m n => m.Adds (fun s => s.db.jobs.jobs.rows.length) n) 0 1 0 := {
    done := fun _ => trivial
    mono := Script.Adds.mono
    bind := Script.Adds.bind
    read := fun _ _ => adds_statement_zero fun _ => rfl
    save := fun _ => adds_statement_zero fun _ => rfl
    job := fun target action => adds_statement fun s =>
      length_enqueue s.db.jobs draws.jobId target action 1 .default draws.now
    event := fun draft _ => adds_statement_zero fun s => by
      rw [events_append]
      split <;> rfl }
  exact hrule.work call

theorem adds_events (call : ApiCall) :
    ((call.endpoint api draws).work ctx).Adds (fun s => s.db.events.length) 1 := by
  have hrule : WorkRule api ctx draws
      (fun m n => m.Adds (fun s => s.db.events.length) n) 0 0 1 := {
    done := fun _ => trivial
    mono := Script.Adds.mono
    bind := Script.Adds.bind
    read := fun _ _ => adds_statement_zero fun _ => rfl
    save := fun _ => adds_statement_zero fun _ => rfl
    job := fun _ _ => adds_statement_zero fun _ => rfl
    event := fun draft _ => adds_statement fun s => by
      rw [events_append]
      split
      · exact ⟨1, Nat.le_refl 1, List.length_append⟩
      · exact ⟨0, Nat.zero_le 1, rfl⟩ }
  exact hrule.work call

/-! ## A handler as work behind a stored answer -/

/-- The parts of a handler. -/
def ApiRequest.keyed (api : ApiState) (request : ApiRequest) :
    Keyed ApiDb (Fault ApiError) (ActorContext × String) Json where
  admission := (request.endpoint api).admission api request.headers request.draws
  lookup := fun admitted s =>
    ((checkReplay (some admitted.2) s).1,
      (checkReplay (some admitted.2) s).2.mapError admitted.1.internal)
  work := fun admitted => (request.endpoint api).work admitted.1
  store := fun admitted response s =>
    let result := storeReplay api admitted.2 (request.endpoint api).command response s
    (result.1, result.2.mapError admitted.1.internal)

theorem script_keyed (request : ApiRequest) :
    (request.keyed api).script = request.script api := by
  unfold Keyed.script ApiRequest.script Endpoint.handle
  refine congrArg (Script.andThen _) (funext fun admitted => ?_)
  refine congrArg (Script.andThen _) (funext fun replayed => ?_)
  cases replayed <;> rfl

/-- **A request left alone is its handler**, however its statements are counted. -/
theorem run_script_of_turns {request : ApiRequest} {n : ℕ} {s : ApiDb}
    {result : Except (Fault ApiError) Json}
    (h : ((Stage.afterAdmit (request.keyed api).admission).after (request.keyed api) n s).2 =
      .finished result) :
    (request.script api).run s =
      (((Stage.afterAdmit (request.keyed api).admission).after (request.keyed api) n s).1,
        result) := by
  rw [← script_keyed]
  exact Stage.run_script_of_finished (request.keyed api) h

/-- The resource and the job of a response. -/
def outcomeOf (response : Json) : Option Json × Option Json :=
  (response.get "resource", response.get "job")

/-- Requests of one key, looked at through the platform's tables and the key's stored response. -/
def apiViews (api : ApiState) (requests : ℕ → ApiRequest) (key : String) :
    Views ApiDb (ActorContext × String) Json Platform Json (Option Json × Option Json) where
  effects := ApiDb.platform
  record := fun s => (s.replays.get key).map (·.response)
  owner := fun i admitted => admitted.2 = key ∧
    admitActor api.tokens (requests i).headers
      ((requests i).headers.traceOf (requests i).draws.traceId) (requests i).draws.authTime =
        .ok admitted.1 ∧
    ((requests i).endpoint api).policy admitted.1 = .ok ()
  form := fun response => (storedResponse api response).toOption
  replay := fun stored => (stored.set "replayed" (.bool true)).toOption
  gist := outcomeOf

theorem yields_admission {endpoint : Endpoint} {headers : Headers} {key : String}
    (hkey : headers.idempotencyOf = some key) :
    (endpoint.admission api headers draws).Yields fun admitted => admitted.2 = key ∧
      admitActor api.tokens headers (headers.traceOf draws.traceId) draws.authTime =
        .ok admitted.1 ∧ endpoint.policy admitted.1 = .ok () := by
  have hauthorized : (authorized api headers draws endpoint.target).Yields fun ctx =>
      admitActor api.tokens headers (headers.traceOf draws.traceId) draws.authTime = .ok ctx := by
    unfold authorized
    split
    · next hfound => exact hfound
    · trivial
    · exact Script.Yields.bind (Script.yields_true _) fun _ _ => trivial
  refine hauthorized.bind fun ctx hactor => ?_
  have hpolicy : (settle (endpoint.policy ctx)).Yields fun _ => endpoint.policy ctx = .ok () := by
    cases hresult : endpoint.policy ctx with
    | error e => trivial
    | ok value => exact rfl
  refine hpolicy.bind fun _ hallowed => ?_
  rw [Endpoint.requireIdempotency_of_admitted endpoint.command hactor hkey]
  exact ⟨rfl, hactor, hallowed⟩

theorem storeReplay_platform (key command : String) (response : Json) (s : ApiDb) :
    (storeReplay api key command response s).1.platform = s.platform := by
  unfold storeReplay
  split <;> rfl

/-- **A handler is work behind a stored answer.** -/
theorem lawful_keyed {requests : ℕ → ApiRequest} {key : String} {i : ℕ}
    (hkey : (requests i).headers.idempotencyOf = some key) :
    ((requests i).keyed api).Lawful (apiViews api requests key) i where
  admits := yields_admission hkey
  admission_effects := Endpoint.keeps_admission fun _ _ => rfl
  admission_record := Endpoint.keeps_admission fun _ _ => rfl
  lookup_state := fun admitted s => checkReplay_fst _ s
  lookup_some := by
    rintro ⟨ctx, found⟩ s response ⟨rfl, -, -⟩ h
    obtain ⟨hnone, -⟩ | ⟨marked, hsome, record, hget, hset⟩ := checkReplay_ok (ok_of_mapError h)
    · cases hnone
    · obtain rfl := Option.some_inj.mp hsome
      refine ⟨record.response, ?_, ?_⟩
      · exact congrArg (Option.map (·.response)) hget
      · exact congrArg Except.toOption hset
  lookup_none := by
    rintro ⟨ctx, found⟩ s ⟨rfl, -, -⟩ h
    obtain ⟨-, hfree⟩ | ⟨marked, hsome, -⟩ := checkReplay_ok (ok_of_mapError h)
    · exact congrArg (Option.map (·.response)) hfree
    · cases hsome
  work_effects := fun admitted => respects_work (requests i).call
  work_record := fun admitted => (keeps_replays_work (requests i).call).mono fun s s' hsame =>
    congrArg (fun replays => (replays.get key).map (·.response)) hsame
  store_effects := fun admitted response s => storeReplay_platform _ _ _ _
  store_ok := by
    rintro ⟨ctx, found⟩ response s ⟨rfl, -, -⟩ hfree h
    have hnone : s.replays.get found = none := Option.map_eq_none_iff.mp hfree
    have hok := ok_of_mapError h
    unfold storeReplay at hok
    cases hform : storedResponse api response with
    | error e => rw [hform] at hok; cases hok
    | ok stored =>
      refine ⟨stored, congrArg Except.toOption hform, ?_⟩
      change ((storeReplay api found ((requests i).endpoint api).command response s).1.replays.get
        found).map _ = _
      unfold storeReplay
      rw [hform]
      change ((s.replays.insertNew _).get found).map _ = _
      rw [Table.get_insertNew, hnone, Option.none_or, if_pos rfl]
      rfl
  store_error := by
    rintro ⟨ctx, found⟩ response s e h
    change ((storeReplay api found ((requests i).endpoint api).command response s).1.replays.get
      key).map _ = (s.replays.get key).map _
    change (storeReplay api found ((requests i).endpoint api).command response s).2.mapError _ =
      .error e at h
    unfold storeReplay at h ⊢
    split at h
    · rfl
    · cases h

/-! ## Every interleaving -/

/-- The requests, one statement or crash at a time. -/
def apiPool (api : ApiState) (requests : ℕ → ApiRequest) :
    Machine (Pool ApiDb (Fault ApiError) (ActorContext × String) Json) Turn Unit :=
  poolMachine fun i => (requests i).keyed api

def apiStart (api : ApiState) (requests : ℕ → ApiRequest) (s : ApiDb) :
    Pool ApiDb (Fault ApiError) (ActorContext × String) Json :=
  .start (fun i => (requests i).keyed api) s

theorem count_le_of_begun {requests : ℕ → ApiRequest} {key : String} {s s' : ApiDb}
    (count : Platform → ℕ)
    (hadds : ∀ i ctx, (((requests i).endpoint api).work ctx).Adds (fun s => count s.platform) 1)
    (h : Begun (fun i => (requests i).keyed api) (apiViews api requests key) s s') :
    count s'.platform ≤ count s.platform + 1 := by
  obtain hsame | ⟨i, admitted, n, rest, hreached⟩ := h
  · rw [show s'.platform = s.platform from hsame]
    omega
  · obtain ⟨k, hk, hcount, -⟩ := (hadds i admitted.1).after n s
    have heffects : s'.platform =
        ((((requests i).endpoint api).work admitted.1).after n s).1.platform := hreached.effects
    rw [heffects, hcount]
    omega

/-- **Idempotency keys, in the interleavings that are safe.** Any number of requests of one key and
one call, any order of their statements, crashes anywhere: as long as no request finds the key free
while another one is at work or has left something behind, and what is stored of a response has its
resource and its job, then in every state that is reached the platform has at most one more
application, job and event; all successful responses have the same resource and job; and once there
is one, what was done is one whole run of one request's work, or it was done before. -/
theorem idempotent_when_safe (api : ApiState) (key : String) (call : ApiCall)
    (requests : ℕ → ApiRequest) (hkey : ∀ i, (requests i).headers.idempotencyOf = some key)
    (hcall : ∀ i, (requests i).call = call) (s : ApiDb) (turns : List Turn)
    (hsafe : (apiPool api requests).Guarded ((apiViews api requests key).Safe s)
      (apiStart api requests s) turns) :
    let pool := (apiPool api requests).run (apiStart api requests s) turns
    pool.state.applications.rows.length ≤ s.applications.rows.length + 1 ∧
    pool.state.db.jobs.jobs.rows.length ≤ s.db.jobs.jobs.rows.length + 1 ∧
    pool.state.db.events.length ≤ s.db.events.length + 1 ∧
    ∀ i response, pool.stage i = .finished (.ok response) →
      (∀ j other, pool.stage j = .finished (.ok other) → outcomeOf other = outcomeOf response) ∧
      ((s.replays.get key ≠ none ∧ pool.state.platform = s.platform) ∨
        ∃ j ctx own, admitActor api.tokens (requests j).headers
            ((requests j).headers.traceOf (requests j).draws.traceId)
            (requests j).draws.authTime = .ok ctx ∧
          ((call.endpoint api (requests j).draws).policy ctx = .ok ()) ∧
          (((call.endpoint api (requests j).draws).work ctx).run s).2 = .ok own ∧
          pool.state.platform =
            (((call.endpoint api (requests j).draws).work ctx).run s).1.platform ∧
          outcomeOf own = outcomeOf response) := by
  intro pool
  have hstanding : Standing (fun i => (requests i).keyed api) (apiViews api requests key) s pool :=
    once (fun i => lawful_keyed (hkey i)) turns hsafe
  have hbegun := hstanding.begun
  have hcount := fun count hadds => count_le_of_begun count hadds hbegun
  refine ⟨?_, ?_, ?_, fun i response hi => ?_⟩
  · exact hcount (fun platform => platform.applications.rows.length) fun i ctx =>
      adds_applications (requests i).call
  · exact hcount (fun platform => platform.jobs.jobs.rows.length) fun i ctx =>
      adds_jobs (requests i).call
  · exact hcount (fun platform => platform.events.length) fun i ctx =>
      adds_events (requests i).call
  · have hgiven : (pool.stage i).given = some response := by rw [hi]; rfl
    obtain ⟨hagree, hdone⟩ := hstanding.of_given hgiven
    refine ⟨fun j other hj => hagree j other (by rw [hj]; rfl), ?_⟩
    obtain ⟨hstart, hsame⟩ | ⟨j, ⟨ctx, found⟩, own, ⟨-, hactor, hpolicy⟩, hrun, heffects, hgist⟩ :=
      hdone
    · refine .inl ⟨fun hnone => hstart ?_, hsame⟩
      exact congrArg (Option.map (·.response)) hnone
    · have hendpoint : (requests j).endpoint api = call.endpoint api (requests j).draws := by
        unfold ApiRequest.endpoint
        rw [hcall j]
      refine .inr ⟨j, ctx, own, hactor, ?_, ?_, ?_, hgist⟩
      · rw [← hendpoint]
        exact hpolicy
      · rw [← hendpoint]
        exact hrun
      · rw [← hendpoint]
        exact heffects

/-! ### Imports under one key -/

def importRequests (i : ℕ) : ApiRequest :=
  humanRequest (i + 1) "k-1" (.import ⟨some "web", some "."⟩)

def importResponse (n : ℕ) : Json :=
  let id := toString (smallDraws n).applicationId
  envelope "import" ⟨.human "ada", s!"trace-{n}", some "k-1"⟩ false
    (some (resourceValue "application" id))
    (some (.object [("application_id", .string id), ("name", .string "web"), ("path", .string "."),
      ("environments", .strings ["development", "production"])]))
    (some (.fresh ⟨n⟩ id .provision 1 .default n))
    (some "run `labrys inspect --application <id>` to see findings")

/-- What is stored of the one response that the codec knows agrees with it. -/
theorem faithful_smallApi (requests : ℕ → ApiRequest) (key : String) (response : Json) :
    (apiViews (smallApi [response]) requests key).Faithful response := by
  intro stored replay hform hreplay
  change (storedResponse (smallApi [response]) response).toOption = some stored at hform
  change (stored.set "replayed" (.bool true)).toOption = some replay at hreplay
  rw [storedResponse_smallApi] at hform
  obtain rfl : response = stored := Option.some_inj.mp hform
  have hset := ok_of_toOption hreplay
  exact Prod.ext (Json.get_set (by decide) hset) (Json.get_set (by decide) hset)

/-- An import that is done, and a second one of the key after it. -/
def importTurns : List Turn := List.replicate 8 (.run 0) ++ [.run 1]

theorem importTurns_safe :
    (apiPool (smallApi [importResponse 1]) importRequests).Guarded
      ((apiViews (smallApi [importResponse 1]) importRequests "k-1").Safe smallDb)
      (apiStart (smallApi [importResponse 1]) importRequests smallDb) importTurns := by
  have hworking : ∀ n < 8, 0 < n → (((apiPool (smallApi [importResponse 1])
      importRequests).run (apiStart (smallApi [importResponse 1]) importRequests smallDb)
      (List.replicate n (.run 0))).stage 0).isChecking = false := by decide +kernel
  have hpending : ∀ n < 8, (((apiPool (smallApi [importResponse 1])
      importRequests).run (apiStart (smallApi [importResponse 1]) importRequests smallDb)
      (List.replicate n (.run 0))).stage 0).pending.all
        (fun response => decide (response = importResponse 1)) = true := by decide +kernel
  have hdone : (((apiPool (smallApi [importResponse 1]) importRequests).run
      (apiStart (smallApi [importResponse 1]) importRequests smallDb)
      (List.replicate 8 (.run 0))).state.replays.get "k-1").isSome = true := by decide +kernel
  have hother : (((apiPool (smallApi [importResponse 1]) importRequests).run
      (apiStart (smallApi [importResponse 1]) importRequests smallDb)
      (List.replicate 8 (.run 0))).stage 1).pending.isNone = true := by decide +kernel
  refine (Machine.guarded_append _ _ _ _).mpr ⟨?_, ?_, trivial⟩
  · refine Machine.guarded_replicate _ fun n hn => Views.safe_of (fun hchecking => ?_) ?_
    · -- the one lookup of the first import is its first statement
      obtain rfl | hpositive := Nat.eq_zero_or_pos n
      · exact .inr ⟨fun j => (Stage.quiet_afterAdmit _).1, rfl⟩
      · rw [hworking n hn hpositive] at hchecking
        cases hchecking
    · intro response hresponse
      have hsame := hpending n hn
      rw [hresponse] at hsame
      obtain rfl : response = importResponse 1 := of_decide_eq_true hsame
      exact faithful_smallApi importRequests "k-1" _
  · refine Views.safe_of (fun _ => .inl fun hnone => ?_) fun response hresponse => ?_
    · rw [Option.map_eq_none_iff.mp hnone] at hdone
      cases hdone
    · rw [hresponse] at hother
      cases hother

/-- There is one application more, and every answer has the first one's application and job. -/
theorem idempotent_when_safe_repeated :
    let pool := (apiPool (smallApi [importResponse 1]) importRequests).run
      (apiStart (smallApi [importResponse 1]) importRequests smallDb) importTurns
    pool.state.applications.rows.length ≤ smallDb.applications.rows.length + 1 ∧
    pool.stage 0 = .finished (.ok (importResponse 1)) ∧
    ∀ j other, pool.stage j = .finished (.ok other) →
      outcomeOf other = outcomeOf (importResponse 1) := by
  intro pool
  have hgiven : (pool.stage 0).given = some (importResponse 1) := by decide +kernel
  have hfinished := Stage.eq_finished hgiven
  have honce := idempotent_when_safe (smallApi [importResponse 1]) "k-1"
    (.import ⟨some "web", some "."⟩) importRequests (fun _ => rfl) (fun _ => rfl) smallDb importTurns
    importTurns_safe
  exact ⟨honce.1, hfinished, (honce.2.2.2 0 _ hfinished).1⟩

/-- Two imports that both find the key free make two applications and two jobs, and are answered
with different ones; so do an import that stops before its response is stored, and its retry. -/
theorem imports_interleaved_twice :
    let api := smallApi [importResponse 1, importResponse 2]
    let start := apiStart api importRequests smallDb
    let both := (apiPool api importRequests).run start
      ([.run 0, .run 1] ++ List.replicate 7 (.run 0) ++ List.replicate 7 (.run 1))
    let retried := (apiPool api importRequests).run start
      (List.replicate 7 (.run 0) ++ [.crash 0] ++ List.replicate 8 (.run 1))
    (both.state.applications.rows.length, both.state.db.jobs.jobs.rows.length) = (3, 2) ∧
    (both.stage 0).given = some (importResponse 1) ∧
    (both.stage 1).given = some (importResponse 2) ∧
    outcomeOf (importResponse 1) ≠ outcomeOf (importResponse 2) ∧
    (retried.state.applications.rows.length, retried.state.db.jobs.jobs.rows.length) = (3, 2) ∧
    (retried.stage 1).given = some (importResponse 2) := by
  decide +kernel

end Labrys.ControlPlane
