import Labrys.ControlPlane.Api

/-! # What the statements of a handler do

The work of every handler is made of few statements: it reads the platform's tables, saves an
application, inserts a job and appends an event. `WorkRule.work` takes the handlers apart once; a
property of scripts that sequencing keeps is then a property of each of those statements.

* `admission_eq`: what a request must pass before its key is looked up.
* `keeps_replays_work`: only the last statement of a handler stores a response.
* `attribution_exact`: whom the events of a request are attributed to. -/

namespace Labrys.ControlPlane
open Foundations Labrys.Core
set_option autoImplicit false

variable {api : ApiState} {ctx : ActorContext} {draws : Draws}

/-! ## Taking the handlers apart -/

/-- A property of scripts that holds of a handler's work: sequencing keeps it, and each statement
has it. It may be weighed, and then an application saved, a job inserted and an event appended have
weights of their own. -/
structure WorkRule (api : ApiState) (ctx : ActorContext) (draws : Draws)
    (P : ∀ {α : Type}, ApiScript α → ℕ → Prop) (saved inserted appended : ℕ) : Prop where
  done : ∀ {α : Type} (x : Except (Fault ApiError) α), P (.done x) 0
  mono : ∀ {α : Type} {m : ApiScript α} {n n' : ℕ}, P m n → n ≤ n' → P m n'
  bind : ∀ {α β : Type} {m : ApiScript α} {f : α → ApiScript β} {n n' : ℕ}, P m n →
    (∀ a, P (f a) n') → P (m >>= f) (n + n')
  read : ∀ {α : Type} (handler : Fault ControlPlaneError → Fault ApiError)
    (f : Platform → Outcome ControlPlaneError α), P (statement handler (reading f)) 0
  save : ∀ app, P (statement ctx.internal (PgApplicationStore.save app)) saved
  job : ∀ target action, P (statement ctx.internal (insertJob draws target action)) inserted
  event : ∀ draft : EventDraft, draft.actor = ctx.eventActor →
    P (statement ctx.internal (onDb (PgEventStore.append draft api.secrets))) appended

namespace WorkRule
variable {P : ∀ {α : Type}, ApiScript α → ℕ → Prop} {saved inserted appended : ℕ}
  (h : WorkRule api ctx draws P saved inserted appended)
include h

theorem get (handler : Fault ControlPlaneError → Fault ApiError) (id : ApplicationId) :
    P (PgApplicationStore.get handler id) 0 :=
  h.bind (h.read _ _) fun _ => h.bind (h.read _ _) fun _ => h.done _

theorem loadApp (raw : String) : P (loadApp ctx raw) 0 := by
  unfold ControlPlane.loadApp
  split
  · exact h.done _
  · exact h.get _ _

theorem accept (command : String) (mutation : Mutation) (hdata : P mutation.data 0) :
    P (accept api ctx draws command mutation) (inserted + appended) := by
  have hjob : P (enqueue ctx draws mutation.jobTarget mutation.action) inserted :=
    h.bind (h.job _ _) fun outcome => h.bind (h.read _ _) fun _ => h.done _
  refine h.bind hjob fun enqueued => ?_
  exact h.bind (h.event _ rfl) fun _ => h.bind hdata fun _ => h.done _

/-- What comes after the application is loaded. -/
theorem loaded (raw : String) {rest : Application → ApiScript Json}
    (hrest : ∀ app, P (rest app) (inserted + appended)) :
    P (ControlPlane.loadApp ctx raw >>= rest) (saved + (inserted + appended)) :=
  h.mono (h.bind (h.loadApp raw) hrest) (by omega)

theorem mutateSimple (raw : String) (body : MutationBody) (command : String) (action : JobAction)
    (targetSuffix : String) :
    P ((mutateSimple api draws raw body command action targetSuffix).work ctx)
      (saved + (inserted + appended)) :=
  h.loaded raw fun _ => h.accept _ _ (h.done _)

/-- **The work of every handler.** -/
theorem work (call : ApiCall) :
    P ((call.endpoint api draws).work ctx) (saved + (inserted + appended)) := by
  have hrefused : ∀ (x : Except (Fault ApiError) Json), P (.done x) (inserted + appended) :=
    fun x => h.mono (h.done x) (Nat.zero_le _)
  cases call with
  | «import» body =>
    refine h.bind (h.save _) fun _ => h.accept _ _ ?_
    exact h.bind (h.get _ _) fun _ => h.done _
  | runDev raw body => exact h.mutateSimple raw body _ _ _
  | agent raw body => exact h.mutateSimple raw body _ _ _
  | preview raw body => exact h.mutateSimple raw body _ _ _
  | capability raw body =>
    refine h.loaded raw fun app => ?_
    dsimp only
    split_ifs
    · exact hrefused _
    · exact h.accept _ _ (h.done _)
  | build raw body => exact h.loaded raw fun _ => h.accept _ _ (h.done _)
  | deploy raw body =>
    refine h.loaded raw fun app => ?_
    dsimp only
    split_ifs
    · exact hrefused _
    · exact h.accept _ _ (h.done _)
  | rollback raw body =>
    refine h.loaded raw fun app => ?_
    refine h.mono (n := 0 + (0 + (0 + (inserted + appended)))) ?_ (by omega)
    refine h.bind (h.done _) fun id => h.bind (h.read _ _) fun target => ?_
    exact h.bind (h.done _) fun _ => h.accept _ _ (h.done _)

end WorkRule

/-! ## Statements -/

theorem ok_of_mapError {ε ε' α : Type} {f : ε → ε'} {x : Except ε α} {a : α}
    (h : x.mapError f = .ok a) : x = .ok a := by
  cases x with
  | error e => cases h
  | ok b => exact congrArg Except.ok (Except.ok.inj h)

theorem ok_of_toOption {ε α : Type} {x : Except ε α} {a : α} (h : x.toOption = some a) :
    x = .ok a := by
  cases x with
  | error e => cases h
  | ok b => exact congrArg Except.ok (Option.some_inj.mp h)

theorem run_statement {α : Type} (handler : Fault ControlPlaneError → Fault ApiError)
    (m : Statement α) (s : ApiDb) :
    (statement handler m).run s = ((m s).1, (m s).2.mapError handler) := rfl

theorem steps_statement {α : Type} {R : ApiDb → ApiDb → Prop}
    {handler : Fault ControlPlaneError → Fault ApiError} {m : Statement α}
    (h : ∀ s, R s (m s).1) : (statement handler m).Steps R :=
  Script.steps_atomic h

/-- Appending to the audit log leaves everything else. -/
theorem audit_append (s : ApiDb) (entry : AuditEntry) (secrets : List String) :
    { s with db := (PgAuditLog.append entry secrets s.db).1 } =
      { s with db := { s.db with audit := (PgAuditLog.append entry secrets s.db).1.audit } } := by
  have hrun : PgAuditLog.append entry secrets s.db =
      (Action.lift (redactGuard "audit.detail" entry.detail secrets) >>= fun detail => fun db =>
        ({ db with audit := db.audit ++ [{ entry with detail := detail }] }, .ok ())) s.db := rfl
  rw [hrun]
  cases redactGuard "audit.detail" entry.detail secrets <;> rfl

theorem events_append (draft : EventDraft) (secrets : List String) (s : ApiDb) :
    onDb (PgEventStore.append draft secrets) s = match redactEvent draft secrets with
      | .ok stored => ({ s with db := { s.db with events := s.db.events ++ [stored] } }, .ok ())
      | .error e => (s, .error (.err e)) := by
  have hrun : PgEventStore.append draft secrets s.db =
      (Action.lift (redactEvent draft secrets) >>= fun stored => fun db =>
        ({ db with events := db.events ++ [stored] }, .ok ())) s.db := rfl
  rw [onDb, hrun]
  cases redactEvent draft secrets <;> rfl

/-- Appending an event refuses it, or adds one event of the same actor at the end. -/
theorem append_cases (draft : EventDraft) (secrets : List String) (s : ApiDb) :
    (∃ e, onDb (PgEventStore.append draft secrets) s = (s, .error (.err e))) ∨
    ∃ stored : EventDraft, stored.actor = draft.actor ∧
      onDb (PgEventStore.append draft secrets) s =
        ({ s with db := { s.db with events := s.db.events ++ [stored] } }, .ok ()) := by
  rw [events_append]
  cases hredact : redactEvent draft secrets with
  | error e => exact .inl ⟨e, rfl⟩
  | ok stored =>
    refine .inr ⟨stored, ?_, rfl⟩
    obtain ⟨before, after, result, -, -, -, rfl⟩ := redactEvent_cases hredact
    rfl

/-- The work of a handler stores no response. -/
theorem keeps_replays_work (call : ApiCall) :
    Script.Keeps ApiDb.replays ((call.endpoint api draws).work ctx) := by
  have hrule : WorkRule api ctx draws (fun m _ => Script.Keeps ApiDb.replays m) 0 0 0 := {
    done := fun _ => trivial
    mono := fun hm _ => hm
    bind := Script.Steps.bind
    read := fun _ _ => steps_statement fun _ => rfl
    save := fun _ => steps_statement fun _ => rfl
    job := fun _ _ => steps_statement fun _ => rfl
    event := fun _ _ => steps_statement fun _ => rfl }
  exact hrule.work call

/-! ## Admission -/

theorem authorized_of_ok {headers : Headers} (target : String)
    (h : admitActor api.tokens headers (headers.traceOf draws.traceId) draws.authTime = .ok ctx) :
    authorized api headers draws target = pure ctx := by
  unfold authorized
  rw [h]

/-- `authorized` returns a context exactly if the actor is admitted, and then writes nothing. -/
theorem authorized_eq_ok_iff {headers : Headers} {target : String} {s s' : ApiDb} :
    (authorized api headers draws target).run s = (s', .ok ctx) ↔
      admitActor api.tokens headers (headers.traceOf draws.traceId) draws.authTime = .ok ctx ∧
        s' = s := by
  unfold authorized
  split
  · next found hfound =>
    rw [hfound, Except.ok.injEq]
    change (s, Except.ok found) = (s', .ok ctx) ↔ _
    rw [Prod.mk.injEq, Except.ok.injEq]
    tauto
  · next hrefused =>
    rw [hrefused]
    simp [refuse]
  · next error detail hrefused =>
    rw [hrefused, Script.run_bind]
    refine ⟨fun hrun => ?_, fun hrun => by simp at hrun⟩
    obtain ⟨middle, value, -, hrefuse⟩ := Program.bind_eq_ok hrun
    cases congrArg Prod.snd hrefuse

namespace Endpoint
variable {endpoint : Endpoint} {headers : Headers}

theorem admission_of_ok
    (h : admitActor api.tokens headers (headers.traceOf draws.traceId) draws.authTime = .ok ctx) :
    endpoint.admission api headers draws = settle (do
      endpoint.policy ctx
      let key ← ctx.requireIdempotency endpoint.command
      return (ctx, key)) := by
  unfold admission
  rw [authorized_of_ok endpoint.target h]
  change (settle (endpoint.policy ctx) >>= fun _ =>
    settle (ctx.requireIdempotency endpoint.command) >>= fun key => pure (ctx, key)) = _
  cases endpoint.policy ctx with
  | error e => rfl
  | ok value => cases ctx.requireIdempotency endpoint.command <;> rfl

theorem requireIdempotency_of_admitted {key : String} (command : String)
    (h : admitActor api.tokens headers (headers.traceOf draws.traceId) draws.authTime = .ok ctx)
    (hkey : headers.idempotencyOf = some key) : ctx.requireIdempotency command = .ok key := by
  unfold ActorContext.requireIdempotency
  rw [(admitActor_ok h).2.2.2, hkey]

theorem run_admission {key : String}
    (h : admitActor api.tokens headers (headers.traceOf draws.traceId) draws.authTime = .ok ctx)
    (hpolicy : endpoint.policy ctx = .ok ()) (hkey : headers.idempotencyOf = some key) (s : ApiDb) :
    (endpoint.admission api headers draws).run s = (s, .ok (ctx, key)) := by
  rw [admission_of_ok h, hpolicy, requireIdempotency_of_admitted endpoint.command h hkey]
  rfl

/-- What a request has passed, and that passing it writes nothing. -/
theorem admission_eq {s s' : ApiDb} {admitted : ActorContext × String}
    (h : (endpoint.admission api headers draws).run s = (s', .ok admitted)) :
    s' = s ∧ endpoint.policy admitted.1 = .ok () ∧
      admitActor api.tokens headers (headers.traceOf draws.traceId) draws.authTime =
        .ok admitted.1 ∧
      headers.idempotencyOf = some admitted.2 := by
  obtain ⟨ctx, key⟩ := admitted
  have hadmission := h
  unfold admission at h
  rw [Script.run_bind] at h
  obtain ⟨s₁, found, hfound, -⟩ := Program.bind_eq_ok h
  obtain ⟨hactor, rfl⟩ := authorized_eq_ok_iff.mp hfound
  rw [admission_of_ok hactor] at hadmission
  cases hpolicy : endpoint.policy found with
  | error e => rw [hpolicy] at hadmission; cases congrArg Prod.snd hadmission
  | ok value =>
  cases hkey : found.requireIdempotency endpoint.command with
  | error e => rw [hpolicy, hkey] at hadmission; cases congrArg Prod.snd hadmission
  | ok name =>
  rw [hpolicy, hkey] at hadmission
  obtain ⟨rfl, hpair⟩ := Prod.mk.inj hadmission
  obtain ⟨rfl, rfl⟩ := Prod.mk.inj (Except.ok.inj hpair)
  refine ⟨rfl, hpolicy, hactor, ?_⟩
  rw [← (admitActor_ok hactor).2.2.2]
  unfold ActorContext.requireIdempotency at hkey
  split at hkey
  · next found hfound => rw [hfound, Except.ok.inj hkey]
  · cases hkey

theorem run_store {admitted : ActorContext × String} {response stored : Json}
    (h : storedResponse api response = .ok stored) (s : ApiDb) :
    (endpoint.store api admitted response).run s =
      ({ s with replays := s.replays.insertNew ⟨admitted.2, endpoint.command, stored⟩ },
        .ok response) := by
  have hrun : (statement admitted.1.internal
      (storeReplay api admitted.2 endpoint.command response)).run s =
      ({ s with replays := s.replays.insertNew ⟨admitted.2, endpoint.command, stored⟩ },
        .ok ()) := by
    rw [run_statement]
    unfold storeReplay
    rw [h]
    rfl
  unfold store
  rw [Script.run_bind, Program.bind_of_ok hrun]
  rfl

/-- Turning a request away touches the audit log only. -/
theorem keeps_admission {γ : Type} {view : ApiDb → γ}
    (hview : ∀ s audit, view { s with db := { s.db with audit := audit } } = view s) :
    (endpoint.admission api headers draws).Keeps view := by
  have hauthorized : (authorized api headers draws endpoint.target).Keeps view := by
    unfold authorized
    split
    · trivial
    · trivial
    · next error detail hrefused =>
      refine Script.Steps.bind (steps_statement fun s => ?_) fun _ => trivial
      rw [onDb, Action.dropError_fst]
      exact (congrArg view (audit_append s _ _)).trans (hview s _)
  exact hauthorized.bind fun _ => Script.Steps.bind trivial fun _ => Script.Steps.bind trivial
    fun _ => trivial

end Endpoint

/-! ## A whole request -/

theorem reading_ok {α : Type} {handler : Fault ControlPlaneError → Fault ApiError}
    {f : Platform → Outcome ControlPlaneError α} {s s' : ApiDb} {a : α}
    (h : (statement handler (reading f)).run s = (s', .ok a)) : s' = s ∧ f s.platform = .ok a := by
  obtain ⟨rfl, hresult⟩ := Prod.mk.inj h
  refine ⟨rfl, ?_⟩
  change (f s.platform).mapError handler = .ok a at hresult
  cases hf : f s.platform with
  | error e => rw [hf] at hresult; cases hresult
  | ok b =>
    rw [hf] at hresult
    obtain rfl := Except.ok.inj hresult
    rfl

/-- The response is the stored one of the key. -/
def Replays (s : ApiDb) (key : String) (response : Json) : Prop :=
  ∃ record, s.replays.get key = some record ∧
    record.response.set "replayed" (.bool true) = .ok response

theorem checkReplay_ok {key : String} {s : ApiDb} {found : Option Json}
    (h : (checkReplay (some key) s).2 = .ok found) :
    (found = none ∧ s.replays.get key = none) ∨
      ∃ response, found = some response ∧ Replays s key response := by
  unfold checkReplay at h
  rw [Option.bind_some] at h
  cases hget : s.replays.get key with
  | none =>
    rw [hget] at h
    exact .inl ⟨(Except.ok.inj h).symm, rfl⟩
  | some record =>
    rw [hget] at h
    dsimp only at h
    cases hset : record.response.set "replayed" (.bool true) with
    | error message => rw [hset] at h; cases h
    | ok marked =>
      rw [hset] at h
      exact .inr ⟨marked, (Except.ok.inj h).symm, record, hget, hset⟩

theorem checkReplay_fst (key : Option String) (s : ApiDb) : (checkReplay key s).1 = s := by
  unfold checkReplay
  split
  · rfl
  · split <;> rfl

/-- The response is the request's own, and its stored form is kept under the key. -/
def Answers (api : ApiState) (endpoint : Endpoint) (ctx : ActorContext) (key : String)
    (s s' : ApiDb) (response : Json) : Prop :=
  ∃ s₁ stored, (endpoint.work ctx).run s = (s₁, .ok response) ∧
    storedResponse api response = .ok stored ∧
    s' = { s₁ with replays := s₁.replays.insertNew ⟨key, endpoint.command, stored⟩ }

/-- **A request that is answered** was admitted, and its answer is a replay that changes nothing, or
its own. -/
theorem handle_cases {endpoint : Endpoint} {headers : Headers} {s s' : ApiDb} {response : Json}
    (h : (endpoint.handle api headers draws).run s = (s', .ok response)) :
    ∃ ctx key,
      admitActor api.tokens headers (headers.traceOf draws.traceId) draws.authTime = .ok ctx ∧
      endpoint.policy ctx = .ok () ∧ headers.idempotencyOf = some key ∧
      ((Replays s key response ∧ s' = s) ∨
        (s.replays.get key = none ∧ Answers api endpoint ctx key s s' response)) := by
  unfold Endpoint.handle at h
  rw [Script.run_bind] at h
  obtain ⟨s₁, ⟨ctx, key⟩, hadmission, hrest⟩ := Program.bind_eq_ok h
  obtain ⟨rfl, hpolicy, hactor, hkey⟩ := Endpoint.admission_eq hadmission
  refine ⟨ctx, key, hactor, hpolicy, hkey, ?_⟩
  rw [Script.run_bind] at hrest
  obtain ⟨s₂, replayed, hcheck, hanswer⟩ := Program.bind_eq_ok hrest
  change ((checkReplay (some key) s₁).1, (checkReplay (some key) s₁).2.mapError _) =
    (s₂, Except.ok replayed) at hcheck
  obtain ⟨hstate, hfound⟩ := Prod.mk.inj hcheck
  rw [checkReplay_fst] at hstate
  subst hstate
  obtain ⟨rfl, hfree⟩ | ⟨marked, rfl, hreplays⟩ := checkReplay_ok (ok_of_mapError hfound)
  · refine .inr ⟨hfree, ?_⟩
    change (endpoint.work ctx >>= endpoint.store api (ctx, key)).run s₁ = (s', .ok response) at hanswer
    rw [Script.run_bind] at hanswer
    obtain ⟨s₂, own, hwork, hstore⟩ := Program.bind_eq_ok hanswer
    unfold Endpoint.store at hstore
    rw [Script.run_bind] at hstore
    obtain ⟨s₃, stored, hstored, hfinal⟩ := Program.bind_eq_ok hstore
    obtain ⟨rfl, hown⟩ := Prod.mk.inj hfinal
    obtain rfl := Except.ok.inj hown
    rw [run_statement] at hstored
    unfold storeReplay at hstored
    cases hform : storedResponse api own with
    | error e => rw [hform] at hstored; cases congrArg Prod.snd hstored
    | ok form =>
      rw [hform] at hstored
      exact ⟨s₂, form, hwork, hform, (congrArg Prod.fst hstored).symm⟩
  · obtain ⟨rfl, hresponse⟩ := Prod.mk.inj hanswer
    obtain rfl := Except.ok.inj hresponse
    exact .inl ⟨hreplays, rfl⟩

/-- A request that is admitted under a key something is stored for is answered with that. -/
theorem handle_of_replays {endpoint : Endpoint} {headers : Headers} {s : ApiDb} {key : String}
    {response : Json}
    (hactor : admitActor api.tokens headers (headers.traceOf draws.traceId) draws.authTime =
      .ok ctx)
    (hpolicy : endpoint.policy ctx = .ok ()) (hkey : headers.idempotencyOf = some key)
    (h : Replays s key response) :
    (endpoint.handle api headers draws).run s = (s, .ok response) := by
  obtain ⟨record, hget, hset⟩ := h
  have hcheck : (Endpoint.check (ctx, key)).run s = (s, .ok (some response)) := by
    unfold Endpoint.check
    rw [run_statement]
    unfold checkReplay
    rw [Option.bind_some, hget]
    dsimp only
    rw [hset]
    rfl
  unfold Endpoint.handle
  rw [Script.run_bind, Program.bind_of_ok (Endpoint.run_admission hactor hpolicy hkey s),
    Script.run_bind, Program.bind_of_ok hcheck]
  rfl

/-- A request that is admitted under a free key does its work and stores its response. -/
theorem handle_of_free {endpoint : Endpoint} {headers : Headers} {s : ApiDb} {key : String}
    (hactor : admitActor api.tokens headers (headers.traceOf draws.traceId) draws.authTime =
      .ok ctx)
    (hpolicy : endpoint.policy ctx = .ok ()) (hkey : headers.idempotencyOf = some key)
    (h : s.replays.get key = none) :
    (endpoint.handle api headers draws).run s =
      (endpoint.work ctx >>= endpoint.store api (ctx, key)).run s := by
  have hcheck : (Endpoint.check (ctx, key)).run s = (s, .ok none) := by
    unfold Endpoint.check
    rw [run_statement]
    unfold checkReplay
    rw [Option.bind_some, h]
    rfl
  unfold Endpoint.handle
  rw [Script.run_bind, Program.bind_of_ok (Endpoint.run_admission hactor hpolicy hkey s),
    Script.run_bind, Program.bind_of_ok hcheck]
  rfl

/-! ## Attribution -/

/-- The actor of an event is of the kind of the scope. -/
def TokenScope.attributes : TokenScope → EventActor → Bool
  | human, .human _ => true
  | agent, .agent .. => true
  | _, _ => false

/-- If the header claims an agent, its session reads as a session id. -/
def SessionParses (header : String) : Prop :=
  ∀ session name, parseActor header = some (.agent session name) →
    ∃ id : AgentSessionId, TaggedId.parse "agt" session = some id

theorem attributes_eventActor_iff {scope : TokenScope} {header : String}
    (hkind : ctx.actor.kind = scope.kind) (hactor : parseActor header = some ctx.actor) :
    scope.attributes ctx.eventActor = true ↔ SessionParses header := by
  unfold SessionParses ActorContext.eventActor
  rw [hactor]
  cases hclaimed : ctx.actor with
  | human name =>
    rw [hclaimed] at hkind
    cases scope with
    | human => simp [TokenScope.attributes]
    | agent => cases hkind
  | platform name =>
    rw [hclaimed] at hkind
    cases scope <;> cases hkind
  | agent session name =>
    rw [hclaimed] at hkind
    cases scope with
    | human => cases hkind
    | agent =>
      cases hparse : TaggedId.parse "agt" session with
      | none => simp [TokenScope.attributes, hparse]
      | some id => simp [TokenScope.attributes, hparse]

/-- The events grow at the end, by events of one actor. -/
def RecordsAs (actor : EventActor) (s s' : ApiDb) : Prop :=
  ∃ recorded : List EventDraft, s'.db.events = s.db.events ++ recorded ∧
    ∀ event ∈ recorded, event.actor = actor

theorem recordsAs_of_eq {actor : EventActor} {s s' : ApiDb} (h : s'.db.events = s.db.events) :
    RecordsAs actor s s' :=
  ⟨[], by rw [h, List.append_nil], fun _ hevent => by cases hevent⟩

theorem RecordsAs.trans {actor : EventActor} {a b c : ApiDb} (hab : RecordsAs actor a b)
    (hbc : RecordsAs actor b c) : RecordsAs actor a c := by
  obtain ⟨first, hfirst, hfirstActor⟩ := hab
  obtain ⟨second, hsecond, hsecondActor⟩ := hbc
  refine ⟨first ++ second, by rw [hsecond, hfirst, List.append_assoc], fun event hevent => ?_⟩
  obtain hevent | hevent := List.mem_append.mp hevent
  · exact hfirstActor event hevent
  · exact hsecondActor event hevent

theorem recordsAs_work (call : ApiCall) :
    ((call.endpoint api draws).work ctx).Steps (RecordsAs ctx.eventActor) := by
  have hrule : WorkRule api ctx draws (fun m _ => m.Steps (RecordsAs ctx.eventActor)) 0 0 0 := {
    done := fun _ => trivial
    mono := fun hm _ => hm
    bind := Script.Steps.bind
    read := fun _ _ => steps_statement fun _ => recordsAs_of_eq rfl
    save := fun _ => steps_statement fun _ => recordsAs_of_eq rfl
    job := fun _ _ => steps_statement fun _ => recordsAs_of_eq rfl
    event := fun draft hdraft => steps_statement fun s => by
      obtain ⟨e, heq⟩ | ⟨stored, hactor, heq⟩ := append_cases draft api.secrets s
      · rw [heq]
        exact recordsAs_of_eq rfl
      · rw [heq]
        refine ⟨[stored], rfl, fun event hevent => ?_⟩
        rw [List.mem_singleton.mp hevent, hactor, hdraft] }
  exact hrule.work call

theorem recordsAs_handle (call : ApiCall) {headers : Headers}
    (h : admitActor api.tokens headers (headers.traceOf draws.traceId) draws.authTime = .ok ctx)
    (s : ApiDb) :
    RecordsAs ctx.eventActor s
      (((call.endpoint api draws).handle api headers draws).run s).1 := by
  set endpoint := call.endpoint api draws with hendpoint
  have hsteps : (endpoint.handle api headers draws).Steps (RecordsAs ctx.eventActor) := by
    unfold Endpoint.handle
    rw [Endpoint.admission_of_ok h]
    cases endpoint.policy ctx with
    | error e => trivial
    | ok value =>
    cases ctx.requireIdempotency endpoint.command with
    | error e => trivial
    | ok key =>
    change (Endpoint.check (ctx, key) >>= endpoint.answer api (ctx, key)).Steps _
    refine Script.Steps.bind (steps_statement fun s => recordsAs_of_eq ?_) fun replayed => ?_
    · unfold checkReplay
      split
      · rfl
      · split <;> rfl
    cases replayed with
    | some response => trivial
    | none =>
      refine Script.Steps.bind (recordsAs_work call) fun response => ?_
      refine Script.Steps.bind (steps_statement fun s => recordsAs_of_eq ?_) fun _ => trivial
      unfold storeReplay
      split <;> rfl
  have hrun := hsteps.run s
  generalize ((endpoint.handle api headers draws).run s).1 = final at hrun ⊢
  induction hrun with
  | refl => exact recordsAs_of_eq rfl
  | tail _ hstep ih => exact ih.trans hstep

/-- **Attribution follows the credential** as far as the session text allows. For every request that
`authorized` accepts there is a live token of whose kind the actor is; and an event recorded for the
request is of that kind exactly if the header's session, where it claims an agent, reads as a session
id. -/
theorem attribution_exact (api : ApiState) (request : ApiRequest) (s s₁ : ApiDb)
    (ctx : ActorContext)
    (h : (authorized api request.headers request.draws (request.endpoint api).target).run s =
      (s₁, .ok ctx)) :
    ∃ record recorded,
      api.tokens.Live request.headers.bearer request.draws.authTime record ∧
      ctx.actor.kind = record.scope.kind ∧
      ((request.script api).run s).1.db.events = s.db.events ++ recorded ∧
      ∀ event ∈ recorded, record.scope.attributes event.actor = true ↔
        SessionParses (request.headers.actor.getD "") := by
  obtain ⟨hadmitted, -⟩ := authorized_eq_ok_iff.mp h
  obtain ⟨⟨record, hlive, hkind⟩, hactor, -, -⟩ := admitActor_ok hadmitted
  obtain ⟨recorded, hevents, hactors⟩ := recordsAs_handle request.call hadmitted s
  refine ⟨record, recorded, hlive, hkind, hevents, fun event hevent => ?_⟩
  rw [hactors event hevent]
  exact attributes_eventActor_iff hkind hactor

/-- An agent whose session id reads is admitted and recorded as an agent. -/
theorem attribution_exact_agent :
    let request := agentRequest 1 "agt_00000000000000000000000000000001" "k-1"
      (.runDev (toString smallApplication) emptyBody)
    ∃ ctx s₁, (authorized (smallApi []) request.headers request.draws "run").run smallDb =
        (s₁, .ok ctx) ∧
      SessionParses (request.headers.actor.getD "") ∧
      ∃ record recorded,
        smallTokens.Live request.headers.bearer request.draws.authTime record ∧
        ctx.actor.kind = record.scope.kind ∧
        ((request.script (smallApi [])).run smallDb).1.db.events = recorded ∧
        ∀ event ∈ recorded, record.scope.attributes event.actor = true := by
  have hactor : parseActor "agent:agt_00000000000000000000000000000001:bob" =
      some (.agent "agt_00000000000000000000000000000001" "bob") := by decide +kernel
  have hparses : SessionParses "agent:agt_00000000000000000000000000000001:bob" := by
    intro session name h
    rw [hactor] at h
    obtain ⟨rfl, rfl⟩ := CliActor.agent.inj (Option.some_inj.mp h)
    exact ⟨⟨1⟩, by decide +kernel⟩
  have hadmitted : (authorized (smallApi [])
      (agentRequest 1 "agt_00000000000000000000000000000001" "k-1"
        (.runDev (toString smallApplication) emptyBody)).headers (smallDraws 1) "run").run smallDb =
      (smallDb, .ok ⟨.agent "agt_00000000000000000000000000000001" "bob", "trace-1",
        some "k-1"⟩) :=
    authorized_eq_ok_iff.mpr ⟨by decide +kernel, rfl⟩
  refine ⟨_, _, hadmitted, hparses, ?_⟩
  obtain ⟨record, recorded, hlive, hkind, hevents, hall⟩ := attribution_exact (smallApi [])
    (agentRequest 1 "agt_00000000000000000000000000000001" "k-1"
      (.runDev (toString smallApplication) emptyBody)) smallDb _ _ hadmitted
  exact ⟨record, recorded, hlive, hkind, hevents, fun event hevent =>
    (hall event hevent).mpr hparses⟩

/-- An agent token with a session that is no id: the request is admitted as an agent, and its event
is recorded as the platform's. -/
theorem agent_recorded_as_platform :
    let request := agentRequest 1 "not-a-session" "k-1"
      (.runDev (toString smallApplication) emptyBody)
    ((authorized (smallApi []) request.headers request.draws "run").run smallDb).2 =
        .ok ⟨.agent "not-a-session" "bob", "trace-1", some "k-1"⟩ ∧
      ((smallTokens.find request.headers.bearer).map (·.scope)) = some .agent ∧
      ((request.script (smallApi [])).run smallDb).1.db.events.map (·.actor) =
        [.platform "agent:bob"] ∧
      TokenScope.agent.attributes (.platform "agent:bob") = false := by
  refine ⟨?_, by decide +kernel, by decide +kernel, rfl⟩
  have hadmitted : admitActor smallTokens
      (agentRequest 1 "not-a-session" "k-1"
        (.runDev (toString smallApplication) emptyBody)).headers "trace-1" 1 =
      .ok ⟨.agent "not-a-session" "bob", "trace-1", some "k-1"⟩ := by decide +kernel
  exact congrArg Prod.snd (authorized_eq_ok_iff.mpr ⟨hadmitted, rfl⟩ :
    (authorized (smallApi []) _ (smallDraws 1) "run").run smallDb = (smallDb, _))

end Labrys.ControlPlane
