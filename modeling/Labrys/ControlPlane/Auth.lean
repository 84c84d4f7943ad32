import Labrys.ControlPlane.Store
import Labrys.Core.Surfaces

/-! # Who is calling

A bearer token is looked up by its digest; the actor a request claims comes from a header of free
text and must be of the kind the token is scoped for. SHA-256 is a parameter.

* `TokenStore.authenticate`, `parseActor`, `TokenScope.allows`, `ActorContext.eventActor`.
* `admitActor`: what `authorized` decides before it writes anything.
* `admitActor_ok`: an admitted actor is of the kind of a live token. -/

namespace Labrys.ControlPlane
open Foundations Labrys.Core
set_option autoImplicit false

/-! ## Failures -/

structure ApiError where
  status : ℕ
  code : String
  message : String
  recovery : String
  traceId : String
deriving DecidableEq

namespace ApiError

def unauthorized (traceId : String) : ApiError where
  status := 401
  code := "api.unauthorized"
  message := "missing or invalid API token"
  recovery :=
    "set LABRYS_API_TOKEN (server) and pass --token <token> or Authorization: Bearer <token>"
  traceId := traceId

def forbidden (traceId message recovery : String) : ApiError :=
  ⟨403, "api.forbidden", message, recovery, traceId⟩

def notFound (traceId message recovery : String) : ApiError :=
  ⟨404, "api.not_found", message, recovery, traceId⟩

def unprocessable (traceId message recovery : String) : ApiError :=
  ⟨422, "api.unprocessable", message, recovery, traceId⟩

def actorRequired (traceId : String) : ApiError where
  status := 400
  code := "api.actor_required"
  message := "missing or malformed actor identity"
  recovery := "pass x-labryst-actor: human:<name> or agent:<session>:<name>"
  traceId := traceId

end ApiError

/-! ## Tokens -/

inductive TokenScope
  | human | agent
deriving DecidableEq

namespace TokenScope

def kind : TokenScope → ActorKind
  | human => .human
  | agent => .agent

def name : TokenScope → String
  | human => "human"
  | agent => "agent"

/-- Human tokens present human actors and agent tokens agents; nobody presents the platform. -/
def allows : TokenScope → CliActor → Bool
  | human, .human _ => true
  | agent, .agent .. => true
  | _, _ => false

theorem allows_iff {scope : TokenScope} {actor : CliActor} :
    scope.allows actor = true ↔ actor.kind = scope.kind := by
  cases scope <;> cases actor <;> simp [allows, kind, CliActor.kind]

end TokenScope

structure TokenRecord where
  id : String
  identity : String
  scope : TokenScope
  expiresAt : Option DateTime
  revoked : Bool
  secret : List UInt8
deriving DecidableEq

inductive AuthDenyReason
  | unknown | expired | revoked
deriving DecidableEq

def AuthDenyReason.cause : AuthDenyReason → String
  | unknown => "unknown"
  | expired => "expired"
  | revoked => "revoked"

structure AuthDenial where
  reason : AuthDenyReason
  knownId : Option String
deriving DecidableEq

structure AuthenticatedToken where
  id : String
  identity : String
  scope : TokenScope
deriving DecidableEq

/-- The live set, with the hash it is searched by. -/
structure TokenStore where
  sha256 : List UInt8 → Vector UInt8 32
  tokens : List TokenRecord

namespace TokenStore
variable (store : TokenStore)

def find (presented : String) : Option TokenRecord :=
  store.tokens.find? fun record =>
    decide (store.sha256 record.secret = store.sha256 presented.toUTF8.toList)

def authenticate (presented : String) (now : DateTime) : Except AuthDenial AuthenticatedToken :=
  match store.find presented with
  | none => .error ⟨.unknown, none⟩
  | some record =>
      if record.revoked then .error ⟨.revoked, some record.id⟩
      else if record.expiresAt.any fun expires => decide (expires ≤ now) then
        .error ⟨.expired, some record.id⟩
      else .ok ⟨record.id, record.identity, record.scope⟩

def fingerprint (presented : String) : String :=
  "sha256:" ++ String.join (((store.sha256 presented.toUTF8.toList).toList.take 8).map fun byte =>
    hexDigits 2 byte.toNat)

/-- A token of the set that is neither revoked nor expired and answers to what was presented. -/
def Live (presented : String) (now : DateTime) (record : TokenRecord) : Prop :=
  store.find presented = some record ∧ record.revoked = false ∧
    ∀ expires ∈ record.expiresAt, now < expires

theorem authenticate_ok {presented : String} {now : DateTime} {token : AuthenticatedToken}
    (h : store.authenticate presented now = .ok token) :
    ∃ record, store.Live presented now record ∧ token.id = record.id ∧
      token.scope = record.scope := by
  unfold authenticate at h
  split at h
  · cases h
  · next record hfound =>
    split_ifs at h with hrevoked hexpired
    obtain rfl := Except.ok.inj h
    refine ⟨record, ⟨hfound, by simpa using hrevoked, fun expires hexpires => ?_⟩, rfl, rfl⟩
    rw [Option.mem_def.mp hexpires] at hexpired
    simpa using hexpired

end TokenStore

/-! ## Actors -/

/-- A text up to the first colon, and what follows it. -/
def splitColon (text : List Char) : List Char × Option (List Char) :=
  let head := text.takeWhile fun c => c ≠ ':'
  (head, if head.length < text.length then some (text.drop (head.length + 1)) else none)

/-- `parse_actor`: at most three parts, the last of which keeps its colons. -/
def parseActor (raw : String) : Option CliActor :=
  let kind := (splitColon raw.toList).1
  match (splitColon raw.toList).2 with
  | none => none
  | some rest =>
      let second := (splitColon rest).1
      match (splitColon rest).2 with
      | none =>
          if kind = "human".toList ∧ isBlank second = false then
            some (.human (String.ofList second))
          else if kind = "platform".toList ∧ isBlank second = false then
            some (.platform (String.ofList second))
          else none
      | some name =>
          if kind = "agent".toList ∧ isBlank second = false ∧ isBlank name = false then
            some (.agent (String.ofList second) (String.ofList name))
          else none

structure ActorContext where
  actor : CliActor
  traceId : String
  idempotencyKey : Option String
deriving DecidableEq

namespace ActorContext
variable (ctx : ActorContext)

/-- An agent whose session does not parse is recorded as the platform. -/
def eventActor : EventActor :=
  match ctx.actor with
  | .human name => .human name
  | .platform name => .platform name
  | .agent sessionId name =>
      match TaggedId.parse "agt" sessionId with
      | some sessionId => .agent sessionId name
      | none => .platform s!"agent:{name}"

def correlation : Correlation := .new ctx.traceId

end ActorContext

/-! ## Admission -/

/-- The headers a handler reads, as far as they are text. -/
structure Headers where
  authorization : Option String
  actor : Option String
  traceId : Option String
  idempotencyKey : Option String
deriving DecidableEq

namespace Headers
variable (headers : Headers)

def bearer : String :=
  let text := (headers.authorization.getD "").toList
  if "Bearer ".toList <+: text then String.ofList (text.drop 7) else ""

/-- `trace_of`, with the id drawn for a request that has none. -/
def traceOf (fresh : String) : String :=
  (headers.traceId.filter fun text => !isBlank text.toList).getD fresh

def idempotencyOf : Option String :=
  headers.idempotencyKey.filter fun text => !isBlank text.toList

end Headers

/-- Why a request is turned away, and what the audit log is told about it. -/
structure Refusal where
  error : ApiError
  detail : Option String
deriving DecidableEq

def denialDetail (store : TokenStore) (presented : String) (denial : AuthDenial) : String :=
  let reference := match denial.knownId with
    | some id => s!"token '{id}'"
    | none => s!"unknown token ({store.fingerprint presented})"
  s!"auth rejected: {denial.reason.cause} bearer for {reference}"

/-- The decision of `authorized`. -/
def admitActor (store : TokenStore) (headers : Headers) (traceId : String) (now : DateTime) :
    Except Refusal ActorContext :=
  match store.authenticate headers.bearer now with
  | .error denial =>
      .error ⟨.unauthorized traceId, some (denialDetail store headers.bearer denial)⟩
  | .ok token =>
      match parseActor (headers.actor.getD "") with
      | none => .error ⟨.actorRequired traceId, none⟩
      | some actor =>
          if token.scope.allows actor then .ok ⟨actor, traceId, headers.idempotencyOf⟩
          else
            .error
              { error := .forbidden traceId
                  s!"token '{token.id}' is not scoped for a {actor.kindLabel} actor"
                  ("use a token whose scope matches the actor, or have a human operator approve " ++
                    "and run human-only lifecycle mutations")
                detail := some (s!"auth rejected: {token.scope.name}-scoped token '{token.id}' " ++
                  s!"cannot claim a {actor.kindLabel} actor") }

/-- **An admitted actor** was named by the header, and is of the kind of the live token. -/
theorem admitActor_ok {store : TokenStore} {headers : Headers} {traceId : String} {now : DateTime}
    {ctx : ActorContext} (h : admitActor store headers traceId now = .ok ctx) :
    (∃ record, store.Live headers.bearer now record ∧ ctx.actor.kind = record.scope.kind) ∧
      parseActor (headers.actor.getD "") = some ctx.actor ∧ ctx.traceId = traceId ∧
      ctx.idempotencyKey = headers.idempotencyOf := by
  unfold admitActor at h
  split at h
  · cases h
  · next token htoken =>
    split at h
    · cases h
    · next actor hactor =>
      split_ifs at h with hallowed
      obtain rfl := Except.ok.inj h
      obtain ⟨record, hlive, -, hscope⟩ := store.authenticate_ok htoken
      refine ⟨⟨record, hlive, ?_⟩, hactor, rfl, rfl⟩
      rw [← hscope]
      exact TokenScope.allows_iff.mp hallowed

/-! ## Policy of the handlers -/

namespace ActorContext
variable (ctx : ActorContext)

def forbidAgent (command : String) : Option ApiError :=
  if ctx.actor.kind = .agent then
    some (.forbidden ctx.traceId s!"an agent session may not run '{command}'"
      "a human operator must run this command; agents may request approval first")
  else none

def requireHuman (command : String) : Option ApiError :=
  if ctx.actor.isHuman = false then
    some (.forbidden ctx.traceId s!"'{command}' is a human-only operation"
      "a named human must issue this command with --approve-by <name>")
  else none

def requireIdempotency (command : String) : Except ApiError String :=
  match ctx.idempotencyKey with
  | some key => .ok key
  | none => .error
      { status := 400
        code := "api.idempotency_required"
        message := s!"'{command}' changes platform state and needs an idempotency key"
        recovery := "re-send with an Idempotency-Key header so a retry is safe"
        traceId := ctx.traceId }

end ActorContext

end Labrys.ControlPlane
