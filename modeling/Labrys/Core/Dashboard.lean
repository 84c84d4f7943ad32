import Labrys.Core.Surfaces
import Labrys.Foundations.Selection

/-! # The dashboard, and what of it is one application's own

`render_dashboard` reads the platform state for one application: its events, deployments,
capabilities and resources by its id, and the log store and the plugins as they are; `labrys logs`
reads the whole log store too. Two states that differ only in what belongs to another application
have one dashboard and one list of logs when their log stores show the same
(`renderDashboard_of_shown`, `execute_logs_of_shown`), and the list tells if they do not
(`shown_of_logs`).

* `PlatformState.SameBut`: two states that differ only in one application's own records.
* `LogEntry.shown`: what a surface shows of a log line. -/

namespace Labrys.Core
open Foundations
set_option autoImplicit false

/-! ## The view -/

inductive DashboardSection
  | apps | overview | vibe | codeChanges | preview | capabilities | resources | runtime
  | deployments | logs | secrets | settings
deriving DecidableEq

inductive Attribution
  | agent (sessionId name : String)
  | platform (name : String)
  | human (name : String)
deriving DecidableEq

structure DashboardEntry where
  key : String
  value : String
  attribution : Attribution
  state : Option HealthState
  evidenceSource : Option String
deriving DecidableEq

/-- A row of the secrets section: the reference and the version, no value. -/
structure SecretRow where
  refId : String
  versionHint : String
  environment : String
deriving DecidableEq

/-- Every section is there, most of them empty. -/
structure DashboardView where
  applicationId : ApplicationId
  environment : String
  productionHealthy : Bool
  sections : DashboardSection → List DashboardEntry
  secrets : List SecretRow
  agentCompletionClaim : Option String
  time : DateTime

/-! ## What is rendered -/

def EventActor.kindLabel : EventActor → String
  | agent .. => "agent"
  | platform _ => "platform"
  | human _ => "human"
  | provider _ => "provider"

def EventAction.canonicalName : EventAction → String
  | capabilityRequested => "capability_requested"
  | capabilityDecision => "capability_decision"
  | resourceProvisioned => "resource_provisioned"
  | secretRotated => "secret_rotated"
  | secretReplaced => "secret_replaced"
  | buildStarted => "build_started"
  | buildFinished => "build_finished"
  | deploymentRolledOut => "deployment_rolled_out"
  | deploymentRolledBack => "deployment_rolled_back"
  | domainChanged => "domain_changed"
  | healthProbed => "health_probed"
  | reconciled => "reconciled"
  | verificationFinished => "verification_finished"
  | approvalRequested => "approval_requested"
  | approvalDecided => "approval_decided"

def EventLog.forApplication (log : EventLog) (id : ApplicationId) : List PlatformEvent :=
  log.events.filter fun event => decide (event.correlation.applicationId = some id)

def EventLog.forEnvironment (log : EventLog) (id : EnvironmentId) : List PlatformEvent :=
  log.events.filter fun event => decide (event.correlation.environmentId = some id)

def EventLog.forSession (log : EventLog) (id : AgentSessionId) : List PlatformEvent :=
  log.events.filter fun event => decide (event.correlation.sessionId = some id)

def EventLog.forTrace (log : EventLog) (traceId : String) : List PlatformEvent :=
  log.events.filter fun event => decide (event.correlation.traceId = traceId)

def LogStore.errors (store : LogStore) : List LogEntry :=
  store.entries.filter fun entry => decide (entry.level = .error)

def LogStore.forSource (store : LogStore) (source : LogSource) : List LogEntry :=
  store.entries.filter fun entry => decide (entry.source = source)

section Render
variable (formats : Formats)

def EventResult.debug : EventResult → String
  | .accepted => "Accepted"
  | .denied => "Denied"
  | .succeeded => "Succeeded"
  | .failed reason => "Failed \x7b reason: " ++ formats.quoted reason ++ " \x7d"
  | .pending => "Pending"

def PlatformEvent.toEventDetail (event : PlatformEvent) : String :=
  let resource := match event.resource with
    | none => ""
    | some resource => s!" resource {resource.id}({resource.kind})"
  s!"e{event.sequence} {event.actor.kindLabel} {event.action.canonicalName} via " ++
    s!"{event.correlation.traceId}{resource} " ++ event.result.debug formats

def healthEntry (snapshot : Option HealthSnapshot) (now : DateTime) : DashboardEntry where
  key := "health"
  value := (snapshot.map (·.target)).getD "no probe"
  attribution := .platform "health-probe"
  state := snapshot.map (·.effectiveState now)
  evidenceSource := snapshot.map fun _ => "platform:health-probe"

/-- The row of an agent's event, in the section of the agent stream. -/
def agentEntry (event : PlatformEvent) : Option DashboardEntry :=
  match event.actor with
  | .agent sessionId name => some
      { key := s!"e{event.sequence}"
        value := event.toEventDetail formats
        attribution := .agent (toString sessionId) name
        state := none
        evidenceSource := some "agent:session-stream" }
  | _ => none

/-- The row of any other event, in the overview. -/
def platformEntry (event : PlatformEvent) : Option DashboardEntry :=
  match event.actor with
  | .agent .. => none
  | actor => some
      { key := s!"e{event.sequence}"
        value := event.toEventDetail formats
        attribution := .platform actor.kindLabel
        state := none
        evidenceSource := some "platform:event-log" }

/-- The last claim of an agent that its verification finished. -/
def completionClaim (events : List PlatformEvent) : Option String :=
  (events.reverse.find? fun event => match event.actor with
    | .agent .. => decide (event.action = .verificationFinished)
    | _ => false).map (·.toEventDetail formats)

def deploymentLogEntry (entry : LogEntry) : DashboardEntry where
  key := s!"log{entry.sequence}"
  value := entry.message
  attribution := .platform "deployment-controller"
  state := some .failed
  evidenceSource := some "platform:deployment-log"

/-- The row of a capability, a resource or a deployment, which is its own key. -/
def namedEntry (controller source name : String) : DashboardEntry where
  key := name
  value := name
  attribution := .platform controller
  state := none
  evidenceSource := some source

def pluginEntry (report : PluginReport) : DashboardEntry where
  key := report.id
  value := report.detail
  attribution := .platform "plugin-registry"
  state := some .failed
  evidenceSource := some "platform:plugin-handshake"

def logEntry (entry : LogEntry) : DashboardEntry where
  key := toString entry.sequence
  value := s!"[{entry.source.canonicalName}] {entry.message}"
  attribution := .platform entry.source.canonicalName
  state := none
  evidenceSource := some s!"platform:log-{entry.source.canonicalName}"

def renderSection (state : PlatformState) (id : ApplicationId) (now : DateTime) :
    DashboardSection → List DashboardEntry
  | .overview => healthEntry (state.health[id]?) now ::
      (state.events.forApplication id).filterMap (platformEntry formats)
  | .vibe => (state.events.forApplication id).filterMap (agentEntry formats)
  | .capabilities => ((state.capabilities[id]?).getD []).map
      (namedEntry "capability-controller" "platform:binding")
  | .resources => ((state.resources[id]?).getD []).map
      (namedEntry "resource-controller" "platform:resource")
  | .deployments =>
      ((state.logs.forSource .deployment).filter fun entry =>
        decide (entry.level = .error)).map deploymentLogEntry ++
      ((state.deployments[id]?).getD []).map
        (namedEntry "deployment-controller" "platform:deployment")
  | .settings => (state.plugins.filter fun report =>
      decide (report.state ≠ .active)).map pluginEntry
  | .logs => state.logs.entries.map logEntry
  | .apps | .codeChanges | .preview | .runtime | .secrets => []

def renderDashboard (state : PlatformState) (id : ApplicationId) (environment : String)
    (now : DateTime) : Except CoreError DashboardView :=
  if state.knows id = false then .error (.notFound (toString id))
  else .ok
    { applicationId := id
      environment := environment
      productionHealthy := (state.health[id]?).any fun snapshot =>
        !snapshot.isStale now && decide (snapshot.effectiveState now = .healthy)
      sections := renderSection formats state id now
      secrets := []
      agentCompletionClaim := completionClaim formats (state.events.forApplication id)
      time := now }

end Render

/-! ## What is one application's own -/

def LogEntry.isOf (id : ApplicationId) (entry : LogEntry) : Bool :=
  decide (entry.correlation.applicationId = some id)

def PlatformEvent.isOf (id : ApplicationId) (event : PlatformEvent) : Bool :=
  decide (event.correlation.applicationId = some id)

/-- The states differ only in the logs, events and deployments of one application, and in the
evidence, which names no application. -/
structure PlatformState.SameBut (id : ApplicationId) (u v : PlatformState) : Prop where
  rest : v =
    { u with logs := v.logs, events := v.events, deployments := v.deployments
             evidence := v.evidence }
  logs : Foundations.SameBut (LogEntry.isOf id) u.logs.entries v.logs.entries
  events : Foundations.SameBut (PlatformEvent.isOf id) u.events.events v.events.events
  deployments : ∀ other, other ≠ id → u.deployments[other]? = v.deployments[other]?

/-- What the surfaces show of a log line: no time, and no application. -/
def LogEntry.shown (entry : LogEntry) : UInt64 × LogSource × LogLevel × String × String :=
  (entry.sequence, entry.source, entry.level, entry.message, entry.correlation.traceId)

def LogStore.shown (store : LogStore) : List (UInt64 × LogSource × LogLevel × String × String) :=
  store.entries.map LogEntry.shown

theorem LogSource.canonicalName_injective : Function.Injective LogSource.canonicalName := by
  intro a b h
  cases a <;> cases b <;> first | rfl | simp [LogSource.canonicalName] at h

/-- `format!("{:?}", level).to_lowercase()`. -/
def LogLevel.lowercase : LogLevel → String
  | info => "info"
  | warn => "warn"
  | error => "error"

theorem LogLevel.lowercase_injective : Function.Injective LogLevel.lowercase := by
  intro a b h
  cases a <;> cases b <;> first | rfl | simp [LogLevel.lowercase] at h

theorem LogLevel.debug_injective : Function.Injective LogLevel.debug := by
  intro a b h
  cases a <;> cases b <;> first | rfl | simp [LogLevel.debug] at h

theorem renderEntry_eq_iff {a b : LogEntry} :
    Cli.renderEntry a = Cli.renderEntry b ↔ a.shown = b.shown := by
  simp only [Cli.renderEntry, LogEntry.shown, Json.object.injEq, List.cons.injEq, Prod.mk.injEq,
    Json.number.injEq, Json.string.injEq, Nat.cast_inj, UInt64.toNat_inj,
    LogSource.canonicalName_injective.eq_iff, LogLevel.debug_injective.eq_iff, true_and, and_true]

theorem map_shown_of_rendered {xs ys : List LogEntry}
    (h : xs.map Cli.renderEntry = ys.map Cli.renderEntry) :
    xs.map LogEntry.shown = ys.map LogEntry.shown := by
  rw [← List.forall₂_eq_eq_eq, List.forall₂_map_left_iff, List.forall₂_map_right_iff] at h ⊢
  exact h.imp fun a b => renderEntry_eq_iff.mp

/-- Rows that depend on what is shown of a line are the same when what is shown is. -/
theorem map_eq_of_shown {β : Type} {f : LogEntry → β}
    (hf : ∀ a b : LogEntry, a.shown = b.shown → f a = f b) {xs ys : List LogEntry}
    (h : xs.map LogEntry.shown = ys.map LogEntry.shown) : xs.map f = ys.map f := by
  rw [← List.forall₂_eq_eq_eq, List.forall₂_map_left_iff, List.forall₂_map_right_iff] at h ⊢
  exact h.imp hf

/-- A selection by source and level is made from what is shown. -/
theorem filter_shown {p : LogEntry → Bool} (hp : ∀ a b : LogEntry, a.shown = b.shown → p a = p b)
    {xs ys : List LogEntry} (h : xs.map LogEntry.shown = ys.map LogEntry.shown) :
    (xs.filter p).map LogEntry.shown = (ys.filter p).map LogEntry.shown := by
  induction xs generalizing ys with
  | nil =>
    cases ys with
    | nil => rfl
    | cons y ys => cases h
  | cons x xs ih =>
    cases ys with
    | nil => cases h
    | cons y ys =>
      obtain ⟨hxy, hrest⟩ := List.cons.inj h
      rw [List.filter_cons, List.filter_cons, hp x y hxy]
      cases p y with
      | false => exact ih hrest
      | true => exact congrArg₂ List.cons hxy (ih hrest)

/-! ## The dashboard -/

section Isolation
variable {mine other : ApplicationId} {u v : PlatformState}

theorem PlatformState.SameBut.forApplication (h : PlatformState.SameBut other u v)
    (hne : mine ≠ other) : u.events.forApplication mine = v.events.forApplication mine := by
  refine h.events.filter fun event hevent => ?_
  have hof : event.correlation.applicationId = some mine := by simpa using hevent
  simp [PlatformEvent.isOf, hof, hne]

theorem PlatformState.SameBut.knows (h : PlatformState.SameBut other u v) (id : ApplicationId) :
    v.knows id = u.knows id := by
  rw [h.rest]
  rfl

theorem deploymentErrors_of_shown (h : u.logs.shown = v.logs.shown) :
    ((u.logs.forSource .deployment).filter fun entry => decide (entry.level = .error)).map
        deploymentLogEntry =
      ((v.logs.forSource .deployment).filter fun entry => decide (entry.level = .error)).map
        deploymentLogEntry := by
  refine map_eq_of_shown (fun a b hab => ?_) (filter_shown (fun a b hab => ?_)
    (filter_shown (fun a b hab => ?_) h))
  · simp only [LogEntry.shown, Prod.mk.injEq] at hab
    simp [deploymentLogEntry, hab]
  · simp only [LogEntry.shown, Prod.mk.injEq] at hab
    rw [hab.2.2.1]
  · simp only [LogEntry.shown, Prod.mk.injEq] at hab
    rw [hab.2.1]

theorem logEntries_of_shown (h : u.logs.shown = v.logs.shown) :
    u.logs.entries.map logEntry = v.logs.entries.map logEntry := by
  refine map_eq_of_shown (fun a b hab => ?_) h
  simp only [LogEntry.shown, Prod.mk.injEq] at hab
  simp [logEntry, hab]

/-- States that differ only in another application's records have one dashboard, if their log
stores show the same. -/
theorem renderDashboard_of_shown (formats : Formats) (h : PlatformState.SameBut other u v)
    (hne : mine ≠ other) (hshown : u.logs.shown = v.logs.shown) (environment : String)
    (now : DateTime) :
    renderDashboard formats u mine environment now =
      renderDashboard formats v mine environment now := by
  have hhealth : v.health = u.health := by rw [h.rest]
  have hcapabilities : v.capabilities = u.capabilities := by rw [h.rest]
  have hresources : v.resources = u.resources := by rw [h.rest]
  have hplugins : v.plugins = u.plugins := by rw [h.rest]
  have hsections : renderSection formats u mine now = renderSection formats v mine now := by
    funext part
    cases part <;> simp only [renderSection, hhealth, hcapabilities, hresources, hplugins,
      h.forApplication hne, h.deployments mine hne, deploymentErrors_of_shown hshown,
      logEntries_of_shown hshown]
  unfold renderDashboard
  rw [h.knows, hhealth, hsections, h.forApplication hne]

/-! ## `labrys logs` -/

/-- The source that a request names, if there is one of that name. -/
def CliRequest.logSource (request : CliRequest) : Option LogSource :=
  (request.arguments["source"]?).bind fun name =>
    LogSource.all.find? fun source => decide (source.canonicalName = name)

def CliRequest.selects (request : CliRequest) (entry : LogEntry) : Bool :=
  request.logSource.all fun source => decide (entry.source = source)

def logsPerformed (request : CliRequest) (id : ApplicationId) (entries : List LogEntry) :
    Performed where
  ok := true
  data := some (.object [("application_id", .string (toString id)),
    ("entries", .array ((entries.filter request.selects).map Cli.renderEntry))])
  findings := [.info "cli.logs" s!"{(entries.filter request.selects).length} entries"]

theorem logs_eq {request : CliRequest} {id : ApplicationId}
    (hid : request.applicationId = some id) (state : PlatformState) :
    Cli.logs request state = .ok (state, logsPerformed request id state.logs.entries) := by
  unfold Cli.logs logsPerformed CliRequest.selects
  rw [hid]
  cases hsource : request.logSource with
  | none =>
    unfold CliRequest.logSource at hsource
    have hall : (state.logs.entries.filter fun entry =>
        (none : Option LogSource).all fun source => decide (entry.source = source)) =
        state.logs.entries := List.filter_eq_self.mpr fun _ _ => rfl
    rw [hsource, hall]
    rfl
  | some source =>
    unfold CliRequest.logSource at hsource
    rw [hsource]
    rfl

theorem logsPerformed_of_shown (request : CliRequest) (id : ApplicationId) {xs ys : List LogEntry}
    (h : xs.map LogEntry.shown = ys.map LogEntry.shown) :
    logsPerformed request id xs = logsPerformed request id ys := by
  have hselects : ∀ a b : LogEntry, a.shown = b.shown → request.selects a = request.selects b := by
    intro a b hab
    simp only [LogEntry.shown, Prod.mk.injEq] at hab
    rw [CliRequest.selects, CliRequest.selects, hab.2.1]
  have hshown := filter_shown hselects h
  have hrendered := map_eq_of_shown (fun a b => renderEntry_eq_iff.mpr) hshown
  have hlength : (xs.filter request.selects).length = (ys.filter request.selects).length := by
    simpa using congrArg List.length hshown
  rw [logsPerformed, logsPerformed, hrendered, hlength]

/-- What `labrys logs` answers, by the state it runs against. -/
theorem execute_logs (formats : Formats) (secrets : List String) (cli : Cli) (input : CliInput)
    (hcommand : input.request.command = .logs) {id : ApplicationId}
    (hid : input.request.applicationId = some id) (state : PlatformState) :
    (Cli.execute formats secrets ⟨cli, state⟩ input).2 = .ok
      (match cli.replay input.request with
      | some recorded => { recorded with replayed := true }
      | none =>
          if state.knows id then
            Cli.respond input.request input.now
              (logsPerformed input.request id state.logs.entries)
          else Cli.failure input.request input.now (Cli.applicationFindings state input.request)) := by
  have hauthorize : Cli.authorize input.request = none := by
    simp [Cli.authorize, hcommand]
  have hmutating : input.request.command.isMutating = false := by rw [hcommand]; rfl
  have henvironment : Cli.environmentFindings formats state input.request = [] := by
    simp [Cli.environmentFindings, hcommand, CliCommand.requiresEnvironment]
  have hperform : Cli.perform formats secrets input.request input.fresh input.now state =
      .ok (state, logsPerformed input.request id state.logs.entries) := by
    rw [Cli.perform, hcommand]
    exact logs_eq hid state
  unfold Cli.execute
  simp only [hauthorize, hmutating, Bool.false_eq_true, false_and, if_false, henvironment,
    List.append_nil, hperform]
  cases cli.replay input.request with
  | some recorded => rfl
  | none =>
    by_cases hknows : state.knows id = true
    · have hfindings : Cli.applicationFindings state input.request = [] := by
        simp [Cli.applicationFindings, hcommand, hid, hknows]
      simp only [hfindings, hknows, if_true]
    · have hfindings : ∃ finding, Cli.applicationFindings state input.request = [finding] := by
        simp [Cli.applicationFindings, hcommand, hid, hknows, CliCommand.requiresApplication]
      obtain ⟨finding, hfinding⟩ := hfindings
      simp only [hfinding, hknows]
      rfl

theorem execute_logs_of_shown (formats : Formats) (secrets : List String)
    (h : PlatformState.SameBut other u v) (hshown : u.logs.shown = v.logs.shown) (cli : Cli)
    (input : CliInput) (hcommand : input.request.command = .logs)
    (hid : input.request.applicationId = some mine) :
    (Cli.execute formats secrets ⟨cli, u⟩ input).2 =
      (Cli.execute formats secrets ⟨cli, v⟩ input).2 := by
  have hfindings : Cli.applicationFindings v input.request =
      Cli.applicationFindings u input.request := by
    unfold Cli.applicationFindings
    simp only [h.knows]
  rw [execute_logs formats secrets cli input hcommand hid,
    execute_logs formats secrets cli input hcommand hid, h.knows, hfindings,
    logsPerformed_of_shown input.request mine hshown]

end Isolation

/-- `labrys logs` for an application, with no arguments. -/
def logsInput (id : ApplicationId) : CliInput where
  request :=
    { command := .logs, actor := .human "ada", applicationId := some id, environment := none
      arguments := ∅, idempotencyKey := none, approval := none }
  fresh := id
  now := 0

theorem shown_of_logs {formats : Formats} {secrets : List String} {id : ApplicationId}
    {u v : PlatformState} (hu : u.knows id = true) (hv : v.knows id = true)
    (h : (Cli.execute formats secrets ⟨.new, u⟩ (logsInput id)).2 =
      (Cli.execute formats secrets ⟨.new, v⟩ (logsInput id)).2) :
    u.logs.shown = v.logs.shown := by
  rw [execute_logs formats secrets .new (logsInput id) rfl rfl,
    execute_logs formats secrets .new (logsInput id) rfl rfl] at h
  have hall : ∀ entries : List LogEntry,
      entries.filter (logsInput id).request.selects = entries := by
    intro entries
    refine List.filter_eq_self.mpr fun entry _ => ?_
    have hnone : (logsInput id).request.logSource = none := by
      simp [CliRequest.logSource, logsInput]
    rw [CliRequest.selects, hnone]
    rfl
  have hreplay : Cli.new.replay (logsInput id).request = none := rfl
  simp only [hreplay, hu, hv, if_true] at h
  have hdata := congrArg CliResponse.data (Except.ok.inj h)
  simp only [Cli.respond, logsPerformed, hall, Option.some.injEq, Json.object.injEq,
    List.cons.injEq, Prod.mk.injEq, Json.array.injEq, true_and, and_true] at hdata
  exact map_shown_of_rendered hdata

end Labrys.Core
