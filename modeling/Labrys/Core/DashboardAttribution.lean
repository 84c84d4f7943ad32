import Mathlib.Data.List.Perm.Basic
import Labrys.Core.Dashboard

/-! # Who the rows of the dashboard are attributed to

What an agent says reaches the platform state as events of its own and as lines of the agent's log
stream. Neither moves the health, the failures or a section other than `vibe` and `logs`; but every
log line is rendered as a row of the platform, the agent's too, and an event of a human is rendered
as one of the platform.

* `AgentOutput`: what an agent appends; `PlatformState.heard` is the state after it.
* `heard_grows`: the two logs grow by events of agents and by lines of the agent's stream.
* `AgentOutputApart`: what is asked of two renderings, before and after. -/

namespace Labrys.Core
open Foundations
set_option autoImplicit false

/-! ## Attribution -/

namespace Attribution

def kindLabel : Attribution → String
  | agent .. => "agent"
  | platform _ => "platform"
  | human _ => "human"

def kind : Attribution → ActorKind
  | agent .. => .agent
  | platform _ => .platform
  | human _ => .human

end Attribution

/-- The kind of an event's actor among the kinds a row can have; a provider belongs to the
platform. -/
def EventActor.kind : EventActor → ActorKind
  | agent .. => .agent
  | platform _ => .platform
  | human _ => .human
  | provider _ => .platform

def DashboardSection.all : List DashboardSection :=
  [apps, overview, vibe, codeChanges, preview, capabilities, resources, runtime, deployments, logs,
    secrets, settings]

namespace DashboardEntry

def isPlatform (entry : DashboardEntry) : Bool :=
  decide (entry.attribution.kindLabel = "platform")

def isPlatformFailure (entry : DashboardEntry) : Bool :=
  entry.isPlatform && decide (entry.state = some .failed ∨ entry.state = some .degraded)

end DashboardEntry

namespace DashboardView

def rows (view : DashboardView) : List DashboardEntry := DashboardSection.all.flatMap view.sections

def platformRows (view : DashboardView) : List DashboardEntry :=
  view.rows.filter DashboardEntry.isPlatform

def platformFailures (view : DashboardView) : List DashboardEntry :=
  view.rows.filter DashboardEntry.isPlatformFailure

end DashboardView

/-- The row of an event, in whichever of the two sections it is shown. -/
def eventRow (formats : Formats) (event : PlatformEvent) : Option DashboardEntry :=
  (agentEntry formats event).or (platformEntry formats event)

/-! ## What an agent appends -/

inductive AgentOutput
  | event (draft : EventDraft) (secrets : List String)
      (hagent : draft.actor.kind = .agent)
  | line (level : LogLevel) (correlation : Correlation) (message : String) (secrets : List String)
      (time : DateTime)

namespace PlatformState

def hear (state : PlatformState) : AgentOutput → PlatformState
  | .event draft secrets _ => { state with events := (state.events.append draft secrets).1 }
  | .line level correlation message secrets time =>
      { state with
        logs := (state.logs.append .agent level correlation message secrets time).1 }

def heard (state : PlatformState) (outputs : List AgentOutput) : PlatformState :=
  outputs.foldl hear state

/-- The state with more in its two logs. -/
def withMore (state : PlatformState) (events : List PlatformEvent) (lines : List LogEntry) :
    PlatformState :=
  { state with
    events := ⟨state.events.events ++ events⟩
    logs := ⟨state.logs.entries ++ lines⟩ }

end PlatformState

def AgentOutput.isLine : AgentOutput → Bool
  | event .. => false
  | line .. => true

/-- The two logs grow by events of agents, and by one line of the agent's stream for each output
that is a line. -/
theorem heard_grows (state : PlatformState) (outputs : List AgentOutput) :
    ∃ events lines, state.heard outputs = state.withMore events lines ∧
      (∀ event ∈ events, event.actor.kind = .agent) ∧
      (∀ entry ∈ lines, entry.source = .agent) ∧ lines.length = outputs.countP (·.isLine) := by
  induction outputs using List.reverseRecOn with
  | nil =>
    refine ⟨[], [], ?_, by simp, by simp, rfl⟩
    simp [PlatformState.withMore, PlatformState.heard]
  | append_singleton outputs output ih =>
    obtain ⟨events, lines, hstate, hevents, hlines, hlength⟩ := ih
    have hlast : state.heard (outputs ++ [output]) = (state.withMore events lines).hear output := by
      rw [← hstate, PlatformState.heard, List.foldl_concat]
      rfl
    rw [hlast, List.countP_append, ← hlength]
    cases output with
    | event draft secrets hagent =>
      refine ⟨events ++ [((state.withMore events lines).events.append draft secrets).2], lines, ?_,
        ?_, hlines, rfl⟩
      · simp only [PlatformState.hear, PlatformState.withMore, EventLog.append, List.append_assoc]
      · rw [List.forall_mem_append]
        exact ⟨hevents, fun event hevent => by rw [List.mem_singleton.mp hevent]; exact hagent⟩
    | line level correlation message secrets time =>
      refine ⟨events, lines ++ [((state.withMore events lines).logs.append .agent level correlation
        message secrets time).2], ?_, hevents, ?_, ?_⟩
      · simp only [PlatformState.hear, PlatformState.withMore, LogStore.append, List.append_assoc]
      · rw [List.forall_mem_append]
        exact ⟨hlines, fun entry hentry => by rw [List.mem_singleton.mp hentry]; rfl⟩
      · rw [List.length_append]
        rfl

/-! ## The rows that come with it -/

section Rows
variable (formats : Formats) (state : PlatformState) (id : ApplicationId) (now : DateTime)
  {events : List PlatformEvent} {lines : List LogEntry}

theorem forApplication_withMore :
    (state.withMore events lines).events.forApplication id =
      state.events.forApplication id ++ (EventLog.mk events).forApplication id :=
  List.filter_append state.events.events events

theorem platformEntry_of_agent {event : PlatformEvent} (h : event.actor.kind = .agent) :
    platformEntry formats event = none := by
  unfold platformEntry
  cases hactor : event.actor with
  | agent => rfl
  | platform | human | provider =>
    rw [hactor] at h
    cases h

/-- The events of agents have no row in the overview. -/
theorem platformEntries_of_agents (h : ∀ event ∈ events, event.actor.kind = .agent) :
    ((EventLog.mk events).forApplication id).filterMap (platformEntry formats) = [] :=
  List.filterMap_eq_nil_iff.mpr fun event hevent =>
    platformEntry_of_agent formats (h event (List.mem_of_mem_filter hevent))

/-- The lines of agents are no lines of the deployment stream. -/
theorem forSource_deployment_of_agent (h : ∀ entry ∈ lines, entry.source = .agent) :
    (state.withMore events lines).logs.forSource .deployment =
      state.logs.forSource .deployment := by
  have hnone : lines.filter (fun entry => decide (entry.source = .deployment)) = [] :=
    List.filter_eq_nil_iff.mpr fun entry hentry => by simp [h entry hentry]
  change (state.logs.entries ++ lines).filter _ = _
  rw [List.filter_append, hnone, List.append_nil]
  rfl

/-- What a section gains. -/
def gainedRows (events : List PlatformEvent) (lines : List LogEntry) :
    DashboardSection → List DashboardEntry
  | .vibe => ((EventLog.mk events).forApplication id).filterMap (agentEntry formats)
  | .logs => lines.map logEntry
  | _ => []

theorem renderSection_withMore (hevents : ∀ event ∈ events, event.actor.kind = .agent)
    (hlines : ∀ entry ∈ lines, entry.source = .agent) (part : DashboardSection) :
    renderSection formats (state.withMore events lines) id now part =
      renderSection formats state id now part ++ gainedRows formats id events lines part := by
  cases part with
  | overview =>
    simp only [renderSection, gainedRows, forApplication_withMore, List.filterMap_append,
      platformEntries_of_agents formats id hevents, List.append_nil]
    rfl
  | vibe =>
    simp only [renderSection, gainedRows, forApplication_withMore, List.filterMap_append]
  | deployments =>
    simp only [renderSection, gainedRows, forSource_deployment_of_agent state hlines,
      List.append_nil]
    rfl
  | logs => exact List.map_append
  | _ => exact (List.append_nil _).symm

theorem not_isPlatform_agentEntry {event : PlatformEvent} {row : DashboardEntry}
    (h : agentEntry formats event = some row) : row.isPlatform = false := by
  unfold agentEntry at h
  split at h
  · cases h
    rfl
  · cases h

/-- None of the gained rows carries a failure of the platform. -/
theorem gainedRows_failures (part : DashboardSection) :
    (gainedRows formats id events lines part).filter DashboardEntry.isPlatformFailure = [] := by
  refine List.filter_eq_nil_iff.mpr fun row hrow => ?_
  cases part with
  | vibe =>
    obtain ⟨event, -, hevent⟩ := List.mem_filterMap.mp hrow
    simp [DashboardEntry.isPlatformFailure, not_isPlatform_agentEntry formats hevent]
  | logs =>
    obtain ⟨entry, -, rfl⟩ := List.mem_map.mp hrow
    simp [DashboardEntry.isPlatformFailure, logEntry]
  | _ => cases hrow

/-- Of the gained rows, the platform's are those of the log lines. -/
theorem gainedRows_platform :
    (DashboardSection.all.flatMap (gainedRows formats id events lines)).filter
      DashboardEntry.isPlatform = lines.map logEntry := by
  have hvibe : (gainedRows formats id events lines .vibe).filter DashboardEntry.isPlatform = [] := by
    refine List.filter_eq_nil_iff.mpr fun row hrow => ?_
    obtain ⟨event, -, hevent⟩ := List.mem_filterMap.mp hrow
    simp [not_isPlatform_agentEntry formats hevent]
  have hlogs : (lines.map logEntry).filter DashboardEntry.isPlatform = lines.map logEntry := by
    refine List.filter_eq_self.mpr fun row hrow => ?_
    obtain ⟨entry, -, rfl⟩ := List.mem_map.mp hrow
    rfl
  have hall : DashboardSection.all.flatMap (gainedRows formats id events lines) =
      gainedRows formats id events lines .vibe ++ lines.map logEntry := by
    simp [DashboardSection.all, gainedRows]
  rw [hall, List.filter_append, hvibe, hlogs, List.nil_append]

end Rows

/-! ## Two renderings -/

/-- The event has its row in the view, attributed to the kind of its actor. -/
def RowOfActor (formats : Formats) (view : DashboardView) (event : PlatformEvent) : Prop :=
  ∃ row ∈ view.sections .vibe ++ view.sections .overview,
    eventRow formats event = some row ∧ row.attribution.kind = event.actor.kind

/-- What an agent appends changes nothing that is the platform's, and every event is shown as its
actor's. -/
structure AgentOutputApart (formats : Formats) (state : PlatformState) (id : ApplicationId)
    (outputs : List AgentOutput) (view view' : DashboardView) : Prop where
  healthy : view'.productionHealthy = view.productionHealthy
  failures : view'.platformFailures = view.platformFailures
  platformRows : view'.platformRows.Perm view.platformRows
  events : ∀ event ∈ (state.heard outputs).events.forApplication id,
    RowOfActor formats view' event

section Renderings
variable {formats : Formats} {state : PlatformState} {id : ApplicationId} {environment : String}
  {now : DateTime} {view : DashboardView}

theorem renderDashboard_ok (h : renderDashboard formats state id environment now = .ok view) :
    view.productionHealthy = ((state.health[id]?).any fun snapshot =>
        !snapshot.isStale now && decide (snapshot.effectiveState now = .healthy)) ∧
      view.sections = renderSection formats state id now := by
  unfold renderDashboard at h
  split at h
  · cases h
  · obtain rfl := Except.ok.inj h
    exact ⟨rfl, rfl⟩

theorem renderDashboard_of_knows (formats : Formats) (h : state.knows id = true)
    (environment : String) (now : DateTime) :
    ∃ view, renderDashboard formats state id environment now = .ok view := by
  unfold renderDashboard
  rw [h]
  exact ⟨_, rfl⟩

theorem knows_of_renderDashboard
    (h : renderDashboard formats state id environment now = .ok view) : state.knows id = true := by
  unfold renderDashboard at h
  split at h
  · cases h
  · next hknows => exact Bool.eq_true_of_not_eq_false hknows

/-- The row of an event is its actor's unless a human caused it. -/
theorem eventRow_kind (formats : Formats) (event : PlatformEvent) :
    ∃ row, eventRow formats event = some row ∧
      (row.attribution.kind = event.actor.kind ↔ event.actor.kind ≠ .human) := by
  unfold eventRow agentEntry platformEntry
  cases hactor : event.actor with
  | agent => exact ⟨_, rfl, by simp [Attribution.kind, EventActor.kind]⟩
  | platform => exact ⟨_, rfl, by simp [Attribution.kind, EventActor.kind]⟩
  | human => exact ⟨_, rfl, by simp [Attribution.kind, EventActor.kind]⟩
  | provider => exact ⟨_, rfl, by simp [Attribution.kind, EventActor.kind]⟩

theorem rowOfActor_iff (h : renderDashboard formats state id environment now = .ok view)
    {event : PlatformEvent} (hevent : event ∈ state.events.forApplication id) :
    RowOfActor formats view event ↔ event.actor.kind ≠ .human := by
  obtain ⟨row, hrow, hkind⟩ := eventRow_kind formats event
  have hmem : row ∈ view.sections .vibe ++ view.sections .overview := by
    rw [(renderDashboard_ok h).2, List.mem_append]
    obtain hagent | ⟨-, hplatform⟩ := Option.or_eq_some_iff.mp hrow
    · exact .inl (List.mem_filterMap.mpr ⟨event, hevent, hagent⟩)
    · exact .inr (List.mem_cons_of_mem _ (List.mem_filterMap.mpr ⟨event, hevent, hplatform⟩))
  constructor
  · rintro ⟨found, -, hfound, hsame⟩
    obtain rfl := Option.some_inj.mp (hrow.symm.trans hfound)
    exact hkind.mp hsame
  · exact fun hhuman => ⟨row, hmem, hrow, hkind.mpr hhuman⟩

section Grown
variable {events : List PlatformEvent} {lines : List LogEntry} {view' : DashboardView}
  (hevents : ∀ event ∈ events, event.actor.kind = .agent)
  (hlines : ∀ entry ∈ lines, entry.source = .agent)
  (h : renderDashboard formats state id environment now = .ok view)
  (h' : renderDashboard formats (state.withMore events lines) id environment now = .ok view')
include hevents hlines h h'

theorem sections_withMore (part : DashboardSection) :
    view'.sections part = view.sections part ++ gainedRows formats id events lines part := by
  rw [(renderDashboard_ok h).2, (renderDashboard_ok h').2]
  exact renderSection_withMore formats state id now hevents hlines part

theorem platformFailures_withMore : view'.platformFailures = view.platformFailures := by
  unfold DashboardView.platformFailures DashboardView.rows
  rw [List.filter_flatMap, List.filter_flatMap]
  refine List.flatMap_congr fun part _ => ?_
  rw [sections_withMore hevents hlines h h', List.filter_append, gainedRows_failures,
    List.append_nil]

theorem platformRows_withMore :
    view'.platformRows.Perm (view.platformRows ++ lines.map logEntry) := by
  have hrows : view'.rows.Perm (view.rows ++
      DashboardSection.all.flatMap (gainedRows formats id events lines)) := by
    have hsections := funext (sections_withMore hevents hlines h h')
    rw [DashboardView.rows, hsections]
    exact (List.flatMap_append_perm _ _ _).symm
  have hfiltered := hrows.filter DashboardEntry.isPlatform
  rw [List.filter_append, gainedRows_platform] at hfiltered
  exact hfiltered

end Grown
end Renderings

/-- **Agent output and platform evidence.** Rendered before and after, what an agent appends is apart
from the platform's evidence exactly if none of it is a log line and no event of the application was
caused by a human: for every state, application and output. -/
theorem agent_output_apart_iff (formats : Formats) (state : PlatformState) (id : ApplicationId)
    (environment : String) (now : DateTime) (outputs : List AgentOutput) :
    (∀ view view', renderDashboard formats state id environment now = .ok view →
        renderDashboard formats (state.heard outputs) id environment now = .ok view' →
        AgentOutputApart formats state id outputs view view') ↔
      (state.knows id = true → (∀ output ∈ outputs, output.isLine = false) ∧
        ∀ event ∈ state.events.forApplication id, event.actor.kind ≠ .human) := by
  obtain ⟨events, lines, hheard, hevents, hlines, hlength⟩ := heard_grows state outputs
  have hhumans : (∀ event ∈ (state.heard outputs).events.forApplication id,
      event.actor.kind ≠ .human) ↔
      ∀ event ∈ state.events.forApplication id, event.actor.kind ≠ .human := by
    rw [hheard, forApplication_withMore, List.forall_mem_append]
    refine and_iff_left fun event hevent => ?_
    rw [hevents event (List.mem_of_mem_filter hevent)]
    exact nofun
  have hnoline : lines = [] ↔ ∀ output ∈ outputs, output.isLine = false := by
    rw [← List.length_eq_zero_iff, hlength, List.countP_eq_zero]
    simp only [Bool.not_eq_true]
  rw [← hnoline, ← hhumans]
  constructor
  · intro hapart hknows
    obtain ⟨view, hview⟩ := renderDashboard_of_knows formats hknows environment now
    have hknows' : (state.heard outputs).knows id = true := by
      rw [hheard]
      exact hknows
    obtain ⟨view', hview'⟩ := renderDashboard_of_knows formats hknows' environment now
    have h := hapart view view' hview hview'
    refine ⟨?_, fun event hevent => (rowOfActor_iff hview' hevent).mp (h.events event hevent)⟩
    rw [hheard] at hview'
    have hlengths := (h.platformRows.symm.trans
      (platformRows_withMore hevents hlines hview hview')).length_eq
    rw [List.length_append, List.length_map] at hlengths
    exact List.length_eq_zero_iff.mp (by omega)
  · intro hquiet view view' hview hview'
    have hknows := knows_of_renderDashboard hview
    obtain ⟨rfl, hactors⟩ := hquiet hknows
    have hevent : ∀ event ∈ (state.heard outputs).events.forApplication id,
        RowOfActor formats view' event := fun event hevent =>
      (rowOfActor_iff hview' hevent).mpr (hactors event hevent)
    rw [hheard] at hview'
    have hrows := platformRows_withMore hevents hlines hview hview'
    rw [List.map_nil, List.append_nil] at hrows
    exact {
      healthy := (renderDashboard_ok hview').1.trans (renderDashboard_ok hview).1.symm
      failures := platformFailures_withMore hevents hlines hview hview'
      platformRows := hrows
      events := hevent }

/-- An application with one event, which a human caused. -/
def approvedState : PlatformState :=
  let state := PlatformState.new.addApplication ⟨1⟩ ["production"]
  let correlation := { Correlation.new "trace" with applicationId := some ⟨1⟩ }
  let draft := EventDraft.new 0 (.human "ada") correlation .approvalDecided .accepted
  { state with events := (state.events.append draft []).1 }

/-- The agent's line is one more row of the platform, and the human's event is a row of the platform
before and after. -/
theorem agent_line_shown_as_platform :
    let formats : Formats := ⟨fun _ => "", fun text => text⟩
    let outputs : List AgentOutput := [.line .info (.new "trace") "all checks pass" [] 0]
    ∃ view view', renderDashboard formats approvedState ⟨1⟩ "production" 0 = .ok view ∧
      renderDashboard formats (approvedState.heard outputs) ⟨1⟩ "production" 0 = .ok view' ∧
      view.platformRows.length = 2 ∧ view'.platformRows.length = 3 ∧
      (view'.sections .logs).map (·.attribution) = [.platform "agent"] ∧
      (view'.sections .overview).map (·.attribution) =
        [.platform "health-probe", .platform "human"] ∧
      ¬ AgentOutputApart formats approvedState ⟨1⟩ outputs view view' := by
  refine ⟨_, _, rfl, rfl, by decide +kernel, by decide +kernel, by decide +kernel,
    by decide +kernel, fun h => ?_⟩
  exact absurd h.platformRows.length_eq (by decide +kernel)

end Labrys.Core
