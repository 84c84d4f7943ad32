import Labrys.Core.Surfaces

/-! # Histories of CLI commands

One `Cli` runs many requests, and the platform state changes under it in other ways too. A response
is kept under its key once, by the first request of the key that gets as far as its command, and is
brought back unchanged from then on.

* `execute_cases`: what one request does to the kept responses.
* `cli_replay_kept`: where a replayed response comes from, for every history. -/

namespace Labrys.Core
open Foundations
set_option autoImplicit false

inductive CliEvent
  | execute (input : CliInput)
  /-- Whatever else changes the platform state between two commands. -/
  | platform (change : PlatformState → PlatformState)

def cliMachine (formats : Formats) (secrets : List String) :
    Machine CliWorld CliEvent (Option (Outcome CoreError CliResponse)) where
  step := fun world event => match event with
    | .execute input => answered some (Cli.execute formats secrets world input)
    | .platform change => (⟨world.cli, change world.state⟩, none)

/-- The command, the application and the kind of actor of a request. -/
def CliRequest.use (request : CliRequest) : CliCommand × Option ApplicationId × ActorKind :=
  (request.command, request.applicationId, request.actor.kind)

section Replays
variable {formats : Formats} {secrets : List String}

/-- The request is answered for itself, and its response is kept or nothing is. -/
def AnswersItself (world : CliWorld) (input : CliInput)
    (result : CliWorld × Outcome CoreError CliResponse) : Prop :=
  (∀ response, result.2 = .ok response → response.replayed = false ∧
    response.command = input.request.command.canonicalName) ∧
  (result.1.cli = world.cli ∨
    ∃ key own, input.request.idempotencyKey = some key ∧ world.cli.executed[key]? = none ∧
      result.2 = .ok own ∧ result.1.cli.executed = world.cli.executed.insert key own)

theorem answersItself_failure (world : CliWorld) (input : CliInput) (findings : List Finding) :
    AnswersItself world input (world, .ok (Cli.failure input.request input.now findings)) := by
  refine ⟨fun response h => ?_, .inl rfl⟩
  obtain rfl := Except.ok.inj h
  exact ⟨rfl, rfl⟩

/-- **What a request does to the kept responses.** It brings one back, and then it has passed the
permission boundary and nothing changes; or it is answered for itself. -/
theorem execute_cases (world : CliWorld) (input : CliInput) :
    (∃ key kept, input.request.idempotencyKey = some key ∧ world.cli.executed[key]? = some kept ∧
      Cli.authorize input.request = none ∧
      Cli.execute formats secrets world input = (world, .ok { kept with replayed := true })) ∨
    AnswersItself world input (Cli.execute formats secrets world input) := by
  unfold Cli.execute
  dsimp only
  split
  · next denied hdenied => exact .inr (answersItself_failure world input [denied])
  next hallowed =>
  split_ifs
  · exact .inr (answersItself_failure world input _)
  split
  · next kept hkept =>
    obtain ⟨key, hkey, hget⟩ := Option.bind_eq_some_iff.mp hkept
    exact .inl ⟨key, kept, hkey, hget, hallowed, rfl⟩
  next hnone =>
  refine .inr ?_
  split
  · exact answersItself_failure world input _
  split
  · refine ⟨fun response h => ?_, .inl rfl⟩
    cases h
  · exact answersItself_failure world input _
  · next state performed hperformed =>
    refine ⟨fun response h => ?_, ?_⟩
    · obtain rfl := Except.ok.inj h
      exact ⟨rfl, rfl⟩
    · unfold Cli.recorded
      cases hkey : input.request.idempotencyKey with
      | none => exact .inl rfl
      | some key =>
        refine .inr ⟨key, _, rfl, ?_, rfl, rfl⟩
        unfold Cli.replay at hnone
        rwa [hkey, Option.bind_some] at hnone

theorem executed_next_of_some {key : String} (world : CliWorld) (event : CliEvent)
    (kept : CliResponse) (h : world.cli.executed[key]? = some kept) :
    ((cliMachine formats secrets).next world event).cli.executed[key]? = some kept := by
  cases event with
  | platform change => exact h
  | execute input =>
    change (Cli.execute formats secrets world input).1.cli.executed[key]? = some kept
    obtain ⟨_, _, -, -, -, hreplay⟩ | ⟨-, hsame | ⟨found, own, -, hfree, -, hinsert⟩⟩ :=
      execute_cases world input
    · rw [hreplay, h]
    · rw [hsame, h]
    · have hother : found ≠ key := by
        rintro rfl
        rw [hfree] at h
        cases h
      rw [hinsert, treeMap_getElem?_insert, if_neg hother, h]

theorem input_of_executed_next {key : String} {world : CliWorld} {event : CliEvent}
    {kept : CliResponse} (hfree : world.cli.executed[key]? = none)
    (h : ((cliMachine formats secrets).next world event).cli.executed[key]? = some kept) :
    ∃ source, event = .execute source ∧ source.request.idempotencyKey = some key ∧
      (Cli.execute formats secrets world source).2 = .ok kept ∧
      kept.command = source.request.command.canonicalName := by
  cases event with
  | platform change =>
    change world.cli.executed[key]? = some kept at h
    rw [hfree] at h
    cases h
  | execute source =>
    change (Cli.execute formats secrets world source).1.cli.executed[key]? = some kept at h
    obtain ⟨_, _, -, -, -, hreplay⟩ | ⟨hanswers, hsame | ⟨found, own, hkey, -, hown, hinsert⟩⟩ :=
      execute_cases world source
    · rw [hreplay, hfree] at h
      cases h
    · rw [hsame, hfree] at h
      cases h
    · rw [hinsert, treeMap_getElem?_insert] at h
      split_ifs at h with heq
      · obtain rfl := Option.some_inj.mp h
        exact ⟨source, rfl, heq ▸ hkey, hown, (hanswers own hown).2⟩
      · rw [hfree] at h
        cases h

/-- The request keeps its own response under the key, as the first to do so from `start` on. -/
def KeepsFirst (formats : Formats) (secrets : List String) (start : CliWorld)
    (before : List CliEvent) (source : CliInput) (key : String) (kept : CliResponse) : Prop :=
  source.request.idempotencyKey = some key ∧
    ((cliMachine formats secrets).run start before).cli.executed[key]? = none ∧
    (Cli.execute formats secrets ((cliMachine formats secrets).run start before) source).2 =
      .ok kept ∧
    kept.command = source.request.command.canonicalName

/-- A replay of the CLI, traced back to the request that kept it. -/
theorem cli_replay_kept {state : PlatformState} {events : List CliEvent} {input : CliInput}
    {response : CliResponse}
    (hok : (Cli.execute formats secrets ((cliMachine formats secrets).run ⟨.new, state⟩ events)
      input).2 = .ok response)
    (hreplayed : response.replayed = true) :
    (Cli.execute formats secrets ((cliMachine formats secrets).run ⟨.new, state⟩ events) input).1 =
        (cliMachine formats secrets).run ⟨.new, state⟩ events ∧
    Cli.authorize input.request = none ∧
    ∃ key before source after kept, input.request.idempotencyKey = some key ∧
      events = before ++ .execute source :: after ∧
      KeepsFirst formats secrets ⟨.new, state⟩ before source key kept ∧
      response = { kept with replayed := true } := by
  obtain ⟨key, kept, hkey, hget, hallowed, hreplay⟩ | ⟨hanswers, -⟩ :=
    execute_cases ((cliMachine formats secrets).run ⟨.new, state⟩ events) input
  · rw [hreplay] at hok ⊢
    obtain rfl := Except.ok.inj hok
    refine ⟨rfl, hallowed, ?_⟩
    have hnone : (CliWorld.mk .new state).cli.executed[key]? = none :=
      Std.TreeMap.getElem?_emptyc
    obtain ⟨before, event, after, rfl, hbefore, hnext⟩ :=
      (cliMachine formats secrets).run_origin executed_next_of_some hnone hget
    obtain ⟨source, rfl, hsource, hkept, hcommand⟩ := input_of_executed_next hbefore hnext
    exact ⟨key, before, source, after, kept, hkey, rfl, ⟨hsource, hbefore, hkept, hcommand⟩, rfl⟩
  · rw [(hanswers response hok).1] at hreplayed
    cases hreplayed

end Replays
end Labrys.Core
