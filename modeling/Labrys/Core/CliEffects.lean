import Labrys.Core.SurfaceRuns

/-! # What CLI requests write

A request that writes to the platform state is a mutating one, past the permission boundary, whose
key is free; it writes one of four things, and its response is kept under the key. All the effects
of a sequence of requests follow from that.

* `Cli.Writes`: what a request writes.
* `execute_writes`: a request leaves the state alone, or writes once under its key.
* `cli_effects_gated`: the frame of every request of a sequence, and one write for each key. -/

namespace Labrys.Core
open Foundations
set_option autoImplicit false

/-- One call of `execute`, with the secrets it redacts. -/
structure CliCall where
  input : CliInput
  secrets : List String

/-- One CLI over one platform state, which nothing else changes. -/
def cliCalls (formats : Formats) : Machine CliWorld CliCall (Outcome CoreError CliResponse) where
  step := fun world call => Cli.execute formats call.secrets world call.input

namespace Cli
variable {formats : Formats} {secrets : List String}

/-! ## The four writes -/

def pushDeployment (state : PlatformState) (id : ApplicationId) (environment digest : String) :
    PlatformState :=
  let pushed := (state.deployments[id]?).getD [] ++ [s!"{environment}:{digest}"]
  { state with deployments := state.deployments.insert id pushed }

/-- The state after a request that wrote to it: what it changed, and the audit record of it. -/
inductive Writes (formats : Formats) (secrets : List String) (input : CliInput)
    (state : PlatformState) : PlatformState → Prop
  | registered (id : ApplicationId) (detail : String)
      (hcommand : input.request.command ∈ [.init, .import]) :
      Writes formats secrets input state
        (audited formats secrets (state.addApplication id ["development", "production"]) input.now
          input.request.actor.kindLabel input.request.command.canonicalName (toString id) detail)
  | deployed (id : ApplicationId) (environment digest detail : String)
      (hcommand : input.request.command ∈ [.deploy, .build])
      (henvironment : input.request.environment = some environment)
      (hhuman : environment = "production" → input.request.actor.isHuman = true) :
      Writes formats secrets input state
        (audited formats secrets (pushDeployment state id environment digest) input.now
          input.request.actor.kindLabel input.request.command.canonicalName (toString id) detail)
  | rolledBack (id : ApplicationId) (approver detail : String)
      (hcommand : input.request.command ∈ [.rollback]) :
      Writes formats secrets input state
        (audited formats secrets state input.now approver "rollback" (toString id) detail)
  | asked (id : ApplicationId)
      (hcommand : input.request.command ∈ [.capability, .preview, .agent]) :
      Writes formats secrets input state
        (audited formats secrets state input.now input.request.actor.kindLabel
          input.request.command.canonicalName (toString id) "requested")

theorem Writes.isMutating {input : CliInput} {state state' : PlatformState}
    (h : Writes formats secrets input state state') :
    input.request.command.isMutating = true := by
  cases h with
  | registered _ _ hcommand =>
    have hall : ∀ command ∈ [CliCommand.init, .import], command.isMutating = true := by decide
    exact hall _ hcommand
  | deployed _ _ _ _ hcommand =>
    have hall : ∀ command ∈ [CliCommand.deploy, .build], command.isMutating = true := by decide
    exact hall _ hcommand
  | rolledBack _ _ _ hcommand =>
    have hall : ∀ command ∈ [CliCommand.rollback], command.isMutating = true := by decide
    exact hall _ hcommand
  | asked _ hcommand =>
    have hall : ∀ command ∈ [CliCommand.capability, .preview, .agent],
        command.isMutating = true := by decide
    exact hall _ hcommand

/-- Records of agents are appended to the audit log, and nothing else is changed. -/
def AgentAudited (state state' : PlatformState) : Prop :=
  ∃ records, (∀ record ∈ records, record.actor = "agent") ∧
    state' = { state with audit := ⟨state.audit.records ++ records⟩ }

/-- The deployments are as they were, or one is added to the environment that the request names,
which is not production. -/
def OffProduction (request : CliRequest) (state state' : PlatformState) : Prop :=
  state'.deployments = state.deployments ∨
    ∃ id environment digest, request.environment = some environment ∧
      environment ≠ "production" ∧
      state'.deployments = (pushDeployment state id environment digest).deployments

/-- What an agent writes past the boundary is an audit record. -/
theorem Writes.agentAudited {input : CliInput} {state state' : PlatformState}
    (h : Writes formats secrets input state state') (hallowed : authorize input.request = none)
    (hagent : input.request.actor.kind = .agent) : AgentAudited state state' := by
  have hboundary : input.request.command ∉ [.init, .import, .deploy, .rollback, .build] := by
    intro hmem
    rw [authorize, if_pos ⟨hagent, hmem⟩] at hallowed
    cases hallowed
  cases h with
  | registered _ _ hcommand =>
    have hall : ∀ command ∈ [CliCommand.init, .import],
        command ∈ [CliCommand.init, .import, .deploy, .rollback, .build] := by decide
    exact absurd (hall _ hcommand) hboundary
  | deployed _ _ _ _ hcommand =>
    have hall : ∀ command ∈ [CliCommand.deploy, .build],
        command ∈ [CliCommand.init, .import, .deploy, .rollback, .build] := by decide
    exact absurd (hall _ hcommand) hboundary
  | rolledBack _ _ _ hcommand =>
    have hall : ∀ command ∈ [CliCommand.rollback],
        command ∈ [CliCommand.init, .import, .deploy, .rollback, .build] := by decide
    exact absurd (hall _ hcommand) hboundary
  | asked id hcommand =>
    refine ⟨[_], fun record hrecord => ?_, rfl⟩
    obtain rfl := List.mem_singleton.mp hrecord
    cases hactor : input.request.actor with
    | human | platform =>
      rw [hactor] at hagent
      cases hagent
    | agent => rfl

theorem Writes.offProduction {input : CliInput} {state state' : PlatformState}
    (h : Writes formats secrets input state state')
    (hhuman : input.request.actor.isHuman = false) :
    OffProduction input.request state state' := by
  cases h with
  | deployed id environment digest _ _ henvironment hproduction =>
    refine .inr ⟨id, environment, digest, henvironment, fun heq => ?_, rfl⟩
    rw [hproduction heq] at hhuman
    cases hhuman
  | registered => exact .inl rfl
  | rolledBack => exact .inl rfl
  | asked => exact .inl rfl

/-! ## What the arms do to the state -/

theorem expected_bind_ok {α β : Type} {value : Option α} {f : α → Outcome Finding β} {b : β}
    (h : (expected value >>= f) = .ok b) : ∃ a, value = some a ∧ f a = .ok b := by
  cases value with
  | none => cases h
  | some a => exact ⟨a, rfl, h⟩

section Arms
variable {input : CliInput} {state state' : PlatformState} {performed : Performed}

theorem register_ok (hcommand : input.request.command ∈ [.init, .import])
    (h : register formats secrets input.request input.fresh input.now state =
      .ok (state', performed)) :
    performed.ok = true ∧ Writes formats secrets input state state' := by
  cases h
  exact ⟨rfl, .registered _ _ hcommand⟩

theorem inspect_ok (h : inspect input.request state = .ok (state', performed)) :
    state' = state := by
  obtain ⟨id, -, h⟩ := expected_bind_ok h
  cases h
  rfl

theorem doctor_ok (h : doctor input.request input.now state = .ok (state', performed)) :
    state' = state := by
  obtain ⟨id, -, h⟩ := expected_bind_ok h
  cases h
  rfl

theorem logs_ok (h : logs input.request state = .ok (state', performed)) : state' = state := by
  obtain ⟨id, -, h⟩ := expected_bind_ok h
  cases h
  rfl

theorem health_ok (h : health formats input.request input.now state = .ok (state', performed)) :
    state' = state := by
  obtain ⟨id, -, h⟩ := expected_bind_ok h
  split at h <;> cases h <;> rfl

theorem rollback_ok (hcommand : input.request.command ∈ [.rollback])
    (h : rollback formats secrets input.request input.now state = .ok (state', performed)) :
    performed.ok = true ∧ Writes formats secrets input state state' := by
  obtain ⟨id, -, h⟩ := expected_bind_ok h
  split at h
  · cases h
  · cases h
    exact ⟨rfl, .rolledBack _ _ _ hcommand⟩

theorem deploy_ok (hcommand : input.request.command ∈ [.deploy, .build])
    (h : deploy formats secrets input.request input.now state = .ok (state', performed)) :
    performed.ok = true ∧ Writes formats secrets input state state' := by
  obtain ⟨id, -, h⟩ := expected_bind_ok h
  obtain ⟨environment, henvironment, h⟩ := expected_bind_ok h
  split at h
  · cases h
  · next hallowed =>
    cases h
    refine ⟨rfl, .deployed id environment _ _ hcommand henvironment fun hproduction => ?_⟩
    exact Bool.eq_true_of_not_eq_false fun hhuman => hallowed ⟨hproduction, hhuman⟩

theorem list_ok
    (hcommand : input.request.command.isMutating = true →
      input.request.command ∈ [.capability, .preview, .agent])
    (h : list formats secrets input.request input.now state = .ok (state', performed)) :
    state' = state ∨ (performed.ok = true ∧ Writes formats secrets input state state') := by
  obtain ⟨id, -, h⟩ := expected_bind_ok h
  cases h
  dsimp only
  split
  · next hmutating => exact .inr ⟨rfl, .asked id (hcommand hmutating)⟩
  · exact .inl rfl

/-- **What a command does to the state**: nothing, or one of the four writes, and then it is well. -/
theorem perform_ok
    (h : perform formats secrets input.request input.fresh input.now state =
      .ok (state', performed)) :
    state' = state ∨ (performed.ok = true ∧ Writes formats secrets input state state') := by
  unfold perform at h
  cases hcommand : input.request.command <;> simp only [hcommand] at h
  case init | «import» => exact .inr (register_ok (by simp [hcommand]) h)
  case inspect => exact .inl (inspect_ok h)
  case doctor => exact .inl (doctor_ok h)
  case logs => exact .inl (logs_ok h)
  case health => exact .inl (health_ok h)
  case rollback => exact .inr (rollback_ok (by simp [hcommand]) h)
  case deploy | build => exact .inr (deploy_ok (by simp [hcommand]) h)
  all_goals exact list_ok (by simp [hcommand, CliCommand.isMutating]) h

/-- **What a request does to the state**: nothing; or it is a mutating one past the permission
boundary, whose key is free, writes, answers that it is well, and has its answer kept. -/
theorem execute_writes (formats : Formats) (secrets : List String) (world : CliWorld)
    (input : CliInput) :
    (execute formats secrets world input).1.state = world.state ∨
      (authorize input.request = none ∧
        Writes formats secrets input world.state (execute formats secrets world input).1.state ∧
        ∃ key own, input.request.idempotencyKey = some key ∧ world.cli.executed[key]? = none ∧
          (execute formats secrets world input).2 = .ok own ∧ own.ok = true ∧
          own.replayed = false ∧
          (execute formats secrets world input).1.cli.executed[key]? = some own) := by
  unfold execute
  dsimp only
  split
  · exact .inl rfl
  next hallowed =>
  split_ifs with hrefused
  · exact .inl rfl
  split
  · exact .inl rfl
  next hfree =>
  split
  · exact .inl rfl
  split
  · exact .inl rfl
  · exact .inl rfl
  · next state performed hperformed =>
    obtain rfl | ⟨hwell, hwrites⟩ := perform_ok hperformed
    · exact .inl rfl
    · refine .inr ⟨hallowed, hwrites, ?_⟩
      cases hkey : input.request.idempotencyKey with
      | none => exact absurd ⟨hwrites.isMutating, hkey⟩ hrefused
      | some key =>
        refine ⟨key, respond input.request input.now performed, rfl, ?_, rfl, hwell, rfl, ?_⟩
        · unfold replay at hfree
          rwa [hkey, Option.bind_some] at hfree
        · unfold recorded
          rw [hkey]
          rw [treeMap_getElem?_insert, if_pos rfl]

end Arms

/-! ## The frame of one request -/

/-- What one request may do to the platform state. -/
structure GatedStep (formats : Formats) (world : CliWorld) (call : CliCall) : Prop where
  refused : ∀ response, (cliCalls formats).answer world call = .ok response →
    response.ok = false ∨ response.replayed = true →
    ((cliCalls formats).next world call).state = world.state
  reading : call.input.request.command.isMutating = false →
    ((cliCalls formats).next world call).state = world.state
  agent : call.input.request.actor.kind = .agent →
    AgentAudited world.state ((cliCalls formats).next world call).state
  nonHuman : call.input.request.actor.isHuman = false →
    OffProduction call.input.request world.state ((cliCalls formats).next world call).state

theorem gatedStep (formats : Formats) (world : CliWorld) (call : CliCall) :
    GatedStep formats world call := by
  obtain hsame | ⟨hallowed, hwrites, key, own, -, -, hown, hwell, hfirst, -⟩ :=
    execute_writes formats call.secrets world call.input
  · have hnext : ((cliCalls formats).next world call).state = world.state := hsame
    exact {
      refused := fun _ _ _ => hnext
      reading := fun _ => hnext
      agent := fun _ => ⟨[], by simp, by rw [hnext, List.append_nil]⟩
      nonHuman := fun _ => .inl (by rw [hnext]) }
  · refine {
      refused := fun response hanswer hnot => ?_
      reading := fun hreading => ?_
      agent := hwrites.agentAudited hallowed
      nonHuman := hwrites.offProduction }
    · obtain rfl := Except.ok.inj (hown.symm.trans hanswer)
      obtain hnot | hnot := hnot
      · rw [hwell] at hnot
        cases hnot
      · rw [hfirst] at hnot
        cases hnot
    · rw [hwrites.isMutating] at hreading
      cases hreading

/-! ## One write for each key -/

/-- Every request under the key is past. -/
def KeyUsed (key : String) (world : CliWorld) : Prop := ∃ kept, world.cli.executed[key]? = some kept

theorem KeyUsed.next {key : String} {world : CliWorld} (h : KeyUsed key world) (call : CliCall) :
    KeyUsed key ((cliCalls formats).next world call) := by
  obtain ⟨kept, hkept⟩ := h
  have hnext : ((cliMachine formats call.secrets).next world
      (.execute call.input)).cli.executed[key]? = some kept :=
    executed_next_of_some world (.execute call.input) kept hkept
  exact ⟨kept, hnext⟩

theorem KeyUsed.unchanged {key : String} {world : CliWorld} (h : KeyUsed key world)
    {call : CliCall} (hkey : call.input.request.idempotencyKey = some key) :
    ((cliCalls formats).next world call).state = world.state := by
  obtain hsame | ⟨-, -, found, -, hfound, hfree, -⟩ :=
    execute_writes formats call.secrets world call.input
  · exact hsame
  · obtain ⟨kept, hkept⟩ := h
    obtain rfl := Option.some_inj.mp (hfound.symm.trans hkey)
    rw [hfree] at hkept
    cases hkept

theorem keyUsed_of_changed {key : String} {world : CliWorld} {call : CliCall}
    (hkey : call.input.request.idempotencyKey = some key)
    (h : ((cliCalls formats).next world call).state ≠ world.state) :
    KeyUsed key ((cliCalls formats).next world call) := by
  obtain hsame | ⟨-, -, found, own, hfound, -, -, -, -, hkept⟩ :=
    execute_writes formats call.secrets world call.input
  · exact absurd hsame h
  · obtain rfl := Option.some_inj.mp (hfound.symm.trans hkey)
    exact ⟨own, hkept⟩

/-- After a request that changed the state, no request of the sequence under its key does. -/
def ChangesOnce (formats : Formats) (start : CliWorld) (calls : List CliCall) (key : String) :
    Prop :=
  ∀ before first between second after,
    calls = before ++ first :: between ++ second :: after →
    first.input.request.idempotencyKey = some key →
    second.input.request.idempotencyKey = some key →
    ((cliCalls formats).run start (before ++ [first])).state ≠
      ((cliCalls formats).run start before).state →
    ((cliCalls formats).run start (before ++ first :: between ++ [second])).state =
      ((cliCalls formats).run start (before ++ first :: between)).state

theorem changesOnce (formats : Formats) (start : CliWorld) (calls : List CliCall) (key : String) :
    ChangesOnce formats start calls key := by
  rintro before first between second after - hfirst hsecond hchanged
  rw [Machine.run_append] at hchanged
  have hused := (cliCalls formats).run_invariant_all (P := KeyUsed key)
    (fun _ call h => h.next call) _ between (keyUsed_of_changed hfirst hchanged)
  rw [Machine.run_append _ _ (before ++ first :: between), Machine.run_append _ _ before]
  exact hused.unchanged hsecond

end Cli

/-- **CLI effects are exactly-once and gated**: for every sequence of requests, from every state of
the CLI and of the platform. -/
theorem cli_effects_gated (formats : Formats) (start : CliWorld) (calls : List CliCall) :
    (cliCalls formats).Guarded (Cli.GatedStep formats) start calls ∧
      ∀ key, Cli.ChangesOnce formats start calls key :=
  ⟨(cliCalls formats).guarded_of_forall (fun call _ world => Cli.gatedStep formats world call) start,
    Cli.changesOnce formats start calls⟩

end Labrys.Core
