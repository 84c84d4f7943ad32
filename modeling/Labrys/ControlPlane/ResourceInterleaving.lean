import Labrys.ControlPlane.Store
import Labrys.Core.ResourceRuns
import Mathlib.Data.List.Perm.Subperm

/-! # Clients of one resource, interleaved

`observe_phase` and `record_failure` load the resource, move it in memory and write it back, each in
a statement of its own. Here a call is advanced one statement at a time, so the calls of several
clients can be interleaved at will.

* `run_call_alone`: a call that is not interrupted is the one of the store.
* `resource_transitions_kept`: the stored evidence is a trail in every interleaving, and loses no
  accepted transition if every update finds the evidence that its call has read. -/

namespace Labrys.ControlPlane
open Foundations Labrys.Core
set_option autoImplicit false

/-! ## A call and its statements -/

inductive ResourceCall
  | observePhase (phase : ResourcePhase) (observedBy : ObservationSource) (reason : Option String)
      (time : DateTime)
  | recordFailure (reason : String) (secrets : List String) (policy : RetryPolicy)
      (time : DateTime)

namespace ResourceCall

/-- The call of the store, as a whole. -/
def run (id : ResourceId) : ResourceCall → Action Resource
  | observePhase phase observedBy reason time =>
      PgResourceStore.observePhase id phase observedBy reason time
  | recordFailure reason secrets policy time =>
      PgResourceStore.recordFailure id reason secrets policy time

/-- The operation of the resource that the call performs in memory. -/
def op : ResourceCall → ResourceOp
  | observePhase phase observedBy reason time => .observe phase observedBy reason time
  | recordFailure reason secrets policy time => .fail reason secrets policy time

def moved (call : ResourceCall) (resource : Resource) : Outcome ControlPlaneError Resource :=
  (resource.apply call.op).mapError (Fault.map .core)

def write (call : ResourceCall) (moved : Resource) : Action Unit :=
  match call with
  | observePhase .. => PgResourceStore.writePhase moved
  | recordFailure .. => PgResourceStore.writeFailure moved

end ResourceCall

/-- How far a call has come. From its move on it remembers what it moved, and from its update on, as
what; both are for the statements about it. -/
inductive CallStage
  | called
  | loaded (read moved : Resource)
  | updated (moved : Resource)
  | returned (moved : Option Resource) (result : Outcome ControlPlaneError Resource)

namespace CallStage

/-- The transition of a call that has written. -/
def written : CallStage → Option ResourceTransition
  | updated moved => some (moved.transitions.getLast moved.evidence)
  | returned (some moved) _ => some (moved.transitions.getLast moved.evidence)
  | _ => none

/-- The transition of a call that has returned `Ok`. -/
def accepted : CallStage → Option ResourceTransition
  | returned (some moved) (.ok _) => some (moved.transitions.getLast moved.evidence)
  | _ => none

end CallStage

def ResourceCall.advance (id : ResourceId) (call : ResourceCall) :
    CallStage → Db → Db × CallStage
  | .called, db =>
      match (PgResourceStore.get id db).2 with
      | .error e => (db, .returned none (.error e))
      | .ok read =>
          match call.moved read with
          | .error e => (db, .returned none (.error e))
          | .ok moved => (db, .loaded read moved)
  | .loaded _ moved, db =>
      match (call.write moved db).2 with
      | .error e => ((call.write moved db).1, .returned none (.error e))
      | .ok () => ((call.write moved db).1, .updated moved)
  | .updated moved, db => (db, .returned (some moved) (PgResourceStore.get id db).2)
  | .returned moved result, db => (db, .returned moved result)

def CallStage.result : CallStage → Option (Outcome ControlPlaneError Resource)
  | returned _ result => some result
  | _ => none

/-- The statements of a call, one after the other. -/
theorem ResourceCall.run_eq (id : ResourceId) (call : ResourceCall) :
    call.run id = (do
      let resource ← PgResourceStore.get id
      let moved ← Program.ofExcept (call.moved resource)
      call.write moved
      PgResourceStore.get id) := by
  cases call with
  | observePhase phase observedBy reason time =>
    change PgResourceStore.observePhase id phase observedBy reason time = _
    unfold PgResourceStore.observePhase
    congr 1
    funext resource
    congr 1
    change Program.ofExcept ((resource.observe phase observedBy reason time).mapError _) =
      Program.ofExcept
        (((resource.observe phase observedBy reason time).mapError Fault.err).mapError _)
    cases resource.observe phase observedBy reason time <;> rfl
  | recordFailure reason secrets policy time =>
    change PgResourceStore.recordFailure id reason secrets policy time = _
    unfold PgResourceStore.recordFailure
    congr 1
    funext resource
    congr 1
    change Program.ofExcept ((resource.fail reason secrets policy time).mapError _) =
      Program.ofExcept ((resource.fail reason secrets policy time).mapError _)
    cases resource.fail reason secrets policy time with
    | ok moved => rfl
    | error e => cases e <;> rfl

/-- **A call that is not interrupted** is the call of the store. -/
theorem run_call_alone (id : ResourceId) (call : ResourceCall) (db : Db) :
    let read := call.advance id .called db
    let wrote := call.advance id read.2 read.1
    let done := call.advance id wrote.2 wrote.1
    (done.1, done.2.result) = ((call.run id db).1, some (call.run id db).2) := by
  have hkeeps : (PgResourceStore.get id).Keeps fun db => db := PgResourceStore.keeps_get id
  dsimp only
  rw [call.run_eq id]
  cases hget : (PgResourceStore.get id db).2 with
  | error e =>
    rw [Program.bind_of_error (Prod.ext (hkeeps db) hget)]
    simp only [ResourceCall.advance, hget, CallStage.result]
  | ok resource =>
    rw [Program.bind_of_ok (Prod.ext (hkeeps db) hget)]
    cases hmoved : call.moved resource with
    | error e =>
      rw [Program.bind_of_error (show Program.ofExcept (.error e) db = (db, .error e) from rfl)]
      simp only [ResourceCall.advance, hget, hmoved, CallStage.result]
    | ok moved =>
      rw [Program.bind_of_ok (show Program.ofExcept (.ok moved) db = (db, .ok moved) from rfl)]
      cases hwrite : (call.write moved db).2 with
      | error e =>
        rw [Program.bind_of_snd_error hwrite]
        simp only [ResourceCall.advance, hget, hmoved, hwrite, CallStage.result]
      | ok value =>
        rw [Program.bind_of_snd_ok hwrite]
        simp only [ResourceCall.advance, hget, hmoved, hwrite, CallStage.result]
        exact Prod.ext (hkeeps _).symm rfl

/-! ## What an update stores -/

/-- The evidence is a chain of legal edges that ends in the phase. -/
def Trailed (resource : Resource) : Prop :=
  Trail (·.source) (·.target) (fun t => t.source.canTransitionTo t.target = true)
    resource.transitions resource.phase

section Update
variable {id : ResourceId} {call : ResourceCall} {db : Db} {resource moved stored : Resource}

theorem moves_of_moved (h : call.moved resource = .ok moved) : resource.Moves call.op moved := by
  unfold ResourceCall.moved at h
  obtain ⟨e, -, happly, -⟩ | ⟨message, -, happly, -⟩ | ⟨found, -, happly, hmoves⟩ :=
    resource.perform_cases call.op
  · rw [happly] at h
    cases h
  · rw [happly] at h
    cases h
  · rw [happly] at h
    obtain rfl := Except.ok.inj h
    exact hmoves

theorem trailed_of_moves {op : ResourceOp} (h : Trailed resource)
    (hmoves : resource.Moves op moved) : Trailed moved :=
  (Resource.Evident.moves ⟨h, rfl⟩ hmoves).trail

/-- An update of a stored resource takes, and stores phase and evidence of what was moved. -/
theorem stored_write (call : ResourceCall) (hid : moved.id = id)
    (hget : db.resources.get id = some stored) :
    (call.write moved db).2 = .ok () ∧
      ∃ after, (call.write moved db).1.resources.get id = some after ∧
        after.transitions = moved.transitions ∧ after.phase = moved.phase := by
  subst hid
  cases call with
  | observePhase phase observedBy reason time =>
    change (PgResourceStore.writePhase moved db).2 = _ ∧ _
    rw [PgResourceStore.writePhase_of_some hget]
    refine ⟨rfl, stored.withPhaseOf moved, ?_, rfl, rfl⟩
    change (PgResourceStore.writePhase moved db).1.resources.get moved.id = _
    rw [PgResourceStore.writePhase_of_some hget, PgResourceStore.get_phaseWritten, if_pos rfl, hget]
    rfl
  | recordFailure reason secrets policy time =>
    have hwritten := Table.get_updateWhere_key db.resources moved.id
      (fun row : Resource => { row with
        phase := moved.phase, generation := moved.generation, failure := moved.failure,
        transitions := moved.transitions, evidence := moved.evidence }) (fun _ => rfl) moved.id
    rw [if_pos rfl, hget] at hwritten
    exact ⟨rfl, _, hwritten, rfl, rfl⟩

end Update

/-! ## Clients, interleaved -/

section Advance
variable {id : ResourceId} {call : ResourceCall} {db : Db} {read moved : Resource}

theorem advance_called (hread : (PgResourceStore.get id db).2 = .ok read)
    (hmoved : call.moved read = .ok moved) :
    call.advance id .called db = (db, .loaded read moved) := by
  simp only [ResourceCall.advance, hread, hmoved]

theorem advance_refused (hread : (PgResourceStore.get id db).2 = .ok read)
    {e : Fault ControlPlaneError} (hmoved : call.moved read = .error e) :
    call.advance id .called db = (db, .returned none (.error e)) := by
  simp only [ResourceCall.advance, hread, hmoved]

theorem advance_loaded (hwrite : (call.write moved db).2 = .ok ()) :
    call.advance id (.loaded read moved) db = ((call.write moved db).1, .updated moved) := by
  simp only [ResourceCall.advance, hwrite]

end Advance

/-- The store, and how far each call has come. -/
structure ResourcePool (ι : Type) where
  db : Db
  stage : ι → CallStage

section Pool
variable {ι : Type}

def ResourcePool.start (db : Db) : ResourcePool ι := ⟨db, fun _ => .called⟩

/-- What is stored is a trail, and so is what a call is about to store, one transition after what it
has read. -/
structure Evidenced (id : ResourceId) (pool : ResourcePool ι) (stored : Resource) : Prop where
  get : pool.db.resources.get id = some stored
  trailed : Trailed stored
  loaded : ∀ i read moved, pool.stage i = .loaded read moved →
    moved.id = id ∧ Trailed moved ∧
      moved.transitions = read.transitions ++ [moved.transitions.getLast moved.evidence]

/-- If the call's next statement is its update, the stored evidence is still what it has read. -/
def freshUpdate (id : ResourceId) (pool : ResourcePool ι) (i : ι) : Bool :=
  match pool.stage i, pool.db.resources.get id with
  | .loaded read _, some stored => stored.transitions = read.transitions
  | _, _ => true

/-- The transitions of the calls that have got so far, each call for itself, are all stored. -/
def Keeps (pool : ResourcePool ι) (reached : CallStage → Option ResourceTransition)
    (stored : Resource) : Prop :=
  ∀ clients : List ι, clients.Nodup →
    (clients.filterMap fun i => reached (pool.stage i)).Subperm stored.transitions

/-- Every accepted transition was written. -/
theorem keeps_accepted {pool : ResourcePool ι} {stored : Resource}
    (h : Keeps pool CallStage.written stored) : Keeps pool CallStage.accepted stored := by
  have hwritten : ∀ stage : CallStage, ∀ t, stage.accepted = some t → stage.written = some t := by
    intro stage t
    match stage with
    | .called | .loaded _ _ | .updated _ | .returned none _ | .returned (some _) (.error _) => nofun
    | .returned (some moved) (.ok _) => exact id
  intro clients hnodup
  refine (List.Sublist.subperm ?_).trans (h clients hnodup)
  clear hnodup
  induction clients with
  | nil => exact List.Sublist.refl []
  | cons i clients ih =>
    cases haccepted : (pool.stage i).accepted with
    | none =>
      simp only [List.filterMap_cons, haccepted]
      refine ih.trans ?_
      exact (List.sublist_cons_self i clients).filterMap _
    | some t =>
      simp only [List.filterMap_cons, haccepted, hwritten _ t haccepted]
      exact ih.cons_cons t

theorem evidenced_start {id : ResourceId} {db : Db} {resource : Resource}
    (hget : db.resources.get id = some resource) (htrailed : Trailed resource) :
    Evidenced id (ResourcePool.start db : ResourcePool ι) resource where
  get := hget
  trailed := htrailed
  loaded := fun _ _ _ h => by cases h

variable [DecidableEq ι]

/-- Each input names the call that runs its next statement. -/
def resourcePool (id : ResourceId) (calls : ι → ResourceCall) : Machine (ResourcePool ι) ι Unit where
  step := fun pool i =>
    let next := (calls i).advance id (pool.stage i) pool.db
    (⟨next.1, Function.update pool.stage i next.2⟩, ())

/-- A statement that leaves the store alone, and a new stage that is loaded only with what it read. -/
theorem Evidenced.quiet {id : ResourceId} {pool : ResourcePool ι} {stored : Resource}
    (h : Evidenced id pool stored) (i : ι) {stage : CallStage}
    (hwritten : stage.written = (pool.stage i).written)
    (hloaded : ∀ read moved, stage = .loaded read moved → moved.id = id ∧ Trailed moved ∧
      moved.transitions = read.transitions ++ [moved.transitions.getLast moved.evidence]) :
    Evidenced id ⟨pool.db, Function.update pool.stage i stage⟩ stored ∧
      ∀ j, (Function.update pool.stage i stage j).written = (pool.stage j).written := by
  refine ⟨⟨h.get, h.trailed, fun j read moved hj => ?_⟩, fun j => ?_⟩
  · change Function.update pool.stage i stage j = _ at hj
    obtain rfl | hne := eq_or_ne j i
    · exact hloaded read moved (by rwa [Function.update_self] at hj)
    · exact h.loaded j read moved (by rwa [Function.update_of_ne hne] at hj)
  · obtain rfl | hne := eq_or_ne j i
    · rw [Function.update_self, hwritten]
    · rw [Function.update_of_ne hne]

/-- The next statement of the call does not change the store, or it is its update. -/
theorem evidenced_next {id : ResourceId} (calls : ι → ResourceCall) {pool : ResourcePool ι}
    {stored : Resource} (h : Evidenced id pool stored) (i : ι) :
    (Evidenced id ((resourcePool id calls).next pool i) stored ∧
      ∀ j, (((resourcePool id calls).next pool i).stage j).written = (pool.stage j).written) ∨
    ∃ read moved after, pool.stage i = .loaded read moved ∧ after.transitions = moved.transitions ∧
      Evidenced id ((resourcePool id calls).next pool i) after ∧
      ((resourcePool id calls).next pool i).stage =
        Function.update pool.stage i (.updated moved) := by
  have hnext : (resourcePool id calls).next pool i =
      ⟨((calls i).advance id (pool.stage i) pool.db).1,
        Function.update pool.stage i ((calls i).advance id (pool.stage i) pool.db).2⟩ := rfl
  rw [hnext]
  have hread : (PgResourceStore.get id pool.db).2 = .ok stored :=
    congrArg Prod.snd (PgResourceStore.get_of_some h.get)
  cases hstage : pool.stage i with
  | called =>
    left
    cases hmoved : (calls i).moved stored with
    | error e =>
      rw [advance_refused hread hmoved]
      exact h.quiet i (by rw [hstage]; rfl) fun _ _ heq => by cases heq
    | ok moved =>
      rw [advance_called hread hmoved]
      refine h.quiet i (by rw [hstage]; rfl) fun read moved' heq => ?_
      obtain ⟨rfl, rfl⟩ := CallStage.loaded.inj heq
      have hmoves := moves_of_moved hmoved
      obtain ⟨observedBy, reason, time, htransitions⟩ := hmoves.transitions
      refine ⟨hmoves.identity.1.trans (Table.key_of_get h.get), trailed_of_moves h.trailed hmoves, ?_⟩
      simp only [htransitions, List.getLast_append_singleton]
  | loaded read moved =>
    right
    obtain ⟨hid, htrailed, -⟩ := h.loaded i read moved hstage
    obtain ⟨hok, after, hget, htransitions, hphase⟩ := stored_write (calls i) hid h.get
    rw [advance_loaded hok]
    refine ⟨read, moved, after, rfl, htransitions, ⟨hget, ?_, fun j read' moved' hj => ?_⟩, rfl⟩
    · unfold Trailed
      rw [htransitions, hphase]
      exact htrailed
    · change Function.update pool.stage i _ j = _ at hj
      obtain rfl | hne := eq_or_ne j i
      · rw [Function.update_self] at hj
        cases hj
      · exact h.loaded j read' moved' (by rwa [Function.update_of_ne hne] at hj)
  | updated moved =>
    left
    exact h.quiet i (by rw [hstage]; rfl) fun _ _ heq => by cases heq
  | returned moved result =>
    left
    exact h.quiet i (by rw [hstage]; rfl) fun _ _ heq => by cases heq

theorem keeps_next {id : ResourceId} (calls : ι → ResourceCall) {pool : ResourcePool ι}
    {stored : Resource} (h : Evidenced id pool stored) (hkept : Keeps pool CallStage.written stored)
    {i : ι} (hfresh : freshUpdate id pool i = true) :
    ∃ after, Evidenced id ((resourcePool id calls).next pool i) after ∧
      Keeps ((resourcePool id calls).next pool i) CallStage.written after := by
  obtain ⟨hsame, hwritten⟩ | ⟨read, moved, after, hstage, htransitions, hafter, hstages⟩ :=
    evidenced_next calls h i
  · refine ⟨stored, hsame, fun clients hnodup => ?_⟩
    simp only [hwritten]
    exact hkept clients hnodup
  · refine ⟨after, hafter, fun clients hnodup => ?_⟩
    set t := moved.transitions.getLast moved.evidence with ht
    have hgrown : after.transitions = stored.transitions ++ [t] := by
      have hread : stored.transitions = read.transitions := by
        unfold freshUpdate at hfresh
        rw [hstage, h.get] at hfresh
        exact of_decide_eq_true hfresh
      rw [htransitions, hread]
      exact (h.loaded i read moved hstage).2.2
    have hothers : ∀ others : List ι, i ∉ others →
        (others.filterMap fun j => (((resourcePool id calls).next pool i).stage j).written) =
          others.filterMap fun j => (pool.stage j).written := by
      intro others hi
      refine List.filterMap_congr fun j hj => ?_
      have hne : j ≠ i := fun heq => hi (heq ▸ hj)
      rw [hstages, Function.update_of_ne hne]
    rw [hgrown]
    by_cases hi : i ∈ clients
    · -- the call's own transition is the one that is appended
      have hperm := (List.perm_cons_erase hi).filterMap fun j =>
        (((resourcePool id calls).next pool i).stage j).written
      refine hperm.subperm.trans ?_
      have hown : (((resourcePool id calls).next pool i).stage i).written = some t := by
        rw [hstages, Function.update_self]
        rfl
      simp only [List.filterMap_cons, hown]
      rw [hothers _ hnodup.not_mem_erase]
      refine ((List.subperm_cons t).mpr (hkept _ (hnodup.erase i))).trans ?_
      exact (List.perm_append_singleton t stored.transitions).symm.subperm
    · rw [hothers clients hi]
      exact (hkept clients hnodup).trans (List.sublist_append_left _ _).subperm

/-- **No transition is lost** in an interleaving in which every update finds what its call has read:
in every state that is reached, the stored evidence is a chain of legal edges that ends in the
phase, and the transition of every call that has returned `Ok` is in it. The chain holds in every
interleaving. -/
theorem resource_transitions_kept (id : ResourceId) (calls : ι → ResourceCall) (db : Db)
    (resource : Resource) (hget : db.resources.get id = some resource) (htrailed : Trailed resource)
    (schedule : List ι) :
    (∀ n, ∃ stored, ((resourcePool id calls).run (.start db) (schedule.take n)).db.resources.get id =
      some stored ∧ Trailed stored) ∧
    ((resourcePool id calls).Guarded (fun pool i => freshUpdate id pool i = true)
        (.start db) schedule →
      ∀ n, ∃ stored,
        ((resourcePool id calls).run (.start db) (schedule.take n)).db.resources.get id =
          some stored ∧ Trailed stored ∧
        Keeps ((resourcePool id calls).run (.start db) (schedule.take n)) CallStage.accepted
          stored) := by
  have hstart : Evidenced id (ResourcePool.start db : ResourcePool ι) resource :=
    evidenced_start hget htrailed
  refine ⟨fun n => ?_, fun hfresh n => ?_⟩
  · obtain ⟨stored, hstored⟩ := (resourcePool id calls).run_invariant_all
      (P := fun pool => ∃ stored, Evidenced id pool stored) (fun pool i ⟨stored, h⟩ => by
        obtain ⟨hsame, -⟩ | ⟨-, -, after, -, -, hafter, -⟩ := evidenced_next calls h i
        · exact ⟨stored, hsame⟩
        · exact ⟨after, hafter⟩) (.start db) (schedule.take n) ⟨resource, hstart⟩
    exact ⟨stored, hstored.get, hstored.trailed⟩
  · have htaken : (resourcePool id calls).Guarded (fun pool i => freshUpdate id pool i = true)
        (.start db) (schedule.take n) := by
      rw [← List.take_append_drop n schedule, Machine.guarded_append] at hfresh
      exact hfresh.1
    have hnone : Keeps (ResourcePool.start db : ResourcePool ι) CallStage.written resource := by
      intro clients _
      have hempty : (clients.filterMap fun _ => CallStage.called.written) = [] := by
        rw [List.filterMap_eq_nil_iff]
        exact fun _ _ => rfl
      change (clients.filterMap fun _ => CallStage.called.written).Subperm _
      rw [hempty]
      exact List.nil_subperm
    obtain ⟨stored, hstored, hkept⟩ := (resourcePool id calls).run_invariant
      (P := fun pool => ∃ stored, Evidenced id pool stored ∧ Keeps pool CallStage.written stored)
      (fun pool i ⟨stored, h, hkept⟩ hstep => keeps_next calls h hkept hstep) (.start db)
      (schedule.take n) ⟨resource, hstart, hnone⟩ htaken
    exact ⟨stored, hstored.get, hstored.trailed, keeps_accepted hkept⟩

end Pool

/-! ### Two clients -/

/-- The probe of one client, and the failure that another one reports. -/
def twoCalls : Fin 2 → ResourceCall
  | 0 => .observePhase .ready .platformProbe none 10
  | 1 => .recordFailure "quota exceeded" [] RetryPolicy.default 11

def readyTransition : ResourceTransition := ⟨.provisioning, .ready, 10, .platformProbe, none⟩

theorem trailed_provisioning : Trailed provisioningResource :=
  Trail.singleton ResourceTransition.source ResourceTransition.target _
    ⟨.requested, .provisioning, 0, .platformProbe, none⟩

/-- One call after the other. -/
theorem resource_transitions_kept_serial :
    let pool := (resourcePool ⟨1⟩ twoCalls).run (.start queuedStore) [0, 0, 0, 1, 1, 1]
    ∃ stored, pool.db.resources.get ⟨1⟩ = some stored ∧ Trailed stored ∧
      Keeps pool CallStage.accepted stored := by
  have hfresh : (resourcePool ⟨1⟩ twoCalls).Guarded (fun pool i => freshUpdate ⟨1⟩ pool i = true)
      (.start queuedStore) [0, 0, 0, 1, 1, 1] :=
    ⟨by decide +kernel, by decide +kernel, by decide +kernel, by decide +kernel, by decide +kernel,
      by decide +kernel, trivial⟩
  exact (resource_transitions_kept ⟨1⟩ twoCalls queuedStore provisioningResource (by decide +kernel)
    trailed_provisioning [0, 0, 0, 1, 1, 1]).2 hfresh 6

/-- Both clients read before either writes: the probe returned `Ok`, and its transition is gone. -/
theorem ready_transition_lost :
    let pool := (resourcePool ⟨1⟩ twoCalls).run (.start queuedStore) [0, 1, 0, 0, 1, 1]
    (pool.stage 0).accepted = some readyTransition ∧
    (pool.db.resources.get ⟨1⟩).map (fun stored =>
      (stored.phase, stored.transitions.map (·.target))) =
        some (.failed, [.provisioning, .failed]) ∧
    (pool.db.resources.get ⟨1⟩).map (fun stored =>
      decide (readyTransition ∈ stored.transitions)) = some false := by
  decide +kernel

end Labrys.ControlPlane
