import Labrys.Core.Errors
import Labrys.Core.Events
import Labrys.Core.Preview
import Labrys.Foundations.Program
import Labrys.Foundations.Runs
import Labrys.Foundations.Table

/-! # Session workspaces

A workspace is the worktree of an agent session. The registry hands out clones, clients change their
clones, and `sync` writes a clone back wholesale. A pool is the registry with every clone that
clients hold, and what was accepted so far; its clients take steps in any order. The id that
`allocate` draws is an argument; that it is new is what a UUID is for (`FreshDraw`).

* `SessionWorkspace.merge_cases`, `discard_cases`: what is accepted, and what it leaves.
* `WorkspacePool.Tracked`: entries and clones have the ids that were drawn; `Tracked.next`.
* `WorkspacePool.Live`: a workspace that is still active. -/

namespace Labrys.Core
open Foundations
set_option autoImplicit false

structure CanonicalRepository where
  applicationId : ApplicationId
  headSha : String

inductive WorktreeStatus
  | active | merged | discarded
deriving DecidableEq

def WorktreeStatus.debug : WorktreeStatus → String
  | active => "Active"
  | merged => "Merged"
  | discarded => "Discarded"

structure WorkspaceDiff where
  filesChanged : List String
  additions : ℕ
  deletions : ℕ
  summary : String
deriving DecidableEq

def WorkspaceDiff.isEmptyChange (diff : WorkspaceDiff) : Bool :=
  diff.additions = 0 ∧ diff.deletions = 0

structure SessionWorkspace where
  id : WorkspaceId
  applicationId : ApplicationId
  environmentName : String
  sessionId : AgentSessionId
  worktreePath : String
  branch : String
  baseSha : String
  status : WorktreeStatus
  diff : Option WorkspaceDiff
deriving DecidableEq

structure MergeRequest where
  workspaceId : WorkspaceId
  diff : WorkspaceDiff
  approvedBy : Option String

abbrev WorkspaceStep := Program SessionWorkspace CoreError

namespace SessionWorkspace

def «open» (id : WorkspaceId) (repo : CanonicalRepository) (sessionId : AgentSessionId)
    (environmentName : String) : Except CoreError SessionWorkspace :=
  if isBlank environmentName.toList then
    .error (.workspaceState "workspace requires an environment name")
  else
    .ok { id, applicationId := repo.applicationId, environmentName, sessionId,
          worktreePath := s!"worktrees/{sessionId}", branch := s!"session/{sessionId}",
          baseSha := repo.headSha, status := .active, diff := none }

def recordDiff (diff : WorkspaceDiff) : WorkspaceStep Unit := fun w =>
  if w.status ≠ .active then
    let status := w.status.debug
    (w, .error (.workspaceState s!"cannot record diff while workspace {w.id} is {status}"))
  else ({ w with diff := some diff }, .ok ())

def mergeReady (w : SessionWorkspace) : Except CoreError WorkspaceDiff :=
  if w.status ≠ .active then
    let status := w.status.debug
    .error (.workspaceState s!"workspace {w.id} is {status}, not mergeable")
  else
    match w.diff with
    | some diff => .ok diff
    | none =>
        .error (.workspaceState
          s!"workspace {w.id} has no exposed diff; merge requires review")

def merge (approval : ExplicitApproval) : WorkspaceStep MergeRequest := fun w =>
  match w.mergeReady with
  | .error e => (w, .error e)
  | .ok diff =>
      if diff.isEmptyChange then
        (w, .error (.workspaceState s!"workspace {w.id} diff is empty; nothing to merge"))
      else if approval.approved = false then
        (w, .error (.approvalRequired s!"workspace {w.id} merge requires explicit approval"))
      else if isBlank approval.approver.toList then
        (w, .error (.approvalRequired "workspace merge approval must name an approver"))
      else
        ({ w with status := .merged }, .ok ⟨w.id, diff, some approval.approver⟩)

def discard : WorkspaceStep Unit := fun w =>
  if w.status ≠ .active then
    let status := w.status.debug
    (w, .error (.workspaceState s!"cannot discard workspace {w.id} while {status}"))
  else ({ w with status := .discarded, diff := none }, .ok ())

def needsCleanup (w : SessionWorkspace) : Bool := w.status ≠ .active

end SessionWorkspace

structure WorkspaceRegistry where
  workspaces : List SessionWorkspace

namespace WorkspaceRegistry

def new : WorkspaceRegistry := ⟨[]⟩

def allocate (id : WorkspaceId) (repo : CanonicalRepository) (sessionId : AgentSessionId)
    (environmentName : String) :
    Program WorkspaceRegistry CoreError SessionWorkspace := fun r =>
  if r.workspaces.any fun w =>
      decide (w.sessionId = sessionId ∧ w.applicationId = repo.applicationId) then
    (r, .error (.workspaceState s!"session {sessionId} already owns a worktree"))
  else
    match SessionWorkspace.open id repo sessionId environmentName with
    | .error e => (r, .error e)
    | .ok workspace => (⟨r.workspaces ++ [workspace]⟩, .ok workspace)

def get (r : WorkspaceRegistry) (id : WorkspaceId) : Option SessionWorkspace :=
  r.workspaces.find? fun w => w.id = id

def sync (workspace : SessionWorkspace) (r : WorkspaceRegistry) : WorkspaceRegistry :=
  ⟨replaceFirst (fun w => w.id = workspace.id) workspace r.workspaces⟩

def cleanupFinished (r : WorkspaceRegistry) : WorkspaceRegistry × ℕ :=
  let kept := r.workspaces.filter fun w => !w.needsCleanup
  (⟨kept⟩, r.workspaces.length - kept.length)

end WorkspaceRegistry

/-! ## Clients with clones -/

/-- The registry, the clones that clients hold, and, in order, the ids that were drawn, those of
accepted merges and discards, and those whose merge was written back. -/
structure WorkspacePool where
  registry : WorkspaceRegistry
  held : List SessionWorkspace
  allocated : List WorkspaceId
  merged : List WorkspaceId
  discarded : List WorkspaceId
  settled : List WorkspaceId

/-- A step of a client; a clone is named by its place. -/
inductive PoolOp
  | allocate (id : WorkspaceId) (repo : CanonicalRepository) (sessionId : AgentSessionId)
      (environmentName : String)
  | take (id : WorkspaceId)
  | copy (k : ℕ)
  | recordDiff (k : ℕ) (diff : WorkspaceDiff)
  | merge (k : ℕ) (approval : ExplicitApproval)
  | discard (k : ℕ)
  | sync (k : ℕ)
  | cleanupFinished

inductive PoolAnswer
  | allocated (result : Except CoreError SessionWorkspace)
  | found (workspace : Option SessionWorkspace)
  | changed (result : Except CoreError Unit)
  | merged (result : Except CoreError MergeRequest)
  | done
  | cleaned (count : ℕ)

namespace WorkspacePool

def new : WorkspacePool := ⟨.new, [], [], [], [], []⟩

/-- A client gets one more clone, if there is one to get. -/
def give (s : WorkspacePool) (found : Option SessionWorkspace) : WorkspacePool × PoolAnswer :=
  ({ s with held := s.held ++ found.toList }, .found found)

def allocate (s : WorkspacePool) (id : WorkspaceId) (repo : CanonicalRepository)
    (sessionId : AgentSessionId) (environmentName : String) : WorkspacePool × PoolAnswer :=
  match s.registry.allocate id repo sessionId environmentName with
  | (registry, .ok w) =>
      ({ s with registry, held := s.held ++ [w], allocated := s.allocated ++ [id] },
        .allocated (.ok w))
  | (registry, .error e) => ({ s with registry }, .allocated (.error e))

def merge (s : WorkspacePool) (k : ℕ) (approval : ExplicitApproval) : WorkspacePool × PoolAnswer :=
  match s.held[k]? with
  | none => (s, .done)
  | some w =>
      match SessionWorkspace.merge approval w with
      | (w', .ok request) =>
          ({ s with held := s.held.set k w', merged := s.merged ++ [w.id] }, .merged (.ok request))
      | (w', .error e) => ({ s with held := s.held.set k w' }, .merged (.error e))

def recordDiff (s : WorkspacePool) (k : ℕ) (diff : WorkspaceDiff) : WorkspacePool × PoolAnswer :=
  match s.held[k]? with
  | none => (s, .done)
  | some w =>
      let (w', result) := SessionWorkspace.recordDiff diff w
      ({ s with held := s.held.set k w' }, .changed result)

def discard (s : WorkspacePool) (k : ℕ) : WorkspacePool × PoolAnswer :=
  match s.held[k]? with
  | none => (s, .done)
  | some w =>
      match SessionWorkspace.discard w with
      | (w', .ok ()) =>
          ({ s with held := s.held.set k w', discarded := s.discarded ++ [w.id] },
            .changed (.ok ()))
      | (w', .error e) => ({ s with held := s.held.set k w' }, .changed (.error e))

def sync (s : WorkspacePool) (k : ℕ) : WorkspacePool × PoolAnswer :=
  match s.held[k]? with
  | none => (s, .done)
  | some w =>
      ({ s with
          registry := s.registry.sync w
          settled := if w.status = .merged ∧ (s.registry.get w.id).isSome then s.settled ++ [w.id]
            else s.settled }, .done)

end WorkspacePool

def workspacePool : Machine WorkspacePool PoolOp PoolAnswer where
  step := fun s op =>
    match op with
    | .allocate id repo sessionId environmentName => s.allocate id repo sessionId environmentName
    | .take id => s.give (s.registry.get id)
    | .copy k => s.give s.held[k]?
    | .recordDiff k diff => s.recordDiff k diff
    | .merge k approval => s.merge k approval
    | .discard k => s.discard k
    | .sync k => s.sync k
    | .cleanupFinished =>
        ({ s with registry := s.registry.cleanupFinished.1 },
          .cleaned s.registry.cleanupFinished.2)

/-- An allocation draws an id that no allocation drew before. -/
def FreshDraw (s : WorkspacePool) : PoolOp → Prop
  | .allocate id .. => id ∉ s.allocated
  | _ => True

/-! ## What each operation does -/

namespace SessionWorkspace

/-- What two clones of one workspace share. -/
def tree (w : SessionWorkspace) : WorkspaceId × AgentSessionId × String × String :=
  (w.id, w.sessionId, w.worktreePath, w.branch)

/-- `merge` with this approval is accepted. -/
structure Mergeable (w : SessionWorkspace) (approval : ExplicitApproval) : Prop where
  active : w.status = .active
  diff : ∃ diff, w.diff = some diff ∧ diff.isEmptyChange = false
  granted : approval.approved = true
  named : isBlank approval.approver.toList = false

theorem merge_cases (approval : ExplicitApproval) (w : SessionWorkspace) :
    (w.Mergeable approval ∧
      ∃ request, merge approval w = ({ w with status := .merged }, .ok request)) ∨
    ¬ w.Mergeable approval ∧ ∃ e, merge approval w = (w, .error e) := by
  unfold merge mergeReady
  by_cases hactive : w.status = .active
  · rw [if_neg (not_not.mpr hactive)]
    cases hdiff : w.diff with
    | none =>
      refine .inr ⟨fun h => ?_, _, rfl⟩
      obtain ⟨diff, hsome, -⟩ := h.diff
      rw [hdiff] at hsome
      cases hsome
    | some diff =>
      dsimp only
      split_ifs with hempty hdenied hblank
      · refine .inr ⟨fun h => ?_, _, rfl⟩
        obtain ⟨exposed, hsome, hchange⟩ := h.diff
        rw [hdiff] at hsome
        rw [← Option.some_inj.mp hsome, hempty] at hchange
        cases hchange
      · refine .inr ⟨fun h => ?_, _, rfl⟩
        rw [h.granted] at hdenied
        cases hdenied
      · refine .inr ⟨fun h => ?_, _, rfl⟩
        rw [h.named] at hblank
        cases hblank
      · refine .inl ⟨⟨hactive, ⟨diff, hdiff, ?_⟩, ?_, ?_⟩, _, rfl⟩
        · simpa using hempty
        · simpa using hdenied
        · simpa using hblank
  · rw [if_pos hactive]
    exact .inr ⟨fun h => hactive h.active, _, rfl⟩

theorem discard_cases (w : SessionWorkspace) :
    (w.status = .active ∧
      discard w = ({ w with status := .discarded, diff := none }, .ok ())) ∨
    w.status ≠ .active ∧ ∃ e, discard w = (w, .error e) := by
  unfold discard
  by_cases hactive : w.status = .active
  · rw [if_neg (not_not.mpr hactive)]
    exact .inl ⟨hactive, rfl⟩
  · rw [if_pos hactive]
    exact .inr ⟨hactive, _, rfl⟩

theorem recordDiff_kept (diff : WorkspaceDiff) (w : SessionWorkspace) :
    (recordDiff diff w).1.tree = w.tree ∧ (recordDiff diff w).1.status = w.status := by
  unfold recordDiff
  split_ifs <;> exact ⟨rfl, rfl⟩

end SessionWorkspace

namespace WorkspaceRegistry

/-- An allocation that is accepted adds an active workspace for a session that the application has
none for. -/
theorem allocate_cases (id : WorkspaceId) (repo : CanonicalRepository)
    (sessionId : AgentSessionId) (environmentName : String) (r : WorkspaceRegistry) :
    (∃ w, (∀ v ∈ r.workspaces, ¬ (v.sessionId = sessionId ∧ v.applicationId = repo.applicationId)) ∧
      isBlank environmentName.toList = false ∧ w.status = .active ∧
      w.tree = (id, sessionId, s!"worktrees/{sessionId}", s!"session/{sessionId}") ∧
      r.allocate id repo sessionId environmentName = (⟨r.workspaces ++ [w]⟩, .ok w)) ∨
    ((∃ v ∈ r.workspaces, v.sessionId = sessionId ∧ v.applicationId = repo.applicationId) ∨
        isBlank environmentName.toList = true) ∧
      ∃ e, r.allocate id repo sessionId environmentName = (r, .error e) := by
  unfold allocate SessionWorkspace.open
  by_cases howned : (r.workspaces.any fun w =>
      decide (w.sessionId = sessionId ∧ w.applicationId = repo.applicationId)) = true
  · rw [if_pos howned]
    exact .inr ⟨.inl (by simpa using howned), _, rfl⟩
  · rw [if_neg howned]
    by_cases hblank : isBlank environmentName.toList = true
    · rw [if_pos hblank]
      exact .inr ⟨.inr hblank, _, rfl⟩
    · rw [if_neg hblank]
      exact .inl ⟨_, by simpa using howned, by simpa using hblank, rfl, rfl, rfl⟩

theorem mem_sync {r : WorkspaceRegistry} {w v : SessionWorkspace}
    (h : v ∈ (r.sync w).workspaces) : v = w ∨ v ∈ r.workspaces :=
  mem_replaceFirst h

theorem map_id_sync (r : WorkspaceRegistry) (w : SessionWorkspace) :
    (r.sync w).workspaces.map SessionWorkspace.id = r.workspaces.map SessionWorkspace.id :=
  map_replaceFirst fun _ _ h => (of_decide_eq_true h).symm

theorem mem_cleanup {r : WorkspaceRegistry} {w : SessionWorkspace} :
    w ∈ r.cleanupFinished.1.workspaces ↔ w ∈ r.workspaces ∧ w.status = .active := by
  simp [cleanupFinished, SessionWorkspace.needsCleanup]

theorem mem_of_get {r : WorkspaceRegistry} {id : WorkspaceId} {w : SessionWorkspace}
    (h : r.get id = some w) : w ∈ r.workspaces ∧ w.id = id :=
  ⟨List.mem_of_find?_eq_some h, by simpa using List.find?_some h⟩

end WorkspaceRegistry

/-! ## Entries and clones -/

namespace WorkspacePool

/-- Every workspace of the pool, clone or entry. -/
def all (s : WorkspacePool) : List SessionWorkspace := s.held ++ s.registry.workspaces

/-- A client holds a clone with this status. -/
def Holds (s : WorkspacePool) (id : WorkspaceId) (status : WorktreeStatus) : Prop :=
  ∃ c ∈ s.held, c.id = id ∧ c.status = status

/-- Entries have ids of their own, which were drawn, and the paths of their session; a clone of an
entry has its session. -/
structure Tracked (s : WorkspacePool) : Prop where
  ids : (s.registry.workspaces.map SessionWorkspace.id).Nodup
  drawn : ∀ w ∈ s.all, w.id ∈ s.allocated
  planned : ∀ w ∈ s.all, w.worktreePath = s!"worktrees/{w.sessionId}" ∧
    w.branch = s!"session/{w.sessionId}"
  agree : ∀ v ∈ s.all, ∀ w ∈ s.all, v.id = w.id → v.sessionId = w.sessionId

theorem tracked_new : new.Tracked :=
  ⟨List.nodup_nil, nofun, nofun, nofun⟩

/-- A step after which every workspace has the tree of one that was there. -/
theorem Tracked.of_trees {s s' : WorkspacePool} (h : s.Tracked)
    (hids : (s'.registry.workspaces.map SessionWorkspace.id).Nodup)
    (hallocated : s'.allocated = s.allocated)
    (htrees : ∀ w ∈ s'.all, ∃ v ∈ s.all, v.tree = w.tree) : s'.Tracked := by
  refine ⟨hids, fun w hw => ?_, fun w hw => ?_, fun v hv w hw hid => ?_⟩
  · obtain ⟨v, hv, htree⟩ := htrees w hw
    obtain ⟨hid, -⟩ := Prod.mk.inj htree
    rw [hallocated, ← hid]
    exact h.drawn v hv
  · obtain ⟨v, hv, htree⟩ := htrees w hw
    simp only [SessionWorkspace.tree, Prod.mk.injEq] at htree
    obtain ⟨-, hsession, hpath, hbranch⟩ := htree
    rw [← hpath, ← hbranch, ← hsession]
    exact h.planned v hv
  · obtain ⟨v', hv', htree⟩ := htrees v hv
    obtain ⟨w', hw', htree'⟩ := htrees w hw
    simp only [SessionWorkspace.tree, Prod.mk.injEq] at htree htree'
    have hsame := h.agree v' hv' w' hw' (htree.1.trans (hid.trans htree'.1.symm))
    exact htree.2.1.symm.trans (hsame.trans htree'.2.1)

/-- A clone is changed and keeps its tree. -/
theorem Tracked.set {s : WorkspacePool} (h : s.Tracked) {k : ℕ} {w w' : SessionWorkspace}
    (hget : s.held[k]? = some w) (htree : w'.tree = w.tree)
    (merged discarded : List WorkspaceId) :
    Tracked { s with held := s.held.set k w', merged, discarded } := by
  refine h.of_trees h.ids rfl fun v hv => ?_
  obtain hheld | hentry := List.mem_append.mp hv
  · obtain hold | rfl := List.mem_or_eq_of_mem_set hheld
    · exact ⟨v, List.mem_append_left _ hold, rfl⟩
    · exact ⟨w, List.mem_append_left _ (List.mem_of_getElem? hget), htree.symm⟩
  · exact ⟨v, List.mem_append_right _ hentry, rfl⟩

theorem Tracked.give {s : WorkspacePool} (h : s.Tracked) {found : Option SessionWorkspace}
    (hfound : ∀ w, found = some w → w ∈ s.all) : (s.give found).1.Tracked := by
  refine h.of_trees h.ids rfl fun v hv => ?_
  obtain hheld | hentry := List.mem_append.mp hv
  · obtain hold | hnew := List.mem_append.mp hheld
    · exact ⟨v, List.mem_append_left _ hold, rfl⟩
    · exact ⟨v, hfound v (Option.mem_toList.mp hnew), rfl⟩
  · exact ⟨v, List.mem_append_right _ hentry, rfl⟩

theorem Tracked.allocate {s : WorkspacePool} (h : s.Tracked) {id : WorkspaceId}
    (hfresh : id ∉ s.allocated) (repo : CanonicalRepository) (sessionId : AgentSessionId)
    (environmentName : String) :
    (s.allocate id repo sessionId environmentName).1.Tracked := by
  unfold WorkspacePool.allocate
  obtain ⟨w, -, -, -, htree, hrun⟩ | ⟨-, e, hrun⟩ :=
    s.registry.allocate_cases id repo sessionId environmentName
  · rw [hrun]
    simp only [SessionWorkspace.tree, Prod.mk.injEq] at htree
    obtain ⟨hid, hsession, hpath, hbranch⟩ := htree
    have hmem : ∀ v ∈ (s.held ++ [w]) ++ (s.registry.workspaces ++ [w]), v ∈ s.all ∨ v = w := by
      intro v hv
      simp only [List.mem_append, List.mem_singleton] at hv
      obtain (hv | hv) | (hv | hv) := hv
      · exact .inl (List.mem_append_left _ hv)
      · exact .inr hv
      · exact .inl (List.mem_append_right _ hv)
      · exact .inr hv
    have hnew : ∀ v ∈ s.all, v.id ≠ w.id := by
      intro v hv heq
      exact hfresh (hid ▸ heq ▸ h.drawn v hv)
    refine ⟨?_, fun v hv => ?_, fun v hv => ?_, fun v hv u hu heq => ?_⟩
    · rw [List.map_append, List.map_singleton, ← List.concat_eq_append, List.nodup_concat]
      refine ⟨fun hin => ?_, h.ids⟩
      obtain ⟨v, hv, heq⟩ := List.mem_map.mp hin
      exact hnew v (List.mem_append_right _ hv) heq
    · obtain hv | rfl := hmem v hv
      · exact List.mem_append_left _ (h.drawn v hv)
      · exact List.mem_append_right _ (hid ▸ List.mem_cons_self)
    · obtain hv | rfl := hmem v hv
      · exact h.planned v hv
      · rw [hpath, hbranch, hsession]
        exact ⟨rfl, rfl⟩
    · obtain hold | hlast := hmem v hv <;> obtain hold' | hlast' := hmem u hu
      · exact h.agree v hold u hold' heq
      · exact absurd (hlast' ▸ heq) (hnew v hold)
      · exact absurd (hlast ▸ heq).symm (hnew u hold')
      · rw [hlast, hlast']
  · rw [hrun]
    exact h

theorem Tracked.next {s : WorkspacePool} (h : s.Tracked) {op : PoolOp} (hfresh : FreshDraw s op) :
    (workspacePool.next s op).Tracked := by
  unfold Machine.next workspacePool
  cases op with
  | allocate id repo sessionId environmentName => exact h.allocate hfresh repo sessionId _
  | take id =>
    exact h.give fun w hw => List.mem_append_right _ (WorkspaceRegistry.mem_of_get hw).1
  | copy k => exact h.give fun w hw => List.mem_append_left _ (List.mem_of_getElem? hw)
  | recordDiff k diff =>
    dsimp only [WorkspacePool.recordDiff]
    cases hget : s.held[k]? with
    | none => exact h
    | some w => exact h.set hget (SessionWorkspace.recordDiff_kept diff w).1 s.merged s.discarded
  | merge k approval =>
    dsimp only [WorkspacePool.merge]
    cases hget : s.held[k]? with
    | none => exact h
    | some w =>
      dsimp only
      obtain ⟨-, request, hrun⟩ | ⟨-, e, hrun⟩ := SessionWorkspace.merge_cases approval w
      · rw [hrun]
        exact h.set hget (by rfl) (s.merged ++ [w.id]) s.discarded
      · rw [hrun]
        exact h.set hget (by rfl) s.merged s.discarded
  | discard k =>
    dsimp only [WorkspacePool.discard]
    cases hget : s.held[k]? with
    | none => exact h
    | some w =>
      dsimp only
      obtain ⟨-, hrun⟩ | ⟨-, e, hrun⟩ := SessionWorkspace.discard_cases w
      · rw [hrun]
        exact h.set hget (by rfl) s.merged (s.discarded ++ [w.id])
      · rw [hrun]
        exact h.set hget (by rfl) s.merged s.discarded
  | sync k =>
    dsimp only [WorkspacePool.sync]
    cases hget : s.held[k]? with
    | none => exact h
    | some w =>
      refine h.of_trees ?_ rfl fun v hv => ?_
      · rw [WorkspaceRegistry.map_id_sync]
        exact h.ids
      · obtain hheld | hentry := List.mem_append.mp hv
        · exact ⟨v, List.mem_append_left _ hheld, rfl⟩
        · obtain rfl | hentry := WorkspaceRegistry.mem_sync hentry
          · exact ⟨v, List.mem_append_left _ (List.mem_of_getElem? hget), rfl⟩
          · exact ⟨v, List.mem_append_right _ hentry, rfl⟩
  | cleanupFinished =>
    refine h.of_trees (h.ids.sublist (List.filter_sublist.map _)) rfl fun v hv => ?_
    obtain hheld | hentry := List.mem_append.mp hv
    · exact ⟨v, List.mem_append_left _ hheld, rfl⟩
    · exact ⟨v, List.mem_append_right _ (WorkspaceRegistry.mem_cleanup.mp hentry).1, rfl⟩

/-! ## Live workspaces, and workspaces beside the registry -/

/-- A workspace that is still active: the registry has it so, or no copy of it is finished. -/
def Live (s : WorkspacePool) (w : SessionWorkspace) : Prop :=
  w.status = .active ∧
    (w ∈ s.registry.workspaces ∨ ∀ v ∈ s.all, v.id = w.id → v.status = .active)

instance (s : WorkspacePool) (w : SessionWorkspace) : Decidable (s.Live w) :=
  inferInstanceAs (Decidable (_ ∧ (_ ∨ _)))

/-- A client gets a workspace that was opened beside the registry. -/
def hold (s : WorkspacePool) (w : SessionWorkspace) : WorkspacePool :=
  { s with held := s.held ++ [w], allocated := s.allocated ++ [w.id] }

theorem Tracked.hold {s : WorkspacePool} (h : s.Tracked) {id : WorkspaceId}
    (hfresh : id ∉ s.allocated) {repo : CanonicalRepository} {sessionId : AgentSessionId}
    {environmentName : String} {w : SessionWorkspace}
    (hopen : SessionWorkspace.open id repo sessionId environmentName = .ok w) :
    (s.hold w).Tracked := by
  obtain ⟨hid, hpaths⟩ : w.id = id ∧ w.worktreePath = s!"worktrees/{w.sessionId}" ∧
      w.branch = s!"session/{w.sessionId}" := by
    unfold SessionWorkspace.open at hopen
    split at hopen
    · cases hopen
    · cases hopen
      exact ⟨rfl, rfl, rfl⟩
  have hmem : ∀ v ∈ (s.hold w).all, v ∈ s.all ∨ v = w := by
    intro v hv
    simp only [WorkspacePool.hold, all, List.mem_append, List.mem_singleton] at hv ⊢
    obtain (hv | hv) | hv := hv
    · exact .inl (.inl hv)
    · exact .inr hv
    · exact .inl (.inr hv)
  have hnew : ∀ v ∈ s.all, v.id ≠ w.id := fun v hv heq =>
    hfresh (hid ▸ heq ▸ h.drawn v hv)
  refine ⟨h.ids, fun v hv => ?_, fun v hv => ?_, fun v hv u hu heq => ?_⟩
  · obtain hv | rfl := hmem v hv
    · exact List.mem_append_left _ (h.drawn v hv)
    · exact List.mem_append_right _ List.mem_cons_self
  · obtain hv | rfl := hmem v hv
    · exact h.planned v hv
    · exact hpaths
  · obtain hold | hlast := hmem v hv <;> obtain hold' | hlast' := hmem u hu
    · exact h.agree v hold u hold' heq
    · exact absurd (hlast' ▸ heq) (hnew v hold)
    · exact absurd (hlast ▸ heq).symm (hnew u hold')
    · rw [hlast, hlast']

end WorkspacePool
end Labrys.Core
