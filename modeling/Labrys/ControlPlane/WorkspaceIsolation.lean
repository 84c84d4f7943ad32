import Labrys.Core.Workspace

/-! # Worktrees of their own

Paths and branches are made of the session alone, while the registry keeps apart sessions of one
application only; `cleanup_workspace` removes the directory of its workspace's session whatever the
workspace's status is. The host has the directories beside the clients and the registry. Workspaces
come from the registry or from `materialize_workspace`, which opens one that no registry has.

* `WorkspaceRoot.worktreeDir_eq`: the directory of a session, which never leaves the root.
* `isolated_iff`: along which runs worktrees stay apart and no live one is deleted. -/

namespace Labrys.ControlPlane
open Foundations Labrys.Core
set_option autoImplicit false

/-! ## Directories -/

/-- A path by its components. -/
abbrev PathBuf := List String

structure WorkspaceRoot where
  root : PathBuf

namespace WorkspaceRoot

def worktreeDir (root : WorkspaceRoot) (sessionId : AgentSessionId) :
    Except ControlPlaneError PathBuf :=
  let dir := root.root ++ ["worktrees", toString sessionId]
  if root.root.isPrefixOf dir then .ok dir
  else .error (.execution "workspace path escapes the approved root")

def dirOf (root : WorkspaceRoot) (sessionId : AgentSessionId) : PathBuf :=
  root.root ++ ["worktrees", toString sessionId]

theorem worktreeDir_eq (root : WorkspaceRoot) (sessionId : AgentSessionId) :
    root.worktreeDir sessionId = .ok (root.dirOf sessionId) :=
  if_pos (List.isPrefixOf_iff_prefix.mpr (List.prefix_append _ _))

theorem dirOf_injective (root : WorkspaceRoot) : Function.Injective root.dirOf := by
  intro a b h
  have hlast := List.append_cancel_left h
  simp only [List.cons.injEq, true_and, and_true] at hlast
  exact TaggedId.toString_injective hlast

end WorkspaceRoot

/-! ## The host -/

/-- The clients and the registry, the directories that exist, and the live workspaces whose
directory a cleanup removed. -/
structure WorkspaceHost where
  pool : WorkspacePool
  dirs : List PathBuf
  lost : List Core.SessionWorkspace

abbrev HostAction := Program WorkspaceHost ControlPlaneError

namespace WorkspaceHost

def start : WorkspaceHost := ⟨.new, [], []⟩

/-- The directory of a materialized workspace, with what the filesystem answers to its creation. -/
def createDir (sessionId : AgentSessionId) (dir : PathBuf) (created : Except String Unit) :
    HostAction Unit := fun s =>
  if dir ∈ s.dirs then
    let path := "/".intercalate dir
    (s, .error (.execution s!"session {sessionId} already owns a worktree at {path}"))
  else
    match created with
    | .error e => (s, .error (.io e))
    | .ok () => ({ s with dirs := s.dirs ++ [dir] }, .ok ())

/-- `materialize_workspace`, with the id it draws and what the filesystem and the log store answer.
When the log line is refused the directory stays and the workspace is dropped. -/
def materializeWorkspace (root : WorkspaceRoot) (id : WorkspaceId) (repo : CanonicalRepository)
    (sessionId : AgentSessionId) (environmentName : String) (created : Except String Unit)
    (logged : Except ControlPlaneError Unit) : HostAction Core.SessionWorkspace := do
  let workspace ← Program.ofExcept
    ((Core.SessionWorkspace.open id repo sessionId environmentName).mapError .core)
  let dir ← Program.ofExcept (root.worktreeDir sessionId)
  createDir sessionId dir created
  Program.ofExcept logged
  return workspace

/-- The caller of `materialize_workspace` holds what it returns. -/
def received (result : WorkspaceHost × Except ControlPlaneError Core.SessionWorkspace) :
    WorkspaceHost :=
  match result with
  | (s, .ok w) => { s with pool := s.pool.hold w }
  | (s, .error _) => s

/-- `cleanup_workspace`, with what the filesystem answers to the removal. -/
def cleanupWorkspace (root : WorkspaceRoot) (answer : Except String Unit)
    (workspace : Core.SessionWorkspace) : HostAction Unit := do
  let dir ← Program.ofExcept (root.worktreeDir workspace.sessionId)
  fun s =>
    if (root.root.isPrefixOf dir) = false then
      (s, .error (.execution "workspace cleanup escapes the approved root"))
    else if dir ∈ s.dirs then
      match answer with
      | .error e => (s, .error (.io e))
      | .ok () =>
          ({ s with
              dirs := s.dirs.filter fun d => d ≠ dir
              lost := s.lost ++ s.pool.all.filter fun v =>
                s.pool.Live v ∧ root.dirOf v.sessionId = dir }, .ok ())
    else (s, .ok ())

end WorkspaceHost

inductive HostOp
  | client (op : PoolOp)
  | materialize (id : WorkspaceId) (repo : CanonicalRepository) (sessionId : AgentSessionId)
      (environmentName : String) (created : Except String Unit)
      (logged : Except ControlPlaneError Unit)
  | cleanup (k : ℕ) (answer : Except String Unit)

inductive HostAnswer
  | client (answer : PoolAnswer)
  | materialized (result : Except ControlPlaneError Core.SessionWorkspace)
  | cleaned (result : Except ControlPlaneError Unit)
  | missing

def workspaceHost (root : WorkspaceRoot) : Machine WorkspaceHost HostOp HostAnswer where
  step := fun s op =>
    match op with
    | .client op =>
        ({ s with pool := workspacePool.next s.pool op }, .client (workspacePool.answer s.pool op))
    | .materialize id repo sessionId environmentName created logged =>
        let result := WorkspaceHost.materializeWorkspace root id repo sessionId environmentName
          created logged s
        (WorkspaceHost.received result, .materialized result.2)
    | .cleanup k answer =>
        match s.pool.held[k]? with
        | none => (s, .missing)
        | some w => answered .cleaned (WorkspaceHost.cleanupWorkspace root answer w s)

/-- The ids that a run's workspaces draw are new. -/
def HostFresh (s : WorkspaceHost) : HostOp → Prop
  | .client op => FreshDraw s.pool op
  | .materialize id .. => id ∉ s.pool.allocated
  | .cleanup .. => True

namespace WorkspaceHost

/-- Registered worktrees have their own paths and branches, and no live one was deleted. -/
structure Isolated (s : WorkspaceHost) : Prop where
  paths : (s.pool.registry.workspaces.map Core.SessionWorkspace.worktreePath).Nodup
  branches : (s.pool.registry.workspaces.map Core.SessionWorkspace.branch).Nodup
  live : s.lost = []

/-- An allocation that is accepted is for a session that no application has a workspace for, and a
cleanup that removes a directory is of a session without a live workspace. -/
def Apart (root : WorkspaceRoot) (s : WorkspaceHost) : HostOp → Prop
  | .client (.allocate _ repo sessionId environmentName) =>
      (∃ v ∈ s.pool.registry.workspaces,
        v.sessionId = sessionId ∧ v.applicationId = repo.applicationId) ∨
      isBlank environmentName.toList = true ∨
      ∀ v ∈ s.pool.registry.workspaces, v.sessionId ≠ sessionId
  | .cleanup k answer => ∀ w, s.pool.held[k]? = some w → answer = .ok () →
      root.dirOf w.sessionId ∈ s.dirs →
      ∀ v ∈ s.pool.all, s.pool.Live v → v.sessionId ≠ w.sessionId
  | _ => True

structure IsolationInvariant (s : WorkspaceHost) : Prop where
  tracked : s.pool.Tracked
  sessions : (s.pool.registry.workspaces.map Core.SessionWorkspace.sessionId).Nodup
  live : s.lost = []

theorem paths_eq {s : WorkspaceHost} (h : s.pool.Tracked) :
    s.pool.registry.workspaces.map Core.SessionWorkspace.worktreePath =
        (s.pool.registry.workspaces.map Core.SessionWorkspace.sessionId).map
          (fun sessionId => s!"worktrees/{sessionId}") ∧
      s.pool.registry.workspaces.map Core.SessionWorkspace.branch =
        (s.pool.registry.workspaces.map Core.SessionWorkspace.sessionId).map
          (fun sessionId => s!"session/{sessionId}") := by
  rw [List.map_map, List.map_map]
  exact ⟨List.map_congr_left fun w hw => (h.planned w (List.mem_append_right _ hw)).1,
    List.map_congr_left fun w hw => (h.planned w (List.mem_append_right _ hw)).2⟩

theorem append_toString_injective (text : String) :
    Function.Injective fun sessionId : AgentSessionId => text ++ toString sessionId := by
  intro a b h
  have hlist := congrArg String.toList h
  simp only [String.toList_append, List.append_cancel_left_eq] at hlist
  exact TaggedId.toString_injective (String.toList_inj.mp hlist)

theorem IsolationInvariant.isolated {s : WorkspaceHost} (h : s.IsolationInvariant) :
    s.Isolated := by
  obtain ⟨hpaths, hbranches⟩ := paths_eq h.tracked
  refine ⟨?_, ?_, h.live⟩
  · rw [hpaths]
    exact h.sessions.map (append_toString_injective "worktrees/")
  · rw [hbranches]
    exact h.sessions.map (append_toString_injective "session/")

theorem Isolated.sessions {s : WorkspaceHost} (h : s.Isolated) (htracked : s.pool.Tracked) :
    (s.pool.registry.workspaces.map Core.SessionWorkspace.sessionId).Nodup := by
  have hpaths := h.paths
  rw [(paths_eq htracked).1] at hpaths
  exact hpaths.of_map _

/-! ## One step -/

theorem worktreeDir_run (root : WorkspaceRoot) (sessionId : AgentSessionId) (s : WorkspaceHost) :
    Program.ofExcept (root.worktreeDir sessionId) s = (s, .ok (root.dirOf sessionId)) := by
  rw [root.worktreeDir_eq]
  rfl

/-- A cleanup does nothing, or removes the directory of its session. -/
theorem cleanup_cases (root : WorkspaceRoot) (answer : Except String Unit)
    (w : Core.SessionWorkspace) (s : WorkspaceHost) :
    ((answer = .ok () ∧ root.dirOf w.sessionId ∈ s.dirs) ∧
      (cleanupWorkspace root answer w s).1 =
        { s with
            dirs := s.dirs.filter fun d => d ≠ root.dirOf w.sessionId
            lost := s.lost ++ s.pool.all.filter fun v =>
              s.pool.Live v ∧ root.dirOf v.sessionId = root.dirOf w.sessionId }) ∨
    ¬ (answer = .ok () ∧ root.dirOf w.sessionId ∈ s.dirs) ∧
      (cleanupWorkspace root answer w s).1 = s := by
  have hinside : root.root.isPrefixOf (root.dirOf w.sessionId) = true :=
    List.isPrefixOf_iff_prefix.mpr (List.prefix_append _ _)
  have hrun : cleanupWorkspace root answer w s = _ :=
    Program.bind_of_ok (worktreeDir_run root w.sessionId s) _
  rw [hrun, hinside, if_neg (by decide)]
  by_cases hexists : root.dirOf w.sessionId ∈ s.dirs
  · rw [if_pos hexists]
    match answer with
    | .ok () => exact .inl ⟨⟨rfl, hexists⟩, rfl⟩
    | .error e => exact .inr ⟨nofun, rfl⟩
  · rw [if_neg hexists]
    exact .inr ⟨fun h => hexists h.2, rfl⟩

/-- The live workspaces whose directory a cleanup removes are those of its session. -/
theorem lost_eq_nil_iff (root : WorkspaceRoot) (w : Core.SessionWorkspace) (s : WorkspaceHost) :
    (s.pool.all.filter fun v =>
        s.pool.Live v ∧ root.dirOf v.sessionId = root.dirOf w.sessionId) = [] ↔
      ∀ v ∈ s.pool.all, s.pool.Live v → v.sessionId ≠ w.sessionId := by
  simp [List.filter_eq_nil_iff, root.dirOf_injective.eq_iff]

theorem createDir_pool (sessionId : AgentSessionId) (dir : PathBuf) (created : Except String Unit)
    (s : WorkspaceHost) :
    (createDir sessionId dir created s).1.pool = s.pool ∧
      (createDir sessionId dir created s).1.lost = s.lost := by
  unfold createDir
  split_ifs
  · exact ⟨rfl, rfl⟩
  · cases created <;> exact ⟨rfl, rfl⟩

/-- `materialize_workspace` fails or returns the workspace it opened, and touches neither the clients
nor the registry. -/
theorem materializeWorkspace_cases (root : WorkspaceRoot) (id : WorkspaceId)
    (repo : CanonicalRepository) (sessionId : AgentSessionId) (environmentName : String)
    (created : Except String Unit) (logged : Except ControlPlaneError Unit) (s : WorkspaceHost) :
    ∃ t, t.pool = s.pool ∧ t.lost = s.lost ∧
      ((∃ e, materializeWorkspace root id repo sessionId environmentName created logged s =
          (t, .error e)) ∨
        ∃ w, Core.SessionWorkspace.open id repo sessionId environmentName = .ok w ∧
          materializeWorkspace root id repo sessionId environmentName created logged s =
            (t, .ok w)) := by
  cases hopen : Core.SessionWorkspace.open id repo sessionId environmentName with
  | error e =>
    have hrefused : Program.ofExcept ((Core.SessionWorkspace.open id repo sessionId
        environmentName).mapError ControlPlaneError.core) s = (s, .error (.core e)) := by
      rw [hopen]
      rfl
    exact ⟨s, rfl, rfl, .inl ⟨_, Program.bind_of_error hrefused _⟩⟩
  | ok w =>
    have hopened : Program.ofExcept ((Core.SessionWorkspace.open id repo sessionId
        environmentName).mapError ControlPlaneError.core) s = (s, .ok w) := by
      rw [hopen]
      rfl
    have hrun : materializeWorkspace root id repo sessionId environmentName created logged s = _ :=
      (Program.bind_of_ok hopened _).trans
        (Program.bind_of_ok (worktreeDir_run root sessionId s) _)
    rw [hrun]
    obtain ⟨hpool, hlost⟩ := createDir_pool sessionId (root.dirOf sessionId) created s
    refine ⟨_, hpool, hlost, ?_⟩
    cases hmade : (createDir sessionId (root.dirOf sessionId) created s).2 with
    | error e => exact .inl ⟨e, Program.bind_of_snd_error hmade _⟩
    | ok u =>
      rw [Program.bind_of_snd_ok hmade]
      cases logged with
      | error e => exact .inl ⟨e, rfl⟩
      | ok u => exact .inr ⟨w, rfl, rfl⟩

/-- A client's step keeps the registered sessions, drops some, or adds the one it allocates. -/
theorem sessions_next {s : WorkspacePool} (h : s.Tracked) (op : PoolOp) :
    ((workspacePool.next s op).registry.workspaces.map Core.SessionWorkspace.sessionId).Sublist
        (s.registry.workspaces.map Core.SessionWorkspace.sessionId) ∨
    ∃ id repo sessionId environmentName, op = .allocate id repo sessionId environmentName ∧
      (∀ v ∈ s.registry.workspaces,
        ¬ (v.sessionId = sessionId ∧ v.applicationId = repo.applicationId)) ∧
      isBlank environmentName.toList = false ∧
      (workspacePool.next s op).registry.workspaces.map Core.SessionWorkspace.sessionId =
        s.registry.workspaces.map Core.SessionWorkspace.sessionId ++ [sessionId] := by
  unfold Machine.next workspacePool
  cases op with
  | allocate id repo sessionId environmentName =>
    dsimp only [WorkspacePool.allocate]
    obtain ⟨w, hfree, hnamed, -, htree, hrun⟩ | ⟨-, e, hrun⟩ :=
      s.registry.allocate_cases id repo sessionId environmentName
    · rw [hrun]
      simp only [Core.SessionWorkspace.tree, Prod.mk.injEq] at htree
      refine .inr ⟨id, repo, sessionId, environmentName, rfl, hfree, hnamed, ?_⟩
      rw [List.map_append, List.map_singleton, htree.2.1]
    · rw [hrun]
      exact .inl (List.Sublist.refl _)
  | take id => exact .inl (List.Sublist.refl _)
  | copy k => exact .inl (List.Sublist.refl _)
  | recordDiff k diff =>
    dsimp only [WorkspacePool.recordDiff]
    cases s.held[k]? <;> exact .inl (List.Sublist.refl _)
  | merge k approval =>
    dsimp only [WorkspacePool.merge]
    cases s.held[k]? with
    | none => exact .inl (List.Sublist.refl _)
    | some w =>
      obtain ⟨-, request, hrun⟩ | ⟨-, e, hrun⟩ := SessionWorkspace.merge_cases approval w <;>
        dsimp only <;> rw [hrun] <;> exact .inl (List.Sublist.refl _)
  | discard k =>
    dsimp only [WorkspacePool.discard]
    cases s.held[k]? with
    | none => exact .inl (List.Sublist.refl _)
    | some w =>
      obtain ⟨-, hrun⟩ | ⟨-, e, hrun⟩ := SessionWorkspace.discard_cases w <;>
        dsimp only <;> rw [hrun] <;> exact .inl (List.Sublist.refl _)
  | sync k =>
    dsimp only [WorkspacePool.sync]
    cases hget : s.held[k]? with
    | none => exact .inl (List.Sublist.refl _)
    | some w =>
      have hsame : (s.registry.sync w).workspaces.map Core.SessionWorkspace.sessionId =
          s.registry.workspaces.map Core.SessionWorkspace.sessionId := by
        refine map_replaceFirst fun v hv hid => ?_
        exact h.agree w (List.mem_append_left _ (List.mem_of_getElem? hget)) v
          (List.mem_append_right _ hv) (of_decide_eq_true hid).symm
      rw [hsame]
      exact .inl (List.Sublist.refl _)
  | cleanupFinished => exact .inl (List.filter_sublist.map _)

theorem IsolationInvariant.next {root : WorkspaceRoot} {s : WorkspaceHost}
    (h : s.IsolationInvariant) {op : HostOp} (hfresh : HostFresh s op) (hapart : Apart root s op) :
    ((workspaceHost root).next s op).IsolationInvariant := by
  unfold Machine.next workspaceHost
  cases op with
  | client op =>
    refine ⟨h.tracked.next hfresh, ?_, h.live⟩
    obtain hsub | ⟨id, repo, sessionId, environmentName, rfl, hfree, hnamed, hadded⟩ :=
      sessions_next h.tracked op
    · exact h.sessions.sublist hsub
    · dsimp only
      rw [hadded, ← List.concat_eq_append, List.nodup_concat]
      refine ⟨fun hmem => ?_, h.sessions⟩
      obtain ⟨v, hv, hsession⟩ := List.mem_map.mp hmem
      obtain ⟨u, hu, hboth⟩ | hblank | hother := hapart
      · exact hfree u hu hboth
      · rw [hnamed] at hblank
        cases hblank
      · exact hother v hv hsession
  | materialize id repo sessionId environmentName created logged =>
    obtain ⟨t, hpool, hlost, ⟨e, hrun⟩ | ⟨w, hopen, hrun⟩⟩ := materializeWorkspace_cases root id
      repo sessionId environmentName created logged s
    · dsimp only
      rw [hrun, received]
      exact ⟨hpool ▸ h.tracked, hpool ▸ h.sessions, hlost.trans h.live⟩
    · dsimp only
      rw [hrun, received, hpool]
      exact ⟨h.tracked.hold hfresh hopen, h.sessions, hlost.trans h.live⟩
  | cleanup k answer =>
    dsimp only
    cases hget : s.pool.held[k]? with
    | none => exact h
    | some w =>
      dsimp only [answered]
      obtain ⟨⟨hanswer, hexists⟩, hrun⟩ | ⟨-, hrun⟩ := cleanup_cases root answer w s
      · rw [hrun]
        refine ⟨h.tracked, h.sessions, ?_⟩
        rw [h.live, (lost_eq_nil_iff root w s).mpr (hapart w hget hanswer hexists)]
        rfl
      · rw [hrun]
        exact h

/-- A step that leaves worktrees isolated met the condition. -/
theorem IsolationInvariant.apart {root : WorkspaceRoot} {s : WorkspaceHost}
    (h : s.IsolationInvariant) {op : HostOp} (hfresh : HostFresh s op)
    (hkept : ((workspaceHost root).next s op).Isolated) : Apart root s op := by
  cases op with
  | client op =>
    have hsessions := hkept.sessions (h.tracked.next hfresh)
    cases op with
    | allocate id repo sessionId environmentName =>
      by_contra hnot
      simp only [Apart, not_or] at hnot
      obtain ⟨hfree, hblank, hother⟩ := hnot
      obtain ⟨w, -, -, -, htree, hrun⟩ | ⟨hrefused, -⟩ :=
        s.pool.registry.allocate_cases id repo sessionId environmentName
      · have hadded : ((workspaceHost root).next s
            (.client (.allocate id repo sessionId environmentName))).pool.registry.workspaces =
            s.pool.registry.workspaces ++ [w] := by
          simp only [Machine.next, workspaceHost, workspacePool, WorkspacePool.allocate]
          rw [hrun]
        simp only [Core.SessionWorkspace.tree, Prod.mk.injEq] at htree
        rw [hadded, List.map_append, List.map_singleton, ← List.concat_eq_append,
          List.nodup_concat, htree.2.1] at hsessions
        refine hother fun v hv hsession => hsessions.1 (List.mem_map.mpr ⟨v, hv, hsession⟩)
      · exact hrefused.elim hfree hblank
    | take id => trivial
    | copy k => trivial
    | recordDiff k diff => trivial
    | merge k approval => trivial
    | discard k => trivial
    | sync k => trivial
    | cleanupFinished => trivial
  | materialize id repo sessionId environmentName created logged => trivial
  | cleanup k answer =>
    intro w hget hanswer hexists
    have hlive := hkept.live
    unfold Machine.next workspaceHost at hlive
    dsimp only at hlive
    rw [hget] at hlive
    dsimp only [answered] at hlive
    obtain ⟨-, hrun⟩ | ⟨hnot, -⟩ := cleanup_cases root answer w s
    · rw [hrun] at hlive
      exact (lost_eq_nil_iff root w s).mp (List.append_eq_nil_iff.mp hlive).2
    · exact absurd ⟨hanswer, hexists⟩ hnot

end WorkspaceHost

/-- **Isolation.** Registered worktrees have their own paths and branches, and no cleanup deletes a
live one, in exactly the runs in which no session is allocated for a second application while its
workspace is registered, and nothing is cleaned up whose session has a live workspace. -/
theorem isolated_iff (root : WorkspaceRoot) (ops : List HostOp)
    (hfresh : (workspaceHost root).Guarded HostFresh .start ops) :
    (∀ n, ((workspaceHost root).run .start (ops.take n)).Isolated) ↔
      (workspaceHost root).Guarded (WorkspaceHost.Apart root) .start ops :=
  (workspaceHost root).forall_run_take_iff_guarded (I := WorkspaceHost.IsolationInvariant)
    (fun _ h => h.isolated) (fun _ _ h hfresh hapart => h.next hfresh hapart)
    (fun _ _ h hfresh hkept => h.apart hfresh hkept) .start ops
    ⟨WorkspacePool.tracked_new, List.nodup_nil, rfl⟩ hfresh

/-- One session is allocated for two applications. -/
def sharedSession : List HostOp :=
  [.client (.allocate ⟨1⟩ ⟨⟨1⟩, "a1"⟩ ⟨1⟩ "dev"), .client (.allocate ⟨2⟩ ⟨⟨2⟩, "b1"⟩ ⟨1⟩ "dev")]

theorem isolated_iff_shared :
    (∀ n, ((workspaceHost ⟨["srv"]⟩).run .start (sharedSession.take n)).Isolated) ↔
      (workspaceHost ⟨["srv"]⟩).Guarded (WorkspaceHost.Apart ⟨["srv"]⟩) .start sharedSession :=
  isolated_iff ⟨["srv"]⟩ sharedSession
    ⟨List.not_mem_nil, (by decide : (⟨2⟩ : WorkspaceId) ∉ [⟨1⟩]), trivial⟩

/-- A workspace is materialized and its directory is cleaned up before anybody finished it. -/
def liveCleanup : List HostOp :=
  [.materialize ⟨1⟩ ⟨⟨1⟩, "a1"⟩ ⟨1⟩ "dev" (.ok ()) (.ok ()), .cleanup 0 (.ok ())]

/-- Two registered workspaces share a path, and the cleanup of an active workspace deletes it. -/
theorem live_checkout_deleted :
    ¬ ((workspaceHost ⟨["srv"]⟩).run .start sharedSession).Isolated ∧
    ¬ ((workspaceHost ⟨["srv"]⟩).run .start liveCleanup).Isolated := by
  refine ⟨fun h => ?_, fun h => ?_⟩
  · have hpaths : ((workspaceHost ⟨["srv"]⟩).run .start sharedSession).pool.registry.workspaces.map
        Core.SessionWorkspace.worktreePath =
          [s!"worktrees/{(⟨1⟩ : AgentSessionId)}", s!"worktrees/{(⟨1⟩ : AgentSessionId)}"] := by
      rfl
    have hpath := h.paths
    rw [hpaths] at hpath
    exact (List.nodup_cons.mp hpath).1 List.mem_cons_self
  · have hlost : ((workspaceHost ⟨["srv"]⟩).run .start liveCleanup).lost.length = 1 := by
      decide +kernel
    rw [h.live] at hlost
    cases hlost

end Labrys.ControlPlane
