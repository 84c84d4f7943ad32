import Labrys.Core.Workspace

/-! # Merging a workspace from stale clones

`merge` and `discard` look at the clone they are called on and at nothing else, and `sync` writes a
clone over the registry's entry whatever that has become. A run keeps its merges in order exactly if
no step is taken on a clone that another one has overtaken (`UpToDate`).

* `MergeInvariant`: accepted merges and discards are what the clones say, and an entry whose merge
  was written back stays merged.
* `merged_once_iff`: the exact condition on runs. -/

namespace Labrys.Core
open Foundations
set_option autoImplicit false

namespace WorkspacePool

/-- A workspace was merged at most once and not discarded too, and is not active once its merge was
written back. -/
structure MergedOnce (s : WorkspacePool) : Prop where
  once : s.merged.Nodup
  apart : ∀ id ∈ s.merged, id ∉ s.discarded
  settled : ∀ w ∈ s.registry.workspaces, w.id ∈ s.settled → w.status ≠ .active

/-- The clone that a merge, a discard or a `sync` would get through with has not been overtaken: no
clone of the workspace has left `Active` before a merge or is merged before a discard, and the
registry's entry is not merged when an active clone is written back. -/
def UpToDate (s : WorkspacePool) : PoolOp → Prop
  | .merge k approval => ∀ w, s.held[k]? = some w → w.Mergeable approval →
      ∀ c ∈ s.held, c.id = w.id → c.status = .active
  | .discard k => ∀ w, s.held[k]? = some w → w.status = .active →
      ∀ c ∈ s.held, c.id = w.id → c.status ≠ .merged
  | .sync k => ∀ w, s.held[k]? = some w → w.status = .active →
      ∀ entry, s.registry.get w.id = some entry → entry.status ≠ .merged
  | _ => True

structure MergeInvariant (s : WorkspacePool) : Prop where
  tracked : s.Tracked
  once : s.merged.Nodup
  apart : ∀ id ∈ s.merged, id ∉ s.discarded
  mergedHeld : ∀ id, id ∈ s.merged ↔ s.Holds id .merged
  discardedHeld : ∀ id, id ∈ s.discarded ↔ s.Holds id .discarded
  entryMerged : ∀ w ∈ s.registry.workspaces, w.status = .merged → w.id ∈ s.settled
  entryDiscarded : ∀ w ∈ s.registry.workspaces, w.status = .discarded → w.id ∈ s.discarded
  settledMerged : ∀ id ∈ s.settled, id ∈ s.merged
  settledEntry : ∀ w ∈ s.registry.workspaces, w.id ∈ s.settled → w.status = .merged

theorem MergeInvariant.mergedOnce {s : WorkspacePool} (h : s.MergeInvariant) : s.MergedOnce :=
  ⟨h.once, h.apart, fun w hw hid => by rw [h.settledEntry w hw hid]; decide⟩

theorem mergeInvariant_new : new.MergeInvariant where
  tracked := tracked_new
  once := List.nodup_nil
  apart := nofun
  mergedHeld := fun _ => ⟨nofun, fun ⟨_, hc, _⟩ => absurd hc List.not_mem_nil⟩
  discardedHeld := fun _ => ⟨nofun, fun ⟨_, hc, _⟩ => absurd hc List.not_mem_nil⟩
  entryMerged := nofun
  entryDiscarded := nofun
  settledMerged := nofun
  settledEntry := nofun

theorem holds_of_mem {s : WorkspacePool} {c : SessionWorkspace} (h : c ∈ s.held) :
    s.Holds c.id c.status := ⟨c, h, rfl, rfl⟩

/-- A clone is changed, and the accepted merges and discards are changed with it. -/
theorem MergeInvariant.set {s : WorkspacePool} (h : s.MergeInvariant) {k : ℕ}
    {w w' : SessionWorkspace} (hget : s.held[k]? = some w) (htree : w'.tree = w.tree)
    {merged discarded : List WorkspaceId} (honce : merged.Nodup)
    (hapart : ∀ id ∈ merged, id ∉ discarded)
    (hmerged : ∀ id, id ∈ merged ↔ (w'.id = id ∧ w'.status = .merged) ∨ id ∈ s.merged)
    (hdiscarded : ∀ id, id ∈ discarded ↔ (w'.id = id ∧ w'.status = .discarded) ∨ id ∈ s.discarded)
    (hstays : w.status ≠ .active → w'.status = w.status) :
    MergeInvariant { s with held := s.held.set k w', merged, discarded } := by
  have hid : w'.id = w.id := (Prod.mk.inj htree).1
  have hholds : ∀ id status, status ≠ .active →
      ((∃ c ∈ s.held.set k w', c.id = id ∧ c.status = status) ↔
        (w'.id = id ∧ w'.status = status) ∨ s.Holds id status) := by
    intro id status hstatus
    refine exists_mem_set hget fun hw => ⟨hid.trans hw.1, ?_⟩
    rw [hstays (hw.2 ▸ hstatus), hw.2]
  refine ⟨h.tracked.set hget htree merged discarded, honce, hapart, fun id => ?_, fun id => ?_,
    h.entryMerged, fun v hv hstatus => ?_, fun id hsettled => ?_, h.settledEntry⟩
  · rw [hmerged, h.mergedHeld]
    exact (hholds id .merged (by decide)).symm
  · rw [hdiscarded, h.discardedHeld]
    exact (hholds id .discarded (by decide)).symm
  · exact (hdiscarded _).mpr (.inr (h.entryDiscarded v hv hstatus))
  · exact (hmerged _).mpr (.inr (h.settledMerged id hsettled))

/-- A call that is refused, or changes no status, leaves everything in order. -/
theorem MergeInvariant.setSame {s : WorkspacePool} (h : s.MergeInvariant) {k : ℕ}
    {w w' : SessionWorkspace} (hget : s.held[k]? = some w) (htree : w'.tree = w.tree)
    (hstatus : w'.status = w.status) :
    MergeInvariant { s with held := s.held.set k w' } := by
  have hid : w'.id = w.id := (Prod.mk.inj htree).1
  have hheld : w ∈ s.held := List.mem_of_getElem? hget
  refine h.set hget htree h.once h.apart (fun id => ⟨.inr, ?_⟩) (fun id => ⟨.inr, ?_⟩)
    fun _ => hstatus
  · rintro (⟨rfl, hmerged⟩ | hmem)
    · rw [hid, h.mergedHeld, ← hmerged, hstatus]
      exact holds_of_mem hheld
    · exact hmem
  · rintro (⟨rfl, hdiscarded⟩ | hmem)
    · rw [hid, h.discardedHeld, ← hdiscarded, hstatus]
      exact holds_of_mem hheld
    · exact hmem

theorem MergeInvariant.merge {s : WorkspacePool} (h : s.MergeInvariant) {k : ℕ}
    {approval : ExplicitApproval} (hsound : s.UpToDate (.merge k approval)) :
    (s.merge k approval).1.MergeInvariant := by
  unfold WorkspacePool.merge
  cases hget : s.held[k]? with
  | none => exact h
  | some w =>
    dsimp only
    obtain ⟨hmergeable, request, hrun⟩ | ⟨-, e, hrun⟩ := SessionWorkspace.merge_cases approval w
    · rw [hrun]
      have hactive := hsound w hget hmergeable
      have hnot : ∀ status, s.Holds w.id status → status = .active := by
        rintro status ⟨c, hc, hid, rfl⟩
        exact hactive c hc hid
      have hmerged : w.id ∉ s.merged := fun hmem =>
        absurd (hnot .merged ((h.mergedHeld _).mp hmem)) (by decide)
      have hdiscarded : w.id ∉ s.discarded := fun hmem =>
        absurd (hnot .discarded ((h.discardedHeld _).mp hmem)) (by decide)
      refine h.set hget (by rfl) (List.concat_eq_append ▸ h.once.concat hmerged) ?_ (fun id => ?_)
        (fun id => ?_) fun hother => absurd hmergeable.active hother
      · refine List.forall_mem_append.mpr ⟨h.apart, fun id hid => ?_⟩
        rwa [List.mem_singleton.mp hid]
      · simp [or_comm, eq_comm]
      · simp
    · rw [hrun]
      exact h.setSame hget (by rfl) rfl

theorem MergeInvariant.discard {s : WorkspacePool} (h : s.MergeInvariant) {k : ℕ}
    (hsound : s.UpToDate (.discard k)) : (s.discard k).1.MergeInvariant := by
  unfold WorkspacePool.discard
  cases hget : s.held[k]? with
  | none => exact h
  | some w =>
    dsimp only
    obtain ⟨hactive, hrun⟩ | ⟨-, e, hrun⟩ := SessionWorkspace.discard_cases w
    · rw [hrun]
      have hmerged : w.id ∉ s.merged := by
        intro hmem
        obtain ⟨c, hc, hid, hstatus⟩ := (h.mergedHeld _).mp hmem
        exact hsound w hget hactive c hc hid hstatus
      refine h.set hget (by rfl) h.once ?_ (fun id => ?_) (fun id => ?_)
        fun hother => absurd hactive hother
      · intro id hid hmem
        obtain hmem | hmem := List.mem_append.mp hmem
        · exact h.apart id hid hmem
        · exact hmerged (List.mem_singleton.mp hmem ▸ hid)
      · simp
      · simp [or_comm, eq_comm]
    · rw [hrun]
      exact h.setSame hget (by rfl) rfl

theorem MergeInvariant.allocate {s : WorkspacePool} (h : s.MergeInvariant) {id : WorkspaceId}
    (hfresh : id ∉ s.allocated) (repo : CanonicalRepository) (sessionId : AgentSessionId)
    (environmentName : String) :
    (s.allocate id repo sessionId environmentName).1.MergeInvariant := by
  have htracked := h.tracked.allocate hfresh repo sessionId environmentName
  unfold WorkspacePool.allocate at htracked ⊢
  obtain ⟨w, -, -, hactive, htree, hrun⟩ | ⟨-, e, hrun⟩ :=
    s.registry.allocate_cases id repo sessionId environmentName
  · rw [hrun] at htracked ⊢
    have hid : w.id = id := (Prod.mk.inj htree).1
    have hholds : ∀ other status, status ≠ .active →
        ((∃ c ∈ s.held ++ [w], c.id = other ∧ c.status = status) ↔ s.Holds other status) := by
      intro other status hstatus
      constructor
      · rintro ⟨c, hc, hother, rfl⟩
        obtain hc | hc := List.mem_append.mp hc
        · exact ⟨c, hc, hother, rfl⟩
        · exact absurd (List.mem_singleton.mp hc ▸ hactive) hstatus
      · rintro ⟨c, hc, hother⟩
        exact ⟨c, List.mem_append_left _ hc, hother⟩
    have hnew : w.id ∉ s.settled := by
      intro hsettled
      obtain ⟨c, hc, hother, -⟩ := (h.mergedHeld _).mp (h.settledMerged _ hsettled)
      exact hfresh (hid ▸ hother ▸ h.tracked.drawn c (List.mem_append_left _ hc))
    refine ⟨htracked, h.once, h.apart, fun other => ?_, fun other => ?_, ?_, ?_, h.settledMerged, ?_⟩
    · exact (h.mergedHeld other).trans (hholds other .merged (by decide)).symm
    · exact (h.discardedHeld other).trans (hholds other .discarded (by decide)).symm
    · refine List.forall_mem_append.mpr ⟨h.entryMerged, fun v hv hstatus => ?_⟩
      rw [List.mem_singleton.mp hv, hactive] at hstatus
      cases hstatus
    · refine List.forall_mem_append.mpr ⟨h.entryDiscarded, fun v hv hstatus => ?_⟩
      rw [List.mem_singleton.mp hv, hactive] at hstatus
      cases hstatus
    · refine List.forall_mem_append.mpr ⟨h.settledEntry, fun v hv hsettled => ?_⟩
      exact absurd (List.mem_singleton.mp hv ▸ hsettled) hnew
  · rw [hrun]
    exact h

/-- One more clone, of a clone or of an entry. -/
theorem MergeInvariant.give {s : WorkspacePool} (h : s.MergeInvariant)
    {found : Option SessionWorkspace} (hfound : ∀ w, found = some w → w ∈ s.all) :
    (s.give found).1.MergeInvariant := by
  have hmerged : ∀ w ∈ s.all, w.status = .merged → w.id ∈ s.merged := by
    intro w hw hstatus
    obtain hheld | hentry := List.mem_append.mp hw
    · exact (h.mergedHeld _).mpr ⟨w, hheld, rfl, hstatus⟩
    · exact h.settledMerged _ (h.entryMerged w hentry hstatus)
  have hdiscarded : ∀ w ∈ s.all, w.status = .discarded → w.id ∈ s.discarded := by
    intro w hw hstatus
    obtain hheld | hentry := List.mem_append.mp hw
    · exact (h.discardedHeld _).mpr ⟨w, hheld, rfl, hstatus⟩
    · exact h.entryDiscarded w hentry hstatus
  have hall : ∀ w ∈ s.held ++ found.toList, w ∈ s.all := by
    refine List.forall_mem_append.mpr ⟨fun w hw => List.mem_append_left _ hw, fun w hw => ?_⟩
    exact hfound w (Option.mem_toList.mp hw)
  refine ⟨h.tracked.give hfound, h.once, h.apart, fun id => ⟨fun hmem => ?_, ?_⟩,
    fun id => ⟨fun hmem => ?_, ?_⟩, h.entryMerged, h.entryDiscarded, h.settledMerged,
    h.settledEntry⟩
  · obtain ⟨c, hc, hid⟩ := (h.mergedHeld id).mp hmem
    exact ⟨c, List.mem_append_left _ hc, hid⟩
  · rintro ⟨c, hc, rfl, hstatus⟩
    exact hmerged c (hall c hc) hstatus
  · obtain ⟨c, hc, hid⟩ := (h.discardedHeld id).mp hmem
    exact ⟨c, List.mem_append_left _ hc, hid⟩
  · rintro ⟨c, hc, rfl, hstatus⟩
    exact hdiscarded c (hall c hc) hstatus

theorem mem_sync_self {r : WorkspaceRegistry} {w : SessionWorkspace}
    (h : (r.get w.id).isSome) : w ∈ (r.sync w).workspaces := by
  have hfind := find?_replaceFirst (p := fun v : SessionWorkspace => decide (v.id = w.id)) (x := w)
    (decide_eq_true rfl) r.workspaces
  obtain ⟨entry, hentry⟩ := Option.isSome_iff_exists.mp h
  have hfound : r.workspaces.find? (fun v => decide (v.id = w.id)) = some entry := hentry
  rw [hfound] at hfind
  exact List.mem_of_find?_eq_some hfind

theorem sync_of_none {r : WorkspaceRegistry} {w : SessionWorkspace} (h : r.get w.id = none) :
    r.sync w = r := by
  unfold WorkspaceRegistry.sync
  rw [replaceFirst_eq_self fun v hv => by simpa using List.find?_eq_none.mp h v hv]

theorem MergeInvariant.sync {s : WorkspacePool} (h : s.MergeInvariant) {k : ℕ}
    (hsound : s.UpToDate (.sync k)) : (s.sync k).1.MergeInvariant := by
  have hnext : (workspacePool.next s (.sync k)).Tracked := h.tracked.next trivial
  have htracked : (s.sync k).1.Tracked := hnext
  unfold WorkspacePool.sync at htracked ⊢
  cases hget : s.held[k]? with
  | none => exact h
  | some w =>
    rw [hget] at htracked
    dsimp only at htracked ⊢
    have hheld : w ∈ s.held := List.mem_of_getElem? hget
    cases hentry : s.registry.get w.id with
    | none =>
      rw [sync_of_none hentry]
      simpa using h
    | some entry =>
      rw [hentry] at htracked
      have hself : w ∈ (s.registry.sync w).workspaces := mem_sync_self (by rw [hentry]; rfl)
      obtain ⟨hin, hid⟩ := WorkspaceRegistry.mem_of_get hentry
      have hsettled : ∀ id, id ∈ (if w.status = .merged ∧ (some entry).isSome then
          s.settled ++ [w.id] else s.settled) ↔
          id ∈ s.settled ∨ (id = w.id ∧ w.status = .merged) := by
        intro id
        by_cases hstatus : w.status = .merged <;> simp [hstatus]
      refine ⟨htracked, h.once, h.apart, h.mergedHeld, h.discardedHeld, fun v hv hstatus => ?_,
        fun v hv hstatus => ?_, fun id hmem => ?_, fun v hv hmem => ?_⟩
      · rw [hsettled]
        obtain rfl | hold := WorkspaceRegistry.mem_sync hv
        · exact .inr ⟨rfl, hstatus⟩
        · exact .inl (h.entryMerged v hold hstatus)
      · obtain rfl | hold := WorkspaceRegistry.mem_sync hv
        · exact (h.discardedHeld _).mpr (hstatus ▸ holds_of_mem hheld)
        · exact h.entryDiscarded v hold hstatus
      · obtain hmem | ⟨rfl, hstatus⟩ := (hsettled id).mp hmem
        · exact h.settledMerged id hmem
        · exact (h.mergedHeld _).mpr (hstatus ▸ holds_of_mem hheld)
      · by_cases hsame : v.id = w.id
        · obtain rfl := List.inj_on_of_nodup_map htracked.ids hv hself hsame
          obtain hmem | ⟨-, hstatus⟩ := (hsettled _).mp hmem
          · have hwas : entry.status = .merged := h.settledEntry entry hin (hid.symm ▸ hmem)
            cases hstatus : v.status with
            | active => exact absurd hwas (hsound v hget hstatus entry hentry)
            | merged => rfl
            | discarded =>
              have hdiscarded := (h.discardedHeld v.id).mpr (hstatus ▸ holds_of_mem hheld)
              exact absurd hdiscarded (h.apart _ (h.settledMerged _ hmem))
          · exact hstatus
        · obtain rfl | hold := WorkspaceRegistry.mem_sync hv
          · exact absurd rfl hsame
          · obtain hmem | ⟨hother, -⟩ := (hsettled _).mp hmem
            · exact h.settledEntry v hold hmem
            · exact absurd hother hsame

theorem MergeInvariant.next {s : WorkspacePool} (h : s.MergeInvariant) {op : PoolOp}
    (hfresh : FreshDraw s op) (hsound : s.UpToDate op) :
    (workspacePool.next s op).MergeInvariant := by
  unfold Machine.next workspacePool
  cases op with
  | allocate id repo sessionId environmentName => exact h.allocate hfresh repo sessionId _
  | take id =>
    exact h.give fun w hw => List.mem_append_right _ (WorkspaceRegistry.mem_of_get hw).1
  | copy k => exact h.give fun w hw => List.mem_append_left _ (List.mem_of_getElem? hw)
  | recordDiff k diff =>
    dsimp only [WorkspacePool.recordDiff]
    cases hget : s.held[k]? with
    | none => exact h
    | some w =>
      obtain ⟨htree, hstatus⟩ := SessionWorkspace.recordDiff_kept diff w
      exact h.setSame hget htree hstatus
  | merge k approval => exact h.merge hsound
  | discard k => exact h.discard hsound
  | sync k => exact h.sync hsound
  | cleanupFinished =>
    have hin : ∀ w ∈ s.registry.cleanupFinished.1.workspaces, w ∈ s.registry.workspaces :=
      fun w hw => (WorkspaceRegistry.mem_cleanup.mp hw).1
    have htracked : (workspacePool.next s .cleanupFinished).Tracked := h.tracked.next trivial
    exact ⟨htracked, h.once, h.apart, h.mergedHeld,
      h.discardedHeld, fun w hw => h.entryMerged w (hin w hw),
      fun w hw => h.entryDiscarded w (hin w hw), h.settledMerged,
      fun w hw => h.settledEntry w (hin w hw)⟩

/-- A step that keeps merges in order was taken on a clone that was up to date. -/
theorem MergeInvariant.upToDate {s : WorkspacePool} (h : s.MergeInvariant) {op : PoolOp}
    (hkept : (workspacePool.next s op).MergedOnce) : s.UpToDate op := by
  unfold Machine.next workspacePool at hkept
  cases op with
  | merge k approval =>
    intro w hget hmergeable c hc hid
    dsimp only [WorkspacePool.merge] at hkept
    rw [hget] at hkept
    dsimp only at hkept
    obtain ⟨-, request, hrun⟩ | ⟨hnot, -⟩ := SessionWorkspace.merge_cases approval w
    · rw [hrun] at hkept
      cases hstatus : c.status with
      | active => rfl
      | merged =>
        have hmem : w.id ∈ s.merged := (h.mergedHeld _).mpr ⟨c, hc, hid, hstatus⟩
        have honce := hkept.once
        rw [List.nodup_append] at honce
        exact absurd rfl (honce.2.2 w.id hmem w.id List.mem_cons_self)
      | discarded =>
        have hmem : w.id ∈ s.discarded := (h.discardedHeld _).mpr ⟨c, hc, hid, hstatus⟩
        exact absurd hmem (hkept.apart w.id (List.mem_append_right _ List.mem_cons_self))
    · exact absurd hmergeable hnot
  | discard k =>
    intro w hget hactive c hc hid hstatus
    dsimp only [WorkspacePool.discard] at hkept
    rw [hget] at hkept
    dsimp only at hkept
    obtain ⟨-, hrun⟩ | ⟨hother, -⟩ := SessionWorkspace.discard_cases w
    · rw [hrun] at hkept
      have hmem : w.id ∈ s.merged := (h.mergedHeld _).mpr ⟨c, hc, hid, hstatus⟩
      exact hkept.apart w.id hmem (List.mem_append_right _ List.mem_cons_self)
    · exact hother hactive
  | sync k =>
    intro w hget hactive entry hentry hstatus
    obtain ⟨hin, hid⟩ := WorkspaceRegistry.mem_of_get hentry
    dsimp only [WorkspacePool.sync] at hkept
    rw [hget] at hkept
    dsimp only at hkept
    have hsettled : w.id ∈ s.settled := hid ▸ h.entryMerged entry hin hstatus
    refine hkept.settled w (mem_sync_self (by rw [hentry]; rfl)) ?_ hactive
    dsimp only
    split_ifs
    · exact List.mem_append_left _ hsettled
    · exact hsettled
  | allocate id repo sessionId environmentName => trivial
  | take id => trivial
  | copy k => trivial
  | recordDiff k diff => trivial
  | cleanupFinished => trivial

end WorkspacePool

/-- **A workspace merges at most once** in exactly the runs whose clients take every step on a clone
that is up to date; nothing in the code makes them. -/
theorem merged_once_iff (ops : List PoolOp) (hfresh : workspacePool.Guarded FreshDraw .new ops) :
    (∀ n, (workspacePool.run .new (ops.take n)).MergedOnce) ↔
      workspacePool.Guarded WorkspacePool.UpToDate .new ops :=
  workspacePool.forall_run_take_iff_guarded (fun _ h => h.mergedOnce)
    (fun _ _ h hfresh hsound => h.next hfresh hsound) (fun _ _ h _ hkept => h.upToDate hkept) .new
    ops WorkspacePool.mergeInvariant_new hfresh

/-- A workspace is allocated, changed, copied by a second client, and merged by both. -/
def mergedTwice : List PoolOp :=
  [.allocate ⟨1⟩ ⟨⟨1⟩, "a1"⟩ ⟨1⟩ "dev", .recordDiff 0 ⟨["main.rs"], 1, 0, "fix"⟩, .copy 0,
    .merge 0 (.granted "ada" "merge"), .merge 1 (.granted "ada" "merge")]

theorem merged_once_iff_twice :
    (∀ n, (workspacePool.run .new (mergedTwice.take n)).MergedOnce) ↔
      workspacePool.Guarded WorkspacePool.UpToDate .new mergedTwice :=
  merged_once_iff mergedTwice ⟨List.not_mem_nil, trivial, trivial, trivial, trivial, trivial⟩

/-- Both merges are accepted. -/
theorem stale_clone_merged_again :
    ¬ (workspacePool.run .new mergedTwice).MergedOnce := by
  intro h
  have hmerged : (workspacePool.run .new mergedTwice).merged = [⟨1⟩, ⟨1⟩] := by decide +kernel
  have honce := h.once
  rw [hmerged] at honce
  exact absurd honce (by decide)

end Labrys.Core
