import Labrys.ControlPlane.Store
import Labrys.Core.Preview

/-! # Ending a preview

`expire_preview` and `revoke_preview` stop a preview's container, change the preview, and persist what
it is then. Expiring writes the status; revoking records a failed build and drops the answer, so what
it comes to is decided by the preview's own rules.

* `revoked_iff`: a persisted preview is revoked exactly if it is not available.
* `revoke_preview_exact`: when `revoke_preview` leaves a revoked preview. -/

namespace Labrys.ControlPlane
open Foundations Labrys.Core
set_option autoImplicit false

/-! ## The store -/

structure ExecutionIdentity where
  applicationId : String
  environmentId : Option String
  workspaceId : Option String
  sessionId : Option String
  traceId : String
deriving DecidableEq

def ExecutionIdentity.correlation (identity : ExecutionIdentity) : Correlation where
  traceId := identity.traceId
  sessionId := identity.sessionId.bind (TaggedId.parse "agt")
  applicationId := TaggedId.parse "app" identity.applicationId
  environmentId := identity.environmentId.bind (TaggedId.parse "env")

/-- What the preview store reads of a session workspace. -/
structure SessionWorkspace where
  id : WorkspaceId
  sessionId : AgentSessionId
deriving DecidableEq

/-- A row of `previews`. -/
structure PreviewRow where
  id : PreviewId
  workspaceId : WorkspaceId
  sessionId : AgentSessionId
  applicationId : String
  environmentId : Option String
  status : String
  url : Option String
  containerId : Option String
  containerName : Option String
  expiresAt : Option DateTime
  updatedAt : DateTime
deriving DecidableEq

/-- The tables that previews are written to, and the containers that the executor was asked to
clean up. -/
structure PreviewDb where
  db : Db
  previews : Table fun row : PreviewRow => row.id
  cleaned : List String

abbrev PreviewAction := Program PreviewDb (Fault ControlPlaneError)

def previewStatusName : PreviewStatus → String
  | .pending => "pending"
  | .building => "building"
  | .available => "available"
  | .unavailable _ => "unavailable"
  | .expired => "expired"

structure PreviewManager where
  secrets : List String
  quoted : String → String

/-- What a call is about, and the time it draws. -/
structure PreviewCall where
  workspace : SessionWorkspace
  containerId : Option String
  containerName : Option String
  identity : ExecutionIdentity
  now : DateTime
deriving DecidableEq

/-- The row that is written for a preview without a container. -/
def PreviewCall.row (call : PreviewCall) (preview : WebPreview) : PreviewRow where
  id := preview.id
  workspaceId := call.workspace.id
  sessionId := call.workspace.sessionId
  applicationId := call.identity.applicationId
  environmentId := call.identity.environmentId
  status := previewStatusName preview.status
  url := preview.temporaryUrl
  containerId := none
  containerName := call.containerName
  expiresAt := preview.expiresAt
  updatedAt := call.now

/-- `INSERT INTO previews .. ON CONFLICT (id) DO UPDATE`, which keeps what a preview belongs to. -/
def PgPreviewStore.write (row : PreviewRow) (t : Table fun row : PreviewRow => row.id) :
    Table fun row : PreviewRow => row.id :=
  t.upsert row (fun old => { old with
    status := row.status, url := row.url, containerId := row.containerId
    containerName := row.containerName, expiresAt := row.expiresAt, updatedAt := row.updatedAt })
    fun _ => rfl

namespace PreviewManager
variable (manager : PreviewManager)

/-- `PgPreviewStore::upsert`: the URL is checked, and stored as it is. -/
def persistPreviewState (call : PreviewCall) (preview : WebPreview) : PreviewAction Unit := fun s =>
  let checked : Except ControlPlaneError String := match preview.temporaryUrl with
    | some url => redactGuard "preview.url" url manager.secrets
    | none => .ok ""
  match checked with
  | .error error => (s, .error (.err error))
  | .ok _ => ({ s with previews := PgPreviewStore.write (call.row preview) s.previews }, .ok ())

def recordEvent (call : PreviewCall) (preview : WebPreview) (detail : String) :
    PreviewAction Unit := fun s =>
  let draft := { EventDraft.new call.now (.platform "preview-runtime")
      call.identity.correlation .reconciled .succeeded with
    resource := some ⟨"preview", toString preview.id⟩
    after := some detail }
  ({ s with db := (PgEventStore.append draft manager.secrets s.db).1 },
    (PgEventStore.append draft manager.secrets s.db).2)

/-- The end of both calls: the preview is persisted, and the event recorded. -/
def conclude (call : PreviewCall) (preview : WebPreview) (detail : String) : PreviewAction Unit := do
  manager.persistPreviewState call preview
  manager.recordEvent call preview detail

/-- The executor's own answer is dropped. -/
def cleanup (call : PreviewCall) (s : PreviewDb) : PreviewDb :=
  { s with cleaned := s.cleaned ++ call.containerId.toList }

def expirePreview (call : PreviewCall) (preview : WebPreview) (s : PreviewDb) :
    WebPreview × PreviewDb × Outcome ControlPlaneError Unit :=
  let expired := preview.expire
  (expired, manager.conclude call expired s!"preview {preview.id} expired; access revoked"
    (cleanup call s))

/-- `revoke_preview`: what `record_build` answers is dropped. -/
def revokePreview (call : PreviewCall) (reason : String) (preview : WebPreview) (s : PreviewDb) :
    WebPreview × PreviewDb × Outcome ControlPlaneError Unit :=
  let failed := BuildResult.failed s!"preview revoked: {reason}"
  let revoked := (preview.recordBuild manager.quoted failed).1
  (revoked, manager.conclude call revoked s!"preview {preview.id} revoked: {reason}"
    (cleanup call s))

end PreviewManager

/-! ## What is persisted -/

/-- The preview has no URL, serves at no time, and its row has no URL. -/
def Revoked (preview : WebPreview) (s : PreviewDb) : Prop :=
  preview.temporaryUrl = none ∧ (∀ now, preview.isLive now = false) ∧
    ∃ row, s.previews.get preview.id = some row ∧ row.url = none

theorem get_write (row : PreviewRow) (t : Table fun row : PreviewRow => row.id) :
    ∃ stored, (PgPreviewStore.write row t).get row.id = some stored ∧ stored.url = row.url := by
  unfold PgPreviewStore.write
  rw [t.get_upsert_self row]
  cases t.get row.id with
  | none => exact ⟨row, rfl, rfl⟩
  | some old => exact ⟨_, rfl, rfl⟩

section Persisting
variable {manager : PreviewManager} {call : PreviewCall} {preview : WebPreview} {s s' : PreviewDb}

theorem persistPreviewState_ok
    (h : manager.persistPreviewState call preview s = (s', .ok ())) :
    ∃ row, s'.previews.get preview.id = some row ∧ row.url = preview.temporaryUrl := by
  unfold PreviewManager.persistPreviewState at h
  dsimp only at h
  split at h
  · cases congrArg Prod.snd h
  · obtain rfl := congrArg Prod.fst h
    exact get_write (call.row preview) s.previews

/-- What is persisted is what the preview is. -/
theorem persisted {detail : String} (h : (manager.conclude call preview detail s).2 = .ok ()) :
    ∃ row, (manager.conclude call preview detail s).1.previews.get preview.id = some row ∧
      row.url = preview.temporaryUrl := by
  have hrun : manager.conclude call preview detail s =
      ((manager.conclude call preview detail s).1, .ok ()) := Program.run_of_snd h
  obtain ⟨s₁, value, hpersist, hevent⟩ := Program.bind_eq_ok hrun
  have hkept : (manager.conclude call preview detail s).1.previews = s₁.previews :=
    (congrArg (fun result => result.1.previews) hevent).symm
  rw [hkept]
  exact persistPreviewState_ok hpersist

/-- An available preview is live at some time. -/
theorem live_of_available (h : preview.status = .available) : ∃ now, preview.isLive now = true := by
  unfold WebPreview.isLive
  cases preview.expiresAt with
  | none => exact ⟨0, by simp [h]⟩
  | some expiry => exact ⟨expiry - 1, by simp [h]⟩

/-- **A persisted preview is revoked** exactly if it is not available. -/
theorem revoked_iff
    (h : ∃ row, s.previews.get preview.id = some row ∧ row.url = preview.temporaryUrl) :
    Revoked preview s ↔ preview.status ≠ .available := by
  constructor
  · rintro ⟨-, hdead, -⟩ havailable
    obtain ⟨now, hlive⟩ := live_of_available havailable
    rw [hdead now] at hlive
    cases hlive
  · intro hstatus
    have hnone : preview.temporaryUrl = none := if_neg hstatus
    obtain ⟨row, hget, hurl⟩ := h
    exact ⟨hnone, fun now => by simp [WebPreview.isLive, hstatus], row, hget, hurl.trans hnone⟩

end Persisting

/-! ## Expiring and revoking -/

theorem expire_preview_revokes (manager : PreviewManager) (call : PreviewCall)
    (preview : WebPreview) (s : PreviewDb)
    (h : (manager.expirePreview call preview s).2.2 = .ok ()) :
    Revoked (manager.expirePreview call preview s).1 (manager.expirePreview call preview s).2.1 := by
  exact (revoked_iff (persisted h)).mpr (by nofun)

theorem status_recordBuild_failed (quoted : String → String) (preview : WebPreview)
    (detail : String) :
    (preview.recordBuild quoted (.failed detail)).1.status = .available ↔
      preview.status = .available := by
  unfold WebPreview.recordBuild
  split_ifs with hrefused hsuccess
  · exact Iff.rfl
  · cases hsuccess
  · exact ⟨by nofun, fun h => absurd (.inl h) hrefused⟩

/-- **Revoking a preview revokes its URL** exactly if the preview is not available: for every
preview, every reason and every call that returns `Ok`. -/
theorem revoke_preview_exact (manager : PreviewManager) (call : PreviewCall) (reason : String)
    (preview : WebPreview) (s : PreviewDb)
    (h : (manager.revokePreview call reason preview s).2.2 = .ok ()) :
    Revoked (manager.revokePreview call reason preview s).1
        (manager.revokePreview call reason preview s).2.1 ↔
      preview.status ≠ .available := by
  exact (revoked_iff (persisted h)).trans
    (not_congr (status_recordBuild_failed manager.quoted preview _))

/-- A preview, reached by the given calls, of one workspace. -/
def smallPreview (ops : List PreviewOp) : WebPreview :=
  (previewMachine fun text => text).run (.new ⟨1⟩ ⟨2⟩ ⟨3⟩ .shareableLink none) ops

def smallManager : PreviewManager := ⟨[], fun text => text⟩

def smallCall : PreviewCall where
  workspace := ⟨⟨2⟩, ⟨3⟩⟩
  containerId := some "c1"
  containerName := some "preview-1"
  identity := ⟨"app_00000000000000000000000000000001", none, none, none, "trace-1"⟩
  now := 1

def emptyPreviewDb : PreviewDb := ⟨⟨.empty, .empty, [], .empty, [], []⟩, .empty, []⟩

/-- A preview that is building is revoked. -/
theorem revoke_preview_exact_building :
    let preview := smallPreview [.notifyBuildStarted]
    let after := smallManager.revokePreview smallCall "done" preview emptyPreviewDb
    preview.status = .building ∧ after.2.2 = .ok () ∧ Revoked after.1 after.2.1 := by
  have hok : (smallManager.revokePreview smallCall "done" (smallPreview [.notifyBuildStarted])
      emptyPreviewDb).2.2 = .ok () := rfl
  exact ⟨by decide +kernel, hok,
    (revoke_preview_exact smallManager smallCall "done" _ emptyPreviewDb hok).mpr
      (by decide +kernel)⟩

/-- An available preview is revoked: it keeps its URL, is live, and its row has the URL. -/
theorem available_preview_not_revoked :
    let preview := smallPreview [.recordHealth .healthy]
    let after := smallManager.revokePreview smallCall "leaked" preview emptyPreviewDb
    after.2.2 = .ok () ∧ after.1.isLive 1 = true ∧
    after.1.temporaryUrl = some
      "https://prv_00000000000000000000000000000001.preview.labrys.local" ∧
    (after.2.1.previews.get ⟨1⟩).map (fun row => (row.status, row.url)) = some ("available",
      some "https://prv_00000000000000000000000000000001.preview.labrys.local") ∧
    ¬ Revoked after.1 after.2.1 := by
  refine ⟨rfl, by decide +kernel, by decide +kernel, by decide +kernel, fun h => ?_⟩
  exact absurd h.1 (by decide +kernel)

end Labrys.ControlPlane
