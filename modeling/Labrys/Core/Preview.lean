import Labrys.Core.Errors
import Labrys.Core.Ids
import Labrys.Core.Runtime
import Labrys.Core.Time
import Labrys.Foundations.Runs

/-! # Web previews

A preview is built, probed and, once a probe is healthy, given the URL of its reverse proxy. Its
status, its last health, its URL and its last build failure are written by different operations, and
the URL is handed out by the status alone.

* `history_eq`: the fields `health` and `build_error` are what was last recorded.
* `preview_gate_exact`: along which runs a URL is handed out only for a healthy, built preview. -/

namespace Labrys.Core
open Foundations
set_option autoImplicit false

abbrev WorkspaceId := TaggedId "ws"

inductive PreviewAccess
  | «private» | shareableLink
deriving DecidableEq

inductive PreviewStatus
  | pending | building | available
  | unavailable (reason : String)
  | expired
deriving DecidableEq

/-- The `Debug` form, given that of strings. -/
def PreviewStatus.debug (quoted : String → String) : PreviewStatus → String
  | pending => "Pending"
  | building => "Building"
  | available => "Available"
  | unavailable reason =>
      let text := quoted reason
      s!"Unavailable \x7b reason: {text} \x7d"
  | expired => "Expired"

/-- A build that is under way: a pending preview is building. -/
def PreviewStatus.started : PreviewStatus → PreviewStatus
  | pending => building
  | status => status

structure WebPreview where
  id : PreviewId
  workspaceId : WorkspaceId
  sessionId : AgentSessionId
  access : PreviewAccess
  status : PreviewStatus
  health : Option HealthStatus
  url : Option String
  buildError : Option String
  expiresAt : Option DateTime
deriving DecidableEq

namespace WebPreview

/-- `WebPreview::new`, with the id it draws. -/
def new (id : PreviewId) (workspaceId : WorkspaceId) (sessionId : AgentSessionId)
    (access : PreviewAccess) (expiresAt : Option DateTime) : WebPreview where
  id := id
  workspaceId := workspaceId
  sessionId := sessionId
  access := access
  status := .pending
  health := none
  url := none
  buildError := none
  expiresAt := expiresAt

variable (preview : WebPreview)

def temporaryUrl : Option String := if preview.status = .available then preview.url else none

def isLive (now : DateTime) : Bool :=
  preview.status = .available && (preview.expiresAt.all fun expiry => decide (now < expiry))

def notifyBuildStarted (quoted : String → String) : WebPreview × Except CoreError Unit :=
  if preview.status ≠ .pending then
    let status := preview.status.debug quoted
    (preview, .error (.previewUnavailable
      s!"preview {preview.id} cannot start a build while {status}"))
  else ({ preview with status := .building }, .ok ())

def statusLabel (result : BuildResult) : String :=
  if result.cancelled then "cancelled" else "failed"

/-- The reason of a build that did not succeed. -/
def buildReason (result : BuildResult) : String :=
  let label := statusLabel result
  let limit := match result.limitEnforced with
    | some limit => s!" (limit {limit})"
    | none => ""
  let recovery := match result.recovery with
    | some recovery => s!"; recovery: {recovery}"
    | none => ""
  s!"preview build {label}: {result.detail}" ++ limit ++ recovery

def recordBuild (quoted : String → String) (result : BuildResult) :
    WebPreview × Except CoreError Unit :=
  if preview.status = .available ∨ preview.status = .expired then
    let status := preview.status.debug quoted
    (preview, .error (.previewUnavailable
      s!"preview {preview.id} cannot record a build while {status}"))
  else if result.isSuccess then
    ({ preview with status := preview.status.started, buildError := none }, .ok ())
  else
    ({ preview with
        buildError := some (buildReason result)
        status := .unavailable (buildReason result) }, .ok ())

def mintedUrl : String := s!"https://{preview.id}.preview.labrys.local"

def recordHealth (health : HealthStatus) : WebPreview × Except CoreError Unit :=
  if preview.status = .expired then
    (preview, .error (.previewUnavailable s!"preview {preview.id} is expired"))
  else
    let observed := { preview with health := some health }
    match health with
    | .healthy =>
        ({ observed with url := some (preview.url.getD preview.mintedUrl), status := .available },
          .ok ())
    | .starting => ({ observed with status := preview.status.started }, .ok ())
    | .unhealthy reason | .unknown reason =>
        ({ observed with status := .unavailable s!"preview health failed: {reason}" }, .ok ())

def toEventDetail (quoted : String → String) : String :=
  match preview.status with
  | .available =>
      let url := preview.url.getD "<pending url>"
      s!"preview {preview.id} for workspace {preview.workspaceId} available at {url}"
  | .unavailable reason =>
      s!"preview {preview.id} for workspace {preview.workspaceId} unavailable: {reason}"
  | other =>
      let status := other.debug quoted
      s!"preview {preview.id} for workspace {preview.workspaceId} {status}"

def expire : WebPreview := { preview with status := .expired }

end WebPreview

/-! ## Runs -/

inductive PreviewOp
  | notifyBuildStarted
  | recordBuild (result : BuildResult)
  | recordHealth (health : HealthStatus)
  | expire
deriving DecidableEq

def previewMachine (quoted : String → String) :
    Machine WebPreview PreviewOp (Except CoreError Unit) where
  step := fun preview op => match op with
    | .notifyBuildStarted => preview.notifyBuildStarted quoted
    | .recordBuild result => preview.recordBuild quoted result
    | .recordHealth health => preview.recordHealth health
    | .expire => (preview.expire, .ok ())

/-- What a history of calls has recorded: its last observation, and whether a build has failed after
the last one that succeeded. A call that returns an error has recorded nothing. -/
structure PreviewHistory where
  observed : Option HealthStatus
  failed : Bool
deriving DecidableEq

namespace PreviewHistory

def empty : PreviewHistory := ⟨none, false⟩

def record (history : PreviewHistory) : PreviewOp → Except CoreError Unit → PreviewHistory
  | .recordBuild result, .ok () => { history with failed := !result.isSuccess }
  | .recordHealth health, .ok () => { history with observed := some health }
  | _, _ => history

end PreviewHistory

section Gate
variable {quoted : String → String}

/-- What the preview's own fields say of its history. -/
def WebPreview.history (preview : WebPreview) : PreviewHistory :=
  ⟨preview.health, preview.buildError.isSome⟩

theorem history_next (preview : WebPreview) (op : PreviewOp) :
    ((previewMachine quoted).next preview op).history =
      preview.history.record op ((previewMachine quoted).answer preview op) := by
  cases op with
  | notifyBuildStarted =>
    change (preview.notifyBuildStarted quoted).1.history = _
    unfold WebPreview.notifyBuildStarted
    split_ifs <;> rfl
  | recordBuild result =>
    change (preview.recordBuild quoted result).1.history =
      preview.history.record _ (preview.recordBuild quoted result).2
    unfold WebPreview.recordBuild
    split_ifs with hrefused hsuccess
    · rfl
    · simp [WebPreview.history, PreviewHistory.record, hsuccess]
    · simp [WebPreview.history, PreviewHistory.record, hsuccess]
  | recordHealth health =>
    change (preview.recordHealth health).1.history =
      preview.history.record _ (preview.recordHealth health).2
    unfold WebPreview.recordHealth
    split_ifs with hexpired
    · rfl
    · cases health <;> rfl
  | expire => rfl

/-- The fields of a preview are the record of its calls. -/
theorem history_eq (preview : WebPreview) (ops : List PreviewOp) :
    ((previewMachine quoted).run preview ops).history =
      (previewMachine quoted).fold PreviewHistory.record preview preview.history ops :=
  (previewMachine quoted).fold_invariant (R := fun preview history => preview.history = history)
    (fun preview op _ h _ => (history_next preview op).trans (h ▸ rfl)) preview _ ops rfl
    ((previewMachine quoted).guarded_true preview ops)

/-! ## One call -/

theorem expired_next {preview : WebPreview} (op : PreviewOp) (h : preview.status = .expired) :
    ((previewMachine quoted).next preview op).status = .expired := by
  cases op with
  | notifyBuildStarted =>
    change (preview.notifyBuildStarted quoted).1.status = _
    unfold WebPreview.notifyBuildStarted
    rw [if_pos (by rw [h]; decide)]
    exact h
  | recordBuild result =>
    change (preview.recordBuild quoted result).1.status = _
    unfold WebPreview.recordBuild
    rw [if_pos (.inr h)]
    exact h
  | recordHealth health =>
    change (preview.recordHealth health).1.status = _
    unfold WebPreview.recordHealth
    rw [if_pos h]
    exact h
  | expire => rfl

theorem url_next {preview : WebPreview} {url : String} (op : PreviewOp)
    (h : preview.url = some url) : ((previewMachine quoted).next preview op).url = some url := by
  cases op with
  | notifyBuildStarted =>
    change (preview.notifyBuildStarted quoted).1.url = _
    unfold WebPreview.notifyBuildStarted
    split_ifs <;> exact h
  | recordBuild result =>
    change (preview.recordBuild quoted result).1.url = _
    unfold WebPreview.recordBuild
    split_ifs <;> exact h
  | recordHealth health =>
    change (preview.recordHealth health).1.url = _
    unfold WebPreview.recordHealth
    split_ifs
    · exact h
    · cases health with
      | healthy =>
        change some (preview.url.getD _) = _
        rw [h, Option.getD_some]
      | starting => exact h
      | unhealthy reason => exact h
      | unknown reason => exact h
  | expire => exact h

/-- The calls that keep the gate: no probe finds an available preview starting again, and none finds
one healthy whose last build failed. -/
def GateStep (preview : WebPreview) : PreviewOp → Prop
  | .recordHealth .starting => preview.status ≠ .available
  | .recordHealth .healthy => preview.status = .expired ∨ preview.buildError = none
  | _ => True

/-- An available preview has a URL, was last seen healthy and has no failed build. -/
def WebPreview.Sound (preview : WebPreview) : Prop :=
  preview.status = .available → preview.url.isSome ∧ preview.history = ⟨some .healthy, false⟩

/-- A URL is handed out only for a preview that was last seen healthy and has no failed build. -/
def WebPreview.Gated (preview : WebPreview) : Prop :=
  preview.temporaryUrl.isSome → preview.history = ⟨some .healthy, false⟩

theorem WebPreview.Sound.gated {preview : WebPreview} (h : preview.Sound) : preview.Gated := by
  intro hurl
  unfold WebPreview.temporaryUrl at hurl
  split_ifs at hurl with havailable
  · exact (h havailable).2
  · cases hurl

theorem PreviewStatus.started_ne_available {status : PreviewStatus} (h : status ≠ .available) :
    status.started ≠ .available := by
  cases status <;> first | exact h | nofun

theorem sound_next {preview : WebPreview} {op : PreviewOp} (h : preview.Sound)
    (hstep : GateStep preview op) : ((previewMachine quoted).next preview op).Sound := by
  cases op with
  | notifyBuildStarted =>
    change (preview.notifyBuildStarted quoted).1.Sound
    unfold WebPreview.notifyBuildStarted
    split_ifs
    · exact h
    · nofun
  | recordBuild result =>
    change (preview.recordBuild quoted result).1.Sound
    unfold WebPreview.recordBuild
    split_ifs with hrefused hsuccess
    · exact h
    · exact fun havailable => absurd havailable
        (PreviewStatus.started_ne_available fun hstatus => hrefused (.inl hstatus))
    · nofun
  | recordHealth health =>
    change (preview.recordHealth health).1.Sound
    unfold WebPreview.recordHealth
    split_ifs with hexpired
    · exact h
    · cases health with
      | healthy =>
        intro _
        have hbuilt : preview.buildError = none := hstep.resolve_left hexpired
        refine ⟨rfl, ?_⟩
        change PreviewHistory.mk (some .healthy) preview.buildError.isSome = _
        rw [hbuilt]
        rfl
      | starting =>
        exact fun havailable => absurd havailable (PreviewStatus.started_ne_available hstep)
      | unhealthy reason => nofun
      | unknown reason => nofun
  | expire => nofun

theorem gateStep_of_gated {preview : WebPreview} {op : PreviewOp} (h : preview.Sound)
    (hnext : ((previewMachine quoted).next preview op).Gated) : GateStep preview op := by
  cases op with
  | notifyBuildStarted => trivial
  | recordBuild result => trivial
  | recordHealth health =>
    cases health with
    | healthy =>
      refine or_iff_not_imp_left.mpr fun hlive => ?_
      change (preview.recordHealth .healthy).1.Gated at hnext
      unfold WebPreview.recordHealth at hnext
      rw [if_neg hlive] at hnext
      have hhistory := hnext rfl
      have hfailed : preview.buildError.isSome = false := congrArg PreviewHistory.failed hhistory
      exact Option.isSome_eq_false_iff.mp hfailed |> Option.isNone_iff_eq_none.mp
    | starting =>
      intro havailable
      have hlive : preview.status ≠ .expired := by
        rw [havailable]
        decide
      change (preview.recordHealth .starting).1.Gated at hnext
      unfold WebPreview.recordHealth at hnext
      rw [if_neg hlive] at hnext
      have hurl : (if preview.status.started = .available then preview.url else none).isSome := by
        rw [havailable]
        exact (h havailable).1
      exact absurd (congrArg PreviewHistory.observed (hnext hurl)) (by nofun)
    | unhealthy reason => trivial
    | unknown reason => trivial
  | expire => trivial

/-! ## Every run -/

/-- In every state of the run: a URL is handed out only if the last observation is healthy and no
build failure was recorded after the last success, an expired preview stays so, and a URL that was
minted stays the same. -/
def PreviewRunHolds (quoted : String → String) (start : WebPreview) (ops : List PreviewOp) : Prop :=
  (∀ n, ((previewMachine quoted).run start (ops.take n)).temporaryUrl.isSome →
    (previewMachine quoted).fold PreviewHistory.record start .empty (ops.take n) =
      ⟨some .healthy, false⟩) ∧
  ∀ n m, n ≤ m →
    (((previewMachine quoted).run start (ops.take n)).status = .expired →
      ((previewMachine quoted).run start (ops.take m)).status = .expired) ∧
    ∀ url, ((previewMachine quoted).run start (ops.take n)).url = some url →
      ((previewMachine quoted).run start (ops.take m)).url = some url

/-- **The health gate of a preview**, exactly: along a run from a new preview it holds everywhere if
and only if no call of the run lets a starting or a failed preview keep or get its URL. -/
theorem preview_gate_exact (quoted : String → String) (id : PreviewId) (workspaceId : WorkspaceId)
    (sessionId : AgentSessionId) (access : PreviewAccess) (expiresAt : Option DateTime)
    (ops : List PreviewOp) :
    PreviewRunHolds quoted (.new id workspaceId sessionId access expiresAt) ops ↔
      (previewMachine quoted).Guarded GateStep (.new id workspaceId sessionId access expiresAt)
        ops := by
  set start := WebPreview.new id workspaceId sessionId access expiresAt with hstart
  have hsound : start.Sound := by nofun
  have hlater : ∀ n m, n ≤ m →
      (((previewMachine quoted).run start (ops.take n)).status = .expired →
        ((previewMachine quoted).run start (ops.take m)).status = .expired) ∧
      ∀ url, ((previewMachine quoted).run start (ops.take n)).url = some url →
        ((previewMachine quoted).run start (ops.take m)).url = some url := by
    intro n m h
    exact ⟨(previewMachine quoted).run_take_le (P := fun preview => preview.status = .expired)
        (fun _ op => expired_next op) start ops h,
      fun url => (previewMachine quoted).run_take_le (P := fun preview => preview.url = some url)
        (fun _ op => url_next op) start ops h⟩
  have hgate := (previewMachine quoted).forall_run_take_iff_guarded (H := fun _ _ => True)
    (G := GateStep) (I := WebPreview.Sound) (P := WebPreview.Gated)
    (fun _ h => h.gated) (fun _ _ h _ hstep => sound_next h hstep)
    (fun _ _ h _ hnext => gateStep_of_gated h hnext) start ops hsound
    ((previewMachine quoted).guarded_true start ops)
  rw [← hgate]
  refine (and_iff_left hlater).trans (forall_congr' fun n => ?_)
  unfold WebPreview.Gated
  rw [history_eq]
  rfl

/-- A probe that finds an available preview starting again leaves its URL in use; one that finds a
preview healthy after its build failed mints one. -/
theorem preview_url_ungated :
    let start := WebPreview.new ⟨1⟩ ⟨1⟩ ⟨1⟩ .private none
    let machine := previewMachine fun text => text
    let restarted := [PreviewOp.recordHealth .healthy, .recordHealth .starting]
    let failed := [PreviewOp.recordBuild (.failed "exit 1"), .recordHealth .healthy]
    (machine.run start restarted).temporaryUrl.isSome = true ∧
    machine.fold PreviewHistory.record start .empty restarted = ⟨some .starting, false⟩ ∧
    (machine.run start failed).temporaryUrl.isSome = true ∧
    machine.fold PreviewHistory.record start .empty failed = ⟨some .healthy, true⟩ ∧
    ¬ PreviewRunHolds (fun text => text) start restarted ∧
    ¬ PreviewRunHolds (fun text => text) start failed := by
  refine ⟨by decide +kernel, by decide +kernel, by decide +kernel, by decide +kernel, ?_, ?_⟩
  · intro h
    exact absurd (h.1 2 (by decide +kernel)) (by decide +kernel)
  · intro h
    exact absurd (h.1 2 (by decide +kernel)) (by decide +kernel)

end Gate
end Labrys.Core
