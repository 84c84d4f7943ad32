import Labrys.Core.DeploymentRuns

/-! # Secrets in a deployment record

A deployment is built and observed with a fixed list of secrets, and each call stores texts it was
given. The reasons of transitions and the log lines of failures are redacted first. The build result
itself is stored as it came, with its detail, the limit it names and its recovery; so is the reason
of an unknown health status, and neither a minted image nor the log line about it is redacted.
Nothing else leaks: the record stays clear along a history exactly if these bring no secret. -/

namespace Labrys.Core
open Foundations
set_option autoImplicit false

/-! ## The texts of a record -/

def HealthStatus.reason : HealthStatus → Option String
  | .unhealthy reason => some reason
  | .unknown reason => some reason
  | _ => none

/-- No secret occurs in the text. -/
def ClearOf (secrets : List String) (text : String) : Prop :=
  ∀ secret ∈ secrets, containsText text secret = false

def BuildResult.texts (build : BuildResult) : List String :=
  build.detail :: (build.limitEnforced.toList ++ build.recovery.toList)

def Image.texts (image : Image) : List String := [image.reference, image.digest, image.revisionSha]

/-- No secret occurs in a text that the calls store in the record. -/
structure Deployment.Clear (secrets : List String) (d : Deployment) : Prop where
  build : ∀ build, d.build = some build → ∀ text ∈ build.texts, ClearOf secrets text
  image : ∀ image, d.image = some image → ∀ text ∈ image.texts, ClearOf secrets text
  health : ∀ reason, d.health.reason = some reason → ClearOf secrets reason
  logs : ∀ log ∈ d.logs, ClearOf secrets log.message
  transitions : ∀ t ∈ d.transitions, ∀ reason, t.reason = some reason → ClearOf secrets reason

/-- The texts that a successful build of this deployment stores besides its result: those of the
image it mints, and the log line about it. -/
def Deployment.mintedTexts (d : Deployment) : List String :=
  if d.runtime.profile = .production then
    match d.runtime.ociImage with
    | none => []
    | some base =>
        let label := (if d.runtime.kind = .generic then ImageSource.generic else .native).label
        let digest := "sha256:" ++ digestOf base d.revision.sourceSha
        [base ++ "@" ++ digest, digest, d.revision.sourceSha, s!"image {digest} built from {label}"]
  else []

/-! ## One deployment and its secrets -/

inductive RecordOp
  | startBuild (time : DateTime)
  | recordBuild (build : BuildResult) (time : DateTime)
  | recordHealth (health : HealthStatus) (time : DateTime)

def RecordOp.withSecrets (secrets : List String) : RecordOp → DeploymentOp
  | .startBuild time => .startBuild time
  | .recordBuild build time => .recordBuild build secrets time
  | .recordHealth health time => .recordHealth health secrets time

def recordedDeployment (secrets : List String) :
    Machine Deployment RecordOp (Except CoreError Unit) where
  step := fun d op => (op.withSecrets secrets).apply d

/-- The texts that are stored unredacted have no secret. -/
def KeepsClear (secrets : List String) (d : Deployment) : RecordOp → Prop
  | .recordBuild build _ => d.phase = .building →
      (∀ text ∈ build.texts, ClearOf secrets text) ∧
      (build.isSuccess = true → ∀ text ∈ d.mintedTexts, ClearOf secrets text)
  | .recordHealth (.unknown reason) _ => ClearOf secrets reason
  | _ => True

/-! ## What a call stores -/

/-- A successful build mints an image if the runtime has one to mint from, and these are its
texts. -/
theorem buildImage_cases (d : Deployment) {build : BuildResult} (hsuccess : build.isSuccess = true)
    (secrets : List String) :
    (∃ e, buildImage d.runtime build d.revision secrets = .error e ∧ d.mintedTexts = []) ∨
      ∃ image, buildImage d.runtime build d.revision secrets = .ok image ∧
        d.mintedTexts =
          image.texts ++ [s!"image {image.digest} built from {image.source.label}"] := by
  have hstatus : build.status = .succeeded := of_decide_eq_true hsuccess
  unfold buildImage Deployment.mintedTexts
  by_cases hprofile : d.runtime.profile = .production
  · rw [if_neg (not_not.mpr hprofile), if_neg (not_not.mpr hstatus), if_pos hprofile]
    cases hbase : d.runtime.ociImage with
    | none => exact .inl ⟨_, rfl, rfl⟩
    | some base => exact .inr ⟨_, rfl, rfl⟩
  · rw [if_pos hprofile, if_neg hprofile]
    exact .inl ⟨_, rfl, rfl⟩

namespace Deployment
variable {secrets : List String} {d : Deployment}

theorem moveTo_record (d : Deployment) (next : DeploymentPhase) (reason : Option String)
    (time : DateTime) :
    (d.moveTo next reason time).1.build = d.build ∧
      (d.moveTo next reason time).1.image = d.image ∧
      (d.moveTo next reason time).1.health = d.health ∧
      (d.moveTo next reason time).1.logs = d.logs := by
  unfold moveTo
  split
  · exact ⟨rfl, rfl, rfl, rfl⟩
  · split
    · exact ⟨rfl, rfl, rfl, rfl⟩
    · exact ⟨rfl, rfl, rfl, rfl⟩

theorem transitions_moveTo {next : DeploymentPhase} {reason : Option String} {time : DateTime}
    {t : DeploymentTransition} (h : t ∈ (d.moveTo next reason time).1.transitions) :
    t ∈ d.transitions ∨ t.reason = reason := by
  unfold moveTo at h
  split at h
  · exact .inl h
  · split at h
    · exact .inl h
    · refine (List.mem_append.mp h).imp_right fun hlast => ?_
      rw [List.mem_singleton.mp hlast]

theorem Clear.moveTo (h : d.Clear secrets) (next : DeploymentPhase) {reason : Option String}
    (hreason : ∀ text, reason = some text → ClearOf secrets text) (time : DateTime) :
    (d.moveTo next reason time).1.Clear secrets := by
  obtain ⟨hbuild, himage, hhealth, hlogs⟩ := d.moveTo_record next reason time
  refine ⟨hbuild ▸ h.build, himage ▸ h.image, hhealth ▸ h.health, hlogs ▸ h.logs,
    fun t ht text htext => ?_⟩
  obtain ht | ht := transitions_moveTo ht
  · exact h.transitions t ht text htext
  · exact hreason text (ht.symm.trans htext)

theorem Clear.pushLog (h : d.Clear secrets) (level : LogLevel) {message : String}
    (hmessage : ClearOf secrets message) (time : DateTime) :
    (d.pushLog level message time).Clear secrets := by
  refine ⟨h.build, h.image, h.health, fun log hlog => ?_, h.transitions⟩
  obtain hlog | hlog := List.mem_append.mp hlog
  · exact h.logs log hlog
  · rw [List.mem_singleton.mp hlog]
    exact hmessage

theorem Clear.withHealth (h : d.Clear secrets) {health : HealthStatus}
    (hhealth : ∀ reason, health.reason = some reason → ClearOf secrets reason) :
    Clear secrets { d with health := health } :=
  ⟨h.build, h.image, hhealth, h.logs, h.transitions⟩

theorem Clear.recordBuild (h : d.Clear secrets)
    (hsecrets : ∀ secret ∈ secrets, redactable secret = true) (build : BuildResult)
    (time : DateTime) (hop : KeepsClear secrets d (.recordBuild build time)) :
    (d.recordBuild build secrets time).1.Clear secrets := by
  unfold Deployment.recordBuild
  split
  · exact h
  · next hbuilding =>
    obtain ⟨hresult, hminted⟩ := hop (not_not.mp hbuilding)
    have hrecorded : Clear secrets { d with build := some build } :=
      ⟨fun b hb => by cases hb; exact hresult, h.image, h.health, h.logs, h.transitions⟩
    dsimp only
    split
    · have hredacted : ClearOf secrets (redactReason build.detail secrets) := fun secret hmem =>
        containsText_redactReason build.detail hmem (hsecrets secret hmem)
      refine (hrecorded.pushLog .error hredacted time).moveTo .failed (fun text htext => ?_) time
      cases htext
      exact hredacted
    · next hfailed =>
      have hsuccess : build.isSuccess = true := by simpa using hfailed
      obtain ⟨e, heq, -⟩ | ⟨image, heq, htexts⟩ := buildImage_cases d hsuccess secrets
      · rw [heq]
        exact hrecorded
      · rw [heq]
        have hall := hminted hsuccess
        rw [htexts, List.forall_mem_append] at hall
        obtain ⟨himage, hline⟩ := hall
        have hclear := hrecorded.pushLog .info (hline _ List.mem_cons_self) time
        refine Clear.moveTo ?_ .deploying (fun text htext => by cases htext) time
        exact ⟨hclear.build, fun i hi => by cases hi; exact himage, hclear.health, hclear.logs,
          hclear.transitions⟩

theorem Clear.recordHealth (h : d.Clear secrets)
    (hsecrets : ∀ secret ∈ secrets, redactable secret = true) (health : HealthStatus)
    (time : DateTime) (hop : KeepsClear secrets d (.recordHealth health time)) :
    (d.recordHealth health secrets time).1.Clear secrets := by
  cases health with
  | starting => exact h.withHealth fun _ hreason => by cases hreason
  | healthy =>
    refine Clear.moveTo (h.withHealth fun _ hreason => ?_) .healthy (fun _ htext => ?_) time
    · cases hreason
    · cases htext
  | unknown reason =>
    refine h.withHealth fun _ hreason => ?_
    cases hreason
    exact hop
  | unhealthy reason =>
    have hredacted := fun secret hmem =>
        containsText_redactReason reason hmem (hsecrets secret hmem)
    refine Clear.moveTo (h.withHealth fun _ hreason => ?_) _ (fun _ htext => ?_) time
    · cases hreason
      exact hredacted
    · cases htext
      exact hredacted

end Deployment

/-! ## Whole histories -/

section Histories
variable {secrets : List String}

theorem Deployment.Clear.next {d : Deployment} (h : d.Clear secrets)
    (hsecrets : ∀ secret ∈ secrets, redactable secret = true) (op : RecordOp)
    (hop : KeepsClear secrets d op) : ((recordedDeployment secrets).next d op).Clear secrets := by
  cases op with
  | startBuild time => exact h.moveTo .building (fun _ htext => by cases htext) time
  | recordBuild build time => exact h.recordBuild hsecrets build time hop
  | recordHealth health time => exact h.recordHealth hsecrets health time hop

/-- What a build leaves in the record besides redacted texts. -/
theorem Deployment.recordBuild_record {d : Deployment} (hbuilding : d.phase = .building)
    (build : BuildResult) (secrets : List String) (time : DateTime) :
    (d.recordBuild build secrets time).1.build = some build ∧
      (build.isSuccess = true → ∀ text ∈ d.mintedTexts,
        (∃ image, (d.recordBuild build secrets time).1.image = some image ∧ text ∈ image.texts) ∨
          ⟨.info, text, time⟩ ∈ (d.recordBuild build secrets time).1.logs) := by
  rw [Deployment.recordBuild, if_neg (not_not.mpr hbuilding)]
  dsimp only
  split
  · next hfailed =>
    refine ⟨(moveTo_record _ _ _ _).1, fun hsuccess => ?_⟩
    cases hfailed.symm.trans hsuccess
  · next hfailed =>
    have hsuccess : build.isSuccess = true := by simpa using hfailed
    obtain ⟨e, heq, hnone⟩ | ⟨image, heq, htexts⟩ := buildImage_cases d hsuccess secrets
    · rw [heq, hnone]
      exact ⟨rfl, fun _ _ htext => absurd htext List.not_mem_nil⟩
    · rw [heq]
      refine ⟨(moveTo_record _ _ _ _).1, fun _ text htext => ?_⟩
      rw [htexts] at htext
      obtain htext | htext := List.mem_append.mp htext
      · exact .inl ⟨image, (moveTo_record _ _ _ _).2.1, htext⟩
      · right
        rw [List.mem_singleton.mp htext, (moveTo_record _ _ _ _).2.2.2]
        exact List.mem_append_right _ List.mem_cons_self

/-- A call that leaves the record clear brought no secret in the texts it does not redact. -/
theorem keepsClear_of_clear {d : Deployment} (op : RecordOp)
    (hnext : ((recordedDeployment secrets).next d op).Clear secrets) : KeepsClear secrets d op := by
  unfold KeepsClear
  split
  · next build time =>
    intro hbuilding
    obtain ⟨hbuild, hminted⟩ := d.recordBuild_record hbuilding build secrets time
    refine ⟨hnext.build build hbuild, fun hsuccess text htext => ?_⟩
    obtain ⟨image, himage, htext⟩ | hlog := hminted hsuccess text htext
    · exact hnext.image image himage text htext
    · exact hnext.logs ⟨.info, text, time⟩ hlog
  · next reason time => exact hnext.health reason rfl
  · trivial

/-- **No secret survives in a deployment record.** For secrets that are not empty and do not overlap
the marker, the record of a new deployment stays clear of them along a history exactly if no text of
a recorded build result, none of a minted image or the line about it and no reason of an unknown
health status has one. -/
theorem clear_history (hsecrets : ∀ secret ∈ secrets, redactable secret = true) (id : DeploymentId)
    (applicationId : ApplicationId) (environmentId : EnvironmentId) (revision : Revision)
    (runtime : RuntimeConfig) (resources : List ResourceId) (rollbackTarget : Option DeploymentId)
    (time : DateTime) (d : Deployment)
    (hnew : Deployment.new id applicationId environmentId revision runtime resources rollbackTarget
      time = .ok d) (ops : List RecordOp) :
    (∀ n, ((recordedDeployment secrets).run d (ops.take n)).Clear secrets) ↔
      (recordedDeployment secrets).Guarded (KeepsClear secrets) d ops := by
  have hclear : d.Clear secrets := by
    unfold Deployment.new at hnew
    split at hnew
    · cases hnew
    · cases hnew
      exact ⟨by simp, by simp, by simp [HealthStatus.reason], by simp, by simp⟩
  exact (recordedDeployment secrets).forall_run_take_iff_guarded (fun _ h => h)
    (fun _ op h _ hop => h.next hsecrets op hop) (fun _ op _ _ hnext => keepsClear_of_clear op hnext)
    d ops hclear ((recordedDeployment secrets).guarded_true d ops)

end Histories

/-- A secret in the reason of a failed health check is cleared. -/
theorem clear_history_unhealthy :
    ∃ d, Deployment.new ⟨1⟩ ⟨1⟩ ⟨1⟩ (.new "4f2a" "c0" none)
        ⟨.node, .production, some "registry.local/app"⟩ [] none 0 = .ok d ∧
      ∀ n, ((recordedDeployment ["s3kx"]).run d ([.startBuild 1,
        .recordBuild (.succeeded "pushed") 2,
        .recordHealth (.unhealthy "login with s3kx refused") 3].take n)).Clear ["s3kx"] := by
  refine ⟨_, rfl, (clear_history (by decide) ⟨1⟩ ⟨1⟩ ⟨1⟩ (.new "4f2a" "c0" none)
    ⟨.node, .production, some "registry.local/app"⟩ [] none 0 _ rfl _).mpr ⟨trivial, ?_, trivial,
      trivial⟩⟩
  intro _
  unfold ClearOf
  exact ⟨by decide +kernel, fun _ => by decide +kernel⟩

/-- One in the detail of a build, successful or not, is kept, and so are one in the recovery of a
build and one in the reason of an unknown health status. -/
theorem build_detail_leaks :
    redactable "s3kx" = true ∧
    ∃ d, Deployment.new ⟨1⟩ ⟨1⟩ ⟨1⟩ (.new "4f2a" "c0" none)
        ⟨.node, .production, some "registry.local/app"⟩ [] none 0 = .ok d ∧
      (¬ ((recordedDeployment ["s3kx"]).run d [.startBuild 1,
        .recordBuild (.failed "login with s3kx refused") 2]).Clear ["s3kx"]) ∧
      (¬ ((recordedDeployment ["s3kx"]).run d [.startBuild 1,
        .recordBuild { BuildResult.succeeded "pushed" with recovery := some "rotate s3kx" } 2]).Clear
          ["s3kx"]) ∧
      ¬ ((recordedDeployment ["s3kx"]).run d [.recordHealth (.unknown "s3kx expired") 1]).Clear
        ["s3kx"] := by
  refine ⟨by decide, _, rfl, fun hclear => ?_, fun hclear => ?_, fun hclear => ?_⟩
  · have hdetail := hclear.build (.failed "login with s3kx refused") (by decide +kernel)
      "login with s3kx refused" List.mem_cons_self "s3kx" List.mem_cons_self
    revert hdetail
    decide
  · have hrecovery := hclear.build
      { BuildResult.succeeded "pushed" with recovery := some "rotate s3kx" } (by decide +kernel)
      "rotate s3kx" (by decide) "s3kx" List.mem_cons_self
    revert hrecovery
    decide
  · have hreason := hclear.health "s3kx expired" rfl "s3kx" List.mem_cons_self
    revert hreason
    decide

end Labrys.Core
