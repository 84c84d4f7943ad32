import Labrys.ControlPlane.ObjectNames
import Labrys.Foundations.Runs

/-! # Buckets over time

The directories under the approved root outlive the process; the registry of scoped keys does not.
Both storage provisioners share one backend, calls come in any order, each request of a call to the
filesystem may fail, and the daemon may restart between any two calls.

* `Storage`, `StorageStep`, `storage`: the approved root over a whole history.
* `executeScoped_of_bucket`: what a call on a bucket does to the registry and answers.
* `bucket_history`: the key and the directory of every bucket, from the steps that concern it alone,
  and from them what the next call answers.
-/

namespace Labrys.ControlPlane
open Foundations Labrys.Core
set_option autoImplicit false

inductive StorageProvisioner
  | object
  | file
deriving DecidableEq

namespace StorageProvisioner

def tag : StorageProvisioner → String
  | object => "obj"
  | file => "file"

def scope : StorageProvisioner → String
  | object => "storage.object:read-write"
  | file => "storage.file:read-write"

end StorageProvisioner

/-- A call of a provisioner, with what the filesystem answers to the requests the call may make. -/
structure StorageCall where
  provisioner : StorageProvisioner
  operation : ProviderOperation
  moment : StorageMoment
  createDirAll : Except String Unit
  setPermissions : Except String Unit
  removeDirAll : Except String Unit

inductive StorageStep
  | call (c : StorageCall)
  | restart

/-- The approved root: its directories, and the registry of the process that serves it. -/
structure Storage where
  root : String
  directories : String → Bool
  keys : List (String × ScopedKey)

namespace StorageCall

/-- The bucket the call is about, if it is about one: the provisioner supplies the capability and
the name is in scope. -/
def bucket (c : StorageCall) : Option String :=
  if c.operation.kind = kindForPrefix c.provisioner.tag then
    (FsBucketBackend.bucketNameFor c.provisioner.tag c.operation.resourceId).toOption
  else none

/-- The key the call would mint. -/
def minted (c : StorageCall) (bucket : String) : ScopedKey :=
  ⟨c.moment.keyId, c.moment.secret, c.provisioner.scope, bucket, c.moment.expiresAt⟩

def live (c : StorageCall) (held : Option ScopedKey) : Option ScopedKey :=
  held.filter fun key => decide (c.moment.now < key.expiresAt)

/-- A provision mints when no key is live and the directory and its permissions are in place. -/
def mints (c : StorageCall) (held : Option ScopedKey) : Bool :=
  (c.live held).isNone && c.createDirAll.isOk && c.setPermissions.isOk

end StorageCall

namespace Storage
variable (w : Storage)

def path (bucket : String) : String := w.root ++ "/" ++ bucket

/-- The backend as a call sees it. -/
def backend (c : StorageCall) : FsBucketBackend where
  fs := ⟨w.directories, fun _ => c.createDirAll, fun _ => c.setPermissions, fun _ => c.removeDirAll⟩
  root := w.root
  keys := w.keys

def keyFor (bucket : String) : Option ScopedKey :=
  (w.keys.find? fun entry => decide (entry.1 = bucket)).map (·.2)

/-- The directories after the requests of a call. A request that fails leaves the directory as it
was. -/
def directoriesAfter (c : StorageCall) : String → Bool :=
  match c.bucket with
  | none => w.directories
  | some bucket =>
      match c.operation.action with
      | .provision =>
          if w.directories (w.path bucket) && (c.live (w.keyFor bucket)).isSome then w.directories
          else if c.createDirAll.isOk then Function.update w.directories (w.path bucket) true
          else w.directories
      | .delete =>
          if w.directories (w.path bucket) && c.removeDirAll.isOk then
            Function.update w.directories (w.path bucket) false
          else w.directories
      | _ => w.directories

def execute (c : StorageCall) : FsBucketBackend × Except ControlPlaneError ProviderExecution :=
  FsBucketBackend.executeScoped c.moment c.provisioner.tag c.provisioner.scope c.operation
    (w.backend c)

end Storage

/-- The approved root, step after step. A restart empties the registry. -/
def storage : Machine Storage StorageStep (Option (Except ControlPlaneError ProviderExecution)) where
  step := fun w step =>
    match step with
    | .call c =>
        ({ w with directories := w.directoriesAfter c, keys := (w.execute c).1.keys },
          some (w.execute c).2)
    | .restart => ({ w with keys := [] }, none)

/-! ## What each step does to one bucket -/

namespace StorageStep

def concerns (bucket : String) : StorageStep → Bool
  | call c => decide (c.bucket = some bucket)
  | restart => true

end StorageStep

namespace StorageCall
variable (c : StorageCall)

/-- What a call makes of the key of its bucket. A delete revokes it whatever becomes of the
directory. -/
def keyAfter (bucket : String) (held : Option ScopedKey) : Option ScopedKey :=
  match c.operation.action with
  | .provision => if c.mints held then some (c.minted bucket) else held
  | .delete => none
  | _ => held

/-- What a call makes of the directory of its bucket. -/
def standsAfter (present : Bool) : Bool :=
  match c.operation.action with
  | .provision => present || c.createDirAll.isOk
  | .delete => present && !c.removeDirAll.isOk
  | _ => present

/-- Whether a call on a bucket answers that it is ready. -/
def ready (held : Option ScopedKey) (present : Bool) : Bool :=
  match c.operation.action with
  | .provision => (c.live held).isSome || (c.createDirAll.isOk && c.setPermissions.isOk)
  | .delete => !present || c.removeDirAll.isOk
  | .readinessCheck => (c.live held).isSome
  | .adopt => (c.live held).isSome
  | _ => false

end StorageCall

namespace StorageStep

def key (bucket : String) (held : Option ScopedKey) : StorageStep → Option ScopedKey
  | call c => c.keyAfter bucket held
  | restart => none

def stands (present : Bool) : StorageStep → Bool
  | call c => c.standsAfter present
  | restart => present

end StorageStep

/-! ## Calls -/

def ProviderExecution.isReady : ProviderExecution → Bool
  | ready _ => true
  | _ => false

/-- The call answered, and that the resource is ready. -/
def answersReady (answer : Except ControlPlaneError ProviderExecution) : Bool :=
  match answer with
  | .ok execution => execution.isReady
  | .error _ => false

theorem eq_ok_of_isOk {ε : Type} {answer : Except ε Unit} (h : answer.isOk = true) :
    answer = .ok () := by
  cases answer with
  | ok _ => rfl
  | error e => cases h

theorem isReady_scrubbed (scrub : String → String) (execution : ProviderExecution) :
    (execution.scrubbed scrub).isReady = execution.isReady := by
  cases execution <;> rfl

namespace FsBucketBackend
variable {b : FsBucketBackend} {moment : StorageMoment} {tag scope bucket : String}
  {operation : ProviderOperation}

/-- A name in scope has no separator and no dot. -/
theorem bucketUnderRoot_of_name (h : bucketNameFor tag operation.resourceId = .ok bucket) :
    bucketUnderRoot bucket = true := by
  have hchars : ∀ c ∈ bucket.toList, c ≠ '/' ∧ c ≠ '.' := by
    rw [bucketNameFor] at h
    split_ifs at h with hscope
    obtain rfl := Except.ok.inj h
    intro c hc
    have hall := Bool.not_eq_false _ ▸ (not_or.mp hscope).2
    have hin := List.all_eq_true.mp hall c hc
    refine ⟨?_, ?_⟩ <;> (rintro rfl; revert hin; decide)
  have hslash : '/' ∉ bucket.toList := fun hmem => (hchars _ hmem).1 rfl
  have hdot : '.' ∉ bucket.toList := fun hmem => (hchars _ hmem).2 rfl
  have hstart : bucket.toList.head? ≠ some '/' := fun hhead => hslash (List.mem_of_head? hhead)
  have hcurrent : [bucket.toList].head? ≠ some ['.'] := by
    intro hhead
    rw [Option.some_inj.mp hhead] at hdot
    exact hdot (List.mem_singleton_self '.')
  have hparent : ['.', '.'] ∉ [bucket.toList] := by
    intro hmem
    rw [← List.mem_singleton.mp hmem] at hdot
    exact hdot List.mem_cons_self
  rw [bucketUnderRoot, List.splitOn_eq_singleton hslash]
  simp only [hstart, hcurrent, hparent, ne_eq, not_false_eq_true, decide_true, Bool.and_self]

theorem located_run (h : bucketNameFor tag operation.resourceId = .ok bucket) :
    located tag operation b = (b, .ok (bucket, b.root ++ "/" ++ bucket)) := by
  have hpath : b.bucketPath bucket = .ok (b.root ++ "/" ++ bucket) := by
    rw [bucketPath, bucketUnderRoot_of_name h]
    rfl
  unfold located
  refine (Program.bind_of_snd_ok h _).trans ?_
  exact Program.bind_of_snd_ok hpath _

/-- The key of the bucket that is live at the moment of a call. -/
def liveKey (b : FsBucketBackend) (moment : StorageMoment) (bucket : String) : Option ScopedKey :=
  (b.keyFor bucket).filter fun key => decide (moment.now < key.expiresAt)

theorem provision_of_live {key : ScopedKey} (h : bucketNameFor tag operation.resourceId = .ok bucket)
    (hpresent : b.fs.pathExists (b.root ++ "/" ++ bucket) = true)
    (hlive : b.liveKey moment bucket = some key) :
    ∃ detail, provision moment tag scope operation b = (b, .ok (.ready detail)) := by
  unfold liveKey at hlive
  rw [provision, Program.bind_of_ok (located_run h)]
  simp only [bind, Program.andThen, hpresent, if_true, hlive]
  exact ⟨_, rfl⟩

theorem provision_of_minted (h : bucketNameFor tag operation.resourceId = .ok bucket)
    (hlapsed : (if b.fs.pathExists (b.root ++ "/" ++ bucket) then b.liveKey moment bucket else none) =
      none)
    (hcreate : b.fs.createDirAll (b.root ++ "/" ++ bucket) = .ok ())
    (hpermissions : b.fs.setPermissions (b.root ++ "/" ++ bucket) = .ok ()) :
    ∃ detail, provision moment tag scope operation b =
      ({ b with keys := (b.keys.filter fun entry => entry.1 ≠ bucket) ++
        [(bucket, ⟨moment.keyId, moment.secret, scope, bucket, moment.expiresAt⟩)] },
        .ok (.ready detail)) := by
  unfold liveKey at hlapsed
  rw [provision, Program.bind_of_ok (located_run h)]
  simp only [bind, Program.andThen, hlapsed, touch, hcreate, hpermissions, Except.mapError]
  exact ⟨_, rfl⟩

theorem provision_of_refused (h : bucketNameFor tag operation.resourceId = .ok bucket)
    (hlapsed : (if b.fs.pathExists (b.root ++ "/" ++ bucket) then b.liveKey moment bucket else none) =
      none)
    (hrefused : (b.fs.createDirAll (b.root ++ "/" ++ bucket)).isOk = false ∨
      (b.fs.setPermissions (b.root ++ "/" ++ bucket)).isOk = false) :
    ∃ e, provision moment tag scope operation b = (b, .error e) := by
  unfold liveKey at hlapsed
  rw [provision, Program.bind_of_ok (located_run h)]
  cases hcreate : b.fs.createDirAll (b.root ++ "/" ++ bucket) with
  | error e =>
    simp only [bind, Program.andThen, hlapsed, touch, hcreate, Except.mapError]
    exact ⟨_, rfl⟩
  | ok _ =>
    cases hpermissions : b.fs.setPermissions (b.root ++ "/" ++ bucket) with
    | error e =>
      simp only [bind, Program.andThen, hlapsed, touch, hcreate, hpermissions, Except.mapError]
      exact ⟨_, rfl⟩
    | ok _ =>
      rw [hcreate, hpermissions] at hrefused
      cases hrefused with
      | inl hrefused => cases hrefused
      | inr hrefused => cases hrefused

theorem readiness_run (h : bucketNameFor tag operation.resourceId = .ok bucket) :
    ∃ execution, readiness moment tag operation b = (b, .ok execution) ∧
      execution.isReady = (b.fs.pathExists (b.root ++ "/" ++ bucket) &&
        (b.liveKey moment bucket).isSome) := by
  rw [readiness, Program.bind_of_ok (located_run h)]
  unfold liveKey
  dsimp only
  cases hpresent : b.fs.pathExists (b.root ++ "/" ++ bucket) with
  | false => exact ⟨_, rfl, rfl⟩
  | true =>
    rw [if_neg (by decide)]
    cases hlive : (b.keyFor bucket).filter fun key => decide (moment.now < key.expiresAt) with
    | some key => exact ⟨_, rfl, rfl⟩
    | none => exact ⟨_, rfl, rfl⟩

theorem delete_run (h : bucketNameFor tag operation.resourceId = .ok bucket) :
    (delete tag operation b).1 =
        { b with keys := b.keys.filter fun entry => entry.1 ≠ bucket } ∧
      answersReady (delete tag operation b).2 =
        (!b.fs.pathExists (b.root ++ "/" ++ bucket) ||
          (b.fs.removeDirAll (b.root ++ "/" ++ bucket)).isOk) := by
  rw [delete, Program.bind_of_ok (located_run h)]
  cases hpresent : b.fs.pathExists (b.root ++ "/" ++ bucket) with
  | false =>
    simp only [bind, Program.andThen, hpresent]
    exact ⟨rfl, rfl⟩
  | true =>
    cases hremove : b.fs.removeDirAll (b.root ++ "/" ++ bucket) with
    | error e =>
      simp only [bind, Program.andThen, hpresent, if_true, touch, hremove, Except.mapError]
      exact ⟨trivial, rfl⟩
    | ok _ =>
      simp only [bind, Program.andThen, hpresent, if_true, touch, hremove, Except.mapError]
      exact ⟨rfl, rfl⟩

variable (b moment scope)

theorem executeScoped_run (h : operation.kind = kindForPrefix tag) :
    (executeScoped moment tag scope operation b).1 = (perform moment tag scope operation b).1 ∧
      answersReady (executeScoped moment tag scope operation b).2 =
        answersReady (perform moment tag scope operation b).2 := by
  let finish : ProviderExecution → BucketProgram ProviderExecution :=
    fun outcome b => (b, .ok (outcome.scrubbed b.scrub))
  have hrun : executeScoped moment tag scope operation b =
      (perform moment tag scope operation >>= finish) b := congrFun (if_neg (not_not.mpr h)) b
  rw [hrun]
  cases hperform : (perform moment tag scope operation b).2 with
  | error e =>
    rw [Program.bind_of_snd_error hperform]
    exact ⟨rfl, rfl⟩
  | ok execution =>
    rw [Program.bind_of_snd_ok hperform]
    exact ⟨rfl, isReady_scrubbed _ execution⟩

/-- A call on no bucket leaves the registry as it was and never answers that it is ready. -/
theorem perform_of_error {e : ControlPlaneError}
    (h : bucketNameFor tag operation.resourceId = .error e) :
    (perform moment tag scope operation b).1 = b ∧
      answersReady (perform moment tag scope operation b).2 = false := by
  have hlocated : located tag operation b = (b, .error e) := Program.bind_of_snd_error h _
  have hprovision : provision moment tag scope operation b = (b, .error e) :=
    Program.bind_of_error hlocated _
  have hreadiness : readiness moment tag operation b = (b, .error e) :=
    Program.bind_of_error hlocated _
  have hdelete : delete tag operation b = (b, .error e) := Program.bind_of_error hlocated _
  unfold perform
  cases operation.action with
  | provision => exact ⟨congrArg Prod.fst hprovision, congrArg (answersReady ·.2) hprovision⟩
  | readinessCheck => exact ⟨congrArg Prod.fst hreadiness, congrArg (answersReady ·.2) hreadiness⟩
  | adopt => exact ⟨congrArg Prod.fst hreadiness, congrArg (answersReady ·.2) hreadiness⟩
  | delete => exact ⟨congrArg Prod.fst hdelete, congrArg (answersReady ·.2) hdelete⟩
  | _ => exact ⟨rfl, rfl⟩

end FsBucketBackend

/-! ## Steps -/

theorem StorageCall.bucket_eq_some {c : StorageCall} {bucket : String} (h : c.bucket = some bucket) :
    c.operation.kind = kindForPrefix c.provisioner.tag ∧
      FsBucketBackend.bucketNameFor c.provisioner.tag c.operation.resourceId = .ok bucket := by
  unfold StorageCall.bucket at h
  split_ifs at h with hkind
  refine ⟨hkind, ?_⟩
  cases hname : FsBucketBackend.bucketNameFor c.provisioner.tag c.operation.resourceId with
  | ok name =>
    rw [hname] at h
    exact congrArg Except.ok (Option.some_inj.mp h)
  | error e =>
    rw [hname] at h
    cases h

namespace Storage
variable {w : Storage} {c : StorageCall} {bucket : String}

/-- The directory of every key stands. -/
def Backed (w : Storage) : Prop :=
  ∀ bucket, w.keyFor bucket ≠ none → w.directories (w.path bucket) = true

theorem path_injective (w : Storage) : Function.Injective w.path := by
  intro bucket other h
  have htexts := congrArg String.toList h
  simp only [path, String.toList_append, List.append_cancel_left_eq] at htexts
  exact String.toList_inj.mp htexts

theorem find_dropped (keys : List (String × ScopedKey)) (bucket other : String) :
    ((keys.filter fun entry => entry.1 ≠ bucket).find? fun entry => decide (entry.1 = other)) =
      if other = bucket then none else keys.find? fun entry => decide (entry.1 = other) := by
  rw [List.find?_filter]
  split_ifs with hsame
  · rw [List.find?_eq_none]
    intro entry _
    simp [hsame]
  · congr 1
    funext entry
    by_cases hentry : entry.1 = other <;> simp [hentry, hsame]

theorem execute_of_none (h : c.bucket = none) :
    (w.execute c).1.keys = w.keys ∧ answersReady (w.execute c).2 = false := by
  by_cases hkind : c.operation.kind = kindForPrefix c.provisioner.tag
  · obtain ⟨e, hname⟩ : ∃ e, FsBucketBackend.bucketNameFor c.provisioner.tag
        c.operation.resourceId = .error e := by
      rw [StorageCall.bucket, if_pos hkind] at h
      cases hname : FsBucketBackend.bucketNameFor c.provisioner.tag c.operation.resourceId with
      | ok name =>
        rw [hname] at h
        cases h
      | error e => exact ⟨e, rfl⟩
    obtain ⟨hstate, hanswer⟩ := FsBucketBackend.executeScoped_run (w.backend c)
      c.moment c.provisioner.scope hkind
    obtain ⟨hsame, hready⟩ := FsBucketBackend.perform_of_error (w.backend c)
      c.moment c.provisioner.scope hname
    exact ⟨by rw [execute, hstate, hsame]; rfl, by rw [execute, hanswer, hready]⟩
  · unfold execute FsBucketBackend.executeScoped
    rw [if_pos hkind]
    exact ⟨rfl, rfl⟩

/-- The registry after a call on a bucket. -/
def keysAfter (w : Storage) (c : StorageCall) (bucket : String) : List (String × ScopedKey) :=
  match c.operation.action with
  | .provision =>
      if c.mints (w.keyFor bucket) then
        (w.keys.filter fun entry => entry.1 ≠ bucket) ++ [(bucket, c.minted bucket)]
      else w.keys
  | .delete => w.keys.filter fun entry => entry.1 ≠ bucket
  | _ => w.keys

/-- Where a key is held the directory stands, so a call need not look at it. -/
theorem Backed.live_eq (hbacked : w.Backed) (c : StorageCall) (bucket : String) :
    (if w.directories (w.path bucket) then c.live (w.keyFor bucket) else none) =
      c.live (w.keyFor bucket) := by
  cases hkey : w.keyFor bucket with
  | none => rw [StorageCall.live, Option.filter_none, ite_self]
  | some key => rw [if_pos (hbacked bucket (by rw [hkey]; exact Option.some_ne_none key))]

/-- A look at a bucket: the registry stays, and a live key is what makes it ready. -/
theorem readiness_of_bucket (hbacked : w.Backed) (hname : FsBucketBackend.bucketNameFor
      c.provisioner.tag c.operation.resourceId = .ok bucket) :
    let looked := FsBucketBackend.readiness c.moment c.provisioner.tag c.operation (w.backend c)
    looked.1.keys = w.keys ∧ answersReady looked.2 = (c.live (w.keyFor bucket)).isSome := by
  intro looked
  have hrun : ∃ execution, looked = (w.backend c, .ok execution) ∧ execution.isReady =
      (w.directories (w.path bucket) && (c.live (w.keyFor bucket)).isSome) :=
    FsBucketBackend.readiness_run hname
  obtain ⟨execution, hlooked, hready⟩ := hrun
  rw [hlooked]
  refine ⟨rfl, hready.trans ?_⟩
  have hlive := hbacked.live_eq c bucket
  cases hpresent : w.directories (w.path bucket) with
  | true => rw [Bool.true_and]
  | false =>
    rw [hpresent, if_neg Bool.false_ne_true] at hlive
    rw [← hlive]
    rfl

theorem execute_of_bucket (hbacked : w.Backed) (h : c.bucket = some bucket) :
    (w.execute c).1.keys = w.keysAfter c bucket ∧
      answersReady (w.execute c).2 =
        c.ready (w.keyFor bucket) (w.directories (w.path bucket)) := by
  obtain ⟨hkind, hname⟩ := StorageCall.bucket_eq_some h
  obtain ⟨hstate, hanswer⟩ := FsBucketBackend.executeScoped_run (w.backend c) c.moment
    c.provisioner.scope hkind
  have hlive := hbacked.live_eq c bucket
  rw [execute, hstate, hanswer]
  unfold FsBucketBackend.perform keysAfter StorageCall.ready
  cases haction : c.operation.action with
  | provision =>
    change (FsBucketBackend.provision c.moment c.provisioner.tag c.provisioner.scope c.operation
        (w.backend c)).1.keys = _ ∧ answersReady (FsBucketBackend.provision c.moment
          c.provisioner.tag c.provisioner.scope c.operation (w.backend c)).2 = _
    cases hheld : c.live (w.keyFor bucket) with
    | some key =>
      rw [hheld] at hlive
      have hpresent : w.directories (w.path bucket) = true := by
        by_contra habsent
        rw [if_neg habsent] at hlive
        cases hlive
      have hrun : ∃ detail, FsBucketBackend.provision c.moment c.provisioner.tag
          c.provisioner.scope c.operation (w.backend c) = (w.backend c, .ok (.ready detail)) :=
        FsBucketBackend.provision_of_live hname hpresent hheld
      obtain ⟨detail, hrun⟩ := hrun
      have hmints : c.mints (w.keyFor bucket) = false := by
        rw [StorageCall.mints, hheld]
        rfl
      rw [hrun, hmints]
      exact ⟨rfl, rfl⟩
    | none =>
      have hlapsed := hlive.trans hheld
      have hmints : c.mints (w.keyFor bucket) =
          (c.createDirAll.isOk && c.setPermissions.isOk) := by
        rw [StorageCall.mints, hheld, Option.isNone_none, Bool.true_and]
      rw [hmints]
      by_cases hmade : (c.createDirAll.isOk && c.setPermissions.isOk) = true
      · obtain ⟨hcreate, hpermissions⟩ := (Bool.and_eq_true _ _).mp hmade
        have hrun : ∃ detail, FsBucketBackend.provision c.moment c.provisioner.tag
            c.provisioner.scope c.operation (w.backend c) =
            ({ w.backend c with keys := (w.keys.filter fun entry => entry.1 ≠ bucket) ++
              [(bucket, c.minted bucket)] }, .ok (.ready detail)) :=
          FsBucketBackend.provision_of_minted hname hlapsed (eq_ok_of_isOk hcreate)
            (eq_ok_of_isOk hpermissions)
        obtain ⟨detail, hrun⟩ := hrun
        rw [hrun, hmade]
        exact ⟨rfl, rfl⟩
      · have hrun : ∃ e, FsBucketBackend.provision c.moment c.provisioner.tag
            c.provisioner.scope c.operation (w.backend c) = (w.backend c, .error e) :=
          FsBucketBackend.provision_of_refused hname hlapsed
            (Bool.and_eq_false_iff.mp (Bool.eq_false_iff.mpr hmade))
        obtain ⟨e, hrun⟩ := hrun
        rw [hrun, Bool.eq_false_iff.mpr hmade]
        exact ⟨rfl, rfl⟩
  | readinessCheck => exact readiness_of_bucket hbacked hname
  | adopt => exact readiness_of_bucket hbacked hname
  | delete =>
    obtain ⟨hrun, hready⟩ := FsBucketBackend.delete_run (b := w.backend c) hname
    exact ⟨congrArg FsBucketBackend.keys hrun, hready⟩
  | _ => exact ⟨rfl, rfl⟩

/-- What is held under each bucket after a call on one. -/
theorem keyFor_keysAfter (w : Storage) (c : StorageCall) (bucket other : String) :
    ((w.keysAfter c bucket).find? fun entry => decide (entry.1 = other)).map (·.2) =
      if other = bucket then c.keyAfter bucket (w.keyFor bucket) else w.keyFor other := by
  have hkept : w.keyFor other = if other = bucket then w.keyFor bucket else w.keyFor other := by
    split_ifs with hother
    · rw [hother]
    · rfl
  have hdropped : ((w.keys.filter fun entry => entry.1 ≠ bucket).find? fun entry =>
      decide (entry.1 = other)).map (·.2) = if other = bucket then none else w.keyFor other := by
    rw [find_dropped]
    split_ifs with hother
    · rfl
    · rfl
  unfold keysAfter StorageCall.keyAfter
  cases c.operation.action with
  | provision =>
    cases hmints : c.mints (w.keyFor bucket) with
    | false => exact hkept
    | true =>
      change Option.map _ (List.find? _ (_ ++ [(bucket, c.minted bucket)])) =
        if other = bucket then some (c.minted bucket) else w.keyFor other
      rw [List.find?_append, Option.map_or, hdropped]
      split_ifs with hother
      · rw [hother, List.find?_cons_of_pos (by simp)]
        rfl
      · rw [List.find?_cons_of_neg (by simpa using Ne.symm hother), List.find?_nil, Option.map_none,
          Option.or_none]
  | delete => exact hdropped
  | _ => exact hkept

theorem directoriesAfter_of_bucket (w : Storage) (h : c.bucket = some bucket) (other : String) :
    w.directoriesAfter c (w.path other) =
      if other = bucket then c.standsAfter (w.directories (w.path bucket))
      else w.directories (w.path other) := by
  have hsame : w.directories (w.path other) =
      if other = bucket then w.directories (w.path bucket) else w.directories (w.path other) := by
    split_ifs with hother
    · rw [hother]
    · rfl
  have hset : ∀ present, Function.update w.directories (w.path bucket) present (w.path other) =
      if other = bucket then present else w.directories (w.path other) := by
    intro present
    rw [Function.update_apply]
    exact if_congr w.path_injective.eq_iff rfl rfl
  unfold directoriesAfter StorageCall.standsAfter
  rw [h]
  dsimp only
  cases c.operation.action with
  | provision =>
    cases hpresent : w.directories (w.path bucket) with
    | true =>
      have hagain : Function.update w.directories (w.path bucket) true = w.directories := by
        rw [← hpresent, Function.update_eq_self]
      rw [hpresent] at hsame
      simp only [Bool.true_and, Bool.true_or, hagain, ite_self]
      exact hsame
    | false =>
      rw [hpresent] at hsame
      cases hcreate : c.createDirAll.isOk with
      | true => exact hset true
      | false => exact hsame
  | delete =>
    cases hpresent : w.directories (w.path bucket) with
    | true =>
      rw [hpresent] at hsame
      cases hremove : c.removeDirAll.isOk with
      | true => exact hset false
      | false => exact hsame
    | false =>
      rw [hpresent] at hsame
      exact hsame
  | _ => exact hsame

theorem keyFor_next_call (hbacked : w.Backed) (h : c.bucket = some bucket) (other : String) :
    (storage.next w (.call c)).keyFor other =
      if other = bucket then c.keyAfter bucket (w.keyFor bucket) else w.keyFor other := by
  rw [← keyFor_keysAfter, ← (execute_of_bucket hbacked h).1]
  rfl

theorem next_call_of_none (h : c.bucket = none) : storage.next w (.call c) = w := by
  have hdirectories : w.directoriesAfter c = w.directories := by
    unfold directoriesAfter
    rw [h]
  change ({ w with directories := w.directoriesAfter c, keys := (w.execute c).1.keys } : Storage) = w
  rw [hdirectories, (execute_of_none h).1]

/-- **The directory of every key stands**, whatever the step. -/
theorem Backed.next (hbacked : w.Backed) (step : StorageStep) : (storage.next w step).Backed := by
  cases step with
  | restart => exact fun bucket hkey => absurd rfl hkey
  | call c =>
    cases h : c.bucket with
    | none =>
      rw [next_call_of_none h]
      exact hbacked
    | some bucket =>
      intro other hkey
      rw [keyFor_next_call hbacked h] at hkey
      refine (w.directoriesAfter_of_bucket h other).trans ?_
      split_ifs at hkey ⊢ with hother
      · unfold StorageCall.keyAfter at hkey
        unfold StorageCall.standsAfter
        cases haction : c.operation.action with
        | provision =>
          rw [haction] at hkey
          dsimp only at hkey ⊢
          split_ifs at hkey with hmints
          · have hcreate := (Bool.and_eq_true_iff.mp (Bool.and_eq_true_iff.mp hmints).1).2
            rw [hcreate, Bool.or_true]
          · rw [hbacked bucket hkey, Bool.true_or]
        | delete =>
          rw [haction] at hkey
          exact absurd rfl hkey
        | _ =>
          rw [haction] at hkey
          exact hbacked bucket hkey
      · exact hbacked other hkey

theorem keyFor_next (hbacked : w.Backed) (step : StorageStep)
    (h : step.concerns bucket = true) :
    (storage.next w step).keyFor bucket = step.key bucket (w.keyFor bucket) := by
  cases step with
  | restart => rfl
  | call c =>
    rw [keyFor_next_call hbacked (of_decide_eq_true h), if_pos rfl]
    rfl

theorem keyFor_next_of_not_concerns (hbacked : w.Backed) (step : StorageStep)
    (h : step.concerns bucket = false) :
    (storage.next w step).keyFor bucket = w.keyFor bucket := by
  cases step with
  | restart => cases h
  | call c =>
    have hother : c.bucket ≠ some bucket := of_decide_eq_false h
    cases hbucket : c.bucket with
    | none => rw [next_call_of_none hbucket]
    | some other =>
      rw [keyFor_next_call hbacked hbucket, if_neg]
      rintro rfl
      exact hother hbucket

theorem stands_next (w : Storage) (step : StorageStep) (h : step.concerns bucket = true) :
    (storage.next w step).directories (w.path bucket) =
      step.stands (w.directories (w.path bucket)) := by
  cases step with
  | restart => rfl
  | call c =>
    refine (w.directoriesAfter_of_bucket (of_decide_eq_true h) bucket).trans ?_
    rw [if_pos rfl]
    rfl

theorem stands_next_of_not_concerns (w : Storage) (step : StorageStep)
    (h : step.concerns bucket = false) :
    (storage.next w step).directories (w.path bucket) = w.directories (w.path bucket) := by
  cases step with
  | restart => cases h
  | call c =>
    have hother : c.bucket ≠ some bucket := of_decide_eq_false h
    cases hbucket : c.bucket with
    | none => rw [next_call_of_none hbucket]
    | some other =>
      refine (w.directoriesAfter_of_bucket hbucket bucket).trans (if_neg ?_)
      rintro rfl
      exact hother hbucket

theorem path_next (w : Storage) (step : StorageStep) : (storage.next w step).path = w.path := by
  cases step <;> rfl

end Storage

/-! ## Runs -/

/-- The key of a bucket after the steps that concern it, from a fresh process. -/
def keyHistory (bucket : String) (steps : List StorageStep) : Option ScopedKey :=
  (steps.filter (StorageStep.concerns bucket)).foldl (StorageStep.key bucket) none

/-- Whether the directory of a bucket stands after the steps that concern it. -/
def directoryHistory (bucket : String) (present : Bool) (steps : List StorageStep) : Bool :=
  (steps.filter (StorageStep.concerns bucket)).foldl StorageStep.stands present

theorem keyHistory_concat (bucket : String) (steps : List StorageStep) (step : StorageStep) :
    keyHistory bucket (steps ++ [step]) =
      if step.concerns bucket then step.key bucket (keyHistory bucket steps)
      else keyHistory bucket steps := by
  unfold keyHistory
  rw [List.filter_append, List.foldl_append]
  split_ifs with h
  · rw [List.filter_cons_of_pos h]
    rfl
  · rw [List.filter_cons_of_neg h]
    rfl

/-- The steps after a mint that leave the key held: no restart, and no delete of its bucket. -/
def SparesKey (bucket : String) (after : List StorageStep) : Prop :=
  .restart ∉ after ∧
    ∀ c, .call c ∈ after → c.bucket = some bucket → c.operation.action ≠ .delete

theorem SparesKey.concat {bucket : String} {after : List StorageStep} (h : SparesKey bucket after)
    {c : StorageCall} (hc : c.bucket = some bucket → c.operation.action ≠ .delete) :
    SparesKey bucket (after ++ [.call c]) := by
  refine ⟨fun hmem => ?_, fun d hd => ?_⟩
  · obtain hmem | hmem := List.mem_append.mp hmem
    · exact h.1 hmem
    · cases List.mem_singleton.mp hmem
  · obtain hd | hd := List.mem_append.mp hd
    · exact h.2 d hd
    · obtain rfl := StorageStep.call.inj (List.mem_singleton.mp hd)
      exact hc

/-- **Where a key is from.** A key that is held was minted by one provision of its bucket, and after
it came neither a restart nor a delete of the bucket. -/
theorem key_origin {bucket : String} {steps : List StorageStep} {key : ScopedKey}
    (h : keyHistory bucket steps = some key) :
    ∃ before c after, steps = before ++ .call c :: after ∧ c.bucket = some bucket ∧
      c.operation.action = .provision ∧ key = c.minted bucket ∧ SparesKey bucket after := by
  induction steps using List.reverseRecOn with
  | nil => cases h
  | append_singleton steps step ih =>
    have hkept : ∀ c, step = .call c → keyHistory bucket steps = some key →
        (c.bucket = some bucket → c.operation.action ≠ .delete) →
        ∃ before d after, steps ++ [step] = before ++ .call d :: after ∧ d.bucket = some bucket ∧
          d.operation.action = .provision ∧ key = d.minted bucket ∧ SparesKey bucket after := by
      rintro c rfl hheld hc
      obtain ⟨before, d, after, rfl, hbucket, haction, hkey, hspares⟩ := ih hheld
      exact ⟨before, d, after ++ [.call c], by simp, hbucket, haction, hkey, hspares.concat hc⟩
    rw [keyHistory_concat] at h
    cases step with
    | restart =>
      have hconcerns : StorageStep.restart.concerns bucket = true := rfl
      rw [if_pos hconcerns] at h
      cases h
    | call c =>
      by_cases hbucket : c.bucket = some bucket
      · have hconcerns : (StorageStep.call c).concerns bucket = true := decide_eq_true hbucket
        rw [if_pos hconcerns] at h
        change c.keyAfter bucket (keyHistory bucket steps) = some key at h
        unfold StorageCall.keyAfter at h
        cases haction : c.operation.action with
        | provision =>
          rw [haction] at h
          dsimp only at h
          split_ifs at h with hmints
          · exact ⟨steps, c, [], rfl, hbucket, haction, (Option.some_inj.mp h).symm, List.not_mem_nil,
              fun d hd => absurd hd List.not_mem_nil⟩
          · exact hkept c rfl h fun _ => by rw [haction]; decide
        | delete =>
          rw [haction] at h
          cases h
        | _ =>
          rw [haction] at h
          exact hkept c rfl h fun _ => by rw [haction]; decide
      · have hconcerns : ¬ (StorageStep.call c).concerns bucket = true := mt of_decide_eq_true hbucket
        rw [if_neg hconcerns] at h
        exact hkept c rfl h fun hsame => absurd hsame hbucket

/-- **Buckets over time.** After any steps from a fresh process, under whatever directories it finds:
the key and the directory of a bucket come from the steps that concern it alone, the directory of
every key stands, a key is from a provision that neither a restart nor a delete followed, and a call
answers that its resource is ready exactly if that history says so. -/
theorem bucket_history (root : String) (directories : String → Bool) (steps : List StorageStep) :
    let w := storage.run ⟨root, directories, []⟩ steps
    let stands := fun bucket => directoryHistory bucket (directories (root ++ "/" ++ bucket)) steps
    (∀ bucket, w.keyFor bucket = keyHistory bucket steps ∧
      w.directories (root ++ "/" ++ bucket) = stands bucket) ∧
    (∀ bucket key, keyHistory bucket steps = some key → stands bucket = true ∧
      ∃ before c after, steps = before ++ .call c :: after ∧ c.bucket = some bucket ∧
        c.operation.action = .provision ∧ key = c.minted bucket ∧ SparesKey bucket after) ∧
    ∀ c, answersReady (w.execute c).2 = true ↔
      ∃ bucket, c.bucket = some bucket ∧
        c.ready (keyHistory bucket steps) (stands bucket) = true := by
  intro w stands
  have hfresh : (⟨root, directories, []⟩ : Storage).Backed := fun bucket hkey => absurd rfl hkey
  have hguarded : storage.Guarded (fun w _ => w.Backed) ⟨root, directories, []⟩ steps :=
    storage.guarded_of_invariant (fun w step hw _ => ⟨hw.next step, hw⟩) _ steps hfresh
      (storage.guarded_true _ steps)
  have hbacked : w.Backed := storage.run_invariant_all (fun w step hw => hw.next step) _ steps hfresh
  have hpath : w.path = fun bucket => root ++ "/" ++ bucket :=
    storage.run_invariant_all (fun w step hw => (w.path_next step).trans hw) _ steps rfl
  have hviews : ∀ bucket, w.keyFor bucket = keyHistory bucket steps ∧
      w.directories (root ++ "/" ++ bucket) = stands bucket := by
    intro bucket
    constructor
    · exact storage.view_run_filter (fun w => w.keyFor bucket)
        (fun w step hw h => Storage.keyFor_next_of_not_concerns hw step h)
        (fun w step hw h => Storage.keyFor_next hw step h) _ steps hguarded
    · have hstands := storage.view_run_filter (fun w => w.directories (w.path bucket))
        (fun w step _ h => by rw [w.path_next]; exact w.stands_next_of_not_concerns step h)
        (fun w step _ h => by rw [w.path_next]; exact w.stands_next step h) _ steps hguarded
      change w.directories (w.path bucket) = _ at hstands
      rw [hpath] at hstands
      exact hstands
  refine ⟨hviews, fun bucket key hkey => ⟨?_, key_origin hkey⟩, fun c => ?_⟩
  · rw [← (hviews bucket).2, ← congrFun hpath bucket]
    refine hbacked bucket ?_
    rw [(hviews bucket).1, hkey]
    exact Option.some_ne_none key
  · cases hbucket : c.bucket with
    | none =>
      rw [(Storage.execute_of_none hbucket).2]
      constructor
      · intro h
        cases h
      · rintro ⟨bucket, h, -⟩
        cases h
    | some bucket =>
      rw [(Storage.execute_of_bucket hbacked hbucket).2, (hviews bucket).1, hpath, (hviews bucket).2]
      refine ⟨fun h => ⟨bucket, rfl, h⟩, ?_⟩
      rintro ⟨other, hother, h⟩
      obtain rfl := Option.some_inj.mp hother
      exact h

end Labrys.ControlPlane
