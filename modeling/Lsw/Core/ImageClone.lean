import Lsw.Core.SealedImage
import Lsw.Core.StoredManifest

/-!
# Cloning an Instance

`ImageManager::clone_instance` makes an instance whose disk is an overlay of a sealed image
(`image.rs`).  `StateStore::create` makes its directory and cleans up after itself, not always
completely; what follows is a closure, and when that fails the directory is removed by
`StateStore::remove`, which reads the manifest first and deletes nothing if it cannot.
-/

namespace Lsw.Core.Image

open Lsw.Lib

/-! ## Cloning -/

/-- The steps of `clone_instance`, but for those of `StateStore::create`. -/
inductive CloneCall where
  | loadSource
  | load (call : LoadCall)
  | hashIso
  | hashFirmware
  -- the closure
  | runDirectory
  | swtpmDirectory
  | copyFirmware
  | findQemuImg
  | canonicalize
  | startOverlay
  | overlay
  | protectOverlay
  | seedDirectory
  | marker
  | name
  | readToken
  | token
  /-- What `StateStore::remove` reads. -/
  | readManifest
  deriving DecidableEq, Repr

/-- What a `clone_instance` finds, and the steps of it that fail. -/
structure CloneEnv where
  fails : CloneCall → Bool
  creation : Creation.Env
  fs : HostFs
  /-- `SystemTime::now().duration_since(UNIX_EPOCH)`. -/
  clock : Except String UInt64
  sourceIso : List UInt8
  firmware : List UInt8
  exitStatus : Option Int := some 1
  capabilities : HostCapabilities

/-- `DEFAULT_HIBERNATE_TIMEOUT_SECONDS`. -/
def defaultHibernateTimeoutSeconds : UInt64 := 5 * 60

/-- `InstanceManifest::new`. -/
def newManifest (fs : HostFs) (clock : Except String UInt64) (spec : InstanceSpec) :
    Result InstanceManifest := do
  spec.validateForCreate fs
  let createdUnixSeconds ← clock.mapError fun error =>
    .invalidValue "system clock" [.text error]
  return {
    version := manifestVersion
    controlPort := ← controlPortForInstance spec.name
    spec
    state := .configured
    createdUnixSeconds
    idleTimeoutSeconds := defaultIdleTimeoutSeconds
    hibernateTimeoutSeconds := defaultHibernateTimeoutSeconds
    idlePolicy := .off
    memoryMinMib := min spec.memoryMib 2048
    stateChangedUnixSeconds := createdUnixSeconds
    baseImageKey := none
    defaultUser := none
    defaultUserRole := none
    scopedLiveShareCredential := true
    folderShares := [] }

/-- The files of a directory that `create` has made, as the store has them. -/
def storedDir (files : Creation.Files) : InstanceDir where
  manifest := (files.lookup Creation.manifestFile).bind fromUtf8
  token := (files.lookup Creation.tokenFile).bind fromUtf8

/-- `StateStore::create` on a file system that fails: what it leaves joins the other instances. -/
def createInstance (env : Creation.Env) (manifest : InstanceManifest) :
    Effect StateStore LswError PathBuf := fun store =>
  let found : Option Creation.Files := (store.dir? manifest.spec.name).map fun _ => []
  let (result, disk) := env.create manifest ⟨store, found⟩
  match found, disk.dir with
  | none, some files =>
    (result, { store with
      instances := store.instances ++ [(manifest.spec.name, storedDir files)] })
  | _, _ => (result, store)

namespace CloneEnv

variable (sha256 : Sha256) (env : CloneEnv) (images : Images)

/-- The steps that do not take place. -/
def stops : CloneCall → Bool
  | .findQemuImg => env.capabilities.qemuImg.isNone
  | which => env.fails which

/-- The manifest of the clone. -/
def cloneManifest (source : InstanceManifest) (image : SealedImage) (target : Str) :
    Result InstanceManifest := do
  let manifest ← newManifest env.fs env.clock {
    name := target
    sourceIso := source.spec.sourceIso
    profile := source.spec.profile
    cpus := source.spec.cpus
    memoryMib := source.spec.memoryMib
    diskGib := source.spec.diskGib
    network := source.spec.network
    portForwards := []
    licenseAccepted := source.spec.licenseAccepted
    allowUnsupportedRequirements := source.spec.allowUnsupportedRequirements }
  return { manifest with
    state := .stopped
    baseImageKey := some image.key
    idleTimeoutSeconds := source.idleTimeoutSeconds
    hibernateTimeoutSeconds := source.hibernateTimeoutSeconds
    idlePolicy := source.idlePolicy
    memoryMinMib := min source.memoryMinMib manifest.spec.memoryMib
    scopedLiveShareCredential := source.scopedLiveShareCredential }

/-- `clone_instance`, up to the creation of the target. -/
def prepare (sourceName target : Str) (store : StateStore) : Result InstanceManifest := do
  let changed : LswError := .invalidValue "sealed image"
    [.text "source manifest no longer matches the sealed image contract"]
  call env.fails .loadSource
  let source ← store.load sourceName
  let key ← okOr source.baseImageKey (.invalidValue "sealed image" [.text "instance ",
    .debug sourceName, .text " is not sealed; run `lsw image seal ", .shown sourceName, .text "`"])
  let image ← loadImage sha256 (fun which => env.fails (.load which)) store.root key
    ((images.lookup key).getD {}) false
  rejectIf (image.profile ≠ source.spec.profile.text.toList) changed
  call env.fails .hashIso
  rejectIf (hexDigest sha256 env.sourceIso ≠ image.sourceIsoSha256) changed
  let _ ← okOr (env.capabilities.firmwareCode source.spec.profile)
    (.missingCapabilities ["OVMF code firmware"])
  call env.fails .hashFirmware
  rejectIf (hexDigest sha256 env.firmware ≠ image.firmwareSha256) (.invalidValue "sealed image"
    [.text "current OVMF firmware does not match the sealed image contract"])
  env.cloneManifest source image target

/-- `write_clone_identity`. -/
def writeCloneIdentity (target : Str) (store : StateStore) : Result Unit := do
  call env.fails .seedDirectory
  call env.fails .marker
  call env.fails .name
  call env.fails .readToken
  let _ ← store.readAgentToken target
  call env.fails .token

/-- The closure of `clone_instance`.  The files that it makes are none that the store reads. -/
def furnish (target : Str) (store : StateStore) : Result Unit := do
  call env.fails .runDirectory
  call env.fails .swtpmDirectory
  call env.fails .copyFirmware
  let qemuImg ← okOr env.capabilities.qemuImg (.missingCapabilities ["qemu-img"])
  call env.fails .canonicalize
  call env.fails .startOverlay
  rejectIf (env.fails .overlay = true) (.externalCommandFailed qemuImg env.exitStatus)
  call env.fails .protectOverlay
  env.writeCloneIdentity target store

/-- `let _ = self.store.remove(target_name)`. -/
def removeTarget (target : Str) (store : StateStore) : StateStore :=
  if env.fails .readManifest then store else (StateStore.remove target store).2

end CloneEnv

/-- `ImageManager::clone_instance`. -/
def ImageManager.cloneInstance (sha256 : Sha256) (env : CloneEnv) (images : Images)
    (sourceName target : Str) : Effect StateStore LswError PathBuf := do
  let manifest ← Effect.check fun store => env.prepare sha256 images sourceName target store
  let path ← createInstance env.creation manifest
  (Effect.check fun store => env.furnish target store).onError (env.removeTarget target)
  return path

/-! ## What cloning leaves -/

/-- The steps of the closure. -/
def furnishCalls : List CloneCall :=
  [.runDirectory, .swtpmDirectory, .copyFirmware, .findQemuImg, .canonicalize, .startOverlay,
    .overlay, .protectOverlay, .seedDirectory, .marker, .name, .readToken, .token]

/-- The steps of `clone_instance` from the one that makes the directory on. -/
def cloneCalls : List (Creation.Call ⊕ CloneCall) :=
  Creation.changingCalls.map .inl ++ furnishCalls.map .inr

/-- The steps of `clone_instance` that do not take place. -/
def CloneEnv.stopsAt (env : CloneEnv) : Creation.Call ⊕ CloneCall → Bool :=
  Sum.elim env.creation.fails env.stops

/-- The steps whose failure leaves the directory there: some of `create`, and all of the closure if
    the manifest cannot be read. -/
def CloneEnv.leaves (env : CloneEnv) : Creation.Call ⊕ CloneCall → Bool :=
  Sum.elim Creation.Call.leaves fun _ => env.fails .readManifest

section Clone

variable {sha256 : Sha256} {env : CloneEnv} {images : Images} {sourceName target encoded : Str}
  {store : StateStore} {manifest : InstanceManifest} {path : PathBuf}

/-- What the manifest of a clone is like. -/
structure IsClone (target : Str) (manifest : InstanceManifest) : Prop where
  name_eq : manifest.spec.name = target
  readable : Readable manifest
  state_eq : manifest.state = .stopped

theorem isClone_of_prepare (h : env.prepare sha256 images sourceName target store = .ok manifest) :
    IsClone target manifest := by
  unfold CloneEnv.prepare CloneEnv.cloneManifest newManifest at h
  simp only [bind_eq_ok, pure_eq_ok_iff] at h
  obtain ⟨_, -, source, -, key, -, image, -, _, -, _, -, _, -, _, -, _, -, _, -, made,
    ⟨_, -, created, -, port, hport, rfl⟩, rfl⟩ := h
  exact ⟨rfl, ⟨rfl, hport, by simp⟩, rfl⟩

theorem lookup_eq_none_iff_dir? : store.dir? target = none ↔
    ∀ entry ∈ store.instances, entry.1 ≠ target := by
  rw [StateStore.dir?, List.lookup_eq_none_iff]
  exact forall₂_congr fun entry _ => by rw [bne_iff_ne]; exact ne_comm

/-- The store with one more instance. -/
def withInstance (store : StateStore) (name : Str) (dir : InstanceDir) : StateStore :=
  { store with instances := store.instances ++ [(name, dir)] }

@[simp] theorem dir?_withInstance (hnew : store.dir? target = none) (dir : InstanceDir) :
    (withInstance store target dir).dir? target = some dir := by
  rw [StateStore.dir?] at hnew
  simp [withInstance, StateStore.dir?, List.lookup_append, hnew]

/-- The directory that `create` makes, when it succeeds. -/
def CloneEnv.madeDir (env : CloneEnv) (encoded : Str) : InstanceDir where
  manifest := some encoded
  token := some (Creation.hexEncode env.creation.random.toList ++ ['\n'])

/-- `create` adds the directory, or changes nothing unless the first step that fails is one that
    leaves something. -/
theorem createInstance_staged (env : CloneEnv) (hnew : store.dir? manifest.spec.name = none)
    (h : env.creation.prepare manifest ⟨store, none⟩ = .ok (encoded, path)) :
    Effect.Staged env.creation.fails Creation.changingCalls (createInstance env.creation manifest)
      store (fun made after => made = path ∧
        after = withInstance store manifest.spec.name (env.madeDir encoded))
      (fun call after => (call.leaves = false → after = store) ∧
        (call.leaves = true → after.dir? manifest.spec.name ≠ none)) := by
  -- What `create` does to the one directory it is about.
  have hcreate := Creation.create_staged h
  unfold Effect.Staged at hcreate ⊢
  -- The store gets this directory, if there is one afterwards.
  have hrun : createInstance env.creation manifest store =
      match (env.creation.create manifest ⟨store, none⟩).2.dir with
      | some files => ((env.creation.create manifest ⟨store, none⟩).1,
          withInstance store manifest.spec.name (storedDir files))
      -- No call fails: the texts of both files are those that were written.
      | none => ((env.creation.create manifest ⟨store, none⟩).1, store) := by
    rw [createInstance, hnew]
    cases hdir : (env.creation.create manifest ⟨store, none⟩).2.dir with
    | none => simp [hdir]
    | some files => simp [hdir, withInstance]
  rw [hrun]
  cases hfirst : Creation.changingCalls.find? env.creation.fails with
  | none =>
    rw [hfirst] at hcreate
    obtain ⟨made, after, hmade, rfl, files, hfiles, hmanifest, htoken⟩ := hcreate
    rw [hmade, hfiles]
    refine ⟨made, _, rfl, rfl, ?_⟩
    rw [storedDir, hmanifest, htoken, Option.bind_some, Option.bind_some, fromUtf8_bytes,
      fromUtf8_bytes]
    rfl
  -- One fails: the directory is there exactly when the call leaves it.
  | some call =>
    rw [hfirst] at hcreate
    obtain ⟨e, after, hmade, hiff⟩ := hcreate
    rw [hmade]
    cases hdir : after.dir with
    | none =>
      refine ⟨e, store, rfl, fun _ => rfl, fun hleaves => ?_⟩
      rw [hiff.mp hdir] at hleaves
      cases hleaves
    | some files =>
      refine ⟨e, _, rfl, fun hgone => ?_, fun _ => ?_⟩
      · rw [hiff.mpr hgone] at hdir
        cases hdir
      · rw [dir?_withInstance hnew]
        simp

/-- A creation that does not get as far as the directory changes nothing. -/
theorem createInstance_refused {e : LswError}
    (h : env.creation.prepare manifest
      ⟨store, (store.dir? manifest.spec.name).map fun _ => []⟩ = .error e) :
    createInstance env.creation manifest store = (.error e, store) := by
  have hrun : env.creation.create manifest
      ⟨store, (store.dir? manifest.spec.name).map fun _ => []⟩ = (.error e, _) :=
    Effect.check_bind_error h
  rw [createInstance, hrun]
  cases store.dir? manifest.spec.name <;> rfl

/-! ### The closure -/

section Made

variable (env : CloneEnv) (hclone : IsClone target manifest) (hnew : store.dir? target = none)
  (hencode : manifest.encode = .ok encoded)
include hclone hencode

theorem instanceDir_of_clone (store : StateStore) :
    store.instanceDir target = .ok ((store.root.join "instances".toList).join target) := by
  have hname : isName 63 manifest.spec.name = true :=
    (encode_eq_ok_iff.mp hencode).1.spec.name_valid
  have hvalid : validateInstanceName target = .ok () := by
    simp [validateInstanceName, ← hclone.name_eq, hname]
  rw [StateStore.instanceDir, hvalid]
  rfl

include hnew

/-- The token of the new instance can be read. -/
theorem readAgentToken_of_clone :
    (withInstance store target (env.madeDir encoded)).readAgentToken target =
      .ok (Creation.hexEncode env.creation.random.toList) := by
  have htoken := InstanceIdentity.isToken_hexEncode env.creation.random
  have htrim := InstanceIdentity.trim_tokenLine htoken
  rw [InstanceIdentity.isToken, Bool.and_eq_true, beq_iff_eq] at htoken
  rw [StateStore.readAgentToken, instanceDir_of_clone hclone hencode, ok_bind,
    dir?_withInstance hnew, okOr_some, ok_bind, CloneEnv.madeDir, okOr_some, ok_bind]
  dsimp only
  rw [← InstanceIdentity.tokenLine, htrim, rejectIf_of_not _ (not_not.mpr htoken)]
  rfl

/-- The closure succeeds when all of its steps take place. -/
theorem furnish_eq_ok_iff :
    env.furnish target (withInstance store target (env.madeDir encoded)) = .ok () ↔
      ∀ which ∈ furnishCalls, env.stops which = false := by
  have htoken := readAgentToken_of_clone env hclone hnew hencode
  have hqemu : (∃ qemuImg, env.capabilities.qemuImg = some qemuImg) ↔
      env.capabilities.qemuImg.isNone = false := by
    cases env.capabilities.qemuImg <;> simp
  simp only [CloneEnv.furnish, CloneEnv.writeCloneIdentity, call, bind_eq_ok, rejectIf_eq_ok,
    okOr_eq_ok, htoken, furnishCalls, List.forall_mem_cons, CloneEnv.stops, ← hqemu]
  simp

/-- Furnishing a clone changes nothing of the store. -/
theorem furnish_staged :
    Effect.Staged env.stops furnishCalls (Effect.check fun store => env.furnish target store)
      (withInstance store target (env.madeDir encoded))
      (fun _ after => after = withInstance store target (env.madeDir encoded))
      fun _ after => after = withInstance store target (env.madeDir encoded) := by
  have hiff := furnish_eq_ok_iff env hclone hnew hencode
  apply Effect.Staged.check
  · intro hstops
    exact ⟨(), hiff.mpr hstops, rfl⟩
  · intro step hstep hstop
    refine ⟨?_, rfl⟩
    cases hrun : env.furnish target (withInstance store target (env.madeDir encoded)) with
    | error e => exact ⟨e, rfl⟩
    | ok u =>
      have hworks := hiff.mp hrun step hstep
      rw [hstop] at hworks
      cases hworks

/-- `remove` removes what `create` has made, and may forget that it was the default. -/
theorem remove_of_clone :
    ∃ default, (StateStore.remove target (withInstance store target (env.madeDir encoded))).2 =
      { store with defaultInstance := default } := by
  have hdir := dir?_withInstance hnew (env.madeDir encoded)
  -- The clone can be loaded, since its manifest is what was encoded.
  have hload : (withInstance store target (env.madeDir encoded)).load target = .ok manifest := by
    rw [StateStore.load, instanceDir_of_clone hclone hencode, ok_bind, hdir, okOr_some, ok_bind]
    exact decode_encode hencode hclone.readable
  -- It is stopped, so that it may be removed.
  have hinactive : StateStore.isActive manifest.state = false := by
    rw [hclone.state_eq]
    rfl
  have hrun : StateStore.remove target (withInstance store target (env.madeDir encoded)) =
      (.ok (), ((withInstance store target (env.madeDir encoded)).removeDir target).dropDefault
        target) := by
    simp only [StateStore.remove, Effect.check_bind_eq_ok, rejectIf_eq_ok]
    exact ⟨_, instanceDir_of_clone hclone hencode _, (), by simp [hdir], manifest, hload, (),
      by simp [hinactive], rfl⟩
  -- Its directory is the only one that goes.
  have hgone : (withInstance store target (env.madeDir encoded)).removeDir target = store := by
    have hothers : store.instances.filter (fun entry => decide (entry.1 ≠ target)) =
        store.instances :=
      List.filter_eq_self.mpr fun entry hentry =>
        decide_eq_true (lookup_eq_none_iff_dir?.mp hnew entry hentry)
    rw [StateStore.removeDir, withInstance]
    dsimp only
    rw [List.filter_append, hothers]
    simp
  rw [hrun, hgone, StateStore.dropDefault]
  split
  · exact ⟨none, rfl⟩
  · exact ⟨store.defaultInstance, rfl⟩

end Made

/-! ### Whole clones -/

/-- Removed is the directory, unless the manifest cannot be read. -/
theorem removeTarget_of_clone (env : CloneEnv) (hclone : IsClone target manifest) (hnew : store.dir? target = none)
    (hencode : manifest.encode = .ok encoded) :
    (env.fails .readManifest = false →
      ∃ default, env.removeTarget target (withInstance store target (env.madeDir encoded)) =
        { store with defaultInstance := default }) ∧
    (env.fails .readManifest = true →
      (env.removeTarget target (withInstance store target (env.madeDir encoded))).dir? target ≠
        none) := by
  rw [CloneEnv.removeTarget]
  cases env.fails .readManifest with
  | false => exact ⟨fun _ => remove_of_clone env hclone hnew hencode, fun h => by cases h⟩
  | true =>
    refine ⟨fun h => Bool.noConfusion h, fun _ => ?_⟩
    rw [if_pos rfl, dir?_withInstance hnew]
    simp

/-- Once its checks have passed, `clone_instance` makes the instance, or leaves what was there unless
    the first step that fails is one that leaves something. -/
theorem clone_staged (hprepare : env.prepare sha256 images sourceName target store = .ok manifest)
    (hnew : store.dir? target = none)
    (hcreate : env.creation.prepare manifest ⟨store, none⟩ = .ok (encoded, path)) :
    Effect.Staged env.stopsAt cloneCalls
      (ImageManager.cloneInstance sha256 env images sourceName target) store
      (fun made after => made = path ∧ after = withInstance store target (env.madeDir encoded))
      (fun step after =>
        (env.leaves step = false → ∃ default, after = { store with defaultInstance := default }) ∧
        (env.leaves step = true → after.dir? target ≠ none)) := by
  have hclone := isClone_of_prepare hprepare
  have hencode := (Creation.prepare_eq_ok hcreate).1
  have hname := hclone.name_eq
  have hrun : ImageManager.cloneInstance sha256 env images sourceName target store = (do
      let path ← createInstance env.creation manifest
      (Effect.check fun store => env.furnish target store).onError (env.removeTarget target)
      return path : Effect StateStore LswError PathBuf) store :=
    Effect.check_bind_ok (f := fun store => env.prepare sha256 images sourceName target store)
      hprepare
  unfold Effect.Staged
  rw [hrun]
  -- First the steps of `create`, then those of the closure.
  have hfirst : Effect.Staged env.stopsAt (Creation.changingCalls.map .inl)
      (createInstance env.creation manifest) store
      (fun made after => made = path ∧ after = withInstance store target (env.madeDir encoded))
      (fun step after =>
        (env.leaves step = false → ∃ default, after = { store with defaultInstance := default }) ∧
        (env.leaves step = true → after.dir? target ≠ none)) := by
    have hstaged := createInstance_staged env (hname ▸ hnew) hcreate
    rw [hname] at hstaged
    apply Effect.Staged.map
    refine hstaged.imp (fun _ _ => id) fun call after hcall => ?_
    exact ⟨fun hgone => ⟨store.defaultInstance, hcall.1 hgone⟩, hcall.2⟩
  refine hfirst.bind ?_
  rintro _ _ ⟨rfl, rfl⟩
  have hfurnish := furnish_staged env hclone hnew hencode
  have hremove := removeTarget_of_clone env hclone hnew hencode
  have hsecond : Effect.Staged env.stopsAt (furnishCalls.map .inr)
      ((Effect.check fun store => env.furnish target store).onError (env.removeTarget target))
      (withInstance store target (env.madeDir encoded))
      (fun _ after => after = withInstance store target (env.madeDir encoded))
      (fun step after =>
        (env.leaves step = false → ∃ default, after = { store with defaultInstance := default }) ∧
        (env.leaves step = true → after.dir? target ≠ none)) := by
    apply Effect.Staged.map
    refine hfurnish.onError fun call after hafter => ?_
    rw [hafter]
    exact hremove
  refine Effect.Staged.bind hsecond ?_
  rintro _ _ rfl
  exact Effect.Staged.pure ⟨rfl, rfl⟩

theorem clone_refused {e : LswError}
    (h : env.prepare sha256 images sourceName target store = .error e) :
    ImageManager.cloneInstance sha256 env images sourceName target store = (.error e, store) :=
  Effect.check_bind_error (f := fun store => env.prepare sha256 images sourceName target store) h

theorem clone_not_created {e : LswError}
    (hprepare : env.prepare sha256 images sourceName target store = .ok manifest)
    (h : env.creation.prepare manifest
      ⟨store, (store.dir? target).map fun _ => []⟩ = .error e) :
    ImageManager.cloneInstance sha256 env images sourceName target store = (.error e, store) := by
  have hrun : ImageManager.cloneInstance sha256 env images sourceName target store = (do
      let path ← createInstance env.creation manifest
      (Effect.check fun store => env.furnish target store).onError (env.removeTarget target)
      return path : Effect StateStore LswError PathBuf) store :=
    Effect.check_bind_ok (f := fun store => env.prepare sha256 images sourceName target store)
      hprepare
  rw [← (isClone_of_prepare hprepare).name_eq] at h
  exact hrun.trans (Effect.bind_of_error (createInstance_refused h))

/-- A `clone_instance` that fails leaves no target that was not there. -/
def CloneEnv.LeavesNothing (sha256 : Sha256) (env : CloneEnv) (images : Images)
    (sourceName target : Str) (store : StateStore) : Prop :=
  ∀ e, (ImageManager.cloneInstance sha256 env images sourceName target store).1 = .error e →
    store.dir? target = none →
    (ImageManager.cloneInstance sha256 env images sourceName target store).2.dir? target = none

/-- `clone_instance` is refused, or no step that leaves something is the first to fail. -/
def CloneEnv.CleansUp (sha256 : Sha256) (env : CloneEnv) (images : Images)
    (sourceName target : Str) (store : StateStore) : Prop :=
  ∀ manifest ∈ (env.prepare sha256 images sourceName target store).toOption,
    ∀ _ ∈ (env.creation.prepare manifest ⟨store, (store.dir? target).map fun _ => []⟩).toOption,
      ∀ step ∈ cloneCalls.find? env.stopsAt, env.leaves step = false

instance decidableCloneCleansUp :
    Decidable (env.CleansUp sha256 images sourceName target store) :=
  inferInstanceAs (Decidable (∀ manifest ∈ Except.toOption _, ∀ _ ∈ Except.toOption _,
    ∀ step ∈ cloneCalls.find? env.stopsAt, env.leaves step = false))

theorem cleansUp_iff (hprepare : env.prepare sha256 images sourceName target store = .ok manifest) :
    env.CleansUp sha256 images sourceName target store ↔
      ∀ made, env.creation.prepare manifest ⟨store, (store.dir? target).map fun _ => []⟩ = .ok made →
        ∀ step, cloneCalls.find? env.stopsAt = some step → env.leaves step = false := by
  constructor
  · intro h made hmade step hstep
    exact h manifest (toOption_eq_some.mpr hprepare) made (toOption_eq_some.mpr hmade) step hstep
  · intro h other hother made hmade
    obtain rfl := Except.ok.inj (hprepare.symm.trans (toOption_eq_some.mp hother))
    exact h made (toOption_eq_some.mp hmade)

/-- A failing `clone_instance` that cleans up changes nothing but the default instance, and one that
    does not leaves a target. -/
theorem clone_cases (sha256 : Sha256) (env : CloneEnv) (images : Images)
    (sourceName target : Str) (store : StateStore) :
    (env.CleansUp sha256 images sourceName target store ∧
      (∀ e, (ImageManager.cloneInstance sha256 env images sourceName target store).1 = .error e →
        ∃ default, (ImageManager.cloneInstance sha256 env images sourceName target store).2 =
          { store with defaultInstance := default }) ∧
      (ImageManager.cloneInstance sha256 env images sourceName target store).2.root =
        store.root) ∨
    (¬ env.CleansUp sha256 images sourceName target store ∧
      (∃ e, (ImageManager.cloneInstance sha256 env images sourceName target store).1 = .error e) ∧
      store.dir? target = none ∧
      (ImageManager.cloneInstance sha256 env images sourceName target store).2.dir? target ≠
        none) := by
  -- Nothing has been written before the clone is prepared.
  cases hprepare : env.prepare sha256 images sourceName target store with
  | error e =>
    have hclean : env.CleansUp sha256 images sourceName target store := by
      intro manifest hmanifest
      cases hprepare.symm.trans (toOption_eq_some.mp hmanifest)
    rw [clone_refused hprepare]
    exact .inl ⟨hclean, fun _ _ => ⟨store.defaultInstance, rfl⟩, rfl⟩
  | ok manifest =>
    have hiff := cleansUp_iff hprepare
    -- Nor before the creation of its instance is.
    cases hcreate : env.creation.prepare manifest
        ⟨store, (store.dir? target).map fun _ => []⟩ with
    | error e =>
      have hclean := hiff.mpr fun made hmade => by cases hcreate.symm.trans hmade
      rw [clone_not_created hprepare hcreate]
      exact .inl ⟨hclean, fun _ _ => ⟨store.defaultInstance, rfl⟩, rfl⟩
    | ok prepared =>
      -- From here on there is a target directory, and no other one was there.
      obtain ⟨encoded, path⟩ := prepared
      have hnew : store.dir? target = none := by
        simpa using (Creation.prepare_eq_ok hcreate).2
      have hstaged := clone_staged hprepare hnew (by rw [hnew] at hcreate; exact hcreate)
      unfold Effect.Staged at hstaged
      -- The first call that stops decides.
      cases hfirst : cloneCalls.find? env.stopsAt with
      -- No call stops: the clone is made.
      | none =>
        rw [hfirst] at hstaged
        obtain ⟨made, after, hrun, -, rfl⟩ := hstaged
        rw [hrun]
        refine .inl ⟨hiff.mpr fun _ _ step hstep => ?_, fun e herror => ?_, rfl⟩
        · cases hfirst.symm.trans hstep
        · cases herror
      -- One does: either what was made is removed, or it is left.
      | some step =>
        rw [hfirst] at hstaged
        obtain ⟨e, after, hrun, hgone, hleft⟩ := hstaged
        rw [hrun]
        cases hstep : env.leaves step with
        | false =>
          obtain ⟨default, rfl⟩ := hgone hstep
          refine .inl ⟨hiff.mpr fun _ _ other hother => ?_, fun _ _ => ⟨default, rfl⟩, rfl⟩
          rw [← Option.some.inj (hfirst.symm.trans hother)]
          exact hstep
        -- The call that leaves the directory behind.
        | true =>
          refine .inr ⟨fun hclean => ?_, ⟨e, rfl⟩, hnew, hleft hstep⟩
          have hgood := hiff.mp hclean _ hcreate step hfirst
          rw [hstep] at hgood
          cases hgood

theorem clone_leaves_nothing_iff :
    env.LeavesNothing sha256 images sourceName target store ↔
      env.CleansUp sha256 images sourceName target store := by
  rcases clone_cases sha256 env images sourceName target store with
    ⟨hclean, hsame, -⟩ | ⟨hbroken, ⟨e, herror⟩, hnew, hthere⟩
  · refine iff_of_true (fun e herror hnew => ?_) hclean
    obtain ⟨default, hafter⟩ := hsame e herror
    rw [hafter]
    exact hnew
  · exact iff_of_false (fun hleft => hthere (hleft e herror hnew)) hbroken

end Clone

end Lsw.Core.Image
