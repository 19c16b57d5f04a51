import Lsw.Core.SealedImage

/-!
# Sealing an Image

`ImageManager::seal` makes the directory of an image and fills it (`image.rs`).  What it finds
already made when a step fails is removed by hand, but only from the line on where the closure
begins, and only up to its end.

A step is what the environment may let fail; a helper that leaves the same behind wherever it fails
is one step.  The deletions of the clean-up succeed, though `remove_dir` removes an empty directory
only.
-/

namespace Lsw.Core.Image

open Lsw.Lib

/-! ## Sealing -/

/-- The files whose digests are in the content key. -/
inductive Component where
  | sourceIso
  | agent
  | firmware
  | sourceDisk
  deriving DecidableEq, Repr

/-- The steps of `seal`, in their order. -/
inductive SealCall where
  | inspectDisk
  | hash (file : Component)
  | createImages
  -- the directory
  | makeDirectory
  | protectDirectory
  -- the closure
  | startConvert
  | convert
  | hashConverted
  | protectDisk
  | rename
  | openMetadata
  | protectMetadata
  | writeMetadata
  | syncMetadata
  /-- `load_image` of the new directory. -/
  | load (call : LoadCall)
  deriving DecidableEq, Repr

/-- What a `seal` finds, and the steps of it that fail. -/
structure SealEnv where
  fails : SealCall → Bool
  /-- How much of the metadata a failing write has written. -/
  written : Nat := 0
  /-- What `qemu-img` leaves when it fails. -/
  partialDisk : Option DiskFile := none
  exitStatus : Option Int := some 1
  /-- What `qemu-img` makes of the disk. -/
  converted : List UInt8
  contents : Component → List UInt8
  capabilities : HostCapabilities
  diskIsFile : Bool := true
  imagesIsReal : Bool := true

/-- What `seal` knows before it makes the directory. -/
structure Contract where
  key : Str
  sourceIsoSha256 : Str
  profile : Str
  agentSha256 : Str
  firmwareSha256 : Str
  sourceDiskSha256 : Str

/-- The image with the digest of its disk. -/
def Contract.image (root : PathBuf) (contract : Contract) (converted : Str) : SealedImage where
  key := contract.key
  directory := imageDirectory root contract.key
  disk := (imageDirectory root contract.key).join baseDiskFile
  sourceIsoSha256 := contract.sourceIsoSha256
  profile := contract.profile
  agentSha256 := contract.agentSha256
  firmwareSha256 := contract.firmwareSha256
  sourceDiskSha256 := contract.sourceDiskSha256
  baseDiskSha256 := converted

/-- The directory that a `seal` is about. -/
abbrev Making := Effect (Option ImageDirectory) LswError

namespace SealEnv

variable (sha256 : Sha256) (env : SealEnv) (root : PathBuf)

/-- `sha256_file`. -/
def sha256File (file : Component) : Result Str := do
  call env.fails (.hash file)
  return hexDigest sha256 (env.contents file)

/-- `create_private_directory_all` of `images`. -/
def createImagesRoot : Result Unit := do
  call env.fails .createImages
  rejectIf (env.imagesIsReal = false) (.invalidValue "private directory"
    [.shown (root.join "images".toList).display, .text " must be a real directory"])

/-- `seal`, up to the point where it looks for the directory. -/
def prepare (manifest : InstanceManifest) : Result (PathBuf × Contract) := do
  rejectIf (manifest.state ≠ .stopped ∧ manifest.state ≠ .hibernated) (.invalidValue
    "instance state" [.text "instance ", .debug manifest.spec.name,
      .text " must be stopped or hibernated before sealing"])
  rejectIf (manifest.defaultUser.isSome = true) (.invalidValue "sealed image"
    [.text "remove the permanent desktop user or seal a pristine instance before ",
      .text "user registration"])
  let qemuImg ← okOr env.capabilities.qemuImg (.missingCapabilities ["qemu-img"])
  let instanceDir ← StateStore.instanceDir { root } manifest.spec.name
  call env.fails .inspectDisk
  rejectIf (env.diskIsFile = false) (.invalidValue "system disk"
    [.shown (instanceDir.join "disk.qcow2".toList).display, .text " is not a regular file"])
  let _ ← okOr (env.capabilities.firmwareCode manifest.spec.profile)
    (.missingCapabilities ["OVMF code firmware"])
  let sourceIsoSha256 ← env.sha256File sha256 .sourceIso
  let agentSha256 ← env.sha256File sha256 .agent
  let firmwareSha256 ← env.sha256File sha256 .firmware
  let profile := manifest.spec.profile.text.toList
  let sourceDiskSha256 ← env.sha256File sha256 .sourceDisk
  let key := imageKey sha256 sourceIsoSha256 profile agentSha256 firmwareSha256 sourceDiskSha256
  env.createImagesRoot root
  return (qemuImg,
    { key, sourceIsoSha256, profile, agentSha256, firmwareSha256, sourceDiskSha256 })

/-- `fs::create_dir` of the image directory. -/
def makeDirectory : Making Unit := fun dir =>
  if env.fails .makeDirectory then (.error .io, dir) else (.ok (), some {})

/-- A step on the files of the directory. -/
def on (which : SealCall) (f : ImageDirectory → ImageDirectory) : Making Unit := fun dir =>
  if env.fails which then (.error .io, dir) else (.ok (), dir.map f)

/-- `qemu-img convert`, once it has started. -/
def runConvert (qemuImg : PathBuf) : Making Unit := fun dir =>
  if env.fails .convert then
    (.error (.externalCommandFailed qemuImg env.exitStatus),
      dir.map fun files => { files with temporaryDisk := env.partialDisk })
  else
    (.ok (), dir.map fun files => { files with temporaryDisk := some ⟨env.converted, true⟩ })

/-- `sha256_file` of the converted disk. -/
def hashConverted : Making Str := Effect.check fun dir => do
  call env.fails .hashConverted
  let disk ← okOr (dir.bind ImageDirectory.temporaryDisk) .io
  return hexDigest sha256 disk.contents

/-- `output.write_all(contents)`: a part of the contents is in the file when it fails. -/
def writeAll (text : Str) : Making Unit := fun dir =>
  if env.fails .writeMetadata then
    (.error .io, dir.map fun files => { files with metadata := some (text.take env.written) })
  else
    (.ok (), dir.map fun files => { files with metadata := some text })

/-- `OpenOptions::new().create_new(true).write(true).open(path)` of the metadata. -/
def openNew : Making Unit := do
  Effect.check fun dir =>
    rejectIf ((dir.bind ImageDirectory.metadata).isSome = true) LswError.io
  env.on .openMetadata fun files => { files with metadata := some [] }

/-- `write_new_private` of the metadata. -/
def writeNewPrivate (text : Str) : Making Unit := do
  env.openNew
  env.on .protectMetadata id
  env.writeAll text
  env.on .syncMetadata id

/-- The closure of `seal`. -/
def fill (qemuImg : PathBuf) (contract : Contract) : Making Unit := do
  env.on .startConvert id
  env.runConvert qemuImg
  let converted ← env.hashConverted sha256
  env.on .protectDisk fun files =>
    { files with temporaryDisk := files.temporaryDisk.map ({ · with writable := false }) }
  env.on .rename fun files => { files with disk := files.temporaryDisk, temporaryDisk := none }
  env.writeNewPrivate (contract.image root converted).encode

/-- The clean-up after the closure: the three files are removed, and then the directory if it is
    empty. -/
def cleanUp (dir : Option ImageDirectory) : Option ImageDirectory :=
  let emptied := dir.map fun files =>
    { files with temporaryDisk := none, disk := none, metadata := none }
  if emptied = some {} then none else emptied

/-- `seal`, of a directory that does not exist. -/
def create (qemuImg : PathBuf) (contract : Contract) : Making SealedImage := do
  env.makeDirectory
  env.on .protectDirectory id
  (env.fill sha256 root qemuImg contract).onError cleanUp
  Effect.check fun dir =>
    loadImage sha256 (fun call => env.fails (.load call)) root contract.key (dir.getD {}) false

/-- `seal`, of a directory that exists. -/
def loadExisting (contract : Contract) (files : ImageDirectory) : Result SealedImage := do
  let existing ← loadImage sha256 (fun call => env.fails (.load call)) root contract.key files true
  rejectIf (existing.key ≠ contract.key) (.invalidValue "sealed image"
    [.shown (imageDirectory root contract.key).display,
      .text " does not match its content key"])
  return existing

/-- `seal`, once it knows the content key: the directory that it makes joins the others. -/
def publish (qemuImg : PathBuf) (contract : Contract) : Effect Images LswError SealedImage :=
  fun images =>
    match images.lookup contract.key with
    | some files => (env.loadExisting sha256 root contract files, images)
    | none =>
      let (result, dir) := env.create sha256 root qemuImg contract none
      (result, images ++ (dir.map fun files => (contract.key, files)).toList)

end SealEnv

/-- `ImageManager::seal`. -/
def ImageManager.seal (sha256 : Sha256) (env : SealEnv) (root : PathBuf)
    (manifest : InstanceManifest) : Effect Images LswError SealedImage := do
  let (qemuImg, contract) ← Effect.check fun _ => env.prepare sha256 root manifest
  env.publish sha256 root qemuImg contract

/-! ## What sealing leaves -/

/-- The steps of the closure. -/
def fillCalls : List SealCall :=
  [.startConvert, .convert, .hashConverted, .protectDisk, .rename, .openMetadata, .protectMetadata,
    .writeMetadata, .syncMetadata]

/-- The steps of `seal` from the one that makes the directory on. -/
def sealCalls : List SealCall :=
  [.makeDirectory, .protectDirectory] ++ fillCalls ++ (loadCalls false).map .load

/-- The steps of `seal` whose failure leaves the directory there. -/
def SealCall.leaves : SealCall → Bool
  | .protectDirectory | .load _ => true
  | _ => false

section Seal

variable {sha256 : Sha256} {env : SealEnv} {root : PathBuf} {manifest : InstanceManifest}
  {qemuImg : PathBuf} {contract : Contract} {bad : SealCall → Option ImageDirectory → Prop}
  {files : ImageDirectory} {images : Images}

theorem sealOn_staged {which : SealCall} {f : ImageDirectory → ImageDirectory}
    (hbad : bad which (some files)) :
    Effect.Staged env.fails [which] (env.on which f) (some files)
      (fun _ after => after = some (f files)) bad := by
  apply Effect.Staged.single
  · intro h
    exact ⟨(), _, by rw [SealEnv.on, h]; rfl, rfl⟩
  · intro h
    exact ⟨.io, _, by rw [SealEnv.on, h]; rfl, hbad⟩

/-- Whatever the closure has left is removed. -/
theorem cleanUp_eq_none (dir : Option ImageDirectory) : SealEnv.cleanUp dir = none := by
  cases dir with
  | none => rfl
  | some files => simp [SealEnv.cleanUp]

/-- `write_new_private` writes a file that was not there. -/
theorem writeNewPrivate_staged {temporaryDisk disk : Option DiskFile} (text : Str) :
    Effect.Staged env.fails [.openMetadata, .protectMetadata, .writeMetadata, .syncMetadata]
      (env.writeNewPrivate text) (some { temporaryDisk, disk })
      (fun _ after => after = some { temporaryDisk, disk, metadata := some text })
      fun call _ => call ∈ fillCalls := by
  -- A new file is opened, since there is none.
  have hopen : Effect.Staged env.fails [.openMetadata] env.openNew (some { temporaryDisk, disk })
      (fun _ after => after = some { temporaryDisk, disk, metadata := some [] })
      fun call _ => call ∈ fillCalls := by
    have hrun : env.openNew (some { temporaryDisk, disk }) =
        env.on .openMetadata (fun files => { files with metadata := some [] })
          (some { temporaryDisk, disk }) :=
      Effect.check_bind_ok (rejectIf_of_not _ (by simp))
    unfold Effect.Staged
    rw [hrun]
    exact sealOn_staged (by simp [fillCalls])
  -- The text is written into it.
  have hwrite : Effect.Staged env.fails [.writeMetadata] (env.writeAll text)
      (some { temporaryDisk, disk, metadata := some [] })
      (fun _ after => after = some { temporaryDisk, disk, metadata := some text })
      fun call _ => call ∈ fillCalls := by
    apply Effect.Staged.single
    · intro h
      exact ⟨(), _, by rw [SealEnv.writeAll, h]; rfl, rfl⟩
    · intro h
      exact ⟨.io, _, by rw [SealEnv.writeAll, h]; rfl, by simp [fillCalls]⟩
  -- Its mode is set in between, and it is synchronised afterwards.
  refine hopen.bind ?_
  rintro _ _ rfl
  refine (sealOn_staged (by simp [fillCalls])).bind ?_
  rintro _ _ rfl
  refine hwrite.bind ?_
  rintro _ _ rfl
  exact sealOn_staged (by simp [fillCalls])

/-- The closure makes the directory of the image, if none of its steps fails. -/
theorem fill_staged :
    Effect.Staged env.fails fillCalls (env.fill sha256 root qemuImg contract) (some {})
      (fun _ after => after = some ((contract.image root (hexDigest sha256 env.converted)).files
        env.converted)) fun call _ => call ∈ fillCalls := by
  refine (sealOn_staged (by simp [fillCalls])).bind ?_
  rintro _ _ rfl
  -- The disk is converted into a temporary file.
  have hconvert : Effect.Staged env.fails [.convert] (env.runConvert qemuImg) (some {})
      (fun _ after => after = some { temporaryDisk := some ⟨env.converted, true⟩ })
      fun call _ => call ∈ fillCalls := by
    apply Effect.Staged.single
    · intro h
      exact ⟨(), _, by rw [SealEnv.runConvert, h]; rfl, rfl⟩
    · intro h
      exact ⟨_, _, by rw [SealEnv.runConvert, h]; rfl, by simp [fillCalls]⟩
  refine hconvert.bind ?_
  rintro _ _ rfl
  -- Its digest is taken; that changes nothing.
  have hhash : Effect.Staged env.fails [.hashConverted] (env.hashConverted sha256)
      (some { temporaryDisk := some ⟨env.converted, true⟩ })
      (fun hash after => hash = hexDigest sha256 env.converted ∧
        after = some { temporaryDisk := some ⟨env.converted, true⟩ })
      fun call _ => call ∈ fillCalls := by
    apply Effect.Staged.check
    · intro h
      refine ⟨_, ?_, rfl, rfl⟩
      rw [call, h .hashConverted List.mem_cons_self]
      rfl
    · intro step hstep h
      obtain rfl := List.mem_singleton.mp hstep
      refine ⟨⟨.io, ?_⟩, by simp [fillCalls]⟩
      rw [call, h]
      rfl
  refine hhash.bind ?_
  rintro _ _ ⟨rfl, rfl⟩
  -- It is protected and gets its name, and the metadata is written beside it.
  refine (sealOn_staged (by simp [fillCalls])).bind ?_
  rintro _ _ rfl
  refine Effect.Staged.bind (sealOn_staged (by simp [fillCalls])) ?_
  rintro _ _ rfl
  exact writeNewPrivate_staged _

/-- The image that `seal` makes. -/
def SealEnv.sealed (sha256 : Sha256) (env : SealEnv) (root : PathBuf) (contract : Contract) :
    SealedImage :=
  contract.image root (hexDigest sha256 env.converted)

/-- What is prepared makes an image that is sealed. -/
theorem sealed_of_prepare (h : env.prepare sha256 root manifest = .ok (qemuImg, contract)) :
    Sealed sha256 (env.sealed sha256 root contract) := by
  have hhash : ∀ {file digest}, env.sha256File sha256 file = .ok digest →
      isDigest digest = true := by
    intro file digest hok
    obtain ⟨_, -, hdigest⟩ := bind_eq_ok.mp hok
    rw [← (pure_eq_ok_iff _ _).mp hdigest]
    exact isDigest_hexDigest _ _
  unfold SealEnv.prepare at h
  simp only [bind_eq_ok, pure_eq_ok_iff] at h
  obtain ⟨_, -, _, -, _, -, _, -, _, -, _, -, _, -, iso, hiso, agent, hagent, firmware, hfirmware,
    disk, hdisk, _, -, h⟩ := h
  obtain ⟨-, rfl⟩ := Prod.mk.inj h
  refine ⟨?_, ?_, rfl⟩
  · simp only [SealedImage.digests, List.forall_mem_cons]
    exact ⟨isDigest_hexDigest _ _, hhash hiso, hhash hagent, hhash hfirmware, hhash hdisk,
      isDigest_hexDigest _ _, by simp⟩
  · change OneLine manifest.spec.profile.text.toList
    cases manifest.spec.profile <;> exact ⟨by decide, by decide⟩

/-- The image that `seal` has just made is loaded, if no call fails. -/
theorem load_sealed (h : Sealed sha256 (env.sealed sha256 root contract))
    {fails : LoadCall → Bool} (hfails : ∀ call ∈ loadCalls false, fails call = false) :
    loadImage sha256 fails root contract.key
        ((env.sealed sha256 root contract).files env.converted) false =
      .ok (env.sealed sha256 root contract) :=
  h.load rfl hfails

/-- `seal` of a directory that does not exist makes the image, or ends without the directory unless
    the first step that fails is one that leaves it. -/
theorem create_staged (qemuImg : PathBuf) (h : Sealed sha256 (env.sealed sha256 root contract)) :
    Effect.Staged env.fails sealCalls (env.create sha256 root qemuImg contract) none
      (fun image after => image = env.sealed sha256 root contract ∧
        after = some ((env.sealed sha256 root contract).files env.converted))
      (fun call after => after = none ↔ call.leaves = false) := by
  -- First the directory is made and protected.
  have hmake : Effect.Staged env.fails [.makeDirectory] env.makeDirectory none
      (fun _ after => after = some {}) fun call after => after = none ↔ call.leaves = false := by
    apply Effect.Staged.single
    · intro hstep
      exact ⟨(), _, by rw [SealEnv.makeDirectory, hstep]; rfl, rfl⟩
    · intro hstep
      exact ⟨_, _, by rw [SealEnv.makeDirectory, hstep]; rfl, by simp [SealCall.leaves]⟩
  refine hmake.bind ?_
  rintro _ _ rfl
  refine (sealOn_staged (by simp [SealCall.leaves])).bind ?_
  rintro _ _ rfl
  -- Then it is filled; after a failure it is cleaned up, so that nothing is left.
  refine (fill_staged.onError fun call dir hcall => ?_).bind ?_
  · have hstays : ∀ call ∈ fillCalls, call.leaves = false := by decide
    exact iff_of_true (cleanUp_eq_none dir) (hstays call hcall)
  rintro _ _ rfl
  -- Last the image is loaded, which leaves the directory where that fails.
  apply Effect.Staged.check
  · intro hfails
    refine ⟨_, load_sealed h fun call hcall => ?_, rfl, rfl⟩
    exact hfails (.load call) (List.mem_map_of_mem hcall)
  · intro step hstep hfails
    obtain ⟨call, hcall, rfl⟩ := List.mem_map.mp hstep
    refine ⟨?_, by simp [SealCall.leaves]⟩
    -- A loading that works has had no failing call.
    cases hload : loadImage sha256 (fun call => env.fails (.load call)) root contract.key
        ((env.sealed sha256 root contract).files env.converted) false with
    | error e => exact ⟨e, hload⟩
    | ok image =>
      have hworks := loadImage_calls hload call hcall
      rw [hfails] at hworks
      cases hworks

theorem seal_refused {e : LswError} (h : env.prepare sha256 root manifest = .error e) :
    ImageManager.seal sha256 env root manifest images = (.error e, images) :=
  Effect.check_bind_error h

theorem seal_prepared (hprepare : env.prepare sha256 root manifest = .ok (qemuImg, contract)) :
    ImageManager.seal sha256 env root manifest images =
      env.publish sha256 root qemuImg contract images :=
  Effect.check_bind_ok (f := fun _ => env.prepare sha256 root manifest) hprepare

theorem seal_existing (hprepare : env.prepare sha256 root manifest = .ok (qemuImg, contract))
    (hfound : images.lookup contract.key = some files) :
    ImageManager.seal sha256 env root manifest images =
      (env.loadExisting sha256 root contract files, images) := by
  refine (seal_prepared hprepare).trans ?_
  rw [SealEnv.publish, hfound]

/-- `seal` of a directory that does not exist adds that of the image, or changes nothing unless the
    first step that fails is one that leaves the directory. -/
theorem seal_staged (hprepare : env.prepare sha256 root manifest = .ok (qemuImg, contract))
    (hnew : images.lookup contract.key = none) :
    Effect.Staged env.fails sealCalls (ImageManager.seal sha256 env root manifest) images
      (fun image after => image = env.sealed sha256 root contract ∧
        after = images ++ [(contract.key,
          (env.sealed sha256 root contract).files env.converted)])
      (fun call after => (call.leaves = false → after = images) ∧
        (call.leaves = true → after.lookup contract.key ≠ none)) := by
  -- The images get the directory, if there is one afterwards.
  have hrun : ImageManager.seal sha256 env root manifest images =
      ((env.create sha256 root qemuImg contract none).1,
        images ++ ((env.create sha256 root qemuImg contract none).2.map fun files =>
          (contract.key, files)).toList) := by
    refine (seal_prepared hprepare).trans ?_
    rw [SealEnv.publish, hnew]
  -- What becomes of this one directory.
  have hcreate := create_staged qemuImg (sealed_of_prepare hprepare)
  unfold Effect.Staged at hcreate ⊢
  rw [hrun]
  cases hfirst : sealCalls.find? env.fails with
  | none =>
    rw [hfirst] at hcreate
    obtain ⟨image, after, hmade, rfl, rfl⟩ := hcreate
    rw [hmade]
    exact ⟨_, _, rfl, rfl, rfl⟩
  -- A step fails: there is no directory, or there is one that was left.
  | some call =>
    rw [hfirst] at hcreate
    obtain ⟨e, after, hmade, hiff⟩ := hcreate
    rw [hmade]
    refine ⟨e, _, rfl, fun hgone => ?_, fun hleft => ?_⟩
    · rw [hiff.mpr hgone]
      simp
    · cases after with
      | none => simp [hiff.mp rfl] at hleft
      | some files => simp [List.lookup_append, hnew]

/-- A `seal` that fails leaves no directory that was not there. -/
def SealEnv.LeavesNothing (sha256 : Sha256) (env : SealEnv) (root : PathBuf)
    (manifest : InstanceManifest) (images : Images) : Prop :=
  ∀ e, (ImageManager.seal sha256 env root manifest images).1 = .error e →
    ∀ key, images.lookup key = none →
      (ImageManager.seal sha256 env root manifest images).2.lookup key = none

/-- `seal` is refused, or finds the directory, or no step that leaves the directory is the first to
    fail. -/
def SealEnv.CleansUp (sha256 : Sha256) (env : SealEnv) (root : PathBuf)
    (manifest : InstanceManifest) (images : Images) : Prop :=
  ∀ prepared ∈ (env.prepare sha256 root manifest).toOption,
    (images.lookup prepared.2.key).isSome = true ∨
      ∀ call ∈ sealCalls.find? env.fails, call.leaves = false

instance decidableSealCleansUp : Decidable (env.CleansUp sha256 root manifest images) :=
  inferInstanceAs (Decidable (∀ prepared ∈ Except.toOption _, _ ∨
    ∀ call ∈ sealCalls.find? env.fails, call.leaves = false))

theorem sealCleansUp_iff (hprepare : env.prepare sha256 root manifest = .ok (qemuImg, contract))
    (images : Images) :
    env.CleansUp sha256 root manifest images ↔ (images.lookup contract.key).isSome = true ∨
      ∀ call, sealCalls.find? env.fails = some call → call.leaves = false := by
  constructor
  · intro h
    exact h _ (toOption_eq_some.mpr hprepare)
  · intro h other hother
    obtain rfl := Except.ok.inj (hprepare.symm.trans (toOption_eq_some.mp hother))
    exact h

/-- An image that can be loaded joins the others. -/
def Joins (sha256 : Sha256) (root : PathBuf) (images after : Images) : Prop :=
  ∃ name files image, after = images ++ [(name, files)] ∧
    loadImage sha256 (fun _ => false) root name files false = .ok image

/-- A `seal` that cleans up changes nothing when it fails, and nothing or one image when it does not;
    one that does not clean up leaves a directory. -/
theorem seal_cases (sha256 : Sha256) (env : SealEnv) (root : PathBuf)
    (manifest : InstanceManifest) (images : Images) :
    (env.CleansUp sha256 root manifest images ∧
      (∀ e, (ImageManager.seal sha256 env root manifest images).1 = .error e →
        (ImageManager.seal sha256 env root manifest images).2 = images) ∧
      ((ImageManager.seal sha256 env root manifest images).2 = images ∨
        Joins sha256 root images (ImageManager.seal sha256 env root manifest images).2)) ∨
    (¬ env.CleansUp sha256 root manifest images ∧
      (∃ e, (ImageManager.seal sha256 env root manifest images).1 = .error e) ∧
      ∃ key, images.lookup key = none ∧
        (ImageManager.seal sha256 env root manifest images).2.lookup key ≠ none) := by
  -- A seal that is not prepared has written nothing.
  cases hprepare : env.prepare sha256 root manifest with
  | error e =>
    have hclean : env.CleansUp sha256 root manifest images := by
      intro prepared hprepared
      cases hprepare.symm.trans (toOption_eq_some.mp hprepared)
    rw [seal_refused hprepare]
    exact .inl ⟨hclean, fun _ _ => rfl, .inl rfl⟩
  | ok prepared =>
    obtain ⟨qemuImg, contract⟩ := prepared
    have hiff := sealCleansUp_iff hprepare images
    -- Neither has one that finds its image already there.
    cases hfound : images.lookup contract.key with
    | some files =>
      rw [seal_existing hprepare hfound]
      exact .inl ⟨hiff.mpr (.inl (by rw [hfound]; rfl)), fun _ _ => rfl, .inl rfl⟩
    | none =>
      -- The image is new: the first call that fails decides.
      have hstaged := seal_staged hprepare hfound
      unfold Effect.Staged at hstaged
      cases hfirst : sealCalls.find? env.fails with
      -- No call fails: there is one more image, and it can be loaded.
      | none =>
        rw [hfirst] at hstaged
        obtain ⟨image, after, hrun, -, hafter⟩ := hstaged
        have hload : loadImage sha256 (fun _ => false) root contract.key
            ((env.sealed sha256 root contract).files env.converted) false = _ :=
          load_sealed (sealed_of_prepare hprepare) fun _ _ => rfl
        rw [hrun]
        refine .inl ⟨hiff.mpr (.inr fun call hcall => ?_), fun e herror => ?_,
          .inr ⟨_, _, _, hafter, hload⟩⟩
        · cases hfirst.symm.trans hcall
        · cases herror
      -- One fails: its place decides whether the directory is removed.
      | some call =>
        rw [hfirst] at hstaged
        obtain ⟨e, after, hrun, hgone, hleft⟩ := hstaged
        rw [hrun]
        cases hcall : call.leaves with
        | false =>
          refine .inl ⟨hiff.mpr (.inr fun other hother => ?_), fun _ _ => hgone hcall,
            .inl (hgone hcall)⟩
          rw [← Option.some.inj (hfirst.symm.trans hother)]
          exact hcall
        -- The call after which the directory is left.
        | true =>
          refine .inr ⟨fun hclean => ?_, ⟨e, rfl⟩, contract.key, hfound, hleft hcall⟩
          rcases hiff.mp hclean with hsome | hgood
          · rw [hfound] at hsome
            cases hsome
          · cases hcall.symm.trans (hgood call hfirst)

theorem seal_leaves_nothing_iff :
    env.LeavesNothing sha256 root manifest images ↔ env.CleansUp sha256 root manifest images := by
  rcases seal_cases sha256 env root manifest images with
    ⟨hclean, hsame, -⟩ | ⟨hbroken, ⟨e, herror⟩, key, hnew, hthere⟩
  · refine iff_of_true (fun e herror key hnew => ?_) hclean
    rw [hsame e herror]
    exact hnew
  · exact iff_of_false (fun hleft => hthere (hleft e herror key hnew)) hbroken

end Seal

end Lsw.Core.Image
