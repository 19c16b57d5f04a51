import Lsw.Core.Store

/-!
# Creating an Instance on a File System that Fails

`StateStore::create` makes a directory, writes the manifest through a temporary file that it
renames, and writes the agent token.  Each of these is several calls of the operating system, and
every one of them may fail; what the calls before it left behind is removed by hand.

Here each call is a step that the environment may fail, a failing write first writes as much as the
environment likes, and the removals of the clean-up do what `remove_file` and `remove_dir` do:
`remove_dir` removes a directory that is empty.  The directories of the other instances are those of
the store; the directory to be created is a list of files.
-/

namespace Lsw.Core.Creation

open Lsw.Lib

/-! ## Calls and files -/

/-- The calls of the operating system that `create` makes, in their order. -/
inductive Call where
  -- `initialize` and `list`
  | createRoot
  | inspectRoot
  | protectRoot
  | createInstances
  | inspectInstances
  | protectInstances
  | readInstances
  -- the directory
  | makeDir
  | protectDir
  -- `write_atomic`
  | openTemporary
  | protectTemporary
  | writeTemporary
  | syncTemporary
  | rename
  -- `generate_agent_token`
  | openRandom
  | readRandom
  -- `write_new_private`
  | openToken
  | protectToken
  | writeToken
  | writeNewline
  | syncToken
  deriving DecidableEq, Repr

/-- What the environment contributes: the calls that fail, how much a failing write has written, and
    what does not depend on the store. -/
structure Env where
  fails : Call → Bool
  written : Call → Nat
  /-- The error of `create_dir` is `AlreadyExists`. -/
  alreadyExists : Bool
  rootIsReal : Bool
  instancesIsReal : Bool
  bindError : UInt16 → Option String
  random : Vector UInt8 32
  processId : Nat
  nonce : Nat

/-- The files of a directory, with their contents. -/
abbrev Files := List (Str × List UInt8)

namespace Files

/-- The contents of a file grow. -/
def append (files : Files) (path : Str) (part : List UInt8) : Files :=
  files.map fun file => if file.1 = path then (file.1, file.2 ++ part) else file

/-- `fs::remove_file`. -/
def remove (files : Files) (path : Str) : Files := files.filter fun file => file.1 ≠ path

/-- `fs::rename`: what was at the new name is replaced. -/
def rename (files : Files) (old new : Str) : Files :=
  match files.lookup old with
  | some contents => ((files.remove old).remove new) ++ [(new, contents)]
  | none => files

end Files

/-- The store, and the directory that a `create` is about. -/
structure Disk where
  store : StateStore
  dir : Option Files

/-- `fs::remove_dir`, whose error is ignored: a directory that is not empty stays. -/
def Disk.removeDir (disk : Disk) : Disk :=
  if disk.dir = some [] then { disk with dir := none } else disk

/-- `fs::remove_file`, whose error is ignored. -/
def Disk.removeFile (path : Str) (disk : Disk) : Disk :=
  { disk with dir := disk.dir.map (·.remove path) }

/-- `MANIFEST_FILE`. -/
def manifestFile : Str := "instance.lsw".toList

/-- `AGENT_TOKEN_FILE`. -/
def tokenFile : Str := "agent.token".toList

/-- The name `write_atomic` derives from that of the manifest. -/
def Env.temporary (env : Env) : Str :=
  "instance.tmp-".toList ++ decimal env.processId ++ "-".toList ++ decimal env.nonce

/-- `hex_encode`. -/
def hexEncode (random : List UInt8) : Str :=
  random.flatMap fun byte => [Nat.digitChar (byte.toNat / 16), Nat.digitChar (byte.toNat % 16)]

/-! ## Steps -/

namespace Env

variable (env : Env)

/-- A call that changes no file. -/
def call (which : Call) : Result Unit := rejectIf (env.fails which = true) .io

/-- A call on the files of the directory. -/
def on (which : Call) (f : Files → Files) : Effect Disk LswError Unit := fun disk =>
  if env.fails which then (.error .io, disk)
  else (.ok (), { disk with dir := disk.dir.map f })

/-- `OpenOptions::new().create_new(true).write(true).open(path)`. -/
def openNew (which : Call) (path : Str) : Effect Disk LswError Unit := do
  Effect.check fun disk =>
    rejectIf ((disk.dir.bind (·.lookup path)).isSome = true) LswError.io
  env.on which (· ++ [(path, [])])

/-- `file.write_all(contents)`: a part of the contents is in the file when it fails. -/
def writeAll (which : Call) (path : Str) (contents : List UInt8) : Effect Disk LswError Unit :=
  fun disk =>
    if env.fails which then
      (.error .io, { disk with
        dir := disk.dir.map (·.append path (contents.take (env.written which))) })
    else
      (.ok (), { disk with dir := disk.dir.map (·.append path contents) })

/-- `ensure_private_directory`. -/
def ensurePrivateDirectory (inspect protect : Call) (isReal : Bool) (path : PathBuf) :
    Result Unit := do
  env.call inspect
  rejectIf (isReal = false) (.invalidValue "state directory"
    [.shown path.display, .text " must be a real directory"])
  env.call protect

/-- `StateStore::initialize`. -/
def initializeStore (store : StateStore) : Result Unit := do
  env.call .createRoot
  env.ensurePrivateDirectory .inspectRoot .protectRoot env.rootIsReal store.root
  env.call .createInstances
  env.ensurePrivateDirectory .inspectInstances .protectInstances env.instancesIsReal
    (store.root.join "instances".toList)

/-- `create`, up to the point where it makes the directory. -/
def prepare (manifest : InstanceManifest) (disk : Disk) : Result (Str × PathBuf) := do
  let encoded ← manifest.encode
  let path ← disk.store.instanceDir manifest.spec.name
  rejectIf (disk.dir.isSome = true) (.instanceAlreadyExists path)
  env.initializeStore disk.store
  env.call .readInstances
  disk.store.ensureHostPortsAvailable manifest none
  StateStore.reserveHostPorts env.bindError manifest
  return (encoded, path)

/-- `fs::create_dir` of the instance directory. -/
def makeDir (path : PathBuf) : Effect Disk LswError Unit := fun disk =>
  if env.fails .makeDir then
    (.error (if env.alreadyExists then .instanceAlreadyExists path else .io), disk)
  else
    (.ok (), { disk with dir := some [] })

/-- `write_atomic` of the manifest. -/
def writeAtomic (contents : List UInt8) : Effect Disk LswError Unit := do
  env.openNew .openTemporary env.temporary
  env.on .protectTemporary id
  env.writeAll .writeTemporary env.temporary contents
  env.on .syncTemporary id
  (env.on .rename (·.rename env.temporary manifestFile)).onError (Disk.removeFile env.temporary)

/-- `generate_agent_token`. -/
def generateAgentToken : Effect Disk LswError Str := do
  env.on .openRandom id
  env.on .readRandom id
  return hexEncode env.random.toList

/-- `write_new_private` of the agent token. -/
def writeNewPrivate (token : Str) : Effect Disk LswError Unit := do
  env.openNew .openToken tokenFile
  env.on .protectToken id
  env.writeAll .writeToken tokenFile (bytes token)
  env.writeAll .writeNewline tokenFile (bytes ['\n'])
  env.on .syncToken id

/-- `StateStore::create`. -/
def create (manifest : InstanceManifest) : Effect Disk LswError PathBuf := do
  let (encoded, path) ← Effect.check (env.prepare manifest)
  env.makeDir path
  env.on .protectDir id
  (env.writeAtomic (bytes encoded)).onError Disk.removeDir
  (do env.writeNewPrivate (← env.generateAgentToken)).onError fun disk =>
    (disk.removeFile manifestFile).removeDir
  return path

end Env

/-! ## What the writes leave behind -/

/-- The calls of `write_atomic`. -/
def atomicCalls : List Call :=
  [.openTemporary, .protectTemporary, .writeTemporary, .syncTemporary, .rename]

/-- The calls that make the token. -/
def tokenCalls : List Call :=
  [.openRandom, .readRandom, .openToken, .protectToken, .writeToken, .writeNewline, .syncToken]

/-- The calls from the one that makes the directory on. -/
def changingCalls : List Call := [.makeDir, .protectDir] ++ atomicCalls ++ tokenCalls

/-- The calls after which something stays: the directory itself, the temporary file, or a token file
    that is open. -/
def Call.leaves : Call → Bool
  | .protectDir => true
  | .protectTemporary | .writeTemporary | .syncTemporary => true
  | .protectToken | .writeToken | .writeNewline | .syncToken => true
  | _ => false

section Writes

variable {env : Env} {store : StateStore} {bad : Call → Disk → Prop} {files : Files}

theorem on_staged {which : Call} {f : Files → Files} (hbad : bad which ⟨store, some files⟩) :
    Effect.Staged env.fails [which] (env.on which f) ⟨store, some files⟩
      (fun _ after => after = ⟨store, some (f files)⟩) bad := by
  apply Effect.Staged.single
  · intro h
    exact ⟨(), _, by rw [Env.on, h]; rfl, rfl⟩
  · intro h
    exact ⟨.io, _, by rw [Env.on, h]; rfl, hbad⟩

theorem openNew_staged {which : Call} {path : Str} (hnew : files.lookup path = none)
    (hbad : bad which ⟨store, some files⟩) :
    Effect.Staged env.fails [which] (env.openNew which path) ⟨store, some files⟩
      (fun _ after => after = ⟨store, some (files ++ [(path, [])])⟩) bad := by
  have hrun : env.openNew which path ⟨store, some files⟩ =
      env.on which (· ++ [(path, [])]) ⟨store, some files⟩ := by
    refine Effect.check_bind_ok (rejectIf_of_not _ ?_)
    show ¬ (files.lookup path).isSome = true
    simp [hnew]
  unfold Effect.Staged
  rw [hrun]
  exact on_staged hbad

theorem writeAll_staged {which : Call} {path : Str} {contents : List UInt8}
    (hbad : bad which ⟨store, some (files.append path (contents.take (env.written which)))⟩) :
    Effect.Staged env.fails [which] (env.writeAll which path contents) ⟨store, some files⟩
      (fun _ after => after = ⟨store, some (files.append path contents)⟩) bad := by
  apply Effect.Staged.single
  · intro h
    exact ⟨(), _, by rw [Env.writeAll, h]; rfl, rfl⟩
  · intro h
    exact ⟨.io, _, by rw [Env.writeAll, h]; rfl, hbad⟩

/-- A file that was appended to the directory is the one that grows. -/
theorem append_last {path : Str} {contents : List UInt8} (part : List UInt8)
    (hnew : ∀ file ∈ files, file.1 ≠ path) :
    Files.append (files ++ [(path, contents)]) path part = files ++ [(path, contents ++ part)] := by
  have hsame : files.map (fun file => if file.1 = path then (file.1, file.2 ++ part) else file) =
      files := by
    refine (List.map_congr_left fun file hfile => ?_).trans (List.map_id files)
    exact if_neg (hnew file hfile)
  rw [Files.append, List.map_append, hsame]
  simp

/-- After a failure the directory holds what it held, and files only when the call leaves some. -/
def LeavesFiles (store : StateStore) (kept : Files) (call : Call) (disk : Disk) : Prop :=
  ∃ files, disk = ⟨store, some (kept ++ files)⟩ ∧ (∀ file ∈ files, file.1 ≠ manifestFile) ∧
    (files = [] ↔ call.leaves = false)

theorem leavesFiles_one {kept : Files} {call : Call} {path : Str} (contents : List UInt8)
    (hpath : path ≠ manifestFile) (hcall : call.leaves = true) :
    LeavesFiles store kept call ⟨store, some (kept ++ [(path, contents)])⟩ :=
  ⟨[(path, contents)], rfl, by simpa using hpath, by simp [hcall]⟩

theorem leavesFiles_none {kept : Files} {call : Call} (hcall : call.leaves = false) :
    LeavesFiles store kept call ⟨store, some kept⟩ :=
  ⟨[], by simp, by simp, by simp [hcall]⟩

theorem temporary_ne_manifestFile : env.temporary ≠ manifestFile := by
  intro h
  have hsplit : env.temporary =
      "instance.tmp-".toList ++ (decimal env.processId ++ ("-".toList ++ decimal env.nonce)) :=
    (List.append_assoc _ _ _).trans (List.append_assoc _ _ _)
  have hpre : "instance.tmp-".toList <+: manifestFile := by
    rw [← h, hsplit]
    exact List.prefix_append _ _
  exact absurd hpre (by decide)

/-- `write_atomic` in a new directory writes the manifest, or leaves the temporary file unless it
    failed to open or to rename it. -/
theorem writeAtomic_staged (contents : List UInt8) :
    Effect.Staged env.fails atomicCalls (env.writeAtomic contents) ⟨store, some []⟩
      (fun _ after => after = ⟨store, some [(manifestFile, contents)]⟩)
      (LeavesFiles store []) := by
  have hpath : env.temporary ≠ manifestFile := temporary_ne_manifestFile
  refine (openNew_staged rfl (leavesFiles_none rfl)).bind ?_
  rintro _ _ rfl
  refine (on_staged (leavesFiles_one [] hpath rfl)).bind ?_
  rintro _ _ rfl
  refine (writeAll_staged ?_).bind ?_
  · rw [id, append_last _ (by simp)]
    exact leavesFiles_one _ hpath rfl
  rintro _ _ rfl
  rw [id, append_last _ (by simp)]
  refine (on_staged (leavesFiles_one _ hpath rfl)).bind ?_
  rintro _ _ rfl
  -- A failing rename is the one failure of `write_atomic` that cleans up after itself.
  have hrename : Files.rename [(env.temporary, contents)] env.temporary manifestFile =
      [(manifestFile, contents)] := by
    simp [Files.rename, Files.remove]
  rw [← hrename]
  have hstaged : Effect.Staged env.fails [.rename]
      (env.on .rename (·.rename env.temporary manifestFile))
      ⟨store, some [(env.temporary, contents)]⟩ _
      (fun call disk => call = .rename ∧ disk = ⟨store, some [(env.temporary, contents)]⟩) :=
    on_staged ⟨rfl, rfl⟩
  refine hstaged.onError ?_
  rintro _ _ ⟨rfl, rfl⟩
  have hremove : Disk.removeFile env.temporary ⟨store, some [(env.temporary, contents)]⟩ =
      ⟨store, some []⟩ := by
    simp [Disk.removeFile, Files.remove]
  rw [hremove]
  exact leavesFiles_none rfl

theorem generateAgentToken_staged {kept : Files} :
    Effect.Staged env.fails [.openRandom, .readRandom] env.generateAgentToken ⟨store, some kept⟩
      (fun token after => token = hexEncode env.random.toList ∧ after = ⟨store, some kept⟩)
      (LeavesFiles store kept) := by
  refine (on_staged (leavesFiles_none rfl)).bind ?_
  rintro _ _ rfl
  refine Effect.Staged.bind (on_staged (leavesFiles_none rfl)) ?_
  rintro _ _ rfl
  exact Effect.Staged.pure ⟨rfl, rfl⟩

/-- `write_new_private` writes the token, or leaves the file that it opened. -/
theorem writeNewPrivate_staged (token : Str) {contents : List UInt8} :
    Effect.Staged env.fails [.openToken, .protectToken, .writeToken, .writeNewline, .syncToken]
      (env.writeNewPrivate token) ⟨store, some [(manifestFile, contents)]⟩
      (fun _ after => after = ⟨store, some [(manifestFile, contents),
        (tokenFile, bytes token ++ bytes ['\n'])]⟩)
      (LeavesFiles store [(manifestFile, contents)]) := by
  have hpath : tokenFile ≠ manifestFile := by decide
  have hkept : ∀ file ∈ [(manifestFile, contents)], file.1 ≠ tokenFile := by
    simpa using hpath.symm
  have hnew : List.lookup tokenFile [(manifestFile, contents)] = none := by
    rw [List.lookup_cons, beq_eq_false_iff_ne.mpr hpath]
    rfl
  refine (openNew_staged hnew (leavesFiles_none rfl)).bind ?_
  rintro _ _ rfl
  refine (on_staged (leavesFiles_one [] hpath rfl)).bind ?_
  rintro _ _ rfl
  refine (writeAll_staged ?_).bind ?_
  · rw [id, append_last _ hkept]
    exact leavesFiles_one _ hpath rfl
  rintro _ _ rfl
  rw [id, append_last _ hkept]
  refine (writeAll_staged ?_).bind ?_
  · rw [append_last _ hkept]
    exact leavesFiles_one _ hpath rfl
  rintro _ _ rfl
  rw [append_last _ hkept]
  exact on_staged (leavesFiles_one _ hpath rfl)

end Writes

/-! ## Whole creations -/

section Create

variable {env : Env} {manifest : InstanceManifest} {disk : Disk} {encoded : Str} {path : PathBuf}

theorem prepare_eq_ok (h : env.prepare manifest disk = .ok (encoded, path)) :
    manifest.encode = .ok encoded ∧ disk.dir = none := by
  obtain ⟨text, hencode, h⟩ := bind_eq_ok.mp h
  obtain ⟨dir, -, h⟩ := bind_eq_ok.mp h
  obtain ⟨_, hnew, h⟩ := bind_eq_ok.mp h
  obtain ⟨_, -, h⟩ := bind_eq_ok.mp h
  obtain ⟨_, -, h⟩ := bind_eq_ok.mp h
  obtain ⟨_, -, h⟩ := bind_eq_ok.mp h
  obtain ⟨_, -, h⟩ := bind_eq_ok.mp h
  obtain ⟨rfl, -⟩ := Prod.mk.inj (Except.ok.inj h)
  exact ⟨hencode, by simpa using (rejectIf_eq_ok _ _ _).mp hnew⟩

/-- The directory with a complete manifest and a complete token. -/
def Complete (env : Env) (encoded : Str) (disk : Disk) : Prop :=
  ∃ files, disk.dir = some files ∧ files.lookup manifestFile = some (bytes encoded) ∧
    files.lookup tokenFile = some (bytes (hexEncode env.random.toList ++ ['\n']))

/-- `remove_dir` removes the directory when the failed call left nothing in it. -/
theorem removeDir_of_leavesFiles {store : StateStore} {call : Call}
    (h : LeavesFiles store [] call disk) : disk.removeDir.dir = none ↔ call.leaves = false := by
  obtain ⟨files, rfl, -, hiff⟩ := h
  rw [← hiff, Disk.removeDir]
  cases files with
  | nil => simp
  | cons file files => simp

theorem removeFile_of_leavesFiles {store : StateStore} {call : Call} {contents : List UInt8}
    (h : LeavesFiles store [(manifestFile, contents)] call disk) :
    LeavesFiles store [] call (disk.removeFile manifestFile) := by
  obtain ⟨files, rfl, hnames, hiff⟩ := h
  refine ⟨files, ?_, hnames, hiff⟩
  have hkept : files.filter (fun file => decide (file.1 ≠ manifestFile)) = files :=
    List.filter_eq_self.mpr fun file hfile => decide_eq_true (hnames file hfile)
  rw [Disk.removeFile, Option.map_some, Files.remove, List.filter_append, hkept]
  simp

/-- Once its checks have passed, `create` completes the directory, or ends without one unless the
    first call that failed is one that leaves something. -/
theorem create_staged (h : env.prepare manifest disk = .ok (encoded, path)) :
    Effect.Staged env.fails changingCalls (env.create manifest) disk
      (fun made after => made = path ∧ Complete env encoded after)
      (fun call after => after.dir = none ↔ call.leaves = false) := by
  obtain ⟨store, dir⟩ := disk
  obtain ⟨-, rfl⟩ : _ ∧ dir = none := prepare_eq_ok h
  unfold Effect.Staged
  rw [Env.create, Effect.check_bind_ok h]
  -- First the directory is made.
  have hmake : Effect.Staged env.fails [.makeDir] (env.makeDir path) ⟨store, none⟩
      (fun _ after => after = ⟨store, some []⟩)
      (fun call after => after.dir = none ↔ call.leaves = false) := by
    apply Effect.Staged.single
    · intro hstep
      exact ⟨(), _, by rw [Env.makeDir, hstep]; rfl, rfl⟩
    · intro hstep
      exact ⟨_, _, by rw [Env.makeDir, hstep]; rfl, by simp [Call.leaves]⟩
  refine hmake.bind ?_
  rintro _ _ rfl
  -- Its mode is set.
  refine (on_staged (by simp [Call.leaves])).bind ?_
  rintro _ _ rfl
  -- The manifest is written; after a failure the directory is removed if it is empty.
  refine ((writeAtomic_staged (bytes encoded)).onError fun call after hleft =>
    removeDir_of_leavesFiles hleft).bind ?_
  rintro _ _ rfl
  -- Then the token, beside the manifest.
  have htoken : Effect.Staged env.fails tokenCalls
      (do env.writeNewPrivate (← env.generateAgentToken) : Effect Disk LswError Unit)
      ⟨store, some [(manifestFile, bytes encoded)]⟩ (fun _ after => Complete env encoded after)
      (LeavesFiles store [(manifestFile, bytes encoded)]) := by
    refine generateAgentToken_staged.bind ?_
    rintro _ _ ⟨rfl, rfl⟩
    refine (writeNewPrivate_staged _).mono ?_
    rintro _ _ rfl
    refine ⟨_, rfl, List.lookup_cons_self, ?_⟩
    have hother : (tokenFile == manifestFile) = false := by decide
    rw [List.lookup_cons, hother, List.lookup_cons_self, bytes_append]
  -- After a failure there the manifest goes first, and then the directory if it is empty.
  refine Effect.Staged.bind (htoken.onError fun call after hleft =>
    removeDir_of_leavesFiles (removeFile_of_leavesFiles hleft)) ?_
  intro _ _ hcomplete
  exact Effect.Staged.pure ⟨rfl, hcomplete⟩

/-- A file system that fails no call runs `create` as the store does, which takes its files for
    granted. -/
theorem create_eq_store_create (hfails : ∀ call, env.fails call = false)
    (hroot : env.rootIsReal = true) (hinstances : env.instancesIsReal = true)
    (hdir : disk.dir = none) (hnew : disk.store.dir? manifest.spec.name = none) :
    (env.create manifest disk).1 =
      (StateStore.create ⟨env.bindError, hexEncode env.random.toList⟩ manifest disk.store).1 := by
  have hcall : ∀ call, env.call call = .ok () := by
    intro call
    exact rejectIf_of_not _ (by simp [hfails])
  have hinit : env.initializeStore disk.store = .ok () := by
    simp [Env.initializeStore, Env.ensurePrivateDirectory, hcall, hroot, hinstances, rejectIf]
  -- Both make the same checks, and once these have passed neither fails.
  have hstore : (StateStore.create ⟨env.bindError, hexEncode env.random.toList⟩ manifest
      disk.store).1 = (env.prepare manifest disk).map Prod.snd := by
    simp only [StateStore.create, Effect.check_bind_fst, Effect.change_bind, Effect.pure_run,
      Env.prepare, hinit, hcall, hdir, hnew, ok_bind]
    change _ = Prod.snd <$> _
    simp only [map_bind, map_pure]
    rfl
  rw [hstore]
  cases hprepare : env.prepare manifest disk with
  | error e => rw [Env.create, Effect.check_bind_error hprepare]; rfl
  | ok prepared =>
    have hstaged := create_staged hprepare
    have hnone : changingCalls.find? env.fails = none := by
      rw [List.find?_eq_none]
      simp [hfails]
    unfold Effect.Staged at hstaged
    rw [hnone] at hstaged
    obtain ⟨made, after, hrun, rfl, -⟩ := hstaged
    rw [hrun]
    rfl

/-- What is asked of a `create`: when it fails, a directory that did not exist does not exist, and
    when it succeeds, the directory is complete. -/
structure AllOrNothing (env : Env) (manifest : InstanceManifest) (disk : Disk) : Prop where
  failed : ∀ e, (env.create manifest disk).1 = .error e → disk.dir = none →
    (env.create manifest disk).2.dir = none
  created : ∀ path, (env.create manifest disk).1 = .ok path →
    ∃ encoded, manifest.encode = .ok encoded ∧ Complete env encoded (env.create manifest disk).2

/-- `create` is all or nothing exactly when it stops before it makes the directory, or the first
    call that fails from there on, if any, is one whose failure is cleaned up. -/
theorem create_all_or_nothing_iff (env : Env) (manifest : InstanceManifest) (disk : Disk) :
    AllOrNothing env manifest disk ↔
      (∃ e, env.prepare manifest disk = .error e) ∨
        ∀ call, changingCalls.find? env.fails = some call → call.leaves = false := by
  -- A creation that is refused before it writes has changed nothing.
  cases hprepare : env.prepare manifest disk with
  | error e =>
    have hrun : env.create manifest disk = (.error e, disk) := Effect.check_bind_error hprepare
    refine iff_of_true ⟨?_, ?_⟩ (.inl ⟨e, rfl⟩)
    · intro _ _ hdir
      rw [hrun]
      exact hdir
    · intro path hok
      rw [hrun] at hok
      cases hok
  | ok prepared =>
    obtain ⟨encoded, path⟩ := prepared
    obtain ⟨hencode, hdir⟩ := prepare_eq_ok hprepare
    have hstaged := create_staged hprepare
    unfold Effect.Staged at hstaged
    -- After that the first call that fails decides.
    cases hfirst : changingCalls.find? env.fails with
    -- No call fails: the directory is complete.
    | none =>
      rw [hfirst] at hstaged
      obtain ⟨_, after, hrun, -, hcomplete⟩ := hstaged
      refine iff_of_true ⟨?_, ?_⟩ (.inr (by simp))
      · intro e herror
        rw [hrun] at herror
        cases herror
      · intro _ _
        rw [hrun]
        exact ⟨encoded, hencode, hcomplete⟩
    -- One does, and the directory is gone exactly when its failure is cleaned up.
    | some call =>
      rw [hfirst] at hstaged
      obtain ⟨e, after, hrun, hiff⟩ := hstaged
      have hcondition : ((∃ e, (Except.ok (encoded, path) : Result (Str × PathBuf)) = .error e) ∨
          ∀ other, some call = some other → other.leaves = false) ↔ call.leaves = false := by
        simp
      rw [hcondition, ← hiff]
      refine ⟨fun h => ?_, fun hnone => ⟨?_, ?_⟩⟩
      · have hfailed := h.failed e (by rw [hrun]) hdir
        rwa [hrun] at hfailed
      · intro _ _ _
        rw [hrun]
        exact hnone
      · intro path hok
        rw [hrun] at hok
        cases hok

/-- A machine on which one kind of call fails, writing nothing. -/
def Env.failing (which : Option Call) : Env where
  fails := fun call => some call = which
  written := fun _ => 0
  alreadyExists := false
  rootIsReal := true
  instancesIsReal := true
  bindError := fun _ => none
  random := Vector.replicate 32 0
  processId := 1
  nonce := 0

/-- When the disk is full while the manifest is written, the temporary file keeps `remove_dir` from
    removing the directory, and the instance cannot be created any more. -/
theorem full_disk_leaves_directory :
    let empty : Disk := ⟨{ root := .ofStr "/s".toList }, none⟩
    let after := ((Env.failing (some .writeTemporary)).create (demoManifest []) empty).2
    after.dir = some [("instance.tmp-1-0".toList, [])] ∧
      ((Env.failing none).create (demoManifest []) after).1 =
        .error (.instanceAlreadyExists (.ofStr "/s/instances/demo".toList)) ∧
      ¬ AllOrNothing (Env.failing (some .writeTemporary)) (demoManifest []) empty := by
  intro empty after
  have hrun : ((Env.failing (some .writeTemporary)).create (demoManifest []) empty).1 =
      .error .io := by decide +kernel
  have hleft : after.dir = some [("instance.tmp-1-0".toList, [])] := by decide +kernel
  refine ⟨hleft, by decide +kernel, ?_⟩
  intro h
  have hnone : after.dir = none := h.failed _ hrun rfl
  rw [hleft] at hnone
  cases hnone

end Create

end Lsw.Core.Creation
