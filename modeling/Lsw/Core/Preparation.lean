import Lsw.Core.Qemu
import Lsw.Core.Store
import Lsw.Lib.Wire

/-!
# Preparing an Instance

`Provisioner` (`preparation.rs`) plans what an instance directory lacks and applies the plan: two
directories, the firmware variables as a copy of a template, and the system disk, which `qemu-img`
makes.  A plan looks only at whether something stands at each path.  So whatever a step leaves behind
when it fails counts as prepared from then on, and the steps have to clean up behind them.

`copy_new_file` does so when copying fails, but not when the permissions of the file that it has just
created cannot be set.
-/

namespace Lsw.Core.Preparation

open Lsw.Lib

/-! ## Plans -/

/-- What stands at a path, the path itself and not what a link stands for. -/
inductive FsNode where
  | file (contents : Bytes)
  | directory
  | symlink
  | other
  deriving DecidableEq

/-- `PreparationStep`. -/
inductive PreparationStep where
  | createDirectory (path : PathBuf)
  | copyFirmwareVariables (source destination : PathBuf)
  | createDisk (program destination : PathBuf) (sizeGib : UInt32)
  deriving DecidableEq

/-- `PreparationPlan`. -/
structure PreparationPlan where
  steps : List PreparationStep
  missingCapabilities : List String
  deriving DecidableEq

/-- `PreparationPlan::is_ready`. -/
def PreparationPlan.isReady (plan : PreparationPlan) : Bool :=
  plan.steps.isEmpty && plan.missingCapabilities.isEmpty

/-- `Provisioner`: the part of its capabilities that it asks for. -/
structure Provisioner where
  qemuImg : Option PathBuf
  ovmfVars : Option PathBuf
  ovmfSecureVars : Option PathBuf

/-- `HostCapabilities::firmware_vars`. -/
def Provisioner.firmwareVars (provisioner : Provisioner) (profile : WindowsProfile) :
    Option PathBuf :=
  if profile.security.secureBoot then provisioner.ovmfSecureVars else provisioner.ovmfVars

/-- `fs::symlink_metadata` of each path: it fails, nothing stands there, or something does. -/
abbrev Observed := PathBuf → Option (Option FsNode)

/-- `path_is_missing`. -/
def pathIsMissing (observed : Observed) (path : PathBuf) (field : String) : Result Bool := do
  match ← okOr (observed path) .io with
  | some .symlink =>
    .error (.invalidValue field [.shown path.display, .text " must not be a symbolic link"])
  | some _ => .ok false
  | none => .ok true

/-- `require_directory`. -/
def requireDirectory (observed : Observed) (path : PathBuf) (field : String) : Result Unit := do
  match ← okOr (observed path) .io with
  | some .directory => .ok ()
  | some _ => .error (.invalidValue field [.shown path.display, .text " is not a real directory"])
  | none => .error .io

/-- `require_regular_file`. -/
def requireRegularFile (observed : Observed) (path : PathBuf) (field : String) : Result Unit := do
  match ← okOr (observed path) .io with
  | some (.file _) => .ok ()
  | some _ => .error (.invalidValue field [.shown path.display, .text " is not a regular file"])
  | none => .error .io

/-- The plan for a path: the steps where nothing stands there, else a check. -/
def planPath (observed : Observed) (path : PathBuf) (field : String)
    (require : Observed → PathBuf → String → Result Unit) (missing : PreparationPlan) :
    Result PreparationPlan := do
  if ← pathIsMissing observed path field then return missing
  require observed path field
  return ⟨[], []⟩

/-- `run`, `swtpm-state`, `OVMF_VARS.fd` and `disk.qcow2` of an instance. -/
def runDirectory (instanceDir : PathBuf) : PathBuf := instanceDir.join "run".toList
def swtpmDirectory (instanceDir : PathBuf) : PathBuf := instanceDir.join "swtpm-state".toList
def firmwareStore (instanceDir : PathBuf) : PathBuf := instanceDir.join "OVMF_VARS.fd".toList
def systemDisk (instanceDir : PathBuf) : PathBuf := instanceDir.join "disk.qcow2".toList

/-- What a plan has for an instance without firmware variables. -/
def firmwareMissing (provisioner : Provisioner) (profile : WindowsProfile) (instanceDir : PathBuf) :
    PreparationPlan where
  steps := [.copyFirmwareVariables
    ((provisioner.firmwareVars profile).getD (.ofStr "/path/to/OVMF_VARS.fd".toList))
    (firmwareStore instanceDir)]
  missingCapabilities :=
    if (provisioner.firmwareVars profile).isNone then
      [if profile.security.secureBoot then "enrolled Secure Boot OVMF variable template"
        else "OVMF variable template"]
    else []

/-- What a plan has for an instance without a disk. -/
def diskMissing (provisioner : Provisioner) (sizeGib : UInt32) (instanceDir : PathBuf) :
    PreparationPlan where
  steps := [.createDisk (provisioner.qemuImg.getD (.ofStr "qemu-img".toList))
    (systemDisk instanceDir) sizeGib]
  missingCapabilities := if provisioner.qemuImg.isNone then ["qemu-img"] else []

/-- `Provisioner::plan`. -/
def Provisioner.plan (provisioner : Provisioner) (manifest : InstanceManifest)
    (instanceDir : PathBuf) (observed : Observed) : Result PreparationPlan := do
  manifest.spec.validate
  requireDirectory observed instanceDir "instance directory"
  let run ← planPath observed (runDirectory instanceDir) "runtime directory" requireDirectory
    ⟨[.createDirectory (runDirectory instanceDir)], []⟩
  let swtpm ← planPath observed (swtpmDirectory instanceDir) "runtime directory" requireDirectory
    ⟨[.createDirectory (swtpmDirectory instanceDir)], []⟩
  let firmware ← planPath observed (firmwareStore instanceDir) "firmware variable store"
    requireRegularFile (firmwareMissing provisioner manifest.spec.profile instanceDir)
  let disk ← planPath observed (systemDisk instanceDir) "system disk" requireRegularFile
    (diskMissing provisioner manifest.spec.diskGib instanceDir)
  return {
    steps := run.steps ++ swtpm.steps ++ firmware.steps ++ disk.steps
    missingCapabilities := firmware.missingCapabilities ++ disk.missingCapabilities }

/-! ## Applying a plan -/

/-- A run of `qemu-img create`: its exit code, none of a signal, unless it could not be started or waited
    for, and what it leaves at the destination. -/
structure ImageRun where
  status : Option (Option Int)
  leaves : Option FsNode
  deriving DecidableEq

/-- Which calls of a step fail, if they are made. -/
structure StepFaults where
  /-- `create_dir` for another reason than that something stands there, and `symlink_metadata`. -/
  create : Bool := false
  metadata : Bool := false
  /-- `symlink_metadata` of what `qemu-img` has left. -/
  metadataAfter : Bool := false
  /-- `set_permissions`. -/
  chmod : Bool := false
  /-- Opening the template, creating the copy, copying, and `sync_all`. -/
  openSource : Bool := false
  openDestination : Bool := false
  copy : Bool := false
  sync : Bool := false
  image : ImageRun := ⟨some (some 0), some (.file [])⟩
  deriving DecidableEq

/-- What stands where, and what a `qemu-img` that succeeded has left. -/
structure World where
  nodes : PathBuf → Option FsNode
  imaged : Option FsNode

def World.set (world : World) (path : PathBuf) (node : Option FsNode) : World :=
  { world with nodes := Function.update world.nodes path node }

/-- What `symlink_metadata` finds, unless it fails. -/
def World.observed (world : World) (fails : Bool) : Observed := fun path =>
  if fails then none else some (world.nodes path)

section Apply

-- The regular files elsewhere on the host.
variable (readFile : PathBuf → Option Bytes)

/-- `create_directory`. -/
def createDirectory (faults : StepFaults) (path : PathBuf) (world : World) : Result Unit × World :=
  if faults.create then (.error .io, world)
  else
    match world.nodes path with
    | none =>
      let created := world.set path (some .directory)
      if faults.chmod then (.error .io, created) else (.ok (), created)
    | some _ =>
      match requireDirectory (world.observed faults.metadata) path "runtime directory" with
      | .error error => (.error error, world)
      | .ok _ => if faults.chmod then (.error .io, world) else (.ok (), world)

/-- `copy_new_file`. -/
def copyNewFile (faults : StepFaults) (source destination : PathBuf) (world : World) :
    Result Unit × World :=
  match readFile source with
  | none => (.error (.invalidValue "OVMF variable template"
      [.shown source.display, .text " is not a regular file"]), world)
  | some contents =>
    -- `create_new` takes no path at which anything stands.
    if faults.openSource ∨ faults.openDestination ∨ world.nodes destination ≠ none then
      (.error .io, world)
    else if faults.chmod then (.error .io, world.set destination (some (.file [])))
    -- Whatever was copied is removed.
    else if faults.copy then (.error .io, world.set destination none)
    else
      let copied := world.set destination (some (.file contents))
      if faults.sync then (.error .io, copied) else (.ok (), copied)

/-- `create_disk`. -/
def createDisk (faults : StepFaults) (program destination : PathBuf) (world : World) :
    Result Unit × World :=
  match pathIsMissing (world.observed faults.metadata) destination "system disk" with
  | .error error => (.error error, world)
  | .ok false => (.error (.invalidValue "system disk"
      [.text "refusing to overwrite ", .shown destination.display]), world)
  | .ok true =>
    let left := world.set destination faults.image.leaves
    match faults.image.status with
    | none => (.error .io, left)
    | some code =>
      if code ≠ some 0 then
        (.error (.externalCommandFailed program code), left.set destination none)
      else
        let made := { left with imaged := faults.image.leaves }
        match requireRegularFile (made.observed faults.metadataAfter) destination "system disk" with
        | .error error => (.error error, made)
        | .ok _ => if faults.chmod then (.error .io, made) else (.ok (), made)

/-- A step of a plan. -/
def applyStep (faults : StepFaults) (step : PreparationStep) (world : World) :
    Result Unit × World :=
  match step with
  | .createDirectory path => createDirectory faults path world
  | .copyFirmwareVariables source destination => copyNewFile readFile faults source destination world
  | .createDisk program destination _ => createDisk faults program destination world

/-- The steps of a plan, up to the first that fails. -/
def applySteps (faults : PreparationStep → StepFaults) :
    List PreparationStep → World → Result Unit × World
  | [], world => (.ok (), world)
  | step :: steps, world =>
    match applyStep readFile (faults step) step world with
    | (.error error, after) => (.error error, after)
    | (.ok _, after) => applySteps faults steps after

/-- `Provisioner::apply`. -/
def apply (faults : PreparationStep → StepFaults) (plan : PreparationPlan) (world : World) :
    Result Unit × World :=
  if plan.missingCapabilities ≠ [] then
    (.error (.missingCapabilities plan.missingCapabilities), world)
  else applySteps readFile faults plan.steps world

end Apply

/-! ## Attempts -/

/-- An attempt: what its plan found, which may be long ago, and what goes wrong when it is applied. -/
structure Attempt where
  planned : Observed
  faults : PreparationStep → StepFaults

/-- A firmware copy gets its permissions, and a `qemu-img` without a status has left nothing. -/
def NoStub (faults : StepFaults) : PreparationStep → Prop
  | .createDirectory _ => True
  | .copyFirmwareVariables _ _ => faults.chmod = false
  | .createDisk _ _ _ => faults.image.status = none → faults.image.leaves = none

def Attempt.Clean (attempt : Attempt) : Prop := ∀ step, NoStub (attempt.faults step) step

section Runs

variable (readFile : PathBuf → Option Bytes) (provisioner : Provisioner)
  (manifest : InstanceManifest) (instanceDir : PathBuf)

/-- The result of an attempt, and what it leaves. -/
def attemptOn (attempt : Attempt) (world : World) : Result Unit × World :=
  match provisioner.plan manifest instanceDir attempt.planned with
  | .error error => (.error error, world)
  | .ok plan => apply readFile attempt.faults plan world

/-- What attempts leave, one after the other. -/
def attempts (world : World) (all : List Attempt) : World :=
  run (fun world attempt => (attemptOn readFile provisioner manifest instanceDir attempt world).2)
    world all

/-- What stands for a firmware template: the copy of a file that there is. -/
def IsTemplate (node : FsNode) : Prop :=
  ∃ source contents, provisioner.firmwareVars manifest.spec.profile = some source ∧
    readFile source = some contents ∧ node = .file contents

/-- Nothing that has not been there at first is anything but a whole copy of the template, or what a
    `qemu-img` that succeeded has left. -/
structure Genuine (initial world : World) : Prop where
  firmware : initial.nodes (firmwareStore instanceDir) = none → ∀ node,
    world.nodes (firmwareStore instanceDir) = some node → IsTemplate readFile provisioner manifest node
  disk : initial.nodes (systemDisk instanceDir) = none → ∀ node,
    world.nodes (systemDisk instanceDir) = some node → world.imaged = some node

/-- An instance directory that lacks nothing. -/
structure Complete (world : World) : Prop where
  root : world.nodes instanceDir = some .directory
  run : world.nodes (runDirectory instanceDir) = some .directory
  swtpm : world.nodes (swtpmDirectory instanceDir) = some .directory
  firmware : ∃ contents, world.nodes (firmwareStore instanceDir) = some (.file contents)
  disk : ∃ contents, world.nodes (systemDisk instanceDir) = some (.file contents)

/-- What stands somewhere is still there. -/
def Keeps (before after : World) : Prop :=
  ∀ path node, before.nodes path = some node → after.nodes path = some node

/-- What is to hold of an instance directory from its first state on. -/
structure PreparedRightly (initial world : World) : Prop where
  keeps : Keeps initial world
  /-- And after a plan for what there is has been applied. -/
  applied : ∀ faults after,
    attemptOn readFile provisioner manifest instanceDir ⟨world.observed false, faults⟩ world =
      (.ok (), after) →
    Keeps initial after ∧
      (∃ plan, provisioner.plan manifest instanceDir (after.observed false) = .ok plan ∧
        plan.isReady = true) ∧
      Complete instanceDir after ∧ Genuine readFile provisioner manifest instanceDir initial after

end Runs

/-! ## Paths -/

theorem PathBuf.join_inj {base : PathBuf} {left right : Str}
    (hleft : Lib.isAbsolute (.char '/') (PathBuf.ofStr left).units = false)
    (hright : Lib.isAbsolute (.char '/') (PathBuf.ofStr right).units = false)
    (h : base.join left = base.join right) : left = right := by
  have hunits : (PathBuf.ofStr left).units = (PathBuf.ofStr right).units := by
    have heq := PathBuf.mk.inj h
    rw [joinPath, joinPath, hleft, hright] at heq
    simp only [Bool.false_eq_true, if_false] at heq
    split at heq
    · exact List.append_cancel_left heq
    · exact (List.cons.inj (List.append_cancel_left heq)).2
  exact List.map_injective_iff.mpr (fun a b h => OsUnit.char.inj h) hunits

/-- The four paths differ. -/
theorem paths_differ (instanceDir : PathBuf) :
    runDirectory instanceDir ≠ firmwareStore instanceDir ∧
      runDirectory instanceDir ≠ systemDisk instanceDir ∧
      swtpmDirectory instanceDir ≠ firmwareStore instanceDir ∧
      swtpmDirectory instanceDir ≠ systemDisk instanceDir ∧
      firmwareStore instanceDir ≠ systemDisk instanceDir := by
  refine ⟨?_, ?_, ?_, ?_, ?_⟩
  all_goals
    intro h
    have hname := PathBuf.join_inj (by decide) (by decide) h
    revert hname
    decide

/-! ## What is observed -/

section Observed

variable {observed : Observed} {path : PathBuf} {field : String}

theorem requireDirectory_ok {u : Unit} : requireDirectory observed path field = .ok u ↔
    observed path = some (some .directory) := by
  rw [requireDirectory]
  rcases observed path with _ | _ | node
  · simp [okOr]
  · simp
  · cases node <;> simp

theorem requireRegularFile_ok {u : Unit} : requireRegularFile observed path field = .ok u ↔
    ∃ contents, observed path = some (some (.file contents)) := by
  rw [requireRegularFile]
  rcases observed path with _ | _ | node
  · simp [okOr]
  · simp
  · cases node <;> simp

theorem pathIsMissing_true : pathIsMissing observed path field = .ok true ↔
    observed path = some none := by
  rw [pathIsMissing]
  rcases observed path with _ | _ | node
  · simp [okOr]
  · simp
  · cases node <;> simp

theorem pathIsMissing_false : pathIsMissing observed path field = .ok false ↔
    ∃ node, observed path = some (some node) ∧ node ≠ .symlink := by
  rw [pathIsMissing]
  rcases observed path with _ | _ | node
  · simp [okOr]
  · simp
  · cases node <;> simp

theorem World.observed_eq {world : World} {fails : Bool} {node : Option FsNode} :
    world.observed fails path = some node ↔ fails = false ∧ world.nodes path = node := by
  cases fails <;> simp [World.observed]

end Observed

/-! ## A step -/

/-- The path that a step is for. -/
def PreparationStep.path : PreparationStep → PathBuf
  | .createDirectory path => path
  | .copyFirmwareVariables _ destination => destination
  | .createDisk _ destination _ => destination

/-- What a step says it has made. -/
def PreparationStep.Done (world : World) : PreparationStep → Prop
  | .createDirectory path => world.nodes path = some .directory
  | .copyFirmwareVariables _ destination => ∃ contents, world.nodes destination = some (.file contents)
  | .createDisk _ destination _ => ∃ contents, world.nodes destination = some (.file contents)

/-- What a step may do: only at its own path, only where nothing stands, and what it leaves there is what
    it is for. -/
structure StepResult (readFile : PathBuf → Option Bytes) (faults : StepFaults)
    (step : PreparationStep) (world : World) (result : Result Unit) (after : World) : Prop where
  elsewhere : ∀ path, path ≠ step.path → after.nodes path = world.nodes path
  existing : world.nodes step.path ≠ none → after = world
  done : result = .ok () → step.Done after
  genuine : NoStub faults step ∨ result = .ok () → world.nodes step.path = none → ∀ node,
    after.nodes step.path = some node →
    match step with
    | .createDirectory _ => True
    | .copyFirmwareVariables source _ =>
        ∃ contents, readFile source = some contents ∧ node = .file contents
    | .createDisk _ _ _ => after.imaged = some node
  imaged : (∃ program destination sizeGib, step = .createDisk program destination sizeGib) ∨
    after.imaged = world.imaged

@[simp] theorem World.set_nodes_self (world : World) (path : PathBuf) (node : Option FsNode) :
    (world.set path node).nodes path = node := by
  simp [World.set]

theorem World.set_nodes_of_ne (world : World) {path other : PathBuf} (node : Option FsNode)
    (h : other ≠ path) : (world.set path node).nodes other = world.nodes other := by
  simp [World.set, h]

@[simp] theorem World.set_imaged (world : World) (path : PathBuf) (node : Option FsNode) :
    (world.set path node).imaged = world.imaged := rfl

variable {readFile : PathBuf → Option Bytes} {faults : StepFaults} {world : World}

/-- A step that has changed nothing has made nothing. -/
theorem StepResult.unchanged {step : PreparationStep} {result : Result Unit}
    (hdone : result = .ok () → step.Done world) :
    StepResult readFile faults step world result world where
  elsewhere _ _ := rfl
  existing _ := rfl
  done := hdone
  genuine _ hnone node hnode := by
    rw [hnone] at hnode
    cases hnode
  imaged := .inr rfl

/-- The step that makes a directory. -/
theorem createDirectory_result (path : PathBuf) :
    StepResult readFile faults (.createDirectory path) world
      (createDirectory faults path world).1 (createDirectory faults path world).2 := by
  unfold createDirectory
  split
  · exact .unchanged (by simp)
  · cases hnode : world.nodes path with
    | none =>
      -- Nothing stands there: the directory is made, whether or not its mode can be set.
      have hmade (result : Result Unit) : StepResult readFile faults (.createDirectory path) world
          result (world.set path (some .directory)) :=
        { elsewhere := fun other hother => world.set_nodes_of_ne _ hother
          existing := fun hsome => absurd hnode hsome
          done := fun _ => world.set_nodes_self path _
          genuine := fun _ _ _ _ => trivial
          imaged := .inr rfl }
      simp only
      split
      · exact hmade _
      · exact hmade _
    -- Something does: it has to be a directory, and stays as it is.
    | some node =>
      simp only
      cases hdirectory : requireDirectory (world.observed faults.metadata) path
          "runtime directory" with
      | error error => exact .unchanged (by simp)
      | ok _ =>
        have hdone : world.nodes path = some .directory :=
          (World.observed_eq.mp (requireDirectory_ok.mp hdirectory)).2
        simp only
        split
        · exact .unchanged (by simp)
        · exact .unchanged fun _ => hdone

/-- The step that copies the firmware variables. -/
theorem copyNewFile_result (source destination : PathBuf) :
    StepResult readFile faults (.copyFirmwareVariables source destination) world
      (copyNewFile readFile faults source destination world).1
      (copyNewFile readFile faults source destination world).2 := by
  unfold copyNewFile
  -- Without a source nothing is created.
  cases hsource : readFile source with
  | none => exact .unchanged (by simp)
  | some contents =>
    simp only
    split
    · exact .unchanged (by simp)
    -- The file is new: only its own path changes from here on.
    · rename_i hopened
      have hnone : world.nodes destination = none := by
        by_contra hsome
        exact hopened (.inr (.inr hsome))
      split
      -- The mode cannot be set: the file is there, and empty.
      · rename_i hchmod
        exact {
          elsewhere := fun other hother => world.set_nodes_of_ne _ hother
          existing := fun hsome => absurd hnone hsome
          done := by simp
          genuine := fun hstub => absurd hchmod
            (by simp [show faults.chmod = false from hstub.resolve_right (by simp)])
          imaged := .inr rfl }
      · split
        -- The copy fails: what has been written of it is removed.
        · exact {
            elsewhere := fun other hother => world.set_nodes_of_ne _ hother
            existing := fun hsome => absurd hnone hsome
            done := by simp
            genuine := fun _ _ node hnode => by simp [PreparationStep.path] at hnode
            imaged := .inr rfl }
        -- All of it is written, whether or not the synchronisation works.
        · have hmade (result : Result Unit) :
              StepResult readFile faults (.copyFirmwareVariables source destination) world result
                (world.set destination (some (.file contents))) :=
            { elsewhere := fun other hother => world.set_nodes_of_ne _ hother
              existing := fun hsome => absurd hnone hsome
              done := fun _ => ⟨contents, world.set_nodes_self destination _⟩
              genuine := fun _ _ node hnode => by
                rw [PreparationStep.path, world.set_nodes_self] at hnode
                exact ⟨contents, hsource, (Option.some.inj hnode).symm⟩
              imaged := .inr rfl }
          split
          · exact hmade _
          · exact hmade _

/-- The step that makes the system disk. -/
theorem createDisk_result (program destination : PathBuf) (sizeGib : UInt32) :
    StepResult readFile faults (.createDisk program destination sizeGib) world
      (createDisk faults program destination world).1
      (createDisk faults program destination world).2 := by
  unfold createDisk
  -- A disk that is there already is refused.
  cases hmissing : pathIsMissing (world.observed faults.metadata) destination "system disk" with
  | error error => exact .unchanged (by simp)
  | ok missing =>
    cases missing with
    | false => exact .unchanged (by simp)
    | true =>
      have hnone : world.nodes destination = none :=
        (World.observed_eq.mp (pathIsMissing_true.mp hmissing)).2
      simp only
      -- The program cannot be run, or fails, or reports success.
      cases hstatus : faults.image.status with
      | none =>
        exact {
          elsewhere := fun other hother => world.set_nodes_of_ne _ hother
          existing := fun hsome => absurd hnone hsome
          done := by simp
          genuine := fun hstub _ node hnode => by
            have hnothing : faults.image.leaves = none := hstub.resolve_right (by simp) hstatus
            simp [PreparationStep.path, hnothing] at hnode
          imaged := .inr rfl }
      | some code =>
        simp only
        split
        · exact {
            elsewhere := fun other hother =>
              (World.set_nodes_of_ne _ _ hother).trans (world.set_nodes_of_ne _ hother)
            existing := fun hsome => absurd hnone hsome
            done := by simp
            genuine := fun _ _ node hnode => by simp [PreparationStep.path] at hnode
            imaged := .inr rfl }
        · -- What a `qemu-img` leaves that succeeded is a disk, or the step fails.
          have hmade (result : Result Unit)
              (hdone : result = .ok () → ∃ contents, faults.image.leaves = some (.file contents)) :
              StepResult readFile faults (.createDisk program destination sizeGib) world result
                { world.set destination faults.image.leaves with imaged := faults.image.leaves } :=
            { elsewhere := fun other hother => world.set_nodes_of_ne _ hother
              existing := fun hsome => absurd hnone hsome
              done := fun hresult => by
                obtain ⟨contents, hleaves⟩ := hdone hresult
                exact ⟨contents, (world.set_nodes_self destination _).trans hleaves⟩
              genuine := fun _ _ node hnode =>
                (world.set_nodes_self destination faults.image.leaves).symm.trans hnode
              imaged := .inl ⟨program, destination, sizeGib, rfl⟩ }
          -- The step looks at what is there now.
          cases hregular : requireRegularFile
              (World.observed { world.set destination faults.image.leaves with
                imaged := faults.image.leaves } faults.metadataAfter) destination "system disk" with
          | error error => exact hmade _ (by simp)
          | ok _ =>
            obtain ⟨contents, hobserved⟩ := requireRegularFile_ok.mp hregular
            have hleaves := (World.observed_eq.mp hobserved).2
            have hfile : ∃ contents, faults.image.leaves = some (.file contents) :=
              ⟨contents, (world.set_nodes_self destination _).symm.trans hleaves⟩
            simp only
            split
            · exact hmade _ (by simp)
            · exact hmade _ fun _ => hfile

/-- What every step may do. -/
theorem applyStep_result (step : PreparationStep) :
    StepResult readFile faults step world (applyStep readFile faults step world).1
      (applyStep readFile faults step world).2 := by
  cases step with
  | createDirectory path => exact createDirectory_result path
  | copyFirmwareVariables source destination => exact copyNewFile_result source destination
  | createDisk program destination sizeGib => exact createDisk_result program destination sizeGib

/-! ## A plan -/

theorem StepResult.keeps {step : PreparationStep} {result : Result Unit} {after : World}
    (h : StepResult readFile faults step world result after) : Keeps world after := by
  intro path node hnode
  by_cases hpath : path = step.path
  · rw [h.existing (by rw [← hpath, hnode]; simp)]
    exact hnode
  · rw [h.elsewhere path hpath]
    exact hnode

theorem PreparationStep.Done.keep {step : PreparationStep} {after : World} (h : step.Done world)
    (hkeeps : Keeps world after) : step.Done after := by
  cases step with
  | createDirectory path => exact hkeeps _ _ h
  | copyFirmwareVariables source destination =>
    obtain ⟨contents, hcontents⟩ := h
    exact ⟨contents, hkeeps _ _ hcontents⟩
  | createDisk program destination sizeGib =>
    obtain ⟨contents, hcontents⟩ := h
    exact ⟨contents, hkeeps _ _ hcontents⟩

section Steps

variable {allFaults : PreparationStep → StepFaults}

/-- What every step keeps, a list of them keeps. -/
theorem applySteps_invariant {I : World → Prop} {steps : List PreparationStep}
    (hstep : ∀ step ∈ steps, ∀ before, I before →
      I (applyStep readFile (allFaults step) step before).2)
    {world : World} (h : I world) : I (applySteps readFile allFaults steps world).2 := by
  induction steps generalizing world with
  | nil => exact h
  | cons step steps ih =>
    have hnext := hstep step List.mem_cons_self world h
    rw [applySteps]
    rcases hcase : applyStep readFile (allFaults step) step world with ⟨_ | _, after⟩
    · rw [hcase] at hnext
      exact hnext
    · rw [hcase] at hnext
      exact ih (fun other hother => hstep other (List.mem_cons_of_mem _ hother)) hnext

/-- What every step keeps when it succeeds, a list keeps that succeeds. -/
theorem applySteps_invariant_of_ok {I : World → Prop} {steps : List PreparationStep}
    (hstep : ∀ step ∈ steps, ∀ before, I before →
      (applyStep readFile (allFaults step) step before).1 = .ok () →
      I (applyStep readFile (allFaults step) step before).2)
    {world after : World} (hok : applySteps readFile allFaults steps world = (.ok (), after))
    (h : I world) : I after := by
  induction steps generalizing world with
  | nil =>
    obtain ⟨-, rfl⟩ := Prod.mk.inj hok
    exact h
  | cons step steps ih =>
    have hnext := hstep step List.mem_cons_self world h
    rw [applySteps] at hok
    rcases hcase : applyStep readFile (allFaults step) step world with ⟨_ | _, middle⟩
    · rw [hcase] at hok
      cases hok
    · rw [hcase] at hok hnext
      exact ih (fun other hother => hstep other (List.mem_cons_of_mem _ hother)) hok (hnext rfl)

theorem applySteps_keeps (steps : List PreparationStep) (world : World) :
    Keeps world (applySteps readFile allFaults steps world).2 := by
  refine applySteps_invariant (fun step _ before hbefore => ?_) fun _ _ => id
  exact fun path node hnode => (applyStep_result step).keeps path node (hbefore path node hnode)

/-- Steps that all succeed have all been done. -/
theorem applySteps_done {steps : List PreparationStep} {world after : World}
    (h : applySteps readFile allFaults steps world = (.ok (), after)) :
    ∀ step ∈ steps, step.Done after := by
  induction steps generalizing world with
  | nil => simp
  | cons step steps ih =>
    have hstep : StepResult readFile (allFaults step) step world
        (applyStep readFile (allFaults step) step world).1
        (applyStep readFile (allFaults step) step world).2 := applyStep_result step
    rw [applySteps] at h
    rcases hcase : applyStep readFile (allFaults step) step world with ⟨_ | _, middle⟩
    · rw [hcase] at h
      cases h
    · rw [hcase] at h hstep
      have hkeeps : Keeps middle (applySteps readFile allFaults steps middle).2 :=
        applySteps_keeps steps middle
      simp only at h
      rw [h] at hkeeps
      exact List.forall_mem_cons.mpr ⟨(hstep.done rfl).keep hkeeps, ih h⟩

end Steps

variable {provisioner : Provisioner} {manifest : InstanceManifest} {instanceDir : PathBuf}

/-- A plan for a path has steps for it only where nothing stands. -/
theorem planPath_ok {observed : Observed} {path : PathBuf} {field : String}
    {require : Observed → PathBuf → String → Result Unit} {missing plan : PreparationPlan} :
    planPath observed path field require missing = .ok plan ↔
      (observed path = some none ∧ plan = missing) ∨
      ((∃ node, observed path = some (some node) ∧ node ≠ .symlink) ∧
        require observed path field = .ok () ∧ plan = ⟨[], []⟩) := by
  have hmissing : pathIsMissing observed path field = .ok true ↔ observed path = some none :=
    pathIsMissing_true
  have hthere : pathIsMissing observed path field = .ok false ↔
      ∃ node, observed path = some (some node) ∧ node ≠ .symlink := pathIsMissing_false
  rw [← hmissing, ← hthere, planPath]
  clear hmissing hthere
  -- The path is missing, there, or cannot be looked at.
  cases hmissing : pathIsMissing observed path field with
  | error error => simp
  | ok isMissing =>
    cases isMissing with
    | true =>
      show pure missing = Except.ok plan ↔ _
      rw [pure_eq_ok_iff]
      simp [eq_comm]
    -- It is there: no step, if it is what is required.
    | false =>
      show (require observed path field >>= fun _ => pure ⟨[], []⟩) = Except.ok plan ↔ _
      rw [bind_eq_ok]
      simp only [pure_eq_ok_iff]
      constructor
      · rintro ⟨⟨⟩, hrequire, rfl⟩
        exact .inr ⟨trivial, hrequire, rfl⟩
      · rintro (⟨hmissing, -⟩ | ⟨-, hrequire, rfl⟩)
        · cases hmissing
        · exact ⟨(), hrequire, rfl⟩

/-- The parts that a plan is put together from. -/
theorem plan_ok {observed : Observed} {plan : PreparationPlan} :
    provisioner.plan manifest instanceDir observed = .ok plan ↔
      manifest.spec.validate = .ok () ∧ observed instanceDir = some (some .directory) ∧
      ∃ run swtpm firmware disk,
        planPath observed (runDirectory instanceDir) "runtime directory" requireDirectory
          ⟨[.createDirectory (runDirectory instanceDir)], []⟩ = .ok run ∧
        planPath observed (swtpmDirectory instanceDir) "runtime directory" requireDirectory
          ⟨[.createDirectory (swtpmDirectory instanceDir)], []⟩ = .ok swtpm ∧
        planPath observed (firmwareStore instanceDir) "firmware variable store" requireRegularFile
          (firmwareMissing provisioner manifest.spec.profile instanceDir) = .ok firmware ∧
        planPath observed (systemDisk instanceDir) "system disk" requireRegularFile
          (diskMissing provisioner manifest.spec.diskGib instanceDir) = .ok disk ∧
        plan = ⟨run.steps ++ swtpm.steps ++ firmware.steps ++ disk.steps,
          firmware.missingCapabilities ++ disk.missingCapabilities⟩ := by
  simp only [Provisioner.plan, bind_eq_ok, pure_eq_ok_iff, requireDirectory_ok]
  constructor
  · rintro ⟨⟨⟩, hvalid, ⟨⟩, hroot, run, hrun, swtpm, hswtpm, firmware, hfirmware, disk, hdisk, rfl⟩
    exact ⟨hvalid, hroot, run, swtpm, firmware, disk, hrun, hswtpm, hfirmware, hdisk, rfl⟩
  · rintro ⟨hvalid, hroot, run, swtpm, firmware, disk, hrun, hswtpm, hfirmware, hdisk, rfl⟩
    exact ⟨(), hvalid, (), hroot, run, hrun, swtpm, hswtpm, firmware, hfirmware, disk, hdisk, rfl⟩

/-- The steps that a plan without missing capabilities can have. -/
def PlannedStep (provisioner : Provisioner) (manifest : InstanceManifest) (instanceDir : PathBuf) :
    PreparationStep → Prop
  | .createDirectory path => path = runDirectory instanceDir ∨ path = swtpmDirectory instanceDir
  | .copyFirmwareVariables source destination => destination = firmwareStore instanceDir ∧
      provisioner.firmwareVars manifest.spec.profile = some source
  | .createDisk _ destination _ => destination = systemDisk instanceDir

/-- A plan that lacks no capability has planned steps only. -/
theorem planned_steps {observed : Observed} {plan : PreparationPlan}
    (h : provisioner.plan manifest instanceDir observed = .ok plan)
    (hcapable : plan.missingCapabilities = []) :
    ∀ step ∈ plan.steps, PlannedStep provisioner manifest instanceDir step := by
  obtain ⟨-, -, run, swtpm, firmware, disk, hrun, hswtpm, hfirmware, hdisk, rfl⟩ := plan_ok.mp h
  obtain ⟨hcapableFirmware, -⟩ := List.append_eq_nil_iff.mp hcapable
  intro step hstep
  simp only [List.mem_append] at hstep
  -- A step is that of one of the four paths.
  rcases hstep with ((hstep | hstep) | hstep) | hstep
  · rcases planPath_ok.mp hrun with ⟨-, rfl⟩ | ⟨-, -, rfl⟩
    · obtain rfl := List.mem_singleton.mp hstep
      exact .inl rfl
    · cases hstep
  · rcases planPath_ok.mp hswtpm with ⟨-, rfl⟩ | ⟨-, -, rfl⟩
    · obtain rfl := List.mem_singleton.mp hstep
      exact .inr rfl
    · cases hstep
  · rcases planPath_ok.mp hfirmware with ⟨-, rfl⟩ | ⟨-, -, rfl⟩
    · obtain rfl := List.mem_singleton.mp hstep
      -- Without a template the plan would lack a capability.
      cases hsource : provisioner.firmwareVars manifest.spec.profile with
      | none => simp [firmwareMissing, hsource] at hcapableFirmware
      | some source => exact ⟨rfl, hsource⟩
    · cases hstep
  · rcases planPath_ok.mp hdisk with ⟨-, rfl⟩ | ⟨-, -, rfl⟩
    · obtain rfl := List.mem_singleton.mp hstep
      exact rfl
    · cases hstep

/-! ## Attempts -/

theorem attemptOn_keeps (attempt : Attempt) (world : World) :
    Keeps world (attemptOn readFile provisioner manifest instanceDir attempt world).2 := by
  unfold attemptOn
  cases provisioner.plan manifest instanceDir attempt.planned with
  | error error => exact fun _ _ => id
  | ok plan =>
    show Keeps world (apply readFile attempt.faults plan world).2
    unfold apply
    split
    · exact fun _ _ => id
    · exact applySteps_keeps plan.steps world

/-- A step that a plan can have leaves nothing that is not genuine. -/
theorem applyStep_genuine {initial world : World} {step : PreparationStep} {faults : StepFaults}
    (hplanned : PlannedStep provisioner manifest instanceDir step)
    (hstub : NoStub faults step ∨ (applyStep readFile faults step world).1 = .ok ())
    (h : Genuine readFile provisioner manifest instanceDir initial world) :
    Genuine readFile provisioner manifest instanceDir initial
      (applyStep readFile faults step world).2 := by
  have hstep : StepResult readFile faults step world (applyStep readFile faults step world).1
      (applyStep readFile faults step world).2 := applyStep_result step
  generalize applyStep readFile faults step world = applied at hstep hstub
  obtain ⟨result, after⟩ := applied
  -- The four paths of an instance are four different ones.
  obtain ⟨hrunFirmware, hrunDisk, hswtpmFirmware, hswtpmDisk, hfirmwareDisk⟩ := paths_differ instanceDir
  -- A step changes nothing where there is something already.
  by_cases hthere : world.nodes step.path = none
  · cases step with
    -- A directory is neither of the two files.
    | createDirectory path =>
      have himaged : after.imaged = world.imaged := hstep.imaged.resolve_left (by simp)
      have hfirmware : firmwareStore instanceDir ≠ path := by
        rcases hplanned with rfl | rfl
        · exact hrunFirmware.symm
        · exact hswtpmFirmware.symm
      have hdisk : systemDisk instanceDir ≠ path := by
        rcases hplanned with rfl | rfl
        · exact hrunDisk.symm
        · exact hswtpmDisk.symm
      refine ⟨fun hnone node hnode => ?_, fun hnone node hnode => ?_⟩
      · exact h.firmware hnone node ((hstep.elsewhere _ hfirmware).symm.trans hnode)
      · rw [himaged]
        exact h.disk hnone node ((hstep.elsewhere _ hdisk).symm.trans hnode)
    -- The variables are a copy of the template, or not there.
    | copyFirmwareVariables source destination =>
      obtain ⟨rfl, hsource⟩ := hplanned
      have himaged : after.imaged = world.imaged := hstep.imaged.resolve_left (by simp)
      refine ⟨fun hnone node hnode => ?_, fun hnone node hnode => ?_⟩
      · obtain ⟨contents, hcontents, rfl⟩ := hstep.genuine hstub hthere node hnode
        exact ⟨source, contents, hsource, hcontents, rfl⟩
      · rw [himaged]
        exact h.disk hnone node ((hstep.elsewhere _ hfirmwareDisk.symm).symm.trans hnode)
    -- The disk is made by the program, or not there.
    | createDisk program destination sizeGib =>
      obtain rfl : destination = systemDisk instanceDir := hplanned
      refine ⟨fun hnone node hnode => ?_, fun hnone node hnode => ?_⟩
      · exact h.firmware hnone node ((hstep.elsewhere _ hfirmwareDisk).symm.trans hnode)
      · exact hstep.genuine hstub hthere node hnode
  · rw [show after = world from hstep.existing hthere]
    exact h

/-- A clean attempt leaves nothing that is not genuine. -/
theorem attemptOn_genuine {initial world : World} {attempt : Attempt} (hclean : attempt.Clean)
    (h : Genuine readFile provisioner manifest instanceDir initial world) :
    Genuine readFile provisioner manifest instanceDir initial
      (attemptOn readFile provisioner manifest instanceDir attempt world).2 := by
  unfold attemptOn
  cases hplan : provisioner.plan manifest instanceDir attempt.planned with
  | error error => exact h
  | ok plan =>
    show Genuine readFile provisioner manifest instanceDir initial
      (apply readFile attempt.faults plan world).2
    unfold apply
    split
    · exact h
    · rename_i hcapable
      have hsteps := planned_steps hplan (not_not.mp hcapable)
      exact applySteps_invariant
        (fun step hstep before hbefore =>
          applyStep_genuine (hsteps step hstep) (.inl (hclean step)) hbefore) h

/-- And so does one that succeeds, whatever would have gone wrong in it. -/
theorem attemptOn_genuine_of_ok {initial world after : World} {attempt : Attempt}
    (hok : attemptOn readFile provisioner manifest instanceDir attempt world = (.ok (), after))
    (h : Genuine readFile provisioner manifest instanceDir initial world) :
    Genuine readFile provisioner manifest instanceDir initial after := by
  unfold attemptOn at hok
  cases hplan : provisioner.plan manifest instanceDir attempt.planned with
  | error error =>
    rw [hplan] at hok
    cases hok
  | ok plan =>
    rw [hplan] at hok
    simp only [apply] at hok
    split at hok
    · cases hok
    · rename_i hcapable
      have hsteps := planned_steps hplan (not_not.mp hcapable)
      exact applySteps_invariant_of_ok
        (fun step hstep before hbefore hdone =>
          applyStep_genuine (hsteps step hstep) (.inr hdone) hbefore) hok h

/-! ## The last attempt -/

/-- A plan for what there is, when it has been applied, leaves an instance that lacks nothing. -/
theorem complete_of_applied {world after : World} {faults : PreparationStep → StepFaults}
    (h : attemptOn readFile provisioner manifest instanceDir ⟨world.observed false, faults⟩ world =
      (.ok (), after)) :
    manifest.spec.validate = .ok () ∧ Complete instanceDir after := by
  -- Whatever was there before is there afterwards.
  have hkeeps : Keeps world (attemptOn readFile provisioner manifest instanceDir
      ⟨world.observed false, faults⟩ world).2 :=
    attemptOn_keeps ⟨world.observed false, faults⟩ world
  rw [h] at hkeeps
  unfold attemptOn at h
  -- Only a plan that was made can have been applied.
  cases hplan : provisioner.plan manifest instanceDir (world.observed false) with
  | error error =>
    rw [hplan] at h
    cases h
  | ok plan =>
    rw [hplan] at h
    simp only [apply] at h
    split at h
    · cases h
    -- All its steps are done.
    · have hdone := applySteps_done h
      obtain ⟨hvalid, hroot, run, swtpm, firmware, disk, hrun, hswtpm, hfirmware, hdisk, rfl⟩ :=
        plan_ok.mp hplan
      simp only [List.mem_append] at hdone
      -- What the plan saw is still there.
      have hnode {path : PathBuf} {node : FsNode}
          (hobserved : world.observed false path = some (some node)) : after.nodes path = some node :=
        hkeeps path node (World.observed_eq.mp hobserved).2
      -- Each of the four paths was there, or there was a step for it.
      refine ⟨hvalid, hnode hroot, ?_, ?_, ?_, ?_⟩
      · rcases planPath_ok.mp hrun with ⟨-, rfl⟩ | ⟨-, hdirectory, -⟩
        · exact hdone (.createDirectory _) (.inl (.inl (.inl (List.mem_singleton_self _))))
        · exact hnode (requireDirectory_ok.mp hdirectory)
      · rcases planPath_ok.mp hswtpm with ⟨-, rfl⟩ | ⟨-, hdirectory, -⟩
        · exact hdone (.createDirectory _) (.inl (.inl (.inr (List.mem_singleton_self _))))
        · exact hnode (requireDirectory_ok.mp hdirectory)
      · rcases planPath_ok.mp hfirmware with ⟨-, rfl⟩ | ⟨-, hregular, -⟩
        · exact hdone _ (.inl (.inr (List.mem_singleton_self _)))
        · obtain ⟨contents, hobserved⟩ := requireRegularFile_ok.mp hregular
          exact ⟨contents, hnode hobserved⟩
      · rcases planPath_ok.mp hdisk with ⟨-, rfl⟩ | ⟨-, hregular, -⟩
        · exact hdone _ (.inr (List.mem_singleton_self _))
        · obtain ⟨contents, hobserved⟩ := requireRegularFile_ok.mp hregular
          exact ⟨contents, hnode hobserved⟩

/-- There is nothing left to do for an instance that lacks nothing. -/
theorem ready_of_complete {world : World} (hvalid : manifest.spec.validate = .ok ())
    (h : Complete instanceDir world) :
    provisioner.plan manifest instanceDir (world.observed false) = .ok ⟨[], []⟩ := by
  have hthere {path : PathBuf} {node : FsNode} (hnode : world.nodes path = some node) :
      world.observed false path = some (some node) := World.observed_eq.mpr ⟨rfl, hnode⟩
  obtain ⟨firmware, hfirmware⟩ := h.firmware
  obtain ⟨disk, hdisk⟩ := h.disk
  refine plan_ok.mpr ⟨hvalid, hthere h.root, ⟨[], []⟩, ⟨[], []⟩, ⟨[], []⟩, ⟨[], []⟩, ?_, ?_, ?_, ?_, rfl⟩
  · exact planPath_ok.mpr (.inr ⟨⟨_, hthere h.run, by simp⟩,
      requireDirectory_ok.mpr (hthere h.run), rfl⟩)
  · exact planPath_ok.mpr (.inr ⟨⟨_, hthere h.swtpm, by simp⟩,
      requireDirectory_ok.mpr (hthere h.swtpm), rfl⟩)
  · exact planPath_ok.mpr (.inr ⟨⟨_, hthere hfirmware, by simp⟩,
      requireRegularFile_ok.mpr ⟨firmware, hthere hfirmware⟩, rfl⟩)
  · exact planPath_ok.mpr (.inr ⟨⟨_, hthere hdisk, by simp⟩,
      requireRegularFile_ok.mpr ⟨disk, hthere hdisk⟩, rfl⟩)

/-! ## Any number of attempts -/

theorem attempts_kept {initial : World} {all : List Attempt} (hclean : ∀ attempt ∈ all, attempt.Clean) :
    Keeps initial (attempts readFile provisioner manifest instanceDir initial all) ∧
      Genuine readFile provisioner manifest instanceDir initial
        (attempts readFile provisioner manifest instanceDir initial all) := by
  have hfirst : Genuine readFile provisioner manifest instanceDir initial initial :=
    ⟨fun hnone node hnode => absurd (hnone.symm.trans hnode) (by simp),
      fun hnone node hnode => absurd (hnone.symm.trans hnode) (by simp)⟩
  refine run_invariant (I := fun world => Keeps initial world ∧
    Genuine readFile provisioner manifest instanceDir initial world) ?_ ⟨fun _ _ => id, hfirst⟩
    (along_of_forall_mem hclean)
  rintro world attempt ⟨hkeeps, hgenuine⟩ hattempt
  exact ⟨fun path node hnode => attemptOn_keeps attempt world path node (hkeeps path node hnode),
    attemptOn_genuine hattempt hgenuine⟩

/-- However attempts fail, as long as no firmware copy is left without its permissions: nothing that was
    there is changed, and once a plan for what there is has been applied, the instance lacks nothing and
    nothing in it is partial. -/
theorem attempts_prepare_rightly (readFile : PathBuf → Option Bytes) (provisioner : Provisioner)
    (manifest : InstanceManifest) (instanceDir : PathBuf) (initial : World) {all : List Attempt}
    (hclean : ∀ attempt ∈ all, attempt.Clean) :
    PreparedRightly readFile provisioner manifest instanceDir initial
      (attempts readFile provisioner manifest instanceDir initial all) := by
  obtain ⟨hkeeps, hgenuine⟩ :=
    @attempts_kept readFile provisioner manifest instanceDir initial all hclean
  refine ⟨hkeeps, fun faults after happlied => ?_⟩
  obtain ⟨hvalid, hcomplete⟩ := complete_of_applied happlied
  have hlast := @attemptOn_keeps readFile provisioner manifest instanceDir
    ⟨(attempts readFile provisioner manifest instanceDir initial all).observed false, faults⟩
    (attempts readFile provisioner manifest instanceDir initial all)
  rw [happlied] at hlast
  exact ⟨fun path node hnode => hlast path node (hkeeps path node hnode),
    ⟨⟨[], []⟩, ready_of_complete hvalid hcomplete, rfl⟩, hcomplete,
    attemptOn_genuine_of_ok happlied hgenuine⟩

/-! ## A copy without its permissions -/

def demoDir : PathBuf := .ofStr "/lsw/demo".toList

def demoProvisioner : Provisioner where
  qemuImg := some (.ofStr "/bin/qemu-img".toList)
  ovmfVars := some (.ofStr "/ovmf/vars.fd".toList)
  ovmfSecureVars := none

/-- The template, and no other file. -/
def demoFiles (path : PathBuf) : Option Bytes :=
  if path = .ofStr "/ovmf/vars.fd".toList then some [1, 2] else none

/-- An instance directory with nothing in it. -/
def emptyInstance : World where
  nodes path := if path = demoDir then some .directory else none
  imaged := none

/-- The permissions of the firmware copy cannot be set. -/
def chmodFails : Attempt where
  planned := emptyInstance.observed false
  faults
    | .copyFirmwareVariables _ _ => { chmod := true }
    | _ => {}

/-- The template cannot be copied to its end. -/
def copyFails : Attempt where
  planned := emptyInstance.observed false
  faults
    | .copyFirmwareVariables _ _ => { copy := true }
    | _ => {}

theorem copy_that_fails_leaves_nothing_partial :
    PreparedRightly demoFiles demoProvisioner (demoManifest []) demoDir emptyInstance
      (attempts demoFiles demoProvisioner (demoManifest []) demoDir emptyInstance [copyFails]) := by
  refine attempts_prepare_rightly _ _ _ _ _ fun attempt hattempt step => ?_
  obtain rfl := List.mem_singleton.mp hattempt
  cases step with
  | createDirectory path => trivial
  | copyFirmwareVariables source destination => rfl
  | createDisk program destination sizeGib => exact fun hstatus => by cases hstatus

/-- An empty file is left where the variables belong, and the next plan takes it for them. -/
theorem empty_firmware_store_is_taken_for_prepared :
    ¬ ∀ all, PreparedRightly demoFiles demoProvisioner (demoManifest []) demoDir emptyInstance
      (attempts demoFiles demoProvisioner (demoManifest []) demoDir emptyInstance all) := by
  intro hall
  let stub := attempts demoFiles demoProvisioner (demoManifest []) demoDir emptyInstance [chmodFails]
  let last := attemptOn demoFiles demoProvisioner (demoManifest []) demoDir
    ⟨stub.observed false, fun _ => {}⟩ stub
  have hok : last.1 = .ok () := by decide
  have hempty : last.2.nodes (firmwareStore demoDir) = some (.file []) := by decide
  obtain ⟨-, -, -, hgenuine⟩ := (hall [chmodFails]).applied (fun _ => {}) last.2
    (Prod.ext hok rfl)
  obtain ⟨source, contents, -, hcontents, hnode⟩ := hgenuine.firmware (by decide) _ hempty
  obtain rfl := FsNode.file.inj hnode
  -- The template is not empty.
  unfold demoFiles at hcontents
  split at hcontents
  · cases hcontents
  · cases hcontents

end Lsw.Core.Preparation
