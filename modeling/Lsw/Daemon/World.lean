import Lsw.Daemon.ProcessEvidence
import Lsw.Lib.Traced

/-!
# The World of the Supervisor

What the supervisor (`supervisor.rs`, `runtime.rs`) works on: the state store, the `run`
directories of the instances, the processes it has started, and its own memory of them.  All
that is not decided by the daemon is asked of an environment, one answer after another: whether
a call works, what QMP replies, which processes end and how much time passes meanwhile.  A
statement for every environment is one for every such course of events.

Processes outlive the daemon; `managed` and `lastPolicyPoll` do not.
-/

namespace Lsw.Daemon

open Lsw.Lib Lsw.Core

/-! ## Processes and files -/

/-- What a child process runs. -/
inductive Role where
  | qemu
  | helper
  deriving DecidableEq, Repr

/-- `ExitStatus`: whether it is a success, and how it is printed. -/
structure ExitStatus where
  success : Bool
  shown : String
  deriving DecidableEq, Repr

/-- The status of a process that was killed. -/
def ExitStatus.killed : ExitStatus := { success := false, shown := "signal: 9 (SIGKILL)" }

/-- A process that was started for an instance.  Its PID is its place among all processes. -/
structure Process where
  role : Role
  owner : Str
  /-- The QMP socket in the `run` directory is its own. -/
  reachable : Bool := true
  exit : Option ExitStatus := none
  /-- What a QEMU was launched for. -/
  phase : LaunchPhase := .run
  /-- The balloon target of a QEMU, in MiB: its boot memory, until it carries out a `balloon`
      command. -/
  balloon : UInt32 := 0
  deriving DecidableEq

/-- The process ends, unless it has ended before. -/
def Process.ended (process : Process) (status : ExitStatus) : Process :=
  { process with exit := process.exit <|> some status }

/-- A QEMU of the instance that has not ended. -/
def Process.isLive (process : Process) (name : Str) : Bool :=
  process.role = .qemu && process.owner = name && process.exit.isNone

/-- The files below `run` whose presence matters. -/
inductive RunFile where
  | swtpmSock
  | qmpSock
  | recoveryVncSock
  | qemuPid
  | installationViewer
  | shutdownRequested
  | hibernateRequested
  | ephemeralOverlay
  deriving DecidableEq, Repr

/-- The path of the file, from the instance directory. -/
def RunFile.path : RunFile → String
  | .swtpmSock => "run/swtpm.sock"
  | .qmpSock => "run/qmp.sock"
  | .recoveryVncSock => "run/recovery-vnc.sock"
  | .qemuPid => "run/qemu.pid"
  | .installationViewer => "run/installation-viewer.vv"
  | .shutdownRequested => "run/shutdown.requested"
  | .hibernateRequested => "run/hibernate.requested"
  | .ephemeralOverlay => "run/ephemeral.qcow2"

/-- What `symlink_metadata` finds at a path. -/
inductive RunEntry where
  | absent
  | file
  | socket
  | other
  deriving DecidableEq, Repr

/-- What a child process puts there, if it does: the sockets and the PID file. -/
def RunFile.asCreated : RunFile → Option RunEntry
  | .swtpmSock | .qmpSock | .recoveryVncSock => some .socket
  | .qemuPid => some .file
  | _ => none

/-! ## The environment -/

/-- The `status` of QMP `query-status`. -/
inductive QmpState where
  | running
  | paused
  | other (status : String)
  deriving DecidableEq, Repr

/-- The text of the status. -/
def QmpState.text : QmpState → String
  | .running => "running"
  | .paused => "paused"
  | .other status => status

/-- One answer of the environment. -/
structure Answer where
  /-- The processes that end. -/
  exits : List (Nat × ExitStatus) := []
  /-- The files that child processes create. -/
  created : List (Str × RunFile) := []
  /-- The milliseconds that pass. -/
  elapsed : Nat := 0
  /-- `unix_seconds`. -/
  seconds : UInt64 := 0
  /-- A QMP exchange, a spawned process, a guest request works. -/
  ok : Bool := true
  /-- QEMU carries out a command although the exchange does not work: the reply is lost. -/
  carriedOut : Bool := false
  /-- A file can be written or removed. -/
  disk : Bool := true
  /-- The same for `run/hibernate.requested`. -/
  markerDisk : Bool := true
  /-- How a command that is waited for ends. -/
  status : ExitStatus := { success := true, shown := "exit status: 0" }
  /-- What QMP says about the guest. -/
  qmp : QmpState := .running
  /-- `host_memory_pressure`. -/
  memoryPressure : Bool := false
  /-- The file system as the planner sees it. -/
  fs : HostFs
  /-- Length and text of a PID file. -/
  pidFile : Nat × Option Str := (0, none)
  /-- `/proc`. -/
  proc : ProcRoot

/-- The file can be written or removed. -/
def Answer.allows (answer : Answer) : RunFile → Bool
  | .hibernateRequested => answer.markerDisk
  | _ => answer.disk

/-- `ManagedVm`, by PIDs. -/
structure ManagedVm where
  qemu : Nat
  helpers : List Nat
  deriving DecidableEq

/-- An `Ok` of `set_balloon_target`, beside the targets that the QEMU processes of the instance
    have at that moment. -/
structure BalloonReport where
  name : Str
  memoryMib : UInt32
  targets : List UInt32
  deriving DecidableEq

/-- The host, with the supervisor on it. -/
structure World where
  env : Nat → Answer
  /-- How many answers the environment has given. -/
  tick : Nat := 0
  /-- `Instant::now`, in milliseconds. -/
  clock : Nat := 0
  planner : QemuPlanner
  store : StateStore
  processes : List Process := []
  files : Str → RunFile → RunEntry := fun _ _ => .absent
  /-- `run/last-activity`. -/
  lastActivity : Str → Option UInt64 := fun _ => none
  /-- `run/balloon.target`. -/
  balloonTarget : Str → Option UInt32 := fun _ => none
  /-- The guest has accepted a request to hibernate since its QEMU was launched. -/
  guestHibernating : Str → Bool := fun _ => false
  /-- What `set_balloon_target` has reported so far. -/
  reports : List BalloonReport := []
  /-- `Supervisor::processes`. -/
  managed : List (Str × ManagedVm) := []
  /-- `Supervisor::last_policy_poll`. -/
  lastPolicyPoll : Nat := 0

/-- What makes the daemon act as if the QEMU of an instance had ended. -/
inductive Presumption where
  /-- `start` has found a suspended instance whose QMP socket does not answer. -/
  | suspendedUnanswered
  /-- A forced `stop` has seen a QMP connection fail after `quit`. -/
  | disconnected
  /-- `status` has found no evidence of the process. -/
  | noEvidence
  deriving DecidableEq, Repr

/-- What is to be seen from outside; `live` tells whether a QEMU that was started earlier for
    the instance has not ended. -/
inductive Event where
  | launched (name : Str) (pid : Nat) (live : Bool)
  | unlinked (name : Str) (file : RunFile) (live : Bool)
  | presumedGone (name : Str) (why : Presumption) (live : Bool)
  /-- `apply_idle_policies` begins. -/
  | policyPass
  /-- An ended QEMU is recorded as hibernated; `accepted` tells whether its guest has accepted a
      request to hibernate. -/
  | hibernationRecorded (name : Str) (accepted : Bool)
  /-- `start` drops the error of its balloon command; `stale` tells whether `run/balloon.target`
      then holds another value than the boot memory. -/
  | balloonDropped (name : Str) (stale : Bool)
  deriving DecidableEq

/-- `Box<dyn Error>`: a text of the supervisor's own, such a text in front of another error, an
    error of `lsw-core`, or one that comes from outside.  A call that nests too many others is
    `stuck`. -/
inductive Failure where
  | error (message : Message)
  | because (message : Message) (cause : Failure)
  | core (e : LswError)
  | outside
  | stuck
  deriving DecidableEq

/-- A call of the supervisor. -/
abbrev Call := Traced World Event Failure

/-! ## The state of the world -/

namespace World

/-- A QEMU of the instance has not ended. -/
def isLive (w : World) (name : Str) : Bool := w.processes.any (·.isLive name)

/-- `self.processes.contains_key(name)`. -/
def owns (w : World) (name : Str) : Bool := (w.managed.lookup name).isSome

/-- The process has not ended. -/
def isRunning (w : World) (pid : Nat) : Bool := (w.processes[pid]?).any (·.exit.isNone)

/-- The QEMU behind the QMP socket of the instance. -/
def listener (w : World) (name : Str) : Option Nat :=
  w.processes.findIdx? fun process => process.isLive name && process.reachable

/-- A process ends. -/
def endProcess (w : World) (pid : Nat) (status : ExitStatus) : World :=
  { w with processes := w.processes.modify pid (·.ended status) }

/-- Something is put at a path. -/
def setFile (w : World) (name : Str) (file : RunFile) (entry : RunEntry) : World :=
  { w with files := fun name' file' =>
      if name' = name ∧ file' = file then entry else w.files name' file' }

/-- A child process creates a file, unless there is something already. -/
def createFile (w : World) (name : Str) (file : RunFile) : World :=
  match file.asCreated, w.files name file with
  | some entry, .absent => w.setFile name file entry
  | _, _ => w

/-- `fs::remove_file`; without its socket a QEMU cannot be reached any more. -/
def unlink (w : World) (name : Str) (file : RunFile) : World :=
  let w := w.setFile name file .absent
  if file = .qmpSock then
    { w with processes := w.processes.map fun process =>
        if process.owner = name then { process with reachable := false } else process }
  else w

/-- What an answer of the environment does. -/
def pass (w : World) (answer : Answer) : World :=
  let w := answer.exits.foldl (fun w exit => w.endProcess exit.1 exit.2) w
  let w := answer.created.foldl (fun w created => w.createFile created.1 created.2) w
  { w with tick := w.tick + 1, clock := w.clock + answer.elapsed }

/-- A process is started. -/
def push (w : World) (process : Process) : World :=
  { w with processes := w.processes ++ [process] }

/-- A QEMU is started; nobody has asked its guest for anything yet. -/
def pushQemu (w : World) (owner : Str) (phase : LaunchPhase) (memoryMib : UInt32) : World :=
  { w.push { role := .qemu, owner, phase, balloon := memoryMib } with
    guestHibernating := Function.update w.guestHibernating owner false }

/-- QEMU carries out a `balloon` command. -/
def setBalloon (w : World) (pid : Nat) (memoryMib : UInt32) : World :=
  { w with processes := w.processes.modify pid ({ · with balloon := memoryMib }) }

/-- The balloon targets of the living QEMU processes of the instance. -/
def balloonTargets (w : World) (name : Str) : List UInt32 :=
  (w.processes.filter (·.isLive name)).map Process.balloon

/-- `BTreeMap::insert`. -/
def manage (w : World) (name : Str) (vm : ManagedVm) : World :=
  { w with managed := (name, vm) :: w.managed.filter fun entry => entry.1 ≠ name }

/-- `BTreeMap::remove`. -/
def unmanage (w : World) (name : Str) : World :=
  { w with managed := w.managed.filter fun entry => entry.1 ≠ name }

end World

/-! ## Asking the environment -/

open Traced

/-- The next answer. -/
def ask : Call Answer := do
  let answer ← read fun w => w.env w.tick
  modify fun w => w.pass answer
  return answer

/-- A call to the outside that works or does not. -/
def outside : Call Unit := do
  let answer ← ask
  if answer.ok then return else fail .outside

/-- A file operation that works or does not. -/
def disk : Call Unit := do
  let answer ← ask
  if answer.disk then return else fail .outside

/-- An operation on a file below `run`. -/
def diskOf (file : RunFile) : Call Unit := do
  let answer ← ask
  if answer.allows file then return else fail .outside

/-- `let _ = call`, `call.ok()` or a `match` on the result of the call. -/
def attempt {α : Type} (call : Call α) : Call (Except Failure α) :=
  Traced.attempt (fun _ => false) call

/-- The same for a call that may nest others: one that is stuck does not return. -/
def attemptNested {α : Type} (call : Call α) : Call (Except Failure α) :=
  Traced.attempt (· = .stuck) call

/-- `?` on a result of `lsw-core`. -/
def ofCore {α : Type} : Result α → Call α
  | .ok a => return a
  | .error e => fail (.core e)

/-- `StateStore::instance_dir`. -/
def instanceDir (name : Str) : Call PathBuf := do
  let dir ← read fun w => w.store.instanceDir name
  ofCore dir

/-- `StateStore::load`. -/
def load (name : Str) : Call InstanceManifest := do
  let manifest ← read fun w => w.store.load name
  ofCore manifest

/-! ## QMP -/

/-- `QmpClient::connect`. -/
def connect (name : Str) : Call Nat := do
  outside
  let listener ← read fun w => w.listener name
  match listener with
  | some pid => return pid
  | none => fail .outside

/-- `QmpClient::status`. -/
def queryStatus (pid : Nat) : Call QmpState := do
  let answer ← ask
  let running ← read fun w => w.isRunning pid
  if answer.ok && running then return answer.qmp else fail .outside

/-- `QmpClient::execute`, for commands whose result is not looked at. -/
def execute (pid : Nat) : Call Unit := do
  outside
  let running ← read fun w => w.isRunning pid
  if running then return else fail .outside

/-- `QmpClient::balloon`. -/
def executeBalloon (pid : Nat) (memoryMib : UInt32) : Call Unit := do
  let answer ← ask
  let running ← read fun w => w.isRunning pid
  if answer.ok && running then modify fun w => w.setBalloon pid memoryMib
  else if answer.carriedOut then do
    modify fun w => w.setBalloon pid memoryMib
    fail .outside
  else fail .outside

/-- `Supervisor::qmp_status`. -/
def qmpStatus (name : Str) : Call QmpState := do
  let _ ← instanceDir name
  let qmp ← connect name
  queryStatus qmp

/-! ## Children -/

/-- `Child::try_wait`. -/
def tryWait (pid : Nat) : Call (Option ExitStatus) := do
  let _ ← ask
  read fun w => (w.processes[pid]?).bind Process.exit

/-- `Child::kill` and `Child::wait`. -/
def killAndWait (pid : Nat) : Call Unit := modify fun w => w.endProcess pid .killed

/-- `thread::sleep` of 50 milliseconds. -/
def sleep : Call Unit := modify fun w => { w with clock := w.clock + 50 }

/-- The loop of `wait_for_child_exit`; every round takes 50 milliseconds at least. -/
def waitUntil (deadline : Nat) (pid : Nat) : Nat → Call (Option ExitStatus)
  | 0 => return none
  | rounds + 1 => do
    let now ← read World.clock
    if deadline ≤ now then return none
    else do
      let status ← tryWait pid
      if status.isSome then return status
      else do
        sleep
        waitUntil deadline pid rounds

/-- `wait_for_child_exit`. -/
def waitForChildExit (pid : Nat) (timeout : Nat) : Call (Option ExitStatus) := do
  let now ← read World.clock
  waitUntil (now + timeout) pid (timeout / 50 + 1)

/-- `wait_or_kill`. -/
def waitOrKill (pid : Nat) (timeout : Nat) : Call Unit := do
  let status ← waitForChildExit pid timeout
  if status.isSome then return else killAndWait pid

/-- One helper in `stop_helpers`. -/
def stopHelper (pid : Nat) : Call Unit := do
  let status ← tryWait pid
  if status.isNone then killAndWait pid else return

/-- `stop_helpers`. -/
def stopHelpers (pids : List Nat) : Call Unit := each stopHelper pids

/-- `spawn_command`, of a helper. -/
def spawnHelper (owner : Str) : Call Nat := do
  outside
  let pid ← read fun w => w.processes.length
  modify fun w => w.push { role := .helper, owner }
  return pid

/-- `spawn_command`, of QEMU. -/
def spawnQemu (owner : Str) (phase : LaunchPhase) (memoryMib : UInt32) : Call Nat := do
  outside
  let pid ← read fun w => w.processes.length
  emit fun w => .launched owner pid (w.isLive owner)
  modify fun w => w.pushQemu owner phase memoryMib
  return pid

/-! ## Files -/

/-- `matches!(fs::symlink_metadata(path), Ok(metadata) if metadata.file_type().is_file())`. -/
def fileExists (name : Str) (file : RunFile) : Call Bool :=
  read fun w => decide (w.files name file = .file)

/-- `let _ = fs::remove_file(path)`. -/
def removeEntry (name : Str) (file : RunFile) : Call Unit := do
  let answer ← ask
  if answer.allows file then modify fun w => w.setFile name file .absent else return

/-- Remove a regular file, if there is one. -/
def removeFile (name : Str) (file : RunFile) : Call Unit := do
  let present ← fileExists name file
  if present then removeEntry name file else return

/-- `write_private_marker`: the file is there before its contents are. -/
def writeMarker (name : Str) (file : RunFile) : Call Unit := do
  diskOf file
  modify fun w => if w.files name file = .absent then w.setFile name file .file else w
  diskOf file

/-- One path of `cleanup_runtime_sockets`. -/
def cleanupRuntimeSocket (instanceDir : PathBuf) (name : Str) (file : RunFile) : Call Unit := do
  let entry ← read fun w => w.files name file
  match entry with
  | .socket => do
    disk
    emit fun w => .unlinked name file (w.isLive name)
    modify fun w => w.unlink name file
  | .absent => return
  | .file | .other => fail (.error [.text "refusing to replace non-socket path ",
      .shown (instanceDir.join file.path.toList).display])

/-- `cleanup_runtime_sockets`. -/
def cleanupRuntimeSockets (instanceDir : PathBuf) (name : Str) : Call Unit :=
  each (cleanupRuntimeSocket instanceDir name) [.swtpmSock, .qmpSock, .recoveryVncSock]

/-- `cleanup_stopped_runtime_artifacts`. -/
def cleanupStoppedRuntimeArtifacts (name : Str) : Call Unit := do
  let dir ← read fun w => w.store.instanceDir name
  match dir with
  | .error _ => return
  | .ok dir => do
    removeFile name .qemuPid
    removeFile name .installationViewer
    let _ ← attempt (cleanupRuntimeSockets dir name)
    return

end Lsw.Daemon
