import Lsw.Daemon.World

/-!
# The Supervisor

The operations of `Supervisor` (`supervisor.rs`), with the errors they report.  `poll`, the
idle policies, `start`, `suspend`, `resume` and `hibernate` call one another; their first
argument bounds how deep such calls may nest, and a call that would nest deeper is `stuck`.
Nothing that is proved for every depth depends on the bound.

Provisioning and the preparation of live shares are calls to the outside.
-/

namespace Lsw.Daemon

open Lsw.Lib Lsw.Core Traced

/-! ## States and files -/

/-- `DaemonResponse`, as far as the supervisor makes one. -/
inductive DaemonResponse where
  | notice (lines : List Message)
  | started (name : Str) (phase : LaunchPhase) (qmpSocket log : PathBuf)
  deriving DecidableEq

/-- `state_after_qemu_exit`. -/
def stateAfterQemuExit (shutdownRequested hibernateRequested exitSuccess : Bool) :
    InstanceState :=
  if hibernateRequested then .hibernated
  else if shutdownRequested || exitSuccess then .stopped
  else .failed

/-- `Supervisor::set_state`. -/
def setState (name : Str) (state : InstanceState) : Call Unit := do
  let manifest ← load name
  let answer ← ask
  let next ← read fun w => StateStore.update
    { manifest with state, stateChangedUnixSeconds := answer.seconds } w.store
  if answer.disk = false then fail .outside
  else do
    ofCore next.1
    modify fun w => { w with store := next.2 }

/-- `Supervisor::remove_ephemeral_overlay`. -/
def removeEphemeralOverlay (name : Str) : Call Unit := do
  let manifest ← read fun w => w.store.load name
  match manifest with
  | .error _ => return
  | .ok manifest =>
    if manifest.spec.profile = .ephemeral then removeFile name .ephemeralOverlay else return

/-- What is removed once a QEMU has ended: the markers, the sockets and the overlay. -/
def clearRuntime (name : Str) : Call Unit := do
  removeFile name .shutdownRequested
  removeFile name .hibernateRequested
  cleanupStoppedRuntimeArtifacts name
  removeEphemeralOverlay name

/-- `Supervisor::record_activity`. -/
def recordActivity (name : Str) : Call Unit := do
  let _ ← instanceDir name
  let answer ← ask
  disk
  modify fun w => { w with lastActivity := Function.update w.lastActivity name none }
  disk
  modify fun w =>
    { w with lastActivity := Function.update w.lastActivity name (some answer.seconds) }

/-- The part of `set_balloon_target` that talks to QEMU. -/
def sendBalloonTarget (name : Str) (memoryMib : UInt32) : Call Unit := do
  let _ ← ofExcept (okOr (checkedMul memoryMib.toNat (1024 * 1024))
    (.error [.text "balloon target overflowed"]))
  let qmp ← connect name
  executeBalloon qmp memoryMib
  disk
  modify fun w => { w with balloonTarget := Function.update w.balloonTarget name none }
  disk
  modify fun w =>
    { w with balloonTarget := Function.update w.balloonTarget name (some memoryMib) }

/-- `Ok(())` of `set_balloon_target`. -/
def reportBalloonTarget (name : Str) (memoryMib : UInt32) : Call Unit :=
  modify fun w =>
    { w with reports := { name, memoryMib, targets := w.balloonTargets name } :: w.reports }

/-- `Supervisor::set_balloon_target`. -/
def setBalloonTarget (name : Str) (memoryMib : UInt32) : Call Unit := do
  let _ ← instanceDir name
  let target ← read fun w => w.balloonTarget name
  if target = some memoryMib then reportBalloonTarget name memoryMib
  else do
    sendBalloonTarget name memoryMib
    reportBalloonTarget name memoryMib

/-- `POLICY_POLL_INTERVAL`, in milliseconds. -/
def policyPollInterval : Nat := 1000

/-- `FORCE_STOP_TIMEOUT`. -/
def forceStopTimeout : Nat := 4000

/-- `START_TIMEOUT`. -/
def startTimeout : Nat := 8000

/-- `HELPER_TIMEOUT`. -/
def helperTimeout : Nat := 4000

/-! ## Children that have ended -/

/-- It is to be seen that an ended QEMU is recorded as hibernated. -/
def noteHibernation (name : Str) (state : InstanceState) : Call Unit :=
  if state = .hibernated then
    emit fun w => .hibernationRecorded name (w.guestHibernating name)
  else return

/-- `set_state`, of an instance whose QEMU has ended. -/
def recordEnd (name : Str) (state : InstanceState) : Call Unit := do
  noteHibernation name state
  setState name state

/-- `poll`, for a QEMU that has exited. -/
def afterQemuExit (name : Str) (vm : ManagedVm) (status : ExitStatus) : Call Unit := do
  let shutdownRequested ← fileExists name .shutdownRequested
  let hibernateRequested ← fileExists name .hibernateRequested
  modify fun w => w.unmanage name
  stopHelpers vm.helpers
  clearRuntime name
  let _ ← attempt (recordEnd name
    (stateAfterQemuExit shutdownRequested hibernateRequested status.success))
  return

/-- The exit of QEMU that `poll` waits for when a helper has exited. -/
def naturalQemuExit (hibernateRequested : Bool) (vm : ManagedVm) : Call (Option ExitStatus) :=
  if hibernateRequested then waitForChildExit vm.qemu forceStopTimeout else return none

/-- QEMU ends by itself, or it is killed. -/
def endQemu (hibernateRequested : Bool) (vm : ManagedVm) : Call (Option ExitStatus) := do
  let exit ← naturalQemuExit hibernateRequested vm
  match exit with
  | some status => return some status
  | none => do
    killAndWait vm.qemu
    return none

/-- `poll`, for a QEMU one of whose helpers has exited. -/
def afterHelperExit (name : Str) (vm : ManagedVm) : Call Unit := do
  let shutdownRequested ← fileExists name .shutdownRequested
  let hibernateRequested ← fileExists name .hibernateRequested
  modify fun w => w.unmanage name
  let exit ← endQemu hibernateRequested vm
  stopHelpers vm.helpers
  clearRuntime name
  let _ ← attempt (recordEnd name (stateAfterQemuExit shutdownRequested
    (hibernateRequested && exit.isSome) (exit.any ExitStatus.success)))
  return

/-- `helpers.iter_mut().any(|helper| helper.try_wait().ok().flatten().is_some())`. -/
def anyExited : List Nat → Call Bool
  | [] => return false
  | pid :: pids => do
    let status ← tryWait pid
    if status.isSome then return true else anyExited pids

/-- `poll`, for one managed instance. -/
def pollVm (name : Str) (vm : ManagedVm) : Call Unit := do
  let exit ← tryWait vm.qemu
  match exit with
  | some status => afterQemuExit name vm status
  | none => do
    let helperExited ← anyExited vm.helpers
    if helperExited then afterHelperExit name vm else return

/-- `poll`, for one name. -/
def pollName (name : Str) : Call Unit := do
  let managed ← read fun w => w.managed.lookup name
  match managed with
  | none => return
  | some vm => pollVm name vm

/-- `self.processes.keys()`, in the order of the map. -/
def World.managedNames (w : World) : List Str :=
  (w.managed.map Prod.fst).mergeSort fun left right => decide (bytes left ≤ bytes right)

/-! ## Launching -/

/-- The `match (manifest.state, phase)` of `start`. -/
def checkLaunchable (name : Str) (state : InstanceState) (phase : LaunchPhase) : Call Unit :=
  match state, phase with
  | .configured, .run =>
    fail (.error [.text "instance is not installed; run the install phase first"])
  | .running, _ | .installing, _ => fail (.error
      [.text "manifest says the instance is active but QMP is unavailable; inspect its logs before retrying"])
  | .configured, .install => return
  | .suspended, .run =>
    -- Nothing is asked here: the silence of QMP is all that speaks for the end of QEMU.
    emit fun w => .presumedGone name .suspendedUnanswered (w.isLive name)
  | _, .install => fail (.error
      [.text "refusing to reinstall a non-configured instance because its disk may contain data"])
  | _, .run => return

/-- `Supervisor::prepare_ephemeral_overlay`, up to the removal of an old overlay. -/
def removeOldOverlay (instanceDir : PathBuf) (name : Str) (previousState : InstanceState) :
    Call Unit := do
  let entry ← read fun w => w.files name .ephemeralOverlay
  let unexpected : Failure := .error [.text "refusing to replace unexpected ephemeral overlay ",
    .shown (instanceDir.join RunFile.ephemeralOverlay.path.toList).display]
  match entry, previousState with
  | .absent, _ => return
  | .file, .stopped | .file, .failed => do
    disk
    modify fun w => w.setFile name .ephemeralOverlay .absent
  | _, _ => fail unexpected

/-- `Supervisor::prepare_ephemeral_overlay`. -/
def prepareEphemeralOverlay (instanceDir : PathBuf) (name : Str)
    (previousState : InstanceState) : Call Unit := do
  removeOldOverlay instanceDir name previousState
  disk
  let qemuImg ← read fun w => w.planner.capabilities.qemuImg
  let _ ← ofExcept (okOr qemuImg
    (.error [.text "qemu-img is required for an ephemeral overlay"]))
  outside
  let answer ← ask
  if answer.status.success then do
    modify fun w => w.setFile name .ephemeralOverlay .file
    disk
  else do
    removeEntry name .ephemeralOverlay
    fail (.error [.text "qemu-img could not create the ephemeral overlay: ",
      .text answer.status.shown])

/-- The live share of a `Run` launch, prepared with the agent's token. -/
def prepareLiveShare (name : Str) : Call Unit := do
  let token ← read fun w => w.store.readAgentToken name
  let _ ← ofCore token
  outside

/-- What `start` prepares for a `Run` launch only. -/
def prepareRun (instanceDir : PathBuf) (manifest : InstanceManifest) (name : Str) :
    LaunchPhase → Call Unit
  | .install => return
  | .run => do
    prepareLiveShare name
    if manifest.spec.profile = .ephemeral then
      prepareEphemeralOverlay instanceDir name manifest.state
    else return

/-- `self.planner().plan(..)`, and the check that nothing is missing. -/
def planLaunch (instanceDir : PathBuf) (manifest : InstanceManifest) (phase : LaunchPhase) :
    Call CommandPlan := do
  let answer ← ask
  let plan ← read fun w => w.planner.plan answer.fs manifest instanceDir phase
  let plan ← ofCore plan
  if plan.missingCapabilities = [] then return plan
  else fail (.error [.text "cannot start instance; missing ",
    .text (", ".intercalate plan.missingCapabilities)])

/-- A step of `start` after which, if it fails, the helpers are stopped and the overlay is
    removed. -/
def orWithdraw {α : Type} (name : Str) (helpers : List Nat) (step : Call α) : Call α := do
  let result ← attempt step
  match result with
  | .ok a => return a
  | .error e => do
    stopHelpers helpers
    removeEphemeralOverlay name
    fail e

/-- The helper commands of the plan, one after another. -/
def spawnHelpers (name : Str) : List CommandInvocation → List Nat → Call (List Nat)
  | [], helpers => return helpers
  | _ :: commands, helpers => do
    let pid ← orWithdraw name helpers (spawnHelper name)
    spawnHelpers name commands (helpers ++ [pid])

/-- A helper in `wait_for_socket`. -/
def checkHelper (pid : Nat) : Call Unit := do
  let status ← tryWait pid
  match status with
  | none => return
  | some status => fail (.error [.text "helper process exited during startup with ",
      .text status.shown])

/-- The loop of `wait_for_socket`. -/
def waitForSocketUntil (socket : PathBuf) (deadline : Nat) (name : Str) (helpers : List Nat) :
    Nat → Call Unit
  | 0 => fail (.error [.text "timed out waiting for ", .shown socket.display])
  | rounds + 1 => do
    let _ ← ask
    let entry ← read fun w => w.files name .swtpmSock
    if entry = .socket then return
    else do
      each checkHelper helpers
      let now ← read World.clock
      if deadline ≤ now then fail (.error [.text "timed out waiting for ", .shown socket.display])
      else do
        sleep
        waitForSocketUntil socket deadline name helpers rounds

/-- `wait_for_socket`. -/
def waitForSocket (instanceDir : PathBuf) (name : Str) (helpers : List Nat) : Call Unit := do
  let now ← read World.clock
  waitForSocketUntil (instanceDir.join RunFile.swtpmSock.path.toList) (now + helperTimeout) name
    helpers (helperTimeout / 50 + 2)

/-- The child in the loop of `wait_for_qmp`. -/
def checkStarting (name : Str) : Call Unit := do
  let managed ← read fun w => w.managed.lookup name
  match managed with
  | none => fail (.error [.text "QEMU process disappeared while starting"])
  | some vm => do
    let status ← tryWait vm.qemu
    match status with
    | none => return
    | some status => fail (.error [.text "QEMU exited during startup with ", .text status.shown])

/-- The loop of `wait_for_qmp`. -/
def waitForQmpUntil (deadline : Nat) (name : Str) : Nat → Call Unit
  | 0 => fail (.error [.text "timed out waiting for the QMP socket"])
  | rounds + 1 => do
    let status ← attempt (qmpStatus name)
    if status.isOk then return
    else do
      checkStarting name
      let now ← read World.clock
      if deadline ≤ now then fail (.error [.text "timed out waiting for the QMP socket"])
      else do
        sleep
        waitForQmpUntil deadline name rounds

/-- `Supervisor::wait_for_qmp`. -/
def waitForQmp (name : Str) : Call Unit := do
  let now ← read World.clock
  waitForQmpUntil (now + startTimeout) name (startTimeout / 50 + 2)

/-- `self.processes.remove(name)`, with `kill` and `wait`. -/
def abandonChild (name : Str) : Call Unit := do
  let managed ← read fun w => w.managed.lookup name
  match managed with
  | none => return
  | some vm => do
    modify fun w => w.unmanage name
    killAndWait vm.qemu
    stopHelpers vm.helpers

/-- `wait_for_qmp`, and what `start` does when it fails. -/
def awaitLaunch (name : Str) : Call Unit := do
  let result ← attempt (waitForQmp name)
  match result with
  | .ok () => return
  | .error e => do
    abandonChild name
    removeEphemeralOverlay name
    let _ ← attempt (setState name .failed)
    fail e

/-- The state of a launched instance. -/
def launchedState : LaunchPhase → InstanceState
  | .install => .installing
  | .run => .running

/-- `start`, up to the removal of what an earlier run has left. -/
def prepareLaunch (instanceDir : PathBuf) (name : Str) : Call Unit := do
  outside
  cleanupStoppedRuntimeArtifacts name
  cleanupRuntimeSockets instanceDir name
  removeFile name .shutdownRequested
  removeFile name .hibernateRequested

/-- `start`, from the helper commands to the managed child. -/
def spawnPlanned (instanceDir : PathBuf) (manifest : InstanceManifest) (name : Str)
    (phase : LaunchPhase) (plan : CommandPlan) : Call Unit := do
  let helpers ← spawnHelpers name plan.helperCommands []
  orWithdraw name helpers (waitForSocket instanceDir name helpers)
  let qemu ← orWithdraw name helpers (spawnQemu name phase manifest.spec.memoryMib)
  modify fun w => w.manage name { qemu, helpers }

/-- The balloon command of `start`, whose error is dropped. -/
def noteDropped (name : Str) (memoryMib : UInt32) : Except Failure Unit → Call Unit
  | .ok () => return
  | .error _ => emit fun w =>
      .balloonDropped name (w.balloonTarget name ≠ none ∧ w.balloonTarget name ≠ some memoryMib)

/-- `start`, once QEMU runs. -/
def recordLaunch (instanceDir : PathBuf) (manifest : InstanceManifest) (name : Str)
    (phase : LaunchPhase) : Call DaemonResponse := do
  setState name (launchedState phase)
  recordActivity name
  let sent ← attempt (setBalloonTarget name manifest.spec.memoryMib)
  noteDropped name manifest.spec.memoryMib sent
  return .started name phase (instanceDir.join RunFile.qmpSock.path.toList)
    (instanceDir.join "qemu.log".toList)

/-- `start`, for an instance that QMP does not answer for. -/
def launch (name : Str) (phase : LaunchPhase) : Call DaemonResponse := do
  let manifest ← load name
  checkLaunchable name manifest.state phase
  let dir ← instanceDir name
  prepareLaunch dir name
  prepareRun dir manifest name phase
  let plan ← planLaunch dir manifest phase
  spawnPlanned dir manifest name phase plan
  awaitLaunch name
  recordLaunch dir manifest name phase

/-! ## Operations that call one another -/

/-- `u64::saturating_sub`. -/
def saturatingSub (a b : UInt64) : UInt64 := if b ≤ a then a - b else 0

/-- `suspend`, of a running instance. -/
def pauseGuest (name : Str) : Call (List Message) := do
  let _ ← instanceDir name
  let qmp ← connect name
  let status ← queryStatus qmp
  if status ≠ .running then
    fail (.error [.text "instance ", .shown name, .text " cannot be suspended while QMP reports ",
      .debug status.text.toList])
  else do
    execute qmp
    let status ← queryStatus qmp
    if status ≠ .paused then
      fail (.error [.text "QEMU accepted suspend for ", .shown name,
        .text " but reported unexpected state ", .debug status.text.toList])
    else do
      setState name .suspended
      return [[.text "instance ", .shown name, .text " suspended in memory"]]

/-- `suspend`, after its `poll`. -/
def suspendFrom (name : Str) (state : InstanceState) : Call (List Message) :=
  match state with
  | .suspended => do
    let status ← attempt (qmpStatus name)
    match status with
    | .ok .paused => return [[.text "instance ", .shown name, .text " is already suspended"]]
    | _ => fail (.error
        [.text "manifest says the instance is suspended but QMP is not paused"])
  | .running => pauseGuest name
  | state => fail (.error [.text "instance ", .shown name,
      .text " cannot be suspended from state ", .text state.text])

/-- `cont`, and the check that it had an effect. -/
def continueGuest (name : Str) (qmp : Nat) (what : String) : Call Unit := do
  execute qmp
  let status ← queryStatus qmp
  if status ≠ .running then
    fail (.error [.text what, .shown name, .text " but reported unexpected state ",
      .debug status.text.toList])
  else return

/-- `resume`, of an instance that is not hibernated. -/
def resumeFrom (name : Str) (manifest : InstanceManifest) : Call DaemonResponse := do
  let _ ← instanceDir name
  let qmp ← connect name
  let status ← queryStatus qmp
  if manifest.state = .running ∧ status = .running then
    return .notice [[.text "instance ", .shown name, .text " is already running"]]
  else if manifest.state ≠ .suspended ∨ status ≠ .paused then
    fail (.error [.text "instance ", .shown name, .text " cannot be resumed from manifest state ",
      .text manifest.state.text, .text " and QMP state ", .debug status.text.toList])
  else do
    continueGuest name qmp "QEMU accepted resume for "
    setState name .running
    recordActivity name
    let _ ← attempt (setBalloonTarget name manifest.spec.memoryMib)
    return .notice [[.text "instance ", .shown name, .text " resumed"]]

/-- `request_guest_hibernate`, and what `hibernate` does when it fails. -/
def requestGuestHibernate (name : Str) : Call Unit := do
  let result ← attempt outside
  match result with
  | .ok () => modify fun w =>
      { w with guestHibernating := Function.update w.guestHibernating name true }
  | .error e => do
    removeFile name .hibernateRequested
    fail e

/-- `hibernate`, of an instance that was not suspended or has been resumed. -/
def hibernateFrom (name : Str) (state : InstanceState) : Call (List Message) :=
  if state ≠ .running then
    fail (.error [.text "instance ", .shown name, .text " cannot hibernate from state ",
      .text state.text])
  else do
    let _ ← instanceDir name
    writeMarker name .hibernateRequested
    let token ← read fun w => w.store.readAgentToken name
    let _ ← ofCore token
    requestGuestHibernate name
    return [[.text "Windows hibernation requested for ", .shown name]]

/-- The balloon in `apply_idle_policies`. -/
def idleBalloon (manifest : InstanceManifest) (memoryPressure : Bool) (idleSeconds : UInt64) :
    Call Unit :=
  if memoryPressure ∨
      (0 < manifest.idleTimeoutSeconds ∧ manifest.idleTimeoutSeconds / 2 ≤ idleSeconds) then do
    let _ ← attempt (setBalloonTarget manifest.spec.name manifest.memoryMinMib)
    return
  else return

/-- One manifest in `apply_idle_policies`. -/
def idlePolicy (suspend hibernate : Str → Call (List Message)) (now : UInt64)
    (memoryPressure : Bool) (manifest : InstanceManifest) : Call Unit :=
  if manifest.idlePolicy = .off then return
  else do
    let activity ← read fun w => w.lastActivity manifest.spec.name
    let idleSeconds := saturatingSub now (activity.getD manifest.stateChangedUnixSeconds)
    match manifest.state with
    | .running => do
      idleBalloon manifest memoryPressure idleSeconds
      if 0 < manifest.idleTimeoutSeconds ∧ manifest.idleTimeoutSeconds ≤ idleSeconds then do
        let _ ← attemptNested (suspend manifest.spec.name)
        return
      else return
    | .suspended =>
      if 0 < manifest.hibernateTimeoutSeconds ∧ manifest.hibernateTimeoutSeconds ≤
          saturatingSub now manifest.stateChangedUnixSeconds then do
        let _ ← attemptNested (hibernate manifest.spec.name)
        return
      else return
    | _ => return

mutual

/-- `Supervisor::poll`. -/
def poll : Nat → Call Unit
  | 0 => fail .stuck
  | depth + 1 => do
    let names ← read World.managedNames
    each pollName names
    let elapsed ← read fun w => w.clock - w.lastPolicyPoll
    if policyPollInterval ≤ elapsed then do
      modify fun w => { w with lastPolicyPoll := w.clock }
      let _ ← attemptNested (applyIdlePolicies depth)
      return
    else return

/-- `Supervisor::apply_idle_policies`. -/
def applyIdlePolicies : Nat → Call Unit
  | 0 => fail .stuck
  | depth + 1 => do
    emit fun _ => .policyPass
    let answer ← ask
    let manifests ← read fun w => w.store.list
    let manifests ← ofCore manifests
    each (idlePolicy (suspend depth) (hibernate depth) answer.seconds answer.memoryPressure)
      manifests

/-- `Supervisor::suspend`. -/
def suspend : Nat → Str → Call (List Message)
  | 0, _ => fail .stuck
  | depth + 1, name => do
    poll depth
    let manifest ← load name
    suspendFrom name manifest.state

/-- `Supervisor::hibernate`. -/
def hibernate : Nat → Str → Call (List Message)
  | 0, _ => fail .stuck
  | depth + 1, name => do
    poll depth
    let manifest ← load name
    match manifest.state with
    | .hibernated => return [[.text "instance ", .shown name, .text " is already hibernated"]]
    | .suspended => do
      let _ ← resume depth name
      let manifest ← load name
      hibernateFrom name manifest.state
    | state => hibernateFrom name state

/-- `Supervisor::resume`. -/
def resume : Nat → Str → Call DaemonResponse
  | 0, _ => fail .stuck
  | depth + 1, name => do
    poll depth
    let manifest ← load name
    if manifest.state = .hibernated then start depth name .run else resumeFrom name manifest

/-- `Supervisor::start`. -/
def start : Nat → Str → LaunchPhase → Call DaemonResponse
  | 0, _, _ => fail .stuck
  | depth + 1, name, phase => do
    poll depth
    let status ← attempt (qmpStatus name)
    match status with
    | .error _ => launch name phase
    | .ok status => do
      let manifest ← load name
      if phase = .run ∧ manifest.state = .suspended ∧ status = .paused then resume depth name
      else return .notice [[.text "instance ", .shown name, .text " is already running"]]

end

section Equations

variable (depth : Nat) (name : Str)

theorem poll_succ : poll (depth + 1) = (do
    let names ← read World.managedNames
    each pollName names
    let elapsed ← read fun w => w.clock - w.lastPolicyPoll
    if policyPollInterval ≤ elapsed then do
      modify fun w => { w with lastPolicyPoll := w.clock }
      let _ ← attemptNested (applyIdlePolicies depth)
      return
    else return) := rfl

theorem suspend_succ : suspend (depth + 1) name = (do
    poll depth
    let manifest ← load name
    suspendFrom name manifest.state) := rfl

theorem hibernate_succ : hibernate (depth + 1) name = (do
    poll depth
    let manifest ← load name
    match manifest.state with
    | .hibernated => return [[.text "instance ", .shown name, .text " is already hibernated"]]
    | .suspended => do
      let _ ← resume depth name
      let manifest ← load name
      hibernateFrom name manifest.state
    | state => hibernateFrom name state) := rfl

theorem resume_succ : resume (depth + 1) name = (do
    poll depth
    let manifest ← load name
    if manifest.state = .hibernated then start depth name .run
    else resumeFrom name manifest) := rfl

theorem start_succ (phase : LaunchPhase) : start (depth + 1) name phase = (do
    poll depth
    let status ← attempt (qmpStatus name)
    match status with
    | .error _ => launch name phase
    | .ok status => do
      let manifest ← load name
      if phase = .run ∧ manifest.state = .suspended ∧ status = .paused then resume depth name
      else return .notice [[.text "instance ", .shown name, .text " is already running"]]) := rfl

end Equations

/-! ## The other operations -/

/-- `resume` before a graceful shutdown. -/
def unpause (name : Str) (qmp : Nat) : QmpState → Call Unit
  | .paused => do
    continueGuest name qmp "QEMU accepted resume before shutdown for "
    setState name .running
  | _ => return

/-- `stop`, of an instance that QMP answers for, without `force`. -/
def shutDown (name : Str) (qmp : Nat) : Call (List Message) := do
  let status ← queryStatus qmp
  unpause name qmp status
  execute qmp
  writeMarker name .shutdownRequested
  return [[.text "graceful shutdown requested for ", .shown name]]

/-- The loop of `wait_for_qmp_disconnect`. -/
def waitForQmpDisconnectUntil (socket : PathBuf) (deadline : Nat) (name : Str) :
    Nat → Call Unit
  | 0 => fail (.error [.text "timed out waiting for the externally managed QEMU at ",
      .shown socket.display, .text " to stop"])
  | rounds + 1 => do
    let now ← read World.clock
    if deadline ≤ now then
      fail (.error [.text "timed out waiting for the externally managed QEMU at ",
        .shown socket.display, .text " to stop"])
    else do
      let connected ← attempt (connect name)
      if connected.isOk then do
        sleep
        waitForQmpDisconnectUntil socket deadline name rounds
      else emit fun w => .presumedGone name .disconnected (w.isLive name)

/-- `wait_for_qmp_disconnect`. -/
def waitForQmpDisconnect (instanceDir : PathBuf) (name : Str) : Call Unit := do
  let now ← read World.clock
  waitForQmpDisconnectUntil (instanceDir.join RunFile.qmpSock.path.toList)
    (now + forceStopTimeout) name (forceStopTimeout / 50 + 1)

/-- `refuse_unproven_external_force_stop`. -/
def refuseUnprovenExternalForceStop (requestedQmpQuit ownsProcess : Bool)
    (state : InstanceState) (name : Str) : Call Unit :=
  if requestedQmpQuit = false ∧ ownsProcess = false ∧ StateStore.isActive state = true then
    fail (.error [.text "cannot prove active instance ", .shown name,
      .text " stopped: QMP is unavailable and this daemon does not own its QEMU process; verify or terminate QEMU before changing the manifest"])
  else return

/-- A forced `stop` waits for the end of QEMU. -/
def awaitEnd (instanceDir : PathBuf) (name : Str) (requestedQmpQuit : Bool) : Call Unit := do
  let managed ← read fun w => w.managed.lookup name
  match managed with
  | some vm => waitOrKill vm.qemu forceStopTimeout
  | none => if requestedQmpQuit then waitForQmpDisconnect instanceDir name else return

/-- A forced `stop` forgets the child. -/
def releaseChild (name : Str) : Call Unit := do
  let managed ← read fun w => w.managed.lookup name
  match managed with
  | none => return
  | some vm => do
    modify fun w => w.unmanage name
    stopHelpers vm.helpers

/-- `stop` with `force`, once QEMU has been asked to quit or could not be asked. -/
def finishForceStop (instanceDir : PathBuf) (name : Str) (state : InstanceState)
    (requestedQmpQuit : Bool) : Call (List Message) := do
  let owned ← read fun w => w.owns name
  refuseUnprovenExternalForceStop requestedQmpQuit owned state name
  awaitEnd instanceDir name requestedQmpQuit
  releaseChild name
  setState name .stopped
  clearRuntime name
  return [[.text "instance ", .shown name, .text " stopped"]]

/-- `stop`, of an instance that is not hibernated. -/
def stopFrom (instanceDir : PathBuf) (name : Str) (state : InstanceState) (force : Bool) :
    Call (List Message) := do
  let connected ← attempt (connect name)
  match connected, force with
  | .ok _, true => do
    -- `quit`: a connection that QEMU closes counts as a reply.
    outside
    finishForceStop instanceDir name state true
  | .ok qmp, false => shutDown name qmp
  | .error e, false => fail (.because [.text "cannot request a graceful shutdown: "] e)
  | .error _, true => finishForceStop instanceDir name state false

/-- `Supervisor::stop`. -/
def stop (depth : Nat) (name : Str) (force : Bool) : Call (List Message) := do
  poll depth
  let dir ← instanceDir name
  let manifest ← load name
  if manifest.state = .hibernated then
    return [[.text "instance ", .shown name, .text " is hibernated"]]
  else stopFrom dir name manifest.state force

/-- `Liveness`. -/
inductive Liveness where
  | active
  | inactive
  | unknown
  deriving DecidableEq, Repr

/-- `InstanceStatus`. -/
structure InstanceStatus where
  state : InstanceState
  qmp : Option QmpState
  active : Liveness
  deriving DecidableEq

/-- The state that `status` records when QMP answers. -/
def reconciledState : InstanceState → QmpState → InstanceState
  | .running, .paused => .suspended
  | .suspended, .running => .running
  | state, _ => state

/-- `status`, when QMP answers. -/
def statusAnswered (name : Str) (state : InstanceState) (qmp : QmpState) :
    Call InstanceStatus := do
  if reconciledState state qmp ≠ state then do
    setState name (reconciledState state qmp)
    return { state := reconciledState state qmp, qmp := some qmp, active := .active }
  else return { state := reconciledState state qmp, qmp := some qmp, active := .active }

/-- What `run/qemu.pid` holds. -/
def World.pidFile (w : World) (name : Str) (contents : Nat × Option Str) : PidFile :=
  match w.files name .qemuPid with
  | .absent => .missing
  | .file => .regular contents.1 contents.2
  | .socket | .other => .irregular

/-- `qemu_process_evidence`, of the world as it is. -/
def gatherEvidence (instanceDir : PathBuf) (name : Str) : Call QemuProcessEvidence := do
  let answer ← ask
  read fun w => qemuProcessEvidence (w.owns name) (w.pidFile name answer.pidFile) answer.proc
    instanceDir name

/-- The state of an instance whose QEMU is gone. -/
def stateWhenGone (hibernated requested : Bool) : InstanceState :=
  if hibernated then .hibernated else if requested then .stopped else .failed

/-- `status`, when QMP does not answer for an active instance and no process is found. -/
def statusGone (name : Str) : Call InstanceStatus := do
  emit fun w => .presumedGone name .noEvidence (w.isLive name)
  let requested ← fileExists name .shutdownRequested
  let hibernated ← fileExists name .hibernateRequested
  recordEnd name (stateWhenGone hibernated requested)
  clearRuntime name
  return { state := stateWhenGone hibernated requested, qmp := none, active := .inactive }

/-- `status`, when QMP does not answer. -/
def statusUnanswered (name : Str) (state : InstanceState) : Call InstanceStatus := do
  if StateStore.isActive state then do
    let dir ← instanceDir name
    let evidence ← gatherEvidence dir name
    match evidence with
    | .live => return { state, qmp := none, active := .active }
    | .unknown => return { state, qmp := none, active := .unknown }
    | .gone => statusGone name
  else return { state, qmp := none, active := .inactive }

/-- `Supervisor::status`. -/
def status (depth : Nat) (name : Str) : Call InstanceStatus := do
  poll depth
  let manifest ← load name
  let qmp ← attempt (qmpStatus name)
  match qmp with
  | .ok qmp => statusAnswered name manifest.state qmp
  | .error _ => statusUnanswered name manifest.state

/-- `Supervisor::activity`. -/
def activity (name : Str) : Call (List Message) := do
  let manifest ← load name
  recordActivity name
  if manifest.state = .running then do
    let _ ← attempt (setBalloonTarget name manifest.spec.memoryMib)
    return [[.text "activity recorded for ", .shown name]]
  else return [[.text "activity recorded for ", .shown name]]

/-- `Supervisor::balloon`. -/
def balloon (name : Str) (memoryMib : UInt32) : Call (List Message) := do
  let manifest ← load name
  if manifest.memoryMinMib ≤ memoryMib ∧ memoryMib ≤ manifest.spec.memoryMib then do
    setBalloonTarget name memoryMib
    return [[.text "instance ", .shown name, .text " balloon target is ",
      .shown (decimal memoryMib.toNat), .text " MiB"]]
  else fail (.error [.text "balloon target must be between ",
    .shown (decimal manifest.memoryMinMib.toNat), .text " and ",
    .shown (decimal manifest.spec.memoryMib.toNat), .text " MiB"])

/-- The daemon ends and a new one starts: `Supervisor::new`. -/
def restart : Call Unit :=
  modify fun w => { w with managed := [], lastPolicyPoll := w.clock }

/-! ## Runs -/

/-- What the daemon is asked to do. -/
inductive Operation where
  | start (name : Str) (phase : LaunchPhase)
  | stop (name : Str) (force : Bool)
  | status (name : Str)
  | suspend (name : Str)
  | resume (name : Str)
  | hibernate (name : Str)
  | activity (name : Str)
  | balloon (name : Str) (memoryMib : UInt32)
  | poll
  | restart
  deriving DecidableEq

/-- An operation, without its result. -/
def Operation.perform (depth : Nat) : Operation → Call Unit
  | .start name phase => do
    let _ ← Daemon.start depth name phase
    return
  | .stop name force => do
    let _ ← Daemon.stop depth name force
    return
  | .status name => do
    let _ ← Daemon.status depth name
    return
  | .suspend name => do
    let _ ← Daemon.suspend depth name
    return
  | .resume name => do
    let _ ← Daemon.resume depth name
    return
  | .hibernate name => do
    let _ ← Daemon.hibernate depth name
    return
  | .activity name => do
    let _ ← Daemon.activity name
    return
  | .balloon name memoryMib => do
    let _ ← Daemon.balloon name memoryMib
    return
  | .poll => Daemon.poll depth
  | .restart => Daemon.restart

/-- One operation of a run, whose error goes to the client. -/
def serve (depth : Nat) (operation : Operation) : Call Unit := do
  let _ ← attemptNested (operation.perform depth)
  return

/-- A run of operations. -/
def serveAll (depth : Nat) (operations : List Operation) : Call Unit :=
  each (serve depth) operations

/-! ## A demo host -/

/-- A host with everything that a launch needs. -/
def demoHost : QemuPlanner :=
  .new {
    platform := .linux
    qemuSystem := some (.ofStr "/qemu-system-x86_64".toList)
    setsid := some (.ofStr "/setsid".toList)
    swtpm := some (.ofStr "/swtpm".toList)
    ovmfCode := some (.ofStr "/ovmf".toList) }

/-- A file system in which everything is prepared. -/
def preparedFs : HostFs where
  symlinkMetadata _ := .ok .dir
  canonicalize path := .ok path
  isFile _ := true
  isDir _ := true

/-- A host with the stopped demo instance. -/
def demoWorld (env : Nat → Answer) : World where
  env := env
  planner := demoHost
  store := {
    root := .ofStr "/s".toList
    instances := [("demo".toList,
      ⟨(demoManifest []).encode.toOption, some (List.replicate 64 'a')⟩)] }

/-- The same host with another manifest of the demo instance. -/
def demoWorldOf (manifest : InstanceManifest) (env : Nat → Answer) : World :=
  { demoWorld env with
    store := {
      root := .ofStr "/s".toList
      instances := [("demo".toList,
        ⟨manifest.encode.toOption, some (List.replicate 64 'a')⟩)] } }

end Lsw.Daemon
