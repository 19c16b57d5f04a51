import Lsw.Agent.Requests

/-!
# The Child of a Session

`SessionChild` owns the process tree of a session: the leader that was started for it, and the group
or the job that holds its descendants.  The tree is to be terminated once, also after a normal exit of
the leader, and not again, since the identifier of a process group may be given to another by then.
`wait_for_child` waits for what comes first: the exit of the leader, an event of the control channel
or the end of the lease.

All that is not decided by the agent is asked of an environment, one answer for each call of the
operating system: what the call returns, how much time has passed before it, and whether the leader
has ended on its own meanwhile.  A statement for every environment is one for every such course of
events.  Instants are in nanoseconds.
-/

namespace Lsw.Agent

open Lsw.Lib Lsw.Protocol

/-! ## The environment -/

/-- `ExitStatus`, by the code that is reported of it. -/
structure ExitStatus where
  code : Option Int32
  deriving DecidableEq, Repr

/-- `SessionSignal`. -/
inductive SessionSignal where
  | interrupt
  | terminate
  deriving DecidableEq, Repr

/-- `SessionSignal::exit_code`. -/
def SessionSignal.exitCode : SessionSignal → Int32
  | .interrupt => 130
  | .terminate => 143

/-- `SessionControlEvent`. -/
inductive SessionControlEvent where
  | cancel
  | signal (signal : SessionSignal)
  | disconnect
  | heartbeat (observedAt : Nat)
  | protocolError (message : String)
  deriving DecidableEq, Repr

/-- What `recv_timeout` returns. -/
inductive Received where
  | event (event : SessionControlEvent)
  | timeout
  | disconnected
  deriving DecidableEq, Repr

/-- The leader of the tree: whether it has ended, and whether it has done so on its own. -/
inductive Leader where
  | running
  | ended (status : ExitStatus) (onItsOwn : Bool)
  deriving DecidableEq, Repr

/-- `process.try_wait` of a process that can be waited for. -/
def Leader.status? : Leader → Option ExitStatus
  | .running => none
  | .ended status _ => some status

/-- The answer to one call. -/
structure Answer where
  /-- The leader ends on its own before the call, unless it has ended. -/
  exits : Option ExitStatus := none
  /-- The time that passes until the call is done. -/
  elapsed : Nat := 0
  /-- The call fails. -/
  error : Option String := none
  /-- A termination of the tree ends the leader, unless that has left it. -/
  killed : Option ExitStatus := some ⟨none⟩
  /-- What comes out of the control channel. -/
  received : Received := .timeout

/-- A call that was made, and what it has returned. -/
inductive SystemCall where
  | polled (result : Option ExitStatus)
  | waited (status : ExitStatus)
  | terminated (exitCode : Int32) (succeeded : Bool)
  | received (result : Received)
  deriving DecidableEq

/-- The process tree, the clock, and the calls so far. -/
structure SessionWorld where
  leader : Leader := .running
  /-- `SessionChild.tree.is_some()`. -/
  tree : Bool := true
  now : Nat := 0
  calls : List SystemCall := []
  answers : Nat → Answer

/-- Why a call does not return a value: an error, or it has not returned yet. -/
inductive Halt where
  | failed (error : String)
  | pending
  deriving DecidableEq

/-- Nothing catches a call that does not return. -/
def Halt.fatal : Halt → Bool
  | .failed _ => false
  | .pending => true

/-- A call of the session. -/
abbrev SessionCall := Traced SessionWorld Empty Halt

/-- The next answer, and what has happened until then. -/
def answer : SessionCall Answer := do
  let answer ← Traced.read fun world => world.answers 0
  Traced.modify fun world => { world with
    leader := match world.leader, answer.exits with
      | .running, some status => .ended status true
      | leader, _ => leader
    now := world.now + answer.elapsed
    answers := fun n => world.answers (n + 1) }
  return answer

def record (call : SystemCall) : SessionCall Unit :=
  Traced.modify fun world => { world with calls := world.calls ++ [call] }

/-- `process.try_wait()`. -/
def tryWait : SessionCall (Option ExitStatus) := do
  match (← answer).error with
  | some error => Traced.fail (.failed error)
  | none =>
    let status ← Traced.read fun world => world.leader.status?
    record (.polled status)
    return status

/-- `process.wait()`, which returns when the leader has ended. -/
def wait : SessionCall ExitStatus := do
  match (← answer).error with
  | some error => Traced.fail (.failed error)
  | none =>
    match ← Traced.read fun world => world.leader.status? with
    | none => Traced.fail .pending
    | some status =>
      record (.waited status)
      return status

/-- `tree.terminate(exit_code)`. -/
def terminateOwner (exitCode : Int32) : SessionCall Unit := do
  let answer ← answer
  match answer.error with
  | some error =>
    record (.terminated exitCode false)
    Traced.fail (.failed error)
  | none =>
    record (.terminated exitCode true)
    Traced.modify fun world => { world with
      leader := match world.leader, answer.killed with
        | .running, some status => .ended status false
        | leader, _ => leader }

/-- `controls.recv_timeout(duration)`. -/
def recvTimeout (duration : Nat) : SessionCall Received := do
  let answer ← answer
  Traced.modify fun world => { world with
    now := if answer.received = .timeout then world.now + duration else world.now }
  record (.received answer.received)
  return answer.received

/-- `thread::sleep(duration)`. -/
def sleep (duration : Nat) : SessionCall Unit := do
  let _ ← answer
  Traced.modify fun world => { world with now := world.now + duration }

/-- `Instant::now()`. -/
def instantNow : SessionCall Nat := Traced.read fun world => world.now

/-! ## `SessionChild` -/

/-- `SESSION_CANCEL_EXIT_CODE`. -/
def sessionCancelExitCode : Int32 := 130

namespace SessionChild

/-- `SessionChild::terminate_tree`. -/
def terminateTree (exitCode : Int32) : SessionCall Unit := do
  if ← Traced.read fun world => world.tree then
    Traced.modify fun world => { world with tree := false }
    -- A termination does not wait for anything, so that it always returns.
    match ← Traced.attempt (fun _ => false) (terminateOwner exitCode) with
    | .ok () => return ()
    | .error error =>
      Traced.modify fun world => { world with tree := true }
      Traced.fail error
  else return ()

/-- `SessionChild::try_wait_and_cleanup`. -/
def tryWaitAndCleanup : SessionCall (Option ExitStatus) := do
  match ← tryWait with
  | none => return none
  | some status =>
    terminateTree sessionCancelExitCode
    return some status

/-- `SessionChild::wait_and_cleanup`. -/
def waitAndCleanup : SessionCall ExitStatus := do
  let status ← wait
  terminateTree sessionCancelExitCode
  return status

/-- `SessionChild::terminate_with`. -/
def terminateWith (exitCode : Int32) : SessionCall (ExitStatus × Bool) := do
  match ← tryWait with
  | some status =>
    terminateTree exitCode
    return (status, false)
  | none =>
    terminateTree exitCode
    return (← wait, true)

/-- `SessionChild::terminate`, and `terminate_child`. -/
def terminate : SessionCall (ExitStatus × Bool) := terminateWith sessionCancelExitCode

/-- `Drop` of a `SessionChild`. -/
def drop : SessionCall Unit := do
  if ← Traced.read fun world => !world.tree then return ()
  else
    match ← Traced.attempt Halt.fatal (terminateTree sessionCancelExitCode) with
    | .ok () =>
      let _ ← Traced.attempt Halt.fatal wait
    | .error _ => return ()

end SessionChild

/-! ## The lease -/

/-- The largest `u64`. -/
def maxMillis : Nat := 2 ^ 64 - 1

/-- `u64::saturating_add`. -/
def saturatingAdd (a b : Nat) : Nat := min (a + b) maxMillis

/-- `SessionLeaseState`. -/
structure SessionLeaseState where
  timeoutMillis : Nat
  deadlineMillis : Nat

namespace SessionLeaseState

/-- `SessionLeaseState::new`. -/
def new (lease : SessionLease) (nowMillis : Nat) : SessionLeaseState where
  timeoutMillis := lease.timeoutMillis.toNat
  deadlineMillis := saturatingAdd nowMillis lease.timeoutMillis.toNat

/-- `SessionLeaseState::is_expired`. -/
def isExpired (state : SessionLeaseState) (nowMillis : Nat) : Bool :=
  state.deadlineMillis ≤ nowMillis

/-- `SessionLeaseState::observe_heartbeat`: whether the lease is extended, and the state. -/
def observeHeartbeat (state : SessionLeaseState) (nowMillis : Nat) : Bool × SessionLeaseState :=
  if state.isExpired nowMillis then (false, state)
  else (true, { state with deadlineMillis := saturatingAdd nowMillis state.timeoutMillis })

end SessionLeaseState

/-- `SessionLeaseMonitor`. -/
structure SessionLeaseMonitor where
  origin : Nat
  state : SessionLeaseState

/-- Nanoseconds in a millisecond. -/
def nanosPerMilli : Nat := 1000000

/-- The milliseconds of an instant, from the origin of a lease. -/
def millisSince (origin instant : Nat) : Nat := min ((instant - origin) / nanosPerMilli) maxMillis

/-- `PROCESS_POLL_INTERVAL`. -/
def processPollInterval : Nat := 25 * nanosPerMilli

namespace SessionLeaseMonitor

/-- `SessionLeaseMonitor::new`. -/
def new (lease : SessionLease) : SessionCall SessionLeaseMonitor := do
  return { origin := ← instantNow, state := .new lease 0 }

/-- `SessionLeaseMonitor::millis_at`. -/
def millisAt (monitor : SessionLeaseMonitor) (instant : Nat) : Nat :=
  millisSince monitor.origin instant

/-- `SessionLeaseMonitor::observe_heartbeat`. -/
def observeHeartbeat (monitor : SessionLeaseMonitor) (observedAt : Nat) :
    Bool × SessionLeaseMonitor :=
  let observed := monitor.state.observeHeartbeat (monitor.millisAt observedAt)
  (observed.1, { monitor with state := observed.2 })

/-- `SessionLeaseMonitor::is_expired`. -/
def isExpired (monitor : SessionLeaseMonitor) (now : Nat) : Bool :=
  monitor.state.isExpired (monitor.millisAt now)

/-- `SessionLeaseMonitor::wait_duration`. -/
def waitDuration (monitor : SessionLeaseMonitor) (now : Nat) : Nat :=
  min processPollInterval
    ((monitor.state.deadlineMillis - monitor.millisAt now) * nanosPerMilli)

end SessionLeaseMonitor

/-! ## `wait_for_child` -/

/-- `SessionMode::lease`. -/
def SessionMode.lease : SessionMode → Option SessionLease
  | .legacy => none
  | .controlled _ lease => lease

/-- `SessionEnd`. -/
inductive SessionEnd where
  | normal
  | cancelled
  | signalled (exitCode : Int32)
  | disconnected
  | leaseExpired
  | protocolError (message : String)
  deriving DecidableEq, Repr

/-- `cancel_session_end`. -/
def cancelSessionEnd (processWasTerminated : Bool) : SessionEnd :=
  if processWasTerminated then .cancelled else .normal

/-- `lease_session_end`. -/
def leaseSessionEnd (processWasTerminated : Bool) : SessionEnd :=
  if processWasTerminated then .leaseExpired else .normal

/-- The end of a session that is terminated. -/
def endWith (exitCode : Int32) (sessionEnd : Bool → SessionEnd) :
    SessionCall (ExitStatus × SessionEnd) := do
  let (status, terminated) ← SessionChild.terminateWith exitCode
  return (status, sessionEnd terminated)

/-- `lease.as_ref().is_some_and(|lease| lease.is_expired(Instant::now()))`. -/
def leaseExpired (lease : Option SessionLeaseMonitor) : SessionCall Bool := do
  let now ← instantNow
  return lease.any (·.isExpired now)

/-- The loop of `wait_for_child`, for as many turns as there is fuel. -/
def waitLoop : Nat → Option SessionLeaseMonitor → Bool → SessionCall (ExitStatus × SessionEnd)
  | 0, _, _ => Traced.fail .pending
  | fuel + 1, lease, controlsConnected => do
    match ← SessionChild.tryWaitAndCleanup with
    | some status => return (status, .normal)
    | none =>
      let now ← instantNow
      let waitDuration := lease.elim processPollInterval (·.waitDuration now)
      if !controlsConnected then
        sleep waitDuration
        if ← leaseExpired lease then endWith sessionCancelExitCode leaseSessionEnd
        else waitLoop fuel lease controlsConnected
      else
        match ← recvTimeout waitDuration with
        | .event .cancel => endWith sessionCancelExitCode cancelSessionEnd
        | .event (.signal signal) =>
          endWith signal.exitCode fun terminated =>
            if terminated then .signalled signal.exitCode else .normal
        | .event .disconnect => endWith sessionCancelExitCode fun _ => .disconnected
        | .event (.protocolError message) =>
          endWith sessionCancelExitCode fun _ => .protocolError message
        | .event (.heartbeat observedAt) =>
          match lease with
          | none =>
            endWith sessionCancelExitCode fun _ =>
              .protocolError "heartbeat was reported for a session without a lease"
          | some monitor =>
            let (extended, monitor) := monitor.observeHeartbeat observedAt
            if extended then waitLoop fuel (some monitor) controlsConnected
            else endWith sessionCancelExitCode leaseSessionEnd
        | .timeout =>
          if ← leaseExpired lease then endWith sessionCancelExitCode leaseSessionEnd
          else waitLoop fuel lease controlsConnected
        | .disconnected =>
          if lease.isNone then
            let status ← SessionChild.waitAndCleanup
            return (status, .normal)
          else waitLoop fuel lease false

/-- `wait_for_child`. -/
def waitForChild (fuel : Nat) (mode : SessionMode) : SessionCall (ExitStatus × SessionEnd) := do
  match mode.lease with
  | none => waitLoop fuel none true
  | some lease =>
    let monitor ← SessionLeaseMonitor.new lease
    waitLoop fuel (some monitor) true

/-! ## What is meant -/

/-- The terminations of the tree among the calls, and whether they have worked. -/
def terminations (calls : List SystemCall) : List (Int32 × Bool) :=
  calls.filterMap fun
    | .terminated exitCode succeeded => some (exitCode, succeeded)
    | _ => none

/-- The heartbeats that have come out of the channel. -/
def heartbeats (calls : List SystemCall) : List Nat :=
  calls.filterMap fun
    | .received (.event (.heartbeat observedAt)) => some observedAt
    | _ => none

/-- The child of a session that begins: nothing has been done to it. -/
structure Spawned (world : SessionWorld) : Prop where
  tree : world.tree = true
  calls : world.calls = []
  onItsOwn : ∀ status onItsOwn, world.leader = .ended status onItsOwn → onItsOwn = true

/-- What can be called on a child. -/
inductive ChildMethod where
  | terminateTree (exitCode : Int32)
  | tryWaitAndCleanup
  | waitAndCleanup
  | terminateWith (exitCode : Int32)
  | drop

/-- The call, without what it returns. -/
def ChildMethod.run : ChildMethod → SessionCall Unit
  | .terminateTree exitCode => SessionChild.terminateTree exitCode
  | .tryWaitAndCleanup => do let _ ← SessionChild.tryWaitAndCleanup
  | .waitAndCleanup => do let _ ← SessionChild.waitAndCleanup
  | .terminateWith exitCode => do let _ ← SessionChild.terminateWith exitCode
  | .drop => SessionChild.drop

/-- Calls one after another, whatever they return. -/
def runAll (methods : List ChildMethod) : SessionCall Unit :=
  Traced.each (fun method => do let _ ← Traced.attempt Halt.fatal method.run) methods

/-- The milliseconds at which the last of the heartbeats was observed, or the lease began. -/
def lastHeard (origin : Nat) (heard : List Nat) : Nat := heard.getLast?.elim 0 (millisSince origin)

/-- A full timeout of the lease has passed since the last of the heartbeats, as far as the clock of
    the lease counts. -/
def TimedOut (origin : Nat) (lease : SessionLease) (heard : List Nat) (instant : Nat) : Prop :=
  lastHeard origin heard + lease.timeoutMillis.toNat ≤ millisSince origin instant ∨
    millisSince origin instant = maxMillis

/-- Each of the heartbeats was observed before the one before it had timed out. -/
def AllInTime (origin : Nat) (lease : SessionLease) (heard : List Nat) : Prop :=
  ∀ earlier instant later, heard = earlier ++ instant :: later →
    ¬ TimedOut origin lease earlier instant

/-- The heartbeats in time extended the lease.  It expires when they have timed out, or with a
    heartbeat that comes too late, after which nothing is received. -/
def LeaseKept (origin : Nat) (lease : SessionLease) (world : SessionWorld) (sessionEnd : SessionEnd) :
    Prop :=
  ∃ accepted, AllInTime origin lease accepted ∧
    (heartbeats world.calls = accepted ∧
        (sessionEnd = .leaseExpired →
          ∃ instant ≤ world.now, TimedOut origin lease accepted instant) ∨
      ∃ late, heartbeats world.calls = accepted ++ [late] ∧ TimedOut origin lease accepted late ∧
        (sessionEnd = .leaseExpired ∨ sessionEnd = .normal))

/-- The leader had not ended when it was last looked at, right before its tree was terminated. -/
def Forced (status : ExitStatus) (world : SessionWorld) : Prop :=
  ∃ before exitCode,
    world.calls = before ++ [.polled none, .terminated exitCode true, .waited status]

/-- The end of a session is forced on the leader. -/
def SessionEnd.isForced : SessionEnd → Bool
  | .cancelled | .signalled _ | .leaseExpired => true
  | _ => false

/-- What is true when `wait_for_child` has returned a status and an end. -/
structure Reported (mode : SessionMode) (origin : Nat) (world : SessionWorld) (status : ExitStatus)
    (sessionEnd : SessionEnd) : Prop where
  once : ∃ exitCode, terminations world.calls = [(exitCode, true)]
  disarmed : world.tree = false
  normal : sessionEnd = .normal → world.leader = .ended status true
  forced : sessionEnd.isForced = true → Forced status world
  leased : sessionEnd = .leaseExpired → mode.lease ≠ none
  lease : ∀ lease, mode.lease = some lease → LeaseKept origin lease world sessionEnd

/-- Nothing that is called later signals the tree. -/
def Spares (world : SessionWorld) : Prop :=
  ∀ methods, terminations (runAll methods world).state.calls = terminations world.calls

/-- What is left when `wait_for_child` has returned an error: a tree that was not terminated, which
    `Drop` tries once more where that has failed, or one that was terminated. -/
structure LeftToDrop (world : SessionWorld) : Prop where
  once : (terminations world.calls).length ≤ 1
  retried : ∀ exitCode, terminations world.calls = [(exitCode, false)] → ∃ succeeded,
    terminations (SessionChild.drop world).state.calls =
      [(exitCode, false), (sessionCancelExitCode, succeeded)]
  spared : ∀ exitCode, terminations world.calls = [(exitCode, true)] → Spares world

/-! ## The calls of the child -/

section Child

variable {heard : List Nat} {since : Nat} {α : Type}

/-- A call and what holds before it, when it returns and when it does not. -/
abbrev Triple (P : SessionWorld → Prop) (x : SessionCall α) (Q : α → SessionWorld → Prop)
    (E : SessionWorld → Prop) : Prop :=
  Traced.Sat (fun _ => True) (fun _ => True) P x Q E

/-- Nothing has been terminated yet. -/
structure Untouched (heard : List Nat) (since : Nat) (world : SessionWorld) : Prop where
  tree : world.tree = true
  attempts : terminations world.calls = []
  onItsOwn : ∀ status onItsOwn, world.leader = .ended status onItsOwn → onItsOwn = true
  received : heartbeats world.calls = heard
  since : since ≤ world.now

/-- The tree has been terminated once, and is not owned any more. -/
structure TreeEnded (heard : List Nat) (since : Nat) (exitCode : Int32) (world : SessionWorld) :
    Prop where
  tree : world.tree = false
  attempts : terminations world.calls = [(exitCode, true)]
  received : heartbeats world.calls = heard
  since : since ≤ world.now

/-- The tree was terminated at most once, and is still owned unless that has worked. -/
def Stopped (world : SessionWorld) : Prop :=
  (world.tree = true ∧ (terminations world.calls = [] ∨
      ∃ exitCode, terminations world.calls = [(exitCode, false)])) ∨
    world.tree = false ∧ ∃ exitCode, terminations world.calls = [(exitCode, true)]

theorem Untouched.stopped {world : SessionWorld} (h : Untouched heard since world) :
    Stopped world := .inl ⟨h.tree, .inl h.attempts⟩

theorem TreeEnded.stopped {world : SessionWorld} {exitCode : Int32}
    (h : TreeEnded heard since exitCode world) : Stopped world :=
  .inr ⟨h.tree, exitCode, h.attempts⟩

/-- Time passes, and the leader may end on its own. -/
structure Passes (world next : SessionWorld) : Prop where
  tree : next.tree = world.tree
  calls : next.calls = world.calls
  now : world.now ≤ next.now
  ended : ∀ status onItsOwn, world.leader = .ended status onItsOwn →
    next.leader = .ended status onItsOwn
  onItsOwn : ∀ status onItsOwn, next.leader = .ended status onItsOwn →
    world.leader = .ended status onItsOwn ∨ onItsOwn = true

theorem Untouched.passes {world next : SessionWorld} (h : Untouched heard since world)
    (hpasses : Passes world next) : Untouched heard since next where
  tree := hpasses.tree.trans h.tree
  attempts := hpasses.calls ▸ h.attempts
  onItsOwn := fun status onItsOwn hended =>
    (hpasses.onItsOwn status onItsOwn hended).elim (h.onItsOwn status onItsOwn) id
  received := hpasses.calls ▸ h.received
  since := h.since.trans hpasses.now

theorem TreeEnded.passes {world next : SessionWorld} {exitCode : Int32}
    (h : TreeEnded heard since exitCode world) (hpasses : Passes world next) :
    TreeEnded heard since exitCode next where
  tree := hpasses.tree.trans h.tree
  attempts := hpasses.calls ▸ h.attempts
  received := hpasses.calls ▸ h.received
  since := h.since.trans hpasses.now

/-- A call that neither terminates the tree nor brings a heartbeat. -/
theorem Untouched.record {world : SessionWorld} {call : SystemCall}
    (h : Untouched heard since world)
    (hcall : terminations (world.calls ++ [call]) = terminations world.calls)
    (hheard : heartbeats (world.calls ++ [call]) = heartbeats world.calls) :
    Untouched heard since { world with calls := world.calls ++ [call] } :=
  { h with attempts := hcall.trans h.attempts, received := hheard.trans h.received }

theorem TreeEnded.record {world : SessionWorld} {call : SystemCall} {exitCode : Int32}
    (h : TreeEnded heard since exitCode world)
    (hcall : terminations (world.calls ++ [call]) = terminations world.calls)
    (hheard : heartbeats (world.calls ++ [call]) = heartbeats world.calls) :
    TreeEnded heard since exitCode { world with calls := world.calls ++ [call] } :=
  { h with attempts := hcall.trans h.attempts, received := hheard.trans h.received }

/-- A leader that has ended before any termination has done so on its own. -/
theorem Untouched.ended {world : SessionWorld} {status : ExitStatus}
    (h : Untouched heard since world) (hstatus : world.leader.status? = some status) :
    world.leader = .ended status true := by
  cases hleader : world.leader with
  | running => simp [hleader, Leader.status?] at hstatus
  | ended other onItsOwn =>
    obtain rfl : other = status := by simpa [hleader, Leader.status?] using hstatus
    rw [h.onItsOwn other onItsOwn hleader]

/-- While the system answers, time passes and the leader may end by itself. -/
theorem within_answer : Traced.Within Passes answer := by
  intro world
  refine ⟨⟨rfl, rfl, Nat.le_add_right _ _, ?_, ?_⟩, rfl⟩
  · intro status onItsOwn hended
    show (match world.leader, (world.answers 0).exits with
      | .running, some status => Leader.ended status true
      | leader, _ => leader) = _
    rw [hended]
  · intro status onItsOwn hended
    change (match world.leader, (world.answers 0).exits with
      | .running, some status => Leader.ended status true
      | leader, _ => leader) = _ at hended
    split at hended
    · cases hended
      exact .inr rfl
    · exact .inl hended

/-- What time does not change holds after a call as before it. -/
theorem sat_answer {P E : SessionWorld → Prop}
    (hP : ∀ world next, Passes world next → P world → P next) :
    Triple P answer (fun _ => P) E := by
  intro world hworld hassumed
  obtain ⟨hpasses, hevents⟩ := within_answer world
  refine ⟨fun _ _ => trivial, hP _ _ hpasses hworld⟩

/-- A poll tells whether the leader has ended. -/
theorem sat_tryWait : Triple (Untouched heard since) tryWait
    (fun status world => (Untouched heard since world ∧ world.leader.status? = status) ∧
      ∃ before, world.calls = before ++ [.polled status]) Stopped := by
  refine (sat_answer fun _ _ hpasses h => h.passes hpasses).bind fun answer => ?_
  split
  · exact .fail fun _ h => h.stopped
  · apply Traced.Sat.bind (Traced.Sat.read (Q := fun status world =>
      Untouched heard since world ∧ world.leader.status? = status) fun _ h => ⟨h, rfl⟩)
    intro status
    apply Traced.Sat.bind (Traced.Sat.modify (Q := fun _ world =>
      (Untouched heard since world ∧ world.leader.status? = status) ∧
        ∃ before, world.calls = before ++ [.polled status]) ?_) fun _ => .pure fun _ => id
    rintro world ⟨h, hstatus⟩
    exact ⟨⟨h.record (by simp [terminations]) (by simp [heartbeats]), hstatus⟩, world.calls, rfl⟩

/-- Waiting returns the status of the leader. -/
theorem sat_wait_untouched : Triple (Untouched heard since) wait
    (fun status world => Untouched heard since world ∧ world.leader = .ended status true)
    Stopped := by
  apply (sat_answer fun _ _ hpasses h => h.passes hpasses).bind
  intro answer
  split
  · exact .fail fun _ h => h.stopped
  · apply Traced.Sat.bind (Traced.Sat.read (Q := fun status world =>
      Untouched heard since world ∧ world.leader.status? = status) fun _ h => ⟨h, rfl⟩)
    intro status
    split
    · exact .fail fun _ h => h.1.stopped
    · next status =>
      apply Traced.Sat.bind (Traced.Sat.modify (Q := fun _ world =>
        Untouched heard since world ∧ world.leader = .ended status true) ?_) fun _ =>
          .pure fun _ => id
      rintro world ⟨h, hstatus⟩
      exact ⟨h.record (by simp [terminations]) (by simp [heartbeats]), h.ended hstatus⟩

/-- Waiting after the termination of the tree adds nothing but the status. -/
theorem sat_wait_ended {exitCode : Int32} {calls : List SystemCall} :
    Triple (fun world => TreeEnded heard since exitCode world ∧ world.calls = calls) wait
      (fun status world => TreeEnded heard since exitCode world ∧
        world.calls = calls ++ [.waited status]) Stopped := by
  apply (sat_answer fun _ _ hpasses h =>
    ⟨h.1.passes hpasses, hpasses.calls.trans h.2⟩).bind
  intro answer
  split
  · exact .fail fun _ h => h.1.stopped
  · apply Traced.Sat.look.bind
    intro status
    split
    · exact .fail fun _ h => h.1.stopped
    · next status =>
      apply Traced.Sat.bind (Traced.Sat.modify (Q := fun _ world =>
        TreeEnded heard since exitCode world ∧ world.calls = calls ++ [.waited status]) ?_) fun _ =>
          .pure fun _ => id
      rintro world ⟨h, rfl⟩
      exact ⟨h.record (by simp [terminations]) (by simp [heartbeats]), rfl⟩

/-- A termination that works ends the tree, and leaves a leader that has ended before as it was. -/
theorem sat_terminateOwner (exitCode : Int32) (calls : List SystemCall)
    (exited : Option ExitStatus) :
    Triple (fun world => (Untouched heard since { world with tree := true } ∧ world.tree = false ∧
          world.calls = calls) ∧ ∀ status ∈ exited, world.leader = .ended status true)
      (terminateOwner exitCode)
      (fun _ world => (TreeEnded heard since exitCode world ∧
          world.calls = calls ++ [.terminated exitCode true]) ∧
        ∀ status ∈ exited, world.leader = .ended status true)
      (fun world => terminations world.calls = [(exitCode, false)]) := by
  apply Traced.Sat.bind (sat_answer ?_)
  -- The call fails, or it ends the tree.
  · intro answer
    split
    · apply Traced.Sat.bind (Traced.Sat.modify (Q := fun _ world =>
        terminations world.calls = [(exitCode, false)]) ?_) fun _ => .fail fun _ => id
      rintro world ⟨⟨h, -, -⟩, -⟩
      -- No termination was tried before.
      have hattempts : terminations world.calls = [] := h.attempts
      simp only [terminations] at hattempts
      simp [terminations, hattempts]
    · apply Traced.Sat.bind (Traced.Sat.modify (Q := fun _ world =>
        (TreeEnded heard since exitCode world ∧
            world.calls = calls ++ [.terminated exitCode true]) ∧
          ∀ status ∈ exited, world.leader = .ended status true) ?_)
      · intro _
        apply Traced.Sat.modify
        rintro world ⟨⟨h, hcalls⟩, hexited⟩
        refine ⟨⟨{ h with }, hcalls⟩, fun status hstatus => ?_⟩
        simp [hexited status hstatus]
      · rintro world ⟨⟨h, htree, rfl⟩, hexited⟩
        have hattempts : terminations world.calls = [] := h.attempts
        have hreceived : heartbeats world.calls = heard := h.received
        simp only [terminations] at hattempts
        simp only [heartbeats] at hreceived
        exact ⟨⟨⟨htree, by simp [terminations, hattempts], by simp [heartbeats, hreceived], h.since⟩,
          rfl⟩, hexited⟩
  -- While the call is under way, the leader may end by itself.
  · rintro world next hpasses ⟨⟨h, htree, hcalls⟩, hexited⟩
    refine ⟨⟨h.passes ?_, hpasses.tree.trans htree, hpasses.calls.trans hcalls⟩,
      fun status hstatus => hpasses.ended status true (hexited status hstatus)⟩
    exact { hpasses with tree := rfl }

/-- The tree is terminated, or still owned. -/
theorem sat_terminateTree (exitCode : Int32) (calls : List SystemCall) (exited : Option ExitStatus) :
    Triple (fun world => (Untouched heard since world ∧ world.calls = calls) ∧
        ∀ status ∈ exited, world.leader = .ended status true)
      (SessionChild.terminateTree exitCode)
      (fun _ world => (TreeEnded heard since exitCode world ∧
          world.calls = calls ++ [.terminated exitCode true]) ∧
        ∀ status ∈ exited, world.leader = .ended status true) Stopped := by
  unfold SessionChild.terminateTree
  apply Traced.Sat.bind (Traced.Sat.read (Q := fun tree world =>
    ((Untouched heard since world ∧ world.calls = calls) ∧
      ∀ status ∈ exited, world.leader = .ended status true) ∧ tree = true) fun _ h => ⟨h, h.1.1.tree⟩)
  intro tree
  apply Traced.Sat.given
  rintro rfl
  rw [if_pos rfl]
  -- The owner is taken out, so that what follows is not signalled by anyone else.
  apply Traced.Sat.bind (Traced.Sat.modify (Q := fun _ world =>
    (Untouched heard since { world with tree := true } ∧ world.tree = false ∧
      world.calls = calls) ∧ ∀ status ∈ exited, world.leader = .ended status true) ?_)
  · intro _
    apply Traced.Sat.bind (Traced.Sat.attempt (Q := fun result world =>
      match result with
      | .ok () => (TreeEnded heard since exitCode world ∧
          world.calls = calls ++ [.terminated exitCode true]) ∧
        ∀ status ∈ exited, world.leader = .ended status true
      | .error _ => terminations world.calls = [(exitCode, false)])
      (sat_terminateOwner exitCode calls exited) (fun _ _ => id) (by simp))
    intro result
    split
    · exact .pure fun _ => id
    · -- The owner is put back, for `Drop`.
      apply Traced.Sat.bind (Traced.Sat.modify (Q := fun _ => Stopped) ?_) fun _ => .fail fun _ => id
      exact fun world h => .inl ⟨rfl, .inr ⟨exitCode, h⟩⟩
  · rintro world ⟨⟨h, hcalls⟩, hexited⟩
    exact ⟨⟨{ h with tree := rfl }, rfl, hcalls⟩, hexited⟩

/-- The tree of a leader that has ended is terminated before that is reported. -/
theorem sat_cleanup (exitCode : Int32) (status : ExitStatus) (result : α) :
    Triple (fun world => Untouched heard since world ∧ world.leader = .ended status true)
      (do
        SessionChild.terminateTree exitCode
        return result)
      (fun returned world => returned = result ∧ TreeEnded heard since exitCode world ∧
        world.leader = .ended status true) Stopped := by
  apply Traced.Sat.fix SessionWorld.calls
  intro calls
  apply ((sat_terminateTree exitCode calls (some status)).pre ?_).bind
  · intro _
    exact .pure fun next h => ⟨rfl, h.1.1, h.2 status rfl⟩
  · rintro world ⟨⟨huntouched, hended⟩, hcalls⟩
    exact ⟨⟨huntouched, hcalls⟩, by simpa using hended⟩

/-- A leader that has ended is reported after its tree was terminated. -/
theorem sat_tryWaitAndCleanup : Triple (Untouched heard since) SessionChild.tryWaitAndCleanup
    (fun result world =>
      match result with
      | none => Untouched heard since world
      | some status => TreeEnded heard since sessionCancelExitCode world ∧
          world.leader = .ended status true) Stopped := by
  apply sat_tryWait.bind
  intro result
  cases result with
  | none => exact .pure fun _ h => h.1.1
  | some status =>
    apply (sat_cleanup sessionCancelExitCode status (some status)).mono
    · exact fun world h => ⟨h.1.1, h.1.1.ended h.1.2⟩
    · rintro _ world ⟨rfl, h⟩
      exact h
    · exact fun _ => id

theorem sat_waitAndCleanup : Triple (Untouched heard since) SessionChild.waitAndCleanup
    (fun status world => TreeEnded heard since sessionCancelExitCode world ∧
      world.leader = .ended status true) Stopped := by
  apply sat_wait_untouched.bind
  intro status
  apply (sat_cleanup sessionCancelExitCode status status).mono
  · exact fun _ => id
  · rintro _ world ⟨rfl, h⟩
    exact h
  · exact fun _ => id

/-- The tree is terminated, also when the leader has ended before, which is told. -/
theorem sat_terminateWith (exitCode : Int32) :
    Triple (Untouched heard since) (SessionChild.terminateWith exitCode)
      (fun result world => TreeEnded heard since exitCode world ∧
        if result.2 then Forced result.1 world else world.leader = .ended result.1 true)
      Stopped := by
  apply sat_tryWait.bind
  intro result
  -- The leader has ended before, or it has not yet.
  cases result with
  | some status =>
    apply (sat_cleanup exitCode status (status, false)).mono
    · exact fun world h => ⟨h.1.1, h.1.1.ended h.1.2⟩
    · rintro _ world ⟨rfl, h⟩
      exact h
    · exact fun _ => id
  -- It has not: the tree is terminated, and then the leader is waited for.
  | none =>
    apply Traced.Sat.fix SessionWorld.calls
    intro calls
    apply Traced.Sat.pre (P := fun world => (Untouched heard since world ∧ world.calls = calls) ∧
      ∃ before, calls = before ++ [.polled none])
    · apply Traced.Sat.given
      rintro ⟨before, rfl⟩
      apply ((sat_terminateTree exitCode _ none).pre fun _ h => ⟨h, by simp⟩).bind
      intro _
      apply ((@sat_wait_ended heard since exitCode _).pre fun _ h => h.1).bind
      intro status
      apply Traced.Sat.pure
      rintro world ⟨hended, hwaited⟩
      refine ⟨hended, ?_⟩
      exact ⟨before, exitCode, by simp [hwaited]⟩
    · rintro world ⟨⟨⟨huntouched, -⟩, before, hbefore⟩, rfl⟩
      exact ⟨⟨huntouched, rfl⟩, before, hbefore⟩

/-! ## The end of a session -/

variable {mode : SessionMode} {origin : Nat}

/-- The monitor of a lease that the heartbeats so far have extended. -/
structure Watches (origin : Nat) (lease : SessionLease) (heard : List Nat)
    (monitor : SessionLeaseMonitor) : Prop where
  origin_eq : monitor.origin = origin
  timeout : monitor.state.timeoutMillis = lease.timeoutMillis.toNat
  deadline : monitor.state.deadlineMillis =
    saturatingAdd (lastHeard origin heard) lease.timeoutMillis.toNat
  inTime : AllInTime origin lease heard

/-- There is a monitor when there is a lease. -/
def Monitors (mode : SessionMode) (origin : Nat) (heard : List Nat) :
    Option SessionLeaseMonitor → Prop
  | none => mode.lease = none
  | some monitor => ∃ lease, mode.lease = some lease ∧ Watches origin lease heard monitor

/-- The state of a lease is expired when its heartbeats have timed out. -/
theorem Watches.isExpired_iff {lease : SessionLease} {monitor : SessionLeaseMonitor}
    (h : Watches origin lease heard monitor) (instant : Nat) :
    monitor.isExpired instant = true ↔ TimedOut origin lease heard instant := by
  have hmax : millisSince origin instant ≤ maxMillis := Nat.min_le_right _ _
  simp only [SessionLeaseMonitor.isExpired, SessionLeaseState.isExpired, h.deadline,
    SessionLeaseMonitor.millisAt, h.origin_eq, saturatingAdd, TimedOut, decide_eq_true_eq]
  omega

/-- The tree is terminated, and what is reported of it fits. -/
theorem sat_endWith {exitCode : Int32} {sessionEnd : Bool → SessionEnd}
    (hnormal : (sessionEnd false).isForced = false)
    (htrue : sessionEnd true ≠ .normal)
    (hleased : ∀ lease world, mode.lease = some lease → heartbeats world.calls = heard →
      since ≤ world.now → ∀ terminated, LeaseKept origin lease world (sessionEnd terminated))
    (hlease : sessionEnd true = .leaseExpired → mode.lease ≠ none) :
    Triple (Untouched heard since) (endWith exitCode sessionEnd)
      (fun result world => Reported mode origin world result.1 result.2) Stopped := by
  apply (sat_terminateWith exitCode).bind
  rintro ⟨status, terminated⟩
  apply Traced.Sat.pure
  rintro world ⟨hended, hforced⟩
  have hkept := fun lease h => hleased lease world h hended.received hended.since terminated
  cases terminated with
  | true =>
    exact ⟨⟨exitCode, hended.attempts⟩, hended.tree, fun h => absurd h htrue, fun _ => hforced,
      hlease, hkept⟩
  | false =>
    refine ⟨⟨exitCode, hended.attempts⟩, hended.tree, fun _ => hforced, ?_, ?_, hkept⟩
    · intro h
      rw [hnormal] at h
      cases h
    · intro hend
      change sessionEnd false = .leaseExpired at hend
      rw [hend] at hnormal
      cases hnormal

/-- The heartbeats so far were in time. -/
theorem Monitors.allInTime {monitor : Option SessionLeaseMonitor}
    (h : Monitors mode origin heard monitor) {lease : SessionLease}
    (hlease : mode.lease = some lease) : AllInTime origin lease heard := by
  cases monitor with
  | none => exact absurd (hlease.symm.trans h) (by simp)
  | some monitor =>
    obtain ⟨other, hother, hwatches⟩ := h
    obtain rfl : other = lease := Option.some.inj (hother.symm.trans hlease)
    exact hwatches.inTime

/-- An end that is not that of the lease asks nothing more of it. -/
theorem Monitors.kept {monitor : Option SessionLeaseMonitor}
    (h : Monitors mode origin heard monitor) {sessionEnd : SessionEnd}
    (hend : sessionEnd ≠ .leaseExpired) {lease : SessionLease} {world : SessionWorld}
    (hlease : mode.lease = some lease) (hheard : heartbeats world.calls = heard) :
    LeaseKept origin lease world sessionEnd :=
  ⟨heard, h.allInTime hlease, .inl ⟨hheard, fun heq => absurd heq hend⟩⟩

/-- The leader has ended, and its tree was terminated then. -/
theorem Monitors.reported_normal {monitor : Option SessionLeaseMonitor}
    (h : Monitors mode origin heard monitor) {exitCode : Int32} {status : ExitStatus}
    {world : SessionWorld} (hended : TreeEnded heard since exitCode world)
    (hleader : world.leader = .ended status true) :
    Reported mode origin world status .normal where
  once := ⟨exitCode, hended.attempts⟩
  disarmed := hended.tree
  normal := fun _ => hleader
  forced := fun hforced => Bool.noConfusion hforced
  leased := nofun
  lease := fun _ hlease => h.kept (by simp) hlease hended.received

/-- An end that the control channel asks for. -/
theorem sat_endWith_control {monitor : Option SessionLeaseMonitor}
    (h : Monitors mode origin heard monitor) {exitCode : Int32} {sessionEnd : Bool → SessionEnd}
    (hfalse : (sessionEnd false).isForced = false) (htrue : sessionEnd true ≠ .normal)
    (hleased : ∀ terminated, sessionEnd terminated ≠ .leaseExpired) :
    Triple (Untouched heard since) (endWith exitCode sessionEnd)
      (fun result world => Reported mode origin world result.1 result.2) Stopped := by
  apply sat_endWith hfalse htrue
  · exact fun lease world hlease hheard _ terminated => h.kept (hleased terminated) hlease hheard
  · exact fun heq => absurd heq (hleased true)

/-- The lease has expired by the clock. -/
theorem sat_endWith_expired {monitor : Option SessionLeaseMonitor}
    (h : Monitors mode origin heard monitor) :
    Triple (fun world => Untouched heard since world ∧
        ∃ lease, mode.lease = some lease ∧ TimedOut origin lease heard world.now)
      (endWith sessionCancelExitCode leaseSessionEnd)
      (fun result world => Reported mode origin world result.1 result.2) Stopped := by
  apply Traced.Sat.fix SessionWorld.now
  intro now
  apply Traced.Sat.pre (P := fun world => Untouched heard now world ∧
    ∃ lease, mode.lease = some lease ∧ TimedOut origin lease heard now)
  · apply Traced.Sat.given
    rintro ⟨lease, hlease, htimedOut⟩
    apply sat_endWith rfl (by simp [leaseSessionEnd])
    · intro other world hother hheard hnow terminated
      obtain rfl : other = lease := Option.some.inj (hother.symm.trans hlease)
      exact ⟨heard, h.allInTime hlease, .inl ⟨hheard, fun _ => ⟨now, hnow, htimedOut⟩⟩⟩
    · simp [hlease]
  · rintro world ⟨⟨huntouched, htimedOut⟩, rfl⟩
    exact ⟨{ huntouched with since := le_rfl }, htimedOut⟩

/-- The lease has expired by a heartbeat that comes too late. -/
theorem sat_endWith_late {monitor : Option SessionLeaseMonitor}
    (h : Monitors mode origin heard monitor) {lease : SessionLease} {late : Nat}
    (hlease : mode.lease = some lease) (htimedOut : TimedOut origin lease heard late) :
    Triple (Untouched (heard ++ [late]) since) (endWith sessionCancelExitCode leaseSessionEnd)
      (fun result world => Reported mode origin world result.1 result.2) Stopped := by
  apply sat_endWith rfl (by simp [leaseSessionEnd])
  · intro other world hother hheard hnow terminated
    obtain rfl : other = lease := Option.some.inj (hother.symm.trans hlease)
    refine ⟨heard, h.allInTime hlease, .inr ⟨late, hheard, htimedOut, ?_⟩⟩
    cases terminated <;> simp [leaseSessionEnd]
  · simp [hlease]

/-! ## Waiting -/

/-- The heartbeats, with one that is received. -/
def heardWith (heard : List Nat) : Received → List Nat
  | .event (.heartbeat observedAt) => heard ++ [observedAt]
  | _ => heard

/-- Waiting for a message leaves the child alone. -/
theorem sat_recvTimeout (duration : Nat) : Triple (Untouched heard since) (recvTimeout duration)
    (fun received world => Untouched (heardWith heard received) since world) Stopped := by
  apply (sat_answer fun _ _ hpasses h => h.passes hpasses).bind
  intro answer
  have hlater : ∀ now, now ≤ if answer.received = .timeout then now + duration else now := by
    intro now
    split
    · exact Nat.le_add_right _ _
    · exact le_rfl
  apply Traced.Sat.bind (Q := fun _ => Untouched heard since)
  · exact .modify fun world h => { h with since := h.since.trans (hlater _) }
  · intro _
    refine Traced.Sat.bind (Q := fun _ => Untouched (heardWith heard answer.received) since)
      (.modify fun world h => ?_) fun _ => .pure fun _ => id
    have hattempts : terminations world.calls = [] := h.attempts
    have hreceived : heartbeats world.calls = heard := h.received
    simp only [terminations] at hattempts
    simp only [heartbeats] at hreceived
    refine ⟨h.tree, by simp [terminations, hattempts], h.onItsOwn, ?_, h.since⟩
    rcases answer.received with event | _ | _
    · cases event <;> simp [heartbeats, heardWith, hreceived]
    · simp [heartbeats, heardWith, hreceived]
    · simp [heartbeats, heardWith, hreceived]

theorem sat_sleep (duration : Nat) : Triple (Untouched heard since) (sleep duration)
    (fun _ => Untouched heard since) Stopped := by
  apply (sat_answer fun _ _ hpasses h => h.passes hpasses).bind
  intro _
  exact .modify fun world h => { h with since := h.since.trans (Nat.le_add_right _ _) }

/-- The look at the clock. -/
theorem sat_leaseExpired {monitor : Option SessionLeaseMonitor}
    (h : Monitors mode origin heard monitor) :
    Triple (Untouched heard since) (leaseExpired monitor)
      (fun expired world => Untouched heard since world ∧ (expired = true →
        ∃ lease, mode.lease = some lease ∧ TimedOut origin lease heard world.now)) Stopped := by
  apply Traced.Sat.bind (Traced.Sat.read (Q := fun now world =>
    Untouched heard since world ∧ now = world.now) fun _ huntouched => ⟨huntouched, rfl⟩)
  intro now
  apply Traced.Sat.pure
  rintro world ⟨huntouched, rfl⟩
  refine ⟨huntouched, fun hexpired => ?_⟩
  cases monitor with
  | none => simp at hexpired
  | some monitor =>
    obtain ⟨lease, hlease, hwatches⟩ := h
    exact ⟨lease, hlease, (hwatches.isExpired_iff world.now).mp (by simpa using hexpired)⟩

/-- One more heartbeat in time. -/
theorem AllInTime.concat {lease : SessionLease} {instant : Nat} (h : AllInTime origin lease heard)
    (hinstant : ¬ TimedOut origin lease heard instant) :
    AllInTime origin lease (heard ++ [instant]) := by
  intro earlier other later hsplit
  rcases List.eq_nil_or_concat later with rfl | ⟨later, last, rfl⟩
  · obtain ⟨rfl, hother⟩ := List.append_inj' hsplit rfl
    obtain rfl : instant = other := by simpa using hother
    exact hinstant
  · have hconcat : heard ++ [instant] = (earlier ++ other :: later) ++ [last] := by
      rw [hsplit]
      simp
    exact h earlier other later (List.append_inj' hconcat rfl).1

/-- A heartbeat in time extends the lease, and one that is late does not. -/
theorem Watches.observe {lease : SessionLease} {monitor : SessionLeaseMonitor}
    (h : Watches origin lease heard monitor) (observedAt : Nat) :
    (monitor.observeHeartbeat observedAt).1 = true ∧
        Watches origin lease (heard ++ [observedAt]) (monitor.observeHeartbeat observedAt).2 ∨
      (monitor.observeHeartbeat observedAt).1 = false ∧ TimedOut origin lease heard observedAt := by
  have hexpired : monitor.state.isExpired (monitor.millisAt observedAt) = true ↔
      TimedOut origin lease heard observedAt := h.isExpired_iff observedAt
  rw [SessionLeaseMonitor.observeHeartbeat, SessionLeaseState.observeHeartbeat]
  split
  · next hcase => exact .inr ⟨rfl, hexpired.mp hcase⟩
  · next hcase =>
    refine .inl ⟨rfl, h.origin_eq, h.timeout, ?_,
      h.inTime.concat fun htimedOut => hcase (hexpired.mpr htimedOut)⟩
    simp [h.timeout, SessionLeaseMonitor.millisAt, h.origin_eq, lastHeard]

/-- The loop: it goes on as long as nothing has been terminated. -/
theorem sat_waitLoop (fuel : Nat) (monitor : Option SessionLeaseMonitor) (connected : Bool)
    (h : Monitors mode origin heard monitor) :
    Triple (Untouched heard since) (waitLoop fuel monitor connected)
      (fun result world => Reported mode origin world result.1 result.2) Stopped := by
  induction fuel generalizing heard monitor connected with
  | zero => exact .fail fun _ huntouched => huntouched.stopped
  | succ fuel ih =>
    have hexpire : ∀ connected, Triple (Untouched heard since)
        (do
          if ← leaseExpired monitor then endWith sessionCancelExitCode leaseSessionEnd
          else waitLoop fuel monitor connected)
        (fun result world => Reported mode origin world result.1 result.2) Stopped := by
      intro connected
      apply (sat_leaseExpired h).bind
      intro expired
      apply Traced.Sat.ite
      · rintro rfl
        exact (sat_endWith_expired h).pre fun world hworld => ⟨hworld.1, hworld.2 rfl⟩
      · exact fun _ => (ih monitor connected h).pre fun world hworld => hworld.1
    apply sat_tryWaitAndCleanup.bind
    intro result
    cases result with
    | some status => exact .pure fun world hworld => h.reported_normal hworld.1 hworld.2
    | none =>
      apply Traced.Sat.look.bind
      intro now
      apply Traced.Sat.ite
      · intro _
        exact (sat_sleep _).bind fun _ => hexpire connected
      · intro _
        apply (sat_recvTimeout _).bind
        intro received
        cases received with
        | event event =>
          cases event with
          | cancel =>
            apply sat_endWith_control h rfl <;> simp [cancelSessionEnd]
          | signal signal =>
            apply sat_endWith_control h rfl <;> simp
          | disconnect =>
            apply sat_endWith_control h rfl <;> simp
          | protocolError message =>
            apply sat_endWith_control h rfl <;> simp
          | heartbeat observedAt =>
            cases monitor with
            | none =>
              -- Without a lease no heartbeat is of any account.
              have hnone : Monitors mode origin (heard ++ [observedAt]) none := h
              apply sat_endWith_control hnone rfl <;> simp
            | some monitor =>
              obtain ⟨lease, hlease, hwatches⟩ := h
              rcases hwatches.observe observedAt with ⟨hextended, hnext⟩ | ⟨hlate, htimedOut⟩
              · apply Traced.Sat.ite
                · exact fun _ => ih (some _) connected ⟨lease, hlease, hnext⟩
                · exact fun hnot => absurd hextended hnot
              · apply Traced.Sat.ite
                · exact fun hextended => absurd (hlate.symm.trans hextended) Bool.false_ne_true
                · have hmonitors : Monitors mode origin heard (some monitor) :=
                    ⟨lease, hlease, hwatches⟩
                  exact fun _ => sat_endWith_late hmonitors hlease htimedOut
        | timeout => exact hexpire _
        | disconnected =>
          apply Traced.Sat.ite
          · intro _
            apply sat_waitAndCleanup.bind
            intro status
            exact .pure fun world hworld => h.reported_normal hworld.1 hworld.2
          · exact fun _ => ih monitor false h

/-- The loop reports how the child ends, or has terminated it for a reason. -/
theorem sat_waitForChild (fuel : Nat) :
    Triple (fun world => Untouched [] since world ∧ world.now = origin) (waitForChild fuel mode)
      (fun result world => Reported mode origin world result.1 result.2) Stopped := by
  unfold waitForChild
  have hinTime : ∀ lease, AllInTime origin lease [] := by
    intro lease earlier instant later hsplit
    simp at hsplit
  cases hlease : mode.lease with
  | none => exact (sat_waitLoop fuel none true hlease).pre fun _ h => h.1
  | some lease =>
    apply Traced.Sat.bind (Q := fun monitor world => Untouched [] since world ∧
      Watches origin lease [] monitor)
    · apply Traced.Sat.bind (Traced.Sat.read (Q := fun now world =>
        Untouched [] since world ∧ now = origin) fun _ h => h)
      intro now
      apply Traced.Sat.pure
      rintro world ⟨h, rfl⟩
      exact ⟨h, rfl, rfl, rfl, hinTime lease⟩
    · intro monitor
      apply Traced.Sat.given
      intro hwatches
      exact sat_waitLoop fuel (some monitor) true ⟨lease, hlease, hwatches⟩

/-! ## Afterwards -/

/-- The tree is not owned any more, and was terminated as often as it says. -/
def Disarmed (attempts : List (Int32 × Bool)) (world : SessionWorld) : Prop :=
  world.tree = false ∧ terminations world.calls = attempts

theorem sat_answer_disarmed {attempts : List (Int32 × Bool)} {E : SessionWorld → Prop} :
    Triple (Disarmed attempts) answer (fun _ => Disarmed attempts) E :=
  sat_answer fun _ _ hpasses h =>
    ⟨hpasses.tree.trans h.1, (congrArg terminations hpasses.calls).trans h.2⟩

theorem sat_record_disarmed {attempts : List (Int32 × Bool)} {E : SessionWorld → Prop}
    {call : SystemCall} (hcall : terminations [call] = []) :
    Triple (Disarmed attempts) (record call) (fun _ => Disarmed attempts) E := by
  apply Traced.Sat.modify
  rintro world ⟨htree, rfl⟩
  refine ⟨htree, ?_⟩
  show terminations (world.calls ++ [call]) = _
  rw [terminations, List.filterMap_append]
  exact (congrArg (terminations world.calls ++ ·) hcall).trans (List.append_nil _)

theorem sat_tryWait_disarmed {attempts : List (Int32 × Bool)} :
    Triple (Disarmed attempts) tryWait (fun _ => Disarmed attempts) (Disarmed attempts) := by
  apply sat_answer_disarmed.bind
  intro answer
  split
  · exact .fail fun _ => id
  · apply Traced.Sat.look.bind
    intro status
    exact (sat_record_disarmed rfl).bind fun _ => .pure fun _ => id

theorem sat_wait_disarmed {attempts : List (Int32 × Bool)} :
    Triple (Disarmed attempts) wait (fun _ => Disarmed attempts) (Disarmed attempts) := by
  apply sat_answer_disarmed.bind
  intro answer
  split
  · exact .fail fun _ => id
  · apply Traced.Sat.look.bind
    intro status
    split
    · exact .fail fun _ => id
    · exact (sat_record_disarmed rfl).bind fun _ => .pure fun _ => id

theorem sat_terminateTree_disarmed {attempts : List (Int32 × Bool)} (exitCode : Int32) :
    Triple (Disarmed attempts) (SessionChild.terminateTree exitCode) (fun _ => Disarmed attempts)
      (Disarmed attempts) := by
  apply Traced.Sat.bind (Traced.Sat.read (Q := fun tree world =>
    Disarmed attempts world ∧ tree = false) fun _ h => ⟨h, h.1⟩)
  intro tree
  apply Traced.Sat.given
  rintro rfl
  exact .pure fun _ => id

/-- No call signals a tree that is not owned. -/
theorem sat_method_disarmed {attempts : List (Int32 × Bool)} (method : ChildMethod) :
    Triple (Disarmed attempts) method.run (fun _ => Disarmed attempts) (Disarmed attempts) := by
  -- Each method comes to a `terminate_tree`, which does nothing now.
  cases method with
  | terminateTree exitCode => exact sat_terminateTree_disarmed exitCode
  | tryWaitAndCleanup =>
    refine Traced.Sat.bind (sat_tryWait_disarmed.bind fun status => ?_) fun _ => .pure fun _ => id
    split
    · exact .pure fun _ => id
    · exact (sat_terminateTree_disarmed _).bind fun _ => .pure fun _ => id
  | waitAndCleanup =>
    refine Traced.Sat.bind (sat_wait_disarmed.bind fun status => ?_) fun _ => .pure fun _ => id
    exact (sat_terminateTree_disarmed _).bind fun _ => .pure fun _ => id
  | terminateWith exitCode =>
    refine Traced.Sat.bind (sat_tryWait_disarmed.bind fun status => ?_) fun _ => .pure fun _ => id
    split
    · exact (sat_terminateTree_disarmed _).bind fun _ => .pure fun _ => id
    · exact (sat_terminateTree_disarmed _).bind fun _ =>
        sat_wait_disarmed.bind fun _ => .pure fun _ => id
  -- Nothing is left for `drop` to do.
  | drop =>
    apply Traced.Sat.bind (Traced.Sat.read (Q := fun gone world =>
      Disarmed attempts world ∧ gone = true) fun _ h => ⟨h, by simp [h.1]⟩)
    intro gone
    apply Traced.Sat.given
    rintro rfl
    exact .pure fun _ => id

theorem spares_of_disarmed {world : SessionWorld} (h : world.tree = false) : Spares world := by
  intro methods
  have hall : Triple (Disarmed (terminations world.calls)) (runAll methods)
      (fun _ => Disarmed (terminations world.calls)) (Disarmed (terminations world.calls)) := by
    apply Traced.Sat.each
    intro method
    apply Traced.Sat.bind (Q := fun _ => Disarmed (terminations world.calls))
    · exact (sat_method_disarmed method).attempt (fun _ _ => id) fun _ _ _ => id
    · exact fun _ => .pure fun _ => id
  exact (hall.state (Q := Disarmed (terminations world.calls)) ⟨h, rfl⟩).2

theorem terminations_concat (calls : List SystemCall) (exitCode : Int32) (succeeded : Bool) :
    terminations (calls ++ [.terminated exitCode succeeded]) =
      terminations calls ++ [(exitCode, succeeded)] := by
  simp [terminations]

/-- The tree is still owned, after the attempts. -/
def Owned (attempts : List (Int32 × Bool)) (world : SessionWorld) : Prop :=
  world.tree = true ∧ terminations world.calls = attempts

/-- One attempt at a tree that is owned. -/
theorem sat_terminateTree_owned {attempts : List (Int32 × Bool)} (exitCode : Int32) :
    Triple (Owned attempts) (SessionChild.terminateTree exitCode)
      (fun _ => Disarmed (attempts ++ [(exitCode, true)]))
      (fun world => terminations world.calls = attempts ++ [(exitCode, false)]) := by
  apply Traced.Sat.bind (Traced.Sat.read (Q := fun tree world =>
    Owned attempts world ∧ tree = true) fun _ h => ⟨h, h.1⟩)
  intro tree
  apply Traced.Sat.given
  -- The tree is owned, so the attempt is made; it is no longer owned during it.
  rintro rfl
  apply Traced.Sat.bind (Q := fun _ => Disarmed attempts) (.modify fun _ h => ⟨rfl, h.2⟩)
  intro _
  -- One answer of the system decides the attempt.
  have hattempt : Triple (Disarmed attempts) (terminateOwner exitCode)
      (fun _ => Disarmed (attempts ++ [(exitCode, true)]))
      (fun world => terminations world.calls = attempts ++ [(exitCode, false)]) := by
    apply sat_answer_disarmed.bind
    intro answer
    split
    · apply Traced.Sat.bind (Traced.Sat.modify (Q := fun _ world =>
        terminations world.calls = attempts ++ [(exitCode, false)]) ?_) fun _ => .fail fun _ => id
      rintro world ⟨-, rfl⟩
      exact terminations_concat _ _ _
    · apply Traced.Sat.bind (Traced.Sat.modify (Q := fun _ =>
        Disarmed (attempts ++ [(exitCode, true)])) ?_)
      · exact fun _ => .modify fun _ => id
      · rintro world ⟨htree, rfl⟩
        exact ⟨htree, terminations_concat _ _ _⟩
  apply Traced.Sat.bind (Traced.Sat.attempt (Q := fun result world =>
    match result with
    | .ok () => Disarmed (attempts ++ [(exitCode, true)]) world
    | .error _ => terminations world.calls = attempts ++ [(exitCode, false)])
    hattempt (fun _ _ => id) (by simp))
  -- Its failure is passed on, and the tree is owned again.
  intro result
  split
  · exact .pure fun _ => id
  · exact Traced.Sat.bind (Q := fun _ world =>
      terminations world.calls = attempts ++ [(exitCode, false)]) (.modify fun _ => id)
      fun _ => .fail fun _ => id

/-- `Drop` of a tree that is still owned makes one attempt. -/
theorem drop_retries {world : SessionWorld} (h : world.tree = true) : ∃ succeeded,
    terminations (SessionChild.drop world).state.calls =
      terminations world.calls ++ [(sessionCancelExitCode, succeeded)] := by
  -- The attempt of `drop` is the one of `terminate_tree`, for the exit code of a cancellation.
  have hdrop : Triple (Owned (terminations world.calls)) SessionChild.drop
      (fun _ next => ∃ succeeded, terminations next.calls =
        terminations world.calls ++ [(sessionCancelExitCode, succeeded)])
      (fun next => ∃ succeeded, terminations next.calls =
        terminations world.calls ++ [(sessionCancelExitCode, succeeded)]) := by
    apply Traced.Sat.bind (Traced.Sat.read (Q := fun gone next =>
      Owned (terminations world.calls) next ∧ gone = false) fun _ howned => ⟨howned, by simp [howned.1]⟩)
    intro gone
    apply Traced.Sat.given
    -- The tree is owned, so there is one.
    rintro rfl
    apply Traced.Sat.bind (Traced.Sat.attempt (Q := fun result next =>
      match result with
      | .ok () => Disarmed (terminations world.calls ++ [(sessionCancelExitCode, true)]) next
      | .error _ => terminations next.calls =
          terminations world.calls ++ [(sessionCancelExitCode, false)])
      (sat_terminateTree_owned sessionCancelExitCode) (fun _ _ => id)
      fun _ _ _ hfailed => ⟨false, hfailed⟩)
    intro result
    split
    -- After one that worked the leader is waited for, which attempts nothing.
    · apply Traced.Sat.bind (Q := fun _ =>
        Disarmed (terminations world.calls ++ [(sessionCancelExitCode, true)]))
      · exact sat_wait_disarmed.attempt (fun _ _ => id) fun _ _ _ hended => ⟨true, hended.2⟩
      · exact fun _ => .pure fun _ hended => ⟨true, hended.2⟩
    · exact .pure fun _ hfailed => ⟨false, hfailed⟩
  exact hdrop.state ⟨h, rfl⟩

end Child

/-- What is left after an error. -/
theorem Stopped.leftToDrop {world : SessionWorld} (h : Stopped world) : LeftToDrop world := by
  rcases h with ⟨htree, hnone | ⟨exitCode, hfailed⟩⟩ | ⟨htree, exitCode, hended⟩
  · exact ⟨by simp [hnone], by simp [hnone], by simp [hnone]⟩
  · refine ⟨by simp [hfailed], ?_, by simp [hfailed]⟩
    intro other hother
    obtain ⟨succeeded, hdropped⟩ := drop_retries htree
    exact ⟨succeeded, by rw [hdropped, hother]; rfl⟩
  · exact ⟨by simp [hended], by simp [hended], fun _ _ => spares_of_disarmed htree⟩

/-- For every course of events: when `wait_for_child` returns a status and an end, the tree was
    terminated once and is not signalled again, and the status and the end are reported as they
    came about; when it returns an error, `Drop` tries once more where the termination has failed. -/
theorem child_is_terminated_once (fuel : Nat) (mode : SessionMode) {world : SessionWorld}
    (h : Spawned world) :
    (∀ status sessionEnd, (waitForChild fuel mode world).result = .ok (status, sessionEnd) →
      Reported mode world.now (waitForChild fuel mode world).state status sessionEnd ∧
        Spares (waitForChild fuel mode world).state) ∧
      ∀ error, (waitForChild fuel mode world).result = .error (.failed error) →
        LeftToDrop (waitForChild fuel mode world).state := by
  have huntouched : Untouched [] world.now world :=
    ⟨h.tree, by simp [h.calls, terminations], h.onItsOwn, by simp [h.calls, heartbeats], le_rfl⟩
  have hwait : Triple (fun next => Untouched [] world.now next ∧ next.now = world.now)
      (waitForChild fuel mode) (fun result next => Reported mode world.now next result.1 result.2)
      Stopped := sat_waitForChild fuel
  constructor
  · intro status sessionEnd hresult
    have hreported := hwait.of_ok ⟨huntouched, rfl⟩ hresult
    exact ⟨hreported, spares_of_disarmed hreported.disarmed⟩
  · intro error hresult
    exact (hwait.of_error ⟨huntouched, rfl⟩ hresult).leftToDrop

/-- A session without a lease that is cancelled: the second answer is the event, and the third the
    look before the termination. -/
def cancelledSession (afterwards : Nat → Answer) : SessionWorld where
  answers
    | 0 => {}
    | 1 => { received := .event .cancel }
    | 2 => {}
    | n + 3 => afterwards n

theorem spawned_cancelledSession (afterwards : Nat → Answer) :
    Spawned (cancelledSession afterwards) where
  tree := rfl
  calls := rfl
  onItsOwn := by simp [cancelledSession]

/-- A leader that is still running is killed. -/
theorem running_leader_is_cancelled :
    Reported .legacy 0 (waitForChild 1 .legacy (cancelledSession fun _ => {})).state ⟨none⟩
        .cancelled ∧
      Spares (waitForChild 1 .legacy (cancelledSession fun _ => {})).state :=
  (child_is_terminated_once 1 .legacy (spawned_cancelledSession _)).1 _ _ rfl

/-- A session with the shortest lease: a heartbeat just before the end of the first millisecond, and
    none until the end of the thousandth. -/
def leasedSession : SessionWorld where
  answers
    | 1 => { elapsed := 999999, received := .event (.heartbeat 999999) }
    | 3 => { elapsed := 974000001 }
    | _ => {}

/-- A leader that ends on its own, right after the look at it, is reported as cancelled with the
    status it has ended with; and a lease expires within a millisecond of its timeout. -/
theorem ended_leader_is_cancelled :
    (Spawned (cancelledSession fun _ => { exits := some ⟨some 0⟩ }) ∧
      (waitForChild 1 .legacy (cancelledSession fun _ => { exits := some ⟨some 0⟩ })).result =
        .ok (⟨some 0⟩, .cancelled) ∧
      (waitForChild 1 .legacy (cancelledSession fun _ => { exits := some ⟨some 0⟩ })).state.leader =
        .ended ⟨some 0⟩ true) ∧
    ((waitForChild 2 (.controlled ⟨true⟩ (some ⟨1000, by decide⟩)) leasedSession).result =
        .ok (⟨none⟩, .leaseExpired) ∧
      heartbeats
        (waitForChild 2 (.controlled ⟨true⟩ (some ⟨1000, by decide⟩)) leasedSession).state.calls =
        [999999] ∧
      (waitForChild 2 (.controlled ⟨true⟩ (some ⟨1000, by decide⟩)) leasedSession).state.now <
        999999 + 1000 * nanosPerMilli) :=
  ⟨⟨spawned_cancelledSession _, rfl, rfl⟩, rfl, rfl, by decide⟩

end Lsw.Agent
