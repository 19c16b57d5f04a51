import Lsw.Daemon.Nesting
import Lsw.Lib.Follows

/-!
# One Pass at a Time

`poll` ends with a pass over the idle policies, at most once a second.  The pass suspends and
hibernates instances, and these operations begin with a `poll` of their own.  Nothing marks that
a pass is running; only the time of its beginning keeps the inner `poll` from beginning another
one.  The calls of the pass take time themselves, and so may the inner `poll`.

To say when that goes well, the pass is written once more without the way back: inside it, a
`poll` only reaps children, and is stuck if a second has passed by then.  The real `poll` does
the same as long as this one is not stuck, and begins a second pass where it is.
-/

namespace Lsw.Daemon

open Lsw.Lib Lsw.Core Traced

/-! ## The pass without a way back -/

/-- What `poll` does before the policies: it reaps children, and sees how long ago the last pass
    has begun. -/
def reap : Call Nat := do
  let names ← read World.managedNames
  each pollName names
  read fun w => w.clock - w.lastPolicyPoll

/-- `poll` inside a pass: it is stuck where it would begin another one. -/
def pollInPass : Call Unit := do
  let elapsed ← reap
  if policyPollInterval ≤ elapsed then fail .stuck else return

/-- `suspend` inside a pass. -/
def suspendInPass (name : Str) : Call (List Message) := do
  pollInPass
  let manifest ← load name
  suspendFrom name manifest.state

/-- `start` of a hibernated instance inside a pass.  Its state is not `Suspended`, so that it is
    not resumed. -/
def startInPass (name : Str) : Call DaemonResponse := do
  pollInPass
  let status ← attempt (qmpStatus name)
  match status with
  | .error _ => launch name .run
  | .ok _ => do
    let _ ← load name
    return .notice [[.text "instance ", .shown name, .text " is already running"]]

/-- `resume` inside a pass. -/
def resumeInPass (name : Str) : Call DaemonResponse := do
  pollInPass
  let manifest ← load name
  if manifest.state = .hibernated then startInPass name else resumeFrom name manifest

/-- `hibernate` inside a pass. -/
def hibernateInPass (name : Str) : Call (List Message) := do
  pollInPass
  let manifest ← load name
  match manifest.state with
  | .hibernated => return [[.text "instance ", .shown name, .text " is already hibernated"]]
  | .suspended => do
    let _ ← resumeInPass name
    let manifest ← load name
    hibernateFrom name manifest.state
  | state => hibernateFrom name state

/-- The instances that a pass goes through. -/
def sweep (suspend hibernate : Str → Call (List Message)) : Call Unit := do
  let answer ← ask
  let manifests ← read fun w => w.store.list
  let manifests ← ofCore manifests
  each (idlePolicy suspend hibernate answer.seconds answer.memoryPressure) manifests

/-- `poll`, up to the pass. -/
def pollThen (pass : Call Unit) : Call Unit := do
  let elapsed ← reap
  if policyPollInterval ≤ elapsed then do
    modify fun w => { w with lastPolicyPoll := w.clock }
    let _ ← attemptNested pass
    return
  else return

/-- `poll` with a pass that has no way back. -/
def pollOnce : Call Unit := pollThen do
  emit fun _ => .policyPass
  sweep suspendInPass hibernateInPass

/-- Whenever the pass of the `poll` comes to an operation that polls again, less than a second has
    passed since the pass began. -/
def Prompt (w : World) : Prop := (pollOnce w).result ≠ .error .stuck

section Equations

variable (depth : Nat) (name : Str)

theorem poll_eq : poll (depth + 1) = pollThen (applyIdlePolicies depth) := by
  rw [poll_succ, pollThen, reap, bind_assoc]
  simp only [bind_assoc]

theorem applyIdlePolicies_eq : applyIdlePolicies (depth + 1) = (do
    emit fun _ => .policyPass
    sweep (suspend depth) (hibernate depth)) := rfl

end Equations

/-! ## The pass that the daemon makes -/

/-- The stored state of the instance is not `Suspended`. -/
def NotSuspended (name : Str) (w : World) : Prop :=
  ∀ manifest, w.store.load name = .ok manifest → manifest.state ≠ .suspended

/-- The two calls do the same, unless the first begins another pass, for the `n`-th time. -/
abbrev Agrees {α : Type} (n : Nat) (P : World → Prop) (call inPass : Call α) : Prop :=
  Follows Failure.stuck Event.policyPass n P call inPass fun _ _ => True

section Agreement

variable {name other : Str} {n : Nat} {P : World → Prop}

theorem undisturbed_notSuspended : Undisturbed (NotSuspended name) := by
  intro w w' h hw
  rw [NotSuspended, h.store]
  exact hw

/-- No end of a QEMU is recorded as `Suspended`. -/
theorem setState_notSuspended {A G : Event → Prop} {state : InstanceState}
    (hstate : state ≠ .suspended) :
    Maintains A G (NotSuspended name) (setState other state) := by
  refine setState_sat (fun w w' h hw => undisturbed_notSuspended w w' h hw)
    fun w manifest next hw _ hupdate loaded hloaded => ?_
  rcases load_update hupdate hloaded with ⟨-, rfl⟩ | ⟨-, hkept⟩
  · exact hstate
  · exact hw loaded hkept

theorem bearsEnd_notSuspended {A : Event → Prop} :
    BearsEnd A (fun _ => True) (NotSuspended name) (fun _ => NotSuspended name) other where
  quiet := undisturbed_notSuspended
  quietNoted _ := undisturbed_notSuspended
  unlinked _ _ := trivial
  noted _ := id
  unmanageNoted _ _ := id
  forget _ _ := id
  recordEnd _ _ hmem _ := Sat.bind (.ite (fun _ => .emit fun _ h _ => ⟨trivial, h⟩)
    fun _ => .pure fun _ => id) fun _ => setState_notSuspended fun hstate => by simp [hstate] at hmem

theorem pollInPass_notSuspended {A : Event → Prop} :
    Maintains A (fun _ => True) (NotSuspended name) pollInPass := by
  have hname : ∀ other, Maintains A (fun _ => True) (NotSuspended name) (pollName other) :=
    fun _ => pollName_maintains fun vm => (bearsEnd_notSuspended.pollVm vm).pre fun _ hw => hw.1
  have hreap : Maintains A (fun _ => True) (NotSuspended name) reap :=
    Sat.look.bind fun _ => (Sat.each hname).bind fun _ => Sat.look
  exact hreap.bind fun _ => .ite (fun _ => .fail fun _ => id) fun _ => .pure fun _ => id

/-- A `poll` that is due inside a pass begins another one. -/
theorem agrees_poll (depth : Nat) : Agrees 1 (fun _ => True) (poll (depth + 1)) pollInPass := by
  -- A pass begins by saying so, whatever the depth.
  have hpass : Agrees 1 (fun _ => True) (applyIdlePolicies depth) (fail .stuck) := by
    intro w _
    refine .inr ⟨rfl, ?_⟩
    cases depth with
    | zero => exact .inr rfl
    | succ depth =>
      rw [applyIdlePolicies_eq]
      exact .inl (by simp [Bind.bind, Traced.emit])
  -- So does what `poll` does when it is due.
  have hbegins : Agrees 1 (fun _ => True)
      (do
        modify fun w => { w with lastPolicyPoll := w.clock }
        let _ ← attemptNested (applyIdlePolicies depth)
        return : Call Unit)
      (do
        modify fun w => { w with lastPolicyPoll := w.clock }
        let _ ← attemptNested (fail .stuck : Call Unit)
        return) :=
    (Follows.refl _).bind fun _ => Follows.bind (Q := fun _ _ => True)
      (hpass.attempt rfl fun _ _ => trivial) fun _ => .refl _
  rw [poll_eq]
  refine (Follows.refl reap).bind fun elapsed => .ite (fun _ w hw => ?_) fun _ => .refl _
  exact .inr ⟨rfl, hbegins.shows hw rfl⟩

theorem agrees_suspend (depth : Nat) :
    Agrees 1 (fun _ => True) (suspend (depth + 2) name) (suspendInPass name) := by
  rw [suspend_succ]
  exact (agrees_poll depth).bind fun _ => .refl _

/-- An instance that is not suspended is launched, or nothing is done. -/
theorem agrees_start (depth : Nat) :
    Agrees 1 (NotSuspended name) (start (depth + 2) name .run) (startInPass name) := by
  rw [start_succ]
  have hpoll : Agrees 1 (NotSuspended name) (poll (depth + 1)) pollInPass :=
    (agrees_poll depth).pre fun _ _ => trivial
  have hqmp : Maintains (fun _ => True) (fun _ => True) (NotSuspended name)
      (attempt (qmpStatus name)) := (quiets_qmpStatus.maintains undisturbed_notSuspended).attempt
  refine (hpoll.strengthen pollInPass_notSuspended).bind fun _ =>
    (Follows.same hqmp).bind fun status => ?_
  cases status with
  | error e => exact .refl _
  | ok status =>
    refine (Follows.same (load_sat (G := fun _ => True))).bind fun manifest => ?_
    by_cases hstate : manifest.state = .suspended
    · exact .of_false fun w hw => hw.1 manifest hw.2 hstate
    · rw [if_neg fun hresumed => hstate hresumed.2.1]
      exact .refl _

theorem agrees_resume (depth : Nat) :
    Agrees 1 (fun _ => True) (resume (depth + 3) name) (resumeInPass name) := by
  rw [resume_succ]
  refine (agrees_poll (depth + 1)).bind fun _ => (Follows.same (load_sat (G := fun _ => True))).bind
    fun manifest => .ite (fun hstate => ?_) fun _ => .refl _
  refine (agrees_start depth).pre fun w hw loaded hloaded => ?_
  rw [hw.2, Except.ok.injEq] at hloaded
  rw [← hloaded, hstate]
  decide

theorem agrees_hibernate (depth : Nat) :
    Agrees 1 (fun _ => True) (hibernate (depth + 4) name) (hibernateInPass name) := by
  rw [hibernate_succ]
  refine (agrees_poll (depth + 2)).bind fun _ => (Follows.refl (load name)).bind fun manifest => ?_
  cases manifest.state
  case suspended => exact (agrees_resume depth).bind fun _ => .refl _
  all_goals exact .refl _

theorem agrees_idlePolicy (depth : Nat) (now : UInt64) (memoryPressure : Bool)
    (manifest : InstanceManifest) :
    Agrees 1 (fun _ => True)
      (idlePolicy (suspend (depth + 4)) (hibernate (depth + 4)) now memoryPressure manifest)
      (idlePolicy suspendInPass hibernateInPass now memoryPressure manifest) := by
  have hnested : ∀ {α : Type} {call inPass : Call α}, Agrees 1 (fun _ => True) call inPass →
      Agrees 1 (fun _ => True) (do let _ ← attemptNested call; return : Call Unit)
        (do let _ ← attemptNested inPass; return) :=
    fun h => Follows.bind (Q := fun _ _ => True) (h.attempt rfl fun _ _ => trivial) fun _ => .refl _
  refine .ite (fun _ => .refl _) fun _ => (Follows.refl _).bind fun activity => ?_
  cases manifest.state
  case running =>
    exact (Follows.refl _).bind fun _ => .ite (fun _ => hnested (agrees_suspend (depth + 2)))
      fun _ => .refl _
  case suspended =>
    exact .ite (fun _ => hnested (agrees_hibernate depth)) fun _ => .refl _
  all_goals exact .refl _

/-- `poll` does what it would do without a way back, unless it begins a second pass. -/
theorem agrees_pollOnce (depth : Nat) : Agrees 2 (fun _ => True) (poll (depth + 6)) pollOnce := by
  have hsweep : Agrees 1 (fun _ => True) (sweep (suspend (depth + 4)) (hibernate (depth + 4)))
      (sweep suspendInPass hibernateInPass) :=
    (Follows.refl _).bind fun answer => (Follows.refl _).bind fun _ => (Follows.refl _).bind fun _ =>
      .each fun manifest => agrees_idlePolicy depth _ _ manifest
  have hpass : Agrees 2 (fun _ => True) (applyIdlePolicies (depth + 5))
      (do
        emit fun _ => .policyPass
        sweep suspendInPass hibernateInPass) := hsweep.emit
  rw [poll_eq]
  refine (Follows.refl reap).bind fun elapsed => .ite (fun _ => ?_) fun _ => .refl _
  exact (Follows.refl _).bind fun _ => Follows.bind (Q := fun _ _ => True)
    (hpass.attempt rfl fun _ _ => trivial) fun _ => .refl _

end Agreement

/-! ## What the pass without a way back reports -/

/-- The call begins no pass. -/
abbrev Silent {α : Type} (call : Call α) : Prop :=
  Maintains (fun _ => True) (· ≠ .policyPass) (fun _ => True) call

section Silence

variable {name : Str}

theorem undisturbed_true : Undisturbed fun _ => True := fun _ _ _ => id

theorem Quiets.silent {α : Type} {call : Call α} (h : Quiets call) : Silent call :=
  h.maintains undisturbed_true

theorem setState_silent (state : InstanceState) : Silent (setState name state) :=
  setState_sat (fun _ _ _ => id) fun _ _ _ _ _ _ => trivial

theorem tolerant_silent (name : Str) : Tolerant (fun _ => True) (· ≠ .policyPass) (fun _ => True)
    (fun _ _ => True) name where
  quiet := undisturbed_true
  quietNoted _ := undisturbed_true
  unlinked _ _ := nofun
  noted _ := id
  unmanageNoted _ _ := id
  forget _ _ := id
  recordEnd _ state _ _ := Sat.bind (.ite (fun _ => .emit fun _ _ _ => ⟨nofun, trivial⟩)
    fun _ => .pure fun _ => id) fun _ => setState_silent state
  setState state _ := setState_silent state
  setBalloonTarget _ := setBalloonTarget_maintains undisturbed_true (fun _ _ => id) (fun _ _ => id)
    fun _ _ => id
  presumedGone _ _ := nofun
  unmanage _ := id

theorem launch_silent : Silent (launch name .run) :=
  (tolerant_silent name).launch undisturbed_true (fun _ => id) (fun _ => nofun)
    (fun dir => prepareLaunch_maintains undisturbed_true (fun _ _ => nofun) dir)
    fun _ => spawnQemu_sat (Q := fun _ => True) undisturbed_true fun _ _ _ =>
      ⟨nofun, fun _ => trivial⟩

theorem hibernateFrom_silent (state : InstanceState) : Silent (hibernateFrom name state) :=
  hibernateFrom_maintains undisturbed_true (fun _ => id) fun _ _ => id

theorem reap_silent : Silent reap :=
  Sat.look.bind fun _ => (Sat.each fun name => pollName_maintains fun vm =>
    ((tolerant_silent name).pollVm vm).pre fun _ hw => hw.1).bind fun _ => Sat.look

theorem pollInPass_silent : Silent pollInPass :=
  reap_silent.bind fun _ => .ite (fun _ => .fail fun _ => id) fun _ => .pure fun _ => id

theorem suspendInPass_silent : Silent (suspendInPass name) :=
  pollInPass_silent.bind fun _ => quiets_load.silent.bind fun manifest =>
    (tolerant_silent name).suspendFrom manifest.state

theorem resumeInPass_silent : Silent (resumeInPass name) := by
  have hstart : Silent (startInPass name) := by
    refine pollInPass_silent.bind fun _ => (quiets_qmpStatus.silent).attempt.bind fun status => ?_
    cases status with
    | error e => exact launch_silent
    | ok status => exact quiets_load.silent.bind fun _ => .pure fun _ => id
  exact pollInPass_silent.bind fun _ => quiets_load.silent.bind fun manifest =>
    .ite (fun _ => hstart) fun _ => (tolerant_silent name).resumeFrom manifest

theorem hibernateInPass_silent : Silent (hibernateInPass name) := by
  refine pollInPass_silent.bind fun _ => quiets_load.silent.bind fun manifest => ?_
  cases manifest.state
  case hibernated => exact .pure fun _ => id
  case suspended =>
    exact resumeInPass_silent.bind fun _ => quiets_load.silent.bind fun manifest =>
      hibernateFrom_silent manifest.state
  all_goals exact hibernateFrom_silent _

theorem sweep_silent : Silent (sweep suspendInPass hibernateInPass) :=
  quiets_ask.silent.bind fun _ => Sat.look.bind fun _ => (quiets_ofCore _).silent.bind fun _ =>
    .each fun manifest => idlePolicy_maintains
      (fun name => (tolerant_silent name).setBalloonTarget) (fun _ => suspendInPass_silent) _ _
      manifest fun _ => hibernateInPass_silent

theorem pollOnce_atMost : AtMost Event.policyPass 1 pollOnce := by
  have hpass : AtMost Event.policyPass 1 (do
      emit fun _ => .policyPass
      sweep suspendInPass hibernateInPass : Call Unit) :=
    AtMost.bind (m := 1) (fun _ => by simp [Traced.emit]) fun _ => .of_sat sweep_silent
  have hreturn : AtMost Event.policyPass 0 (pure () : Call Unit) := fun _ => Nat.le_refl 0
  refine AtMost.bind (m := 0) (n := 1) (.of_sat reap_silent) fun elapsed => ?_
  split
  · exact AtMost.bind (m := 0) (n := 1) (fun _ => Nat.le_refl 0) fun _ =>
      AtMost.bind (n := 0) hpass.attempt fun _ => hreturn
  · exact hreturn.mono (Nat.zero_le 1)

end Silence

/-! ## `poll` itself never fails -/

section Succeeds

variable {name : Str}

theorem succeeds_ask : Succeeds ask :=
  (Succeeds.read _).bind fun _ => (Succeeds.modify _).bind fun _ => .pure _

theorem succeeds_tryWait (pid : Nat) : Succeeds (tryWait pid) := succeeds_ask.bind fun _ => .read _

theorem succeeds_anyExited (pids : List Nat) : Succeeds (anyExited pids) := by
  induction pids with
  | nil => exact .pure false
  | cons pid pids ih => exact (succeeds_tryWait pid).bind fun _ => .ite (.pure _) ih

theorem succeeds_endQemu (hibernateRequested : Bool) (vm : ManagedVm) :
    Succeeds (endQemu hibernateRequested vm) := by
  have hwait : ∀ rounds deadline, Succeeds (waitUntil deadline vm.qemu rounds) := by
    intro rounds deadline
    induction rounds with
    | zero => exact .pure none
    | succ rounds ih =>
      exact (Succeeds.read _).bind fun _ => .ite (.pure _) ((succeeds_tryWait vm.qemu).bind
        fun _ => .ite (.pure _) ((Succeeds.modify _).bind fun _ => ih))
  have hnatural : Succeeds (naturalQemuExit hibernateRequested vm) :=
    .ite ((Succeeds.read _).bind fun _ => hwait _ _) (.pure none)
  refine hnatural.bind fun exit => ?_
  cases exit with
  | some status => exact .pure _
  | none => exact (Succeeds.modify _).bind fun _ => .pure _

theorem succeeds_stopHelpers (pids : List Nat) : Succeeds (stopHelpers pids) :=
  .each fun pid => (succeeds_tryWait pid).bind fun _ => .ite (.modify _) (.pure _)

theorem succeeds_removeFile (file : RunFile) : Succeeds (removeFile name file) :=
  (Succeeds.read _).bind fun _ => .ite (succeeds_ask.bind fun _ => .ite (.modify _) (.pure _))
    (.pure _)

theorem succeeds_clearRuntime : Succeeds (clearRuntime name) := by
  have hcleanup : Succeeds (cleanupStoppedRuntimeArtifacts name) := by
    refine (Succeeds.read _).bind fun dir => ?_
    cases dir with
    | error e => exact .pure _
    | ok dir =>
      exact (succeeds_removeFile _).bind fun _ => (succeeds_removeFile _).bind fun _ =>
        (Succeeds.attempt fun _ => rfl).bind fun _ => .pure _
  have hoverlay : Succeeds (removeEphemeralOverlay name) := by
    refine (Succeeds.read _).bind fun manifest => ?_
    cases manifest with
    | error e => exact .pure _
    | ok manifest => exact .ite (succeeds_removeFile _) (.pure _)
  exact (succeeds_removeFile _).bind fun _ => (succeeds_removeFile _).bind fun _ =>
    hcleanup.bind fun _ => hoverlay

theorem succeeds_pollVm (vm : ManagedVm) : Succeeds (pollVm name vm) := by
  have hretire : ∀ state, Succeeds (do
      stopHelpers vm.helpers
      clearRuntime name
      let _ ← attempt (recordEnd name state)
      return : Call Unit) :=
    fun _ => (succeeds_stopHelpers _).bind fun _ => succeeds_clearRuntime.bind fun _ =>
      (Succeeds.attempt fun _ => rfl).bind fun _ => .pure _
  refine (succeeds_tryWait vm.qemu).bind fun exit => ?_
  cases exit with
  | some status =>
    exact (Succeeds.read _).bind fun _ => (Succeeds.read _).bind fun _ =>
      (Succeeds.modify _).bind fun _ => hretire _
  | none =>
    refine (succeeds_anyExited _).bind fun _ => .ite ?_ (.pure _)
    exact (Succeeds.read _).bind fun _ => (Succeeds.read _).bind fun _ =>
      (Succeeds.modify _).bind fun _ => (succeeds_endQemu _ vm).bind fun _ => hretire _

theorem succeeds_reap : Succeeds reap := by
  refine (Succeeds.read _).bind fun names => (Succeeds.each fun name => ?_).bind fun _ => .read _
  refine (Succeeds.read _).bind fun managed => ?_
  cases managed with
  | none => exact .pure _
  | some vm => exact succeeds_pollVm vm

theorem nested_eq_ok {pass : Call Unit} {w : World}
    (h : ((do let _ ← attemptNested pass; return : Call Unit) w).result ≠ .error .stuck) :
    ((do let _ ← attemptNested pass; return : Call Unit) w).result = .ok () := by
  cases hpass : (pass w).result with
  | ok _ =>
    rw [attemptNested, bind_attempt_of_ok hpass]
    rfl
  | error e =>
    by_cases hstuck : e = .stuck
    · simp only [attemptNested, Bind.bind, Traced.attempt, hpass, hstuck, decide_true, if_true]
        at h
      exact absurd rfl h
    · rw [attemptNested, bind_attempt_of_error hpass (decide_eq_false hstuck)]
      rfl

/-- The only way for `poll` not to return is to be stuck. -/
theorem pollThen_eq_ok {pass : Call Unit} {w : World}
    (h : (pollThen pass w).result ≠ .error .stuck) : (pollThen pass w).result = .ok () := by
  obtain ⟨elapsed, helapsed⟩ := succeeds_reap w
  rw [pollThen, bind_of_ok helapsed] at h ⊢
  dsimp only at h ⊢
  by_cases hdue : policyPollInterval ≤ elapsed
  · rw [if_pos hdue, bind_of_ok rfl] at h ⊢
    exact nested_eq_ok h
  · rw [if_neg hdue]
    rfl

end Succeeds

/-! ## Every call of `poll` -/

/-- One call of `poll` returns, however deep its calls may nest, and makes one pass at most. -/
def OnePass (w : World) : Prop :=
  ∃ least, ∀ depth, least ≤ depth →
    (poll depth w).result = .ok () ∧ (poll depth w).events.count .policyPass ≤ 1

theorem onePass_of_prompt {w : World} (h : Prompt w) : OnePass w := by
  refine ⟨6, fun depth hdepth => ?_⟩
  obtain ⟨extra, rfl⟩ := Nat.exists_eq_add_of_le' hdepth
  rw [(agrees_pollOnce extra).eq trivial h]
  exact ⟨pollThen_eq_ok h, pollOnce_atMost w⟩

theorem prompt_of_onePass {w : World} (h : OnePass w) : Prompt w := by
  intro hstuck
  obtain ⟨least, hleast⟩ := h
  obtain ⟨hok, hcount⟩ := hleast (least + 6) (Nat.le_add_right least 6)
  rcases (agrees_pollOnce least).shows trivial hstuck with hsecond | hstuck
  · omega
  · rw [hstuck] at hok
    cases hok

/-- One call of `poll` terminates and makes one pass over the idle policies at most, if and only if
    less than a second has passed since the pass began whenever it comes to an operation that
    polls again. -/
theorem poll_makes_one_pass_iff (w : World) : OnePass w ↔ Prompt w :=
  ⟨prompt_of_onePass, onePass_of_prompt⟩

/-- An idle instance is running, and every call takes a second and fails. -/
def slowAnswer (_ : Nat) : Answer where
  elapsed := 1000
  seconds := 1800000000
  ok := false
  fs := preparedFs
  proc := { entries := none, commandLine := fun _ => .missing }

instance : DecidablePred Prompt := fun _ => inferInstanceAs (Decidable (_ ≠ _))

/-- The demo instance is to be suspended, and each attempt begins the pass anew. -/
theorem slow_pass_begins_anew :
    ¬ OnePass { demoWorldOf { demoManifest [] with state := .running } slowAnswer with
      clock := 1000 } := by
  intro h
  exact absurd (prompt_of_onePass h) (by decide +kernel)

end Lsw.Daemon
