import Lsw.Daemon.Calm

/-!
# What the Operations Keep

The operations of the supervisor are made of a few blocks, and most of them run a `poll` first,
which may run the idle policies and with them other operations.  What the blocks keep, every
operation keeps, however deep the calls nest.

An assertion that looks at little is kept by most blocks for the same reason.  `Tolerant` says
what it has to bear: a state that is set, a child that is forgotten, an end that is recorded.
-/

namespace Lsw.Daemon

open Lsw.Lib Lsw.Core Traced

/-! ## Rules -/

/-- As long as its events meet `A`, the call keeps `P`, and its events meet `G`. -/
abbrev Maintains {α : Type} (A G : Event → Prop) (P : World → Prop) (call : Call α) : Prop :=
  Sat A G P call (fun _ => P) P

/-- Assertions that quiet calls keep. -/
def Undisturbed (P : World → Prop) : Prop := ∀ w w', Quiet w w' → P w → P w'

/-- The manifest is the one that is stored for the instance. -/
def With (P : World → Prop) (name : Str) (manifest : InstanceManifest) (w : World) : Prop :=
  P w ∧ w.store.load name = .ok manifest

section Rules

variable {A G : Event → Prop} {P : World → Prop} {α : Type} {call : Call α} {name : Str}

theorem Quiets.maintains (h : Quiets call) (hP : Undisturbed P) : Maintains A G P call :=
  Within.sat h hP

theorem Maintains.attempt (h : Maintains A G P call) : Maintains A G P (attempt call) :=
  Sat.attempt h (fun _ _ => id) (by simp)

theorem Maintains.attemptNested (h : Maintains A G P call) :
    Maintains A G P (attemptNested call) := Sat.attempt h (fun _ _ => id) fun _ _ _ => id

theorem Maintains.done (h : Maintains A G P call) : Maintains A G P (do let _ ← call; return) :=
  Sat.bind h fun _ => .pure fun _ => id

theorem With.left {manifest : InstanceManifest} {w : World} (h : With P name manifest w) : P w :=
  h.1

theorem undisturbed_with {manifest : InstanceManifest} (hP : Undisturbed P) :
    Undisturbed (With P name manifest) :=
  fun w w' h hw => ⟨hP w w' h hw.1, by rw [h.store]; exact hw.2⟩

/-- What the environment answers at every time, it answers now. -/
theorem ask_sat {Q : Answer → Prop} {E : World → Prop} (hP : Undisturbed P)
    (hQ : ∀ w, P w → Q (w.env w.tick)) :
    Sat A G P ask (fun answer w => P w ∧ Q answer) E := by
  refine Sat.bind (Q := fun answer w => P w ∧ Q answer)
    (Sat.read fun w hw => ⟨hw, hQ w hw⟩) fun answer => ?_
  exact Sat.bind (Q := fun _ w => P w ∧ Q answer)
    (Sat.modify fun w hw => ⟨hP w _ (.pass w answer) hw.1, hw.2⟩) fun _ => .pure fun _ => id

theorem load_sat : Sat A G P (load name) (fun manifest => With P name manifest) P := by
  refine Sat.bind (Q := fun manifest w => P w ∧ w.store.load name = manifest)
    (Sat.read fun _ h => ⟨h, rfl⟩) fun manifest => ?_
  cases manifest with
  | ok manifest => exact .pure fun _ => id
  | error e => exact .fail fun _ h => h.1

/-- `setState` fails and has written nothing, or it has rewritten the manifest. -/
theorem setState_sat {Q E : World → Prop} {state : InstanceState}
    (hE : ∀ w w', Quiet w w' → P w → E w')
    (hset : ∀ w manifest next, P w → w.store.load name = .ok manifest →
      StateStore.update (manifest.withState state (w.env w.tick).seconds) w.store =
        (.ok (), next) → Q { w.pass (w.env w.tick) with store := next }) :
    Sat A G P (setState name state) (fun _ => Q) E := by
  intro w hw _
  rcases setState_cases name state w with
    ⟨e, w', hrun, hsame⟩ | ⟨manifest, next, hload, hupdate, hrun⟩
  · have hquiet : Quiet w w' := by
      rcases hsame with rfl | rfl
      · exact Std.Refl.refl w'
      · exact .pass w _
    rw [hrun]
    exact ⟨by simp, hE w w' hquiet hw⟩
  · rw [hrun]
    exact ⟨by simp, hset w manifest next hw hload hupdate⟩

/-- An assertion that does not look at the balloon. -/
theorem setBalloonTarget_maintains {memoryMib : UInt32} (hP : Undisturbed P)
    (hballoon : ∀ w pid, P w → P (w.setBalloon pid memoryMib))
    (hcache : ∀ w targets, P w → P { w with balloonTarget := targets })
    (hreport : ∀ w reports, P w → P { w with reports := reports }) :
    Maintains A G P (setBalloonTarget name memoryMib) := by
  have hexecute : ∀ pid, Maintains A G P (executeBalloon pid memoryMib) := fun pid =>
    (quiets_ask.maintains hP).bind fun _ => Sat.look.bind fun _ =>
      .ite (fun _ => .modify fun w => hballoon w pid) fun _ =>
        .ite (fun _ => Sat.bind (Sat.modify fun w => hballoon w pid) fun _ => .fail fun _ => id)
          fun _ => .fail fun _ => id
  have hsend : Maintains A G P (sendBalloonTarget name memoryMib) :=
    Sat.bind (.ofExcept (fun _ _ _ => id) fun _ => id) fun _ =>
      (quiets_connect.maintains hP).bind fun qmp => (hexecute qmp).bind fun _ =>
        (quiets_disk.maintains hP).bind fun _ => Sat.bind (.modify fun w => hcache w _) fun _ =>
          (quiets_disk.maintains hP).bind fun _ => .modify fun w => hcache w _
  have hdone : Maintains A G P (reportBalloonTarget name memoryMib) :=
    .modify fun w => hreport w _
  exact (quiets_instanceDir.maintains hP).bind fun _ => Sat.look.bind fun _ =>
    .ite (fun _ => hdone) fun _ => hsend.bind fun _ => hdone

/-- An assertion that does not look at the request to hibernate. -/
theorem hibernateFrom_maintains {state : InstanceState} (hP : Undisturbed P)
    (hmarker : ∀ w, P w → P (w.setFile name .hibernateRequested .file))
    (hguest : ∀ w guests, P w → P { w with guestHibernating := guests }) :
    Maintains A G P (hibernateFrom name state) := by
  have hwrite : Maintains A G P (writeMarker name .hibernateRequested) := by
    refine ((quiets_diskOf _).maintains hP).bind fun _ => Sat.bind (Q := fun _ => P)
      (Sat.modify fun w hw => ?_) fun _ => (quiets_diskOf _).maintains hP
    split
    · exact hmarker w hw
    · exact hw
  have hrequest : Maintains A G P (requestGuestHibernate name) := by
    refine (quiets_outside.maintains hP).attempt.bind fun result => ?_
    cases result with
    | ok _ => exact .modify fun w => hguest w _
    | error e =>
      exact ((quiets_removeFile .hibernateRequested).maintains hP).bind fun _ => .fail fun _ => id
  exact .ite (fun _ => .fail fun _ => id) fun _ => (quiets_instanceDir.maintains hP).bind fun _ =>
    hwrite.bind fun _ => Sat.look.bind fun _ => ((quiets_ofCore _).maintains hP).bind fun _ =>
      hrequest.bind fun _ => .pure fun _ => id

end Rules

/-! ## Nested calls -/

/-- An idle policy hibernates the instance in time. -/
def HibernatesWhenIdle (manifest : InstanceManifest) : Prop :=
  manifest.idlePolicy ≠ .off ∧ 0 < manifest.hibernateTimeoutSeconds

/-- What the blocks of the operations keep.  An operation has loaded the manifest that it hands
    on to a block.  Only instances with `H` are hibernated on the way. -/
structure BlocksMaintain (A G : Event → Prop) (P : World → Prop)
    (H : Str → Prop := fun _ => True) : Prop where
  quiet : Undisturbed P
  policyPass : G .policyPass
  listed : ∀ w manifests, P w → w.store.list = .ok manifests → ∀ manifest ∈ manifests,
    HibernatesWhenIdle manifest → H manifest.spec.name
  setBalloonTarget : ∀ name memoryMib, Maintains A G P (setBalloonTarget name memoryMib)
  pollVm : ∀ name vm, Sat A G (fun w => P w ∧ w.managed.lookup name = some vm) (pollVm name vm)
    (fun _ => P) P
  suspendFrom : ∀ name manifest, Sat A G (With P name manifest) (suspendFrom name manifest.state)
    (fun _ => P) P
  resumeFrom : ∀ name manifest, Sat A G (With P name manifest) (resumeFrom name manifest)
    (fun _ => P) P
  hibernateFrom : ∀ name manifest, H name → Sat A G (With P name manifest)
    (hibernateFrom name manifest.state) (fun _ => P) P
  launch : ∀ name, Maintains A G P (launch name .run)

/-- The operations that call one another, up to a depth. -/
structure NestedMaintain (A G : Event → Prop) (P : World → Prop) (H : Str → Prop)
    (depth : Nat) : Prop where
  poll : Maintains A G P (poll depth)
  applyIdlePolicies : Maintains A G P (applyIdlePolicies depth)
  suspend : ∀ name, Maintains A G P (suspend depth name)
  hibernate : ∀ name, H name → Maintains A G P (hibernate depth name)
  resume : ∀ name, Maintains A G P (resume depth name)
  start : ∀ name, Maintains A G P (start depth name .run)

section Nested

variable {A G : Event → Prop} {P : World → Prop} {H : Str → Prop}

/-- The policy of an idle instance maintains what its operations maintain. -/
theorem idlePolicy_maintains
    (hballoon : ∀ name memoryMib, Maintains A G P (setBalloonTarget name memoryMib))
    {suspend hibernate : Str → Call (List Message)}
    (hsuspend : ∀ name, Maintains A G P (suspend name)) (now : UInt64)
    (memoryPressure : Bool) (manifest : InstanceManifest)
    (hhibernate : HibernatesWhenIdle manifest → Maintains A G P (hibernate manifest.spec.name)) :
    Maintains A G P (idlePolicy suspend hibernate now memoryPressure manifest) := by
  have hidle : ∀ seconds, Maintains A G P (idleBalloon manifest memoryPressure seconds) :=
    fun _ => .ite (fun _ => (hballoon _ _).attempt.done) fun _ => .pure fun _ => id
  refine .ite (fun _ => .pure fun _ => id) fun hpolicy => Sat.look.bind fun _ => ?_
  split
  · exact (hidle _).bind fun _ => .ite (fun _ => (hsuspend _).attemptNested.done)
      fun _ => .pure fun _ => id
  · exact .ite (fun hdue => (hhibernate ⟨hpolicy, hdue.1⟩).attemptNested.done)
      fun _ => .pure fun _ => id
  · exact .pure fun _ => id

/-- An operation that first finds out whether QMP answers. -/
theorem start_maintains (hP : Undisturbed P) {depth : Nat} {name : Str} {phase : LaunchPhase}
    (hpoll : Maintains A G P (poll depth)) (hresume : Maintains A G P (resume depth name))
    (hlaunch : Maintains A G P (launch name phase)) :
    Maintains A G P (start (depth + 1) name phase) := by
  refine hpoll.bind fun _ => (quiets_qmpStatus.maintains hP).attempt.bind fun status => ?_
  cases status with
  | error e => exact hlaunch
  | ok status =>
    exact (quiets_load.maintains hP).bind fun _ => .ite (fun _ => hresume) fun _ => .pure fun _ => id

theorem pollName_maintains {name : Str}
    (h : ∀ vm, Sat A G (fun w => P w ∧ w.managed.lookup name = some vm) (pollVm name vm)
      (fun _ => P) P) : Maintains A G P (pollName name) := by
  refine Sat.bind (Q := fun managed w => P w ∧ w.managed.lookup name = managed)
    (Sat.read fun _ hw => ⟨hw, rfl⟩) fun managed => ?_
  cases managed with
  | none => exact .pure fun _ hw => hw.1
  | some vm => exact h vm

/-- By induction on the depth: each operation calls only operations of smaller depth. -/
theorem BlocksMaintain.nested (h : BlocksMaintain A G P H) (depth : Nat) :
    NestedMaintain A G P H depth := by
  induction depth with
  | zero =>
    have hstuck : ∀ {α : Type}, Maintains A G P (fail .stuck : Call α) := .fail fun _ => id
    exact ⟨hstuck, hstuck, fun _ => hstuck, fun _ _ => hstuck, fun _ => hstuck, fun _ => hstuck⟩
  | succ depth ih =>
    refine ⟨?_, ?_, fun name => ?_, fun name hname => ?_, fun name => ?_, fun name => ?_⟩
    · have hname : ∀ name, Maintains A G P (pollName name) :=
        fun name => pollName_maintains (h.pollVm name)
      have hclock : Quiets (modify fun w : World => { w with lastPolicyPoll := w.clock }) :=
        .modify fun _ => .of_eq rfl rfl rfl rfl rfl rfl rfl rfl
      exact Sat.look.bind fun _ => (Sat.each hname).bind fun _ => Sat.look.bind fun _ =>
        .ite (fun _ => (hclock.maintains h.quiet).bind fun _ =>
          ih.applyIdlePolicies.attemptNested.done) fun _ => .pure fun _ => id
    · have hpass : Maintains A G P (emit fun _ => .policyPass) :=
        .emit fun _ hw _ => ⟨h.policyPass, hw⟩
      refine hpass.bind fun _ => (quiets_ask.maintains h.quiet).bind fun answer => ?_
      -- What is listed decides which instances may be hibernated.
      refine Sat.bind (Q := fun listed w => P w ∧ w.store.list = listed)
        (Sat.read fun _ hw => ⟨hw, rfl⟩) fun listed => ?_
      cases listed with
      | error e =>
        exact Sat.bind (Q := fun _ _ => False) (.fail fun _ hw => hw.1) fun _ =>
          .of_false fun _ => id
      | ok manifests =>
        intro w hw
        refine Sat.each_mem (fun manifest hmem => ?_) w hw.1
        exact idlePolicy_maintains h.setBalloonTarget ih.suspend _ _ manifest fun hidle =>
          ih.hibernate _ (h.listed w manifests hw.1 hw.2 manifest hmem hidle)
    · exact ih.poll.bind fun _ => load_sat.bind fun manifest => h.suspendFrom name manifest
    · refine ih.poll.bind fun _ => load_sat.bind fun manifest => ?_
      have hfrom := h.hibernateFrom name manifest hname
      have hresumed : Maintains A G P (do
          let _ ← resume depth name
          let manifest ← load name
          Daemon.hibernateFrom name manifest.state) :=
        (ih.resume name).bind fun _ => load_sat.bind fun manifest =>
          h.hibernateFrom name manifest hname
      cases hstate : manifest.state <;> rw [hstate] at hfrom
      case hibernated => exact .pure fun _ => With.left
      case suspended => exact hresumed.pre fun _ => With.left
      all_goals exact hfrom
    · exact ih.poll.bind fun _ => load_sat.bind fun manifest =>
        .ite (fun _ => (ih.start name).pre fun _ => With.left) fun _ => h.resumeFrom name manifest
    · exact start_maintains h.quiet ih.poll (ih.resume name) (h.launch name)

end Nested

/-! ## Assertions that bear a change -/

/-- What is left behind by an ended QEMU may be removed. -/
theorem cleanupRuntimeSockets_maintains {A G : Event → Prop} {P : World → Prop} {name : Str}
    (hP : Undisturbed P) (hunlinked : ∀ file live, G (.unlinked name file live))
    (dir : PathBuf) : Maintains A G P (cleanupRuntimeSockets dir name) := by
  refine .each fun file => Sat.look.bind fun entry => ?_
  cases entry with
  | absent => exact .pure fun _ => id
  | file => exact .fail fun _ => id
  | other => exact .fail fun _ => id
  | socket =>
    exact (quiets_disk.maintains hP).bind fun _ =>
      Sat.bind (Sat.emit fun _ hw _ => ⟨hunlinked _ _, hw⟩) fun _ =>
        .modify fun w hw => hP w _ (.unlink w name file) hw

theorem cleanupStoppedRuntimeArtifacts_maintains {A G : Event → Prop} {P : World → Prop}
    {name : Str} (hP : Undisturbed P) (hunlinked : ∀ file live, G (.unlinked name file live)) :
    Maintains A G P (cleanupStoppedRuntimeArtifacts name) := by
  refine Sat.look.bind fun dir => ?_
  cases dir with
  | error e => exact .pure fun _ => id
  | ok dir =>
    exact ((quiets_removeFile .qemuPid).maintains hP).bind fun _ =>
      ((quiets_removeFile .installationViewer).maintains hP).bind fun _ =>
        (cleanupRuntimeSockets_maintains hP hunlinked dir).attempt.done

theorem clearRuntime_maintains {A G : Event → Prop} {P : World → Prop} {name : Str}
    (hP : Undisturbed P) (hunlinked : ∀ file live, G (.unlinked name file live)) :
    Maintains A G P (clearRuntime name) :=
  ((quiets_removeFile .shutdownRequested).maintains hP).bind fun _ =>
    ((quiets_removeFile .hibernateRequested).maintains hP).bind fun _ =>
      (cleanupStoppedRuntimeArtifacts_maintains hP hunlinked).bind fun _ =>
        quiets_removeEphemeralOverlay.maintains hP

theorem prepareLaunch_maintains {A G : Event → Prop} {P : World → Prop} {name : Str}
    (hP : Undisturbed P) (hunlinked : ∀ file live, G (.unlinked name file live))
    (dir : PathBuf) : Maintains A G P (prepareLaunch dir name) :=
  (quiets_outside.maintains hP).bind fun _ =>
    (cleanupStoppedRuntimeArtifacts_maintains hP hunlinked).bind fun _ =>
      (cleanupRuntimeSockets_maintains hP hunlinked dir).bind fun _ =>
        ((quiets_removeFile .shutdownRequested).maintains hP).bind fun _ =>
          (quiets_removeFile .hibernateRequested).maintains hP

/-- What an assertion bears when the end of a QEMU is recorded.  `R requested` is what is known
    after the hibernate marker was looked at. -/
structure BearsEnd (A G : Event → Prop) (P : World → Prop) (R : Bool → World → Prop)
    (name : Str) : Prop where
  quiet : Undisturbed P
  quietNoted : ∀ requested, Undisturbed (R requested)
  unlinked : ∀ file live, G (.unlinked name file live)
  noted : ∀ w, P w → R (decide (w.files name .hibernateRequested = .file)) w
  unmanageNoted : ∀ requested w, R requested w → R requested (w.unmanage name)
  forget : ∀ requested w, R requested w → P w
  recordEnd : ∀ requested state, state ∈ [.stopped, .failed, .hibernated] →
    (state = .hibernated → requested = true) →
    Sat A G (R requested) (recordEnd name state) (fun _ => P) P

/-- What an assertion bears when an operation works on the instance. -/
structure Tolerant (A G : Event → Prop) (P : World → Prop) (R : Bool → World → Prop)
    (name : Str) : Prop extends BearsEnd A G P R name where
  setState : ∀ state, state ≠ .configured → Maintains A G P (setState name state)
  setBalloonTarget : ∀ memoryMib, Maintains A G P (setBalloonTarget name memoryMib)
  presumedGone : ∀ why live, G (.presumedGone name why live)
  unmanage : ∀ w, P w → P (w.unmanage name)

/-- The states after an exit. -/
theorem stateAfterQemuExit_mem (shutdown hibernate success : Bool) :
    stateAfterQemuExit shutdown hibernate success ∈ [.stopped, .failed, .hibernated] := by
  cases shutdown <;> cases hibernate <;> cases success <;> decide

theorem stateAfterQemuExit_eq_hibernated {shutdown hibernate success : Bool}
    (h : stateAfterQemuExit shutdown hibernate success = .hibernated) : hibernate = true := by
  cases hibernate with
  | true => rfl
  | false =>
    revert h
    cases shutdown <;> cases success <;> decide

namespace BearsEnd

variable {A G : Event → Prop} {P : World → Prop} {R : Bool → World → Prop} {name : Str}

theorem fileExists_noted (h : BearsEnd A G P R name) :
    Sat A G P (fileExists name .hibernateRequested) (fun requested => R requested) P :=
  .read h.noted

/-- What `poll` does once it has forgotten a child whose QEMU has ended. -/
theorem retire (h : BearsEnd A G P R name) {requested : Bool} {state : InstanceState}
    (hmem : state ∈ [.stopped, .failed, .hibernated]) (hhibernated : state = .hibernated → requested = true)
    (helpers : List Nat) :
    Sat A G (R requested)
      (do
        stopHelpers helpers
        clearRuntime name
        let _ ← attempt (Daemon.recordEnd name state)
        return)
      (fun _ => P) P := by
  have hquiet : ∀ {α : Type} {call : Call α}, Maintains A G (R requested) call →
      Sat A G (R requested) call (fun _ => R requested) P :=
    fun hcall => hcall.weaken (h.forget requested)
  refine (hquiet ((quiets_stopHelpers helpers).maintains (h.quietNoted _))).bind fun _ => ?_
  refine (hquiet (clearRuntime_maintains (h.quietNoted _) h.unlinked)).bind fun _ => ?_
  exact (Sat.attempt (h.recordEnd requested state hmem hhibernated) (fun _ _ => id)
    (by simp)).bind fun _ => .pure fun _ => id

/-- The poll of a child. -/
theorem pollVm (h : BearsEnd A G P R name) (vm : ManagedVm) :
    Maintains A G P (pollVm name vm) := by
  have hforget : ∀ requested, Sat A G (R requested) (modify fun w => w.unmanage name : Call Unit)
      (fun _ => R requested) P := fun requested => .modify (h.unmanageNoted requested)
  refine ((quiets_tryWait vm.qemu).maintains h.quiet).bind fun exit => ?_
  cases exit with
  | some status =>
    refine Sat.look.bind fun shutdown => h.fileExists_noted.bind fun requested =>
      (hforget requested).bind fun _ => ?_
    exact h.retire (stateAfterQemuExit_mem _ _ _) stateAfterQemuExit_eq_hibernated _
  | none =>
    refine ((quiets_anyExited vm.helpers).maintains h.quiet).bind fun _ =>
      .ite (fun _ => ?_) fun _ => .pure fun _ => id
    refine Sat.look.bind fun shutdown => h.fileExists_noted.bind fun requested =>
      (hforget requested).bind fun _ => ?_
    refine (((quiets_endQemu requested vm).maintains (h.quietNoted requested)).weaken
      (h.forget requested)).bind fun exit => ?_
    refine h.retire (stateAfterQemuExit_mem _ _ _) (fun hhibernated => ?_) _
    exact (Bool.and_eq_true _ _ ▸ stateAfterQemuExit_eq_hibernated hhibernated).1

end BearsEnd

namespace Tolerant

variable {A G : Event → Prop} {P : World → Prop} {R : Bool → World → Prop} {name : Str}

/-- A suspension. -/
theorem suspendFrom (h : Tolerant A G P R name) (state : InstanceState) :
    Maintains A G P (suspendFrom name state) := by
  have hquery : ∀ qmp, Maintains A G P (queryStatus qmp) :=
    fun qmp => (quiets_queryStatus qmp).maintains h.quiet
  cases state with
  | running =>
    exact (quiets_instanceDir.maintains h.quiet).bind fun _ =>
      (quiets_connect.maintains h.quiet).bind fun qmp => (hquery qmp).bind fun _ =>
        .ite (fun _ => .fail fun _ => id) fun _ =>
          ((quiets_execute qmp).maintains h.quiet).bind fun _ => (hquery qmp).bind fun _ =>
            .ite (fun _ => .fail fun _ => id) fun _ =>
              (h.setState .suspended (by decide)).bind fun _ => .pure fun _ => id
  | suspended =>
    refine (quiets_qmpStatus.maintains h.quiet).attempt.bind fun status => ?_
    split
    · exact .pure fun _ => id
    · exact .fail fun _ => id
  | _ => exact .fail fun _ => id

theorem resumeFrom (h : Tolerant A G P R name) (manifest : InstanceManifest) :
    Maintains A G P (resumeFrom name manifest) :=
  (quiets_instanceDir.maintains h.quiet).bind fun _ =>
    (quiets_connect.maintains h.quiet).bind fun qmp =>
      ((quiets_queryStatus qmp).maintains h.quiet).bind fun _ =>
        .ite (fun _ => .pure fun _ => id) fun _ => .ite (fun _ => .fail fun _ => id) fun _ =>
          ((quiets_continueGuest qmp _).maintains h.quiet).bind fun _ =>
            (h.setState .running (by decide)).bind fun _ =>
              (quiets_recordActivity.maintains h.quiet).bind fun _ =>
                (h.setBalloonTarget _).attempt.bind fun _ => .pure fun _ => id

/-! ### Stopping -/

theorem shutDown (h : Tolerant A G P R name) (qmp : Nat) :
    Maintains A G P (shutDown name qmp) := by
  have hunpause : ∀ status, Maintains A G P (unpause name qmp status) := by
    intro status
    cases status with
    | paused =>
      exact ((quiets_continueGuest qmp _).maintains h.quiet).bind fun _ =>
        h.setState .running (by decide)
    | _ => exact .pure fun _ => id
  exact ((quiets_queryStatus qmp).maintains h.quiet).bind fun status =>
    (hunpause status).bind fun _ => ((quiets_execute qmp).maintains h.quiet).bind fun _ =>
      ((quiets_writeMarker (by decide)).maintains h.quiet).bind fun _ => .pure fun _ => id

theorem waitForQmpDisconnect (h : Tolerant A G P R name) (dir : PathBuf) :
    Maintains A G P (waitForQmpDisconnect dir name) := by
  refine Sat.look.bind fun now => ?_
  generalize forceStopTimeout / 50 + 1 = rounds
  induction rounds with
  | zero => exact .fail fun _ => id
  | succ rounds ih =>
    exact Sat.look.bind fun _ => .ite (fun _ => .fail fun _ => id) fun _ =>
      (quiets_connect.maintains h.quiet).attempt.bind fun _ =>
        .ite (fun _ => (quiets_sleep.maintains h.quiet).bind fun _ => ih) fun _ =>
          .emit fun _ hw _ => ⟨h.presumedGone _ _, hw⟩

/-- The end of a forced stop. -/
theorem finishForceStop (h : Tolerant A G P R name) (dir : PathBuf) (state : InstanceState)
    (requestedQmpQuit : Bool) :
    Maintains A G P (finishForceStop dir name state requestedQmpQuit) := by
  have hawait : Maintains A G P (awaitEnd dir name requestedQmpQuit) := by
    refine Sat.look.bind fun managed => ?_
    cases managed with
    | some vm => exact (quiets_waitOrKill vm.qemu forceStopTimeout).maintains h.quiet
    | none => exact .ite (fun _ => h.waitForQmpDisconnect dir) fun _ => .pure fun _ => id
  have hrelease : Maintains A G P (releaseChild name) := by
    refine Sat.look.bind fun managed => ?_
    cases managed with
    | none => exact .pure fun _ => id
    | some vm =>
      exact Sat.bind (Sat.modify h.unmanage) fun _ =>
        (quiets_stopHelpers vm.helpers).maintains h.quiet
  exact Sat.look.bind fun _ => Sat.bind (.ite (fun _ => .fail fun _ => id) fun _ =>
    .pure fun _ => id) fun _ => hawait.bind fun _ => hrelease.bind fun _ =>
      (h.setState .stopped (by decide)).bind fun _ =>
        (clearRuntime_maintains h.quiet h.unlinked).bind fun _ => .pure fun _ => id

theorem stopFrom (h : Tolerant A G P R name) (dir : PathBuf) (state : InstanceState)
    (force : Bool) : Maintains A G P (stopFrom dir name state force) := by
  refine (quiets_connect.maintains h.quiet).attempt.bind fun connected => ?_
  cases connected with
  | error e =>
    cases force with
    | false => exact .fail fun _ => id
    | true => exact h.finishForceStop dir state false
  | ok qmp =>
    cases force with
    | false => exact h.shutDown qmp
    | true =>
      exact (quiets_outside.maintains h.quiet).bind fun _ => h.finishForceStop dir state true

/-! ### Status -/

theorem statusAnswered (h : Tolerant A G P R name) (state : InstanceState) (qmp : QmpState) :
    Maintains A G P (statusAnswered name state qmp) := by
  refine .ite (fun hchanged => ?_) fun _ => .pure fun _ => id
  have hne : reconciledState state qmp ≠ .configured := by
    revert hchanged
    cases state <;> cases qmp <;> simp [reconciledState]
  exact (h.setState _ hne).bind fun _ => .pure fun _ => id

theorem statusGone (h : Tolerant A G P R name) : Maintains A G P (statusGone name) := by
  refine Sat.bind (Q := fun _ => P) (Sat.emit fun _ hw _ => ⟨h.presumedGone _ _, hw⟩) fun _ => ?_
  refine Sat.look.bind fun requested => h.fileExists_noted.bind fun hibernated => ?_
  refine (h.recordEnd hibernated _ ?_ ?_).bind fun _ =>
    (clearRuntime_maintains h.quiet h.unlinked).bind fun _ => .pure fun _ => id
  · cases hibernated <;> cases requested <;> decide
  · cases hibernated <;> cases requested <;> decide

theorem statusUnanswered (h : Tolerant A G P R name) (state : InstanceState) :
    Maintains A G P (statusUnanswered name state) := by
  refine .ite (fun _ => ?_) fun _ => .pure fun _ => id
  have hgather : ∀ dir, Quiets (gatherEvidence dir name) :=
    fun _ => quiets_ask.bind fun _ => .read _
  refine (quiets_instanceDir.maintains h.quiet).bind fun dir =>
    ((hgather dir).maintains h.quiet).bind fun evidence => ?_
  cases evidence with
  | live => exact .pure fun _ => id
  | unknown => exact .pure fun _ => id
  | gone => exact h.statusGone

end Tolerant

/-! ## Launching -/

section Launching

variable {A G : Event → Prop} {P : World → Prop} {name : Str} {phase : LaunchPhase}

theorem orWithdraw_sat {α : Type} {E : World → Prop} {Q : α → World → Prop} {step : Call α}
    (helpers : List Nat) (hE : Undisturbed E) (h : Sat A G P step Q E) :
    Sat A G P (orWithdraw name helpers step) Q E := by
  refine Sat.bind (Q := caught Q E) (.attempt h (fun _ _ => id) (by simp)) fun result => ?_
  cases result with
  | ok a => exact .pure fun _ => id
  | error e =>
    exact ((quiets_stopHelpers helpers).maintains hE).bind fun _ =>
      (quiets_removeEphemeralOverlay.maintains hE).bind fun _ => .fail fun _ => id

/-- A QEMU is spawned; nothing is known of the PID but that it is new. -/
theorem spawnQemu_sat {Q : World → Prop} {memoryMib : UInt32} (hP : Undisturbed P)
    (hspawn : ∀ w, P w → A (.launched name w.processes.length (w.isLive name)) →
      G (.launched name w.processes.length (w.isLive name)) ∧
        ∀ helpers, Q ((w.pushQemu name phase memoryMib).manage name
          { qemu := w.processes.length, helpers })) :
    Sat A G P (spawnQemu name phase memoryMib)
      (fun qemu w => ∀ helpers, Q (w.manage name { qemu, helpers })) P := by
  refine (quiets_outside.maintains hP).bind fun _ => ?_
  refine Sat.bind (Q := fun pid w => P w ∧ pid = w.processes.length)
    (Sat.read fun _ hw => ⟨hw, rfl⟩) fun pid => ?_
  refine Sat.bind (Q := fun _ w => ∀ helpers, Q ((w.pushQemu name phase memoryMib).manage name
    { qemu := pid, helpers })) (Sat.emit fun w hw hA => ?_) fun _ => ?_
  · obtain ⟨hw, rfl⟩ := hw
    exact hspawn w hw hA
  · exact Sat.bind (Q := fun _ w => ∀ helpers, Q (w.manage name { qemu := pid, helpers }))
      (Sat.modify fun _ hw => hw) fun _ => .pure fun _ => id

/-- From the helpers to the managed child. -/
theorem spawnPlanned_sat {C L : World → Prop} {manifest : InstanceManifest} (hC : Undisturbed C)
    (hspawn : Sat A G C (spawnQemu name phase manifest.spec.memoryMib)
      (fun qemu w => ∀ helpers, L (w.manage name { qemu, helpers })) C)
    (dir : PathBuf) (plan : CommandPlan) :
    Sat A G C (spawnPlanned dir manifest name phase plan) (fun _ => L) C := by
  refine ((quiets_spawnHelpers plan.helperCommands []).maintains hC).bind fun helpers => ?_
  refine ((quiets_orWithdraw helpers (quiets_waitForSocket dir helpers)).maintains hC).bind
    fun _ => (orWithdraw_sat helpers hC hspawn).bind fun qemu => ?_
  exact .modify fun w h => h helpers

/-- What `start` does with a QEMU that does not answer in time. -/
def abandon (name : Str) (e : Failure) : Call Unit := do
  abandonChild name
  removeEphemeralOverlay name
  let _ ← attempt (setState name .failed)
  fail e

/-- The stages of a launch: `C` holds once the leavings of an earlier run are removed, `L` once
    the new QEMU is a child of the daemon. -/
theorem launch_maintains {C L : InstanceManifest → World → Prop} (hP : Undisturbed P)
    (hC : ∀ manifest, Undisturbed (C manifest)) (hL : ∀ manifest, Undisturbed (L manifest))
    (hkept : ∀ manifest w, C manifest w → P w)
    (hcheck : ∀ manifest, Sat A G (With P name manifest)
      (checkLaunchable name manifest.state phase) (fun _ => With P name manifest) P)
    (hprepare : ∀ manifest dir, Sat A G (With P name manifest) (prepareLaunch dir name)
      (fun _ => C manifest) P)
    (hspawn : ∀ manifest, Sat A G (C manifest) (spawnQemu name phase manifest.spec.memoryMib)
      (fun qemu w => ∀ helpers, L manifest (w.manage name { qemu, helpers })) (C manifest))
    (habandon : ∀ manifest e, Sat A G (L manifest) (abandon name e) (fun _ => L manifest) P)
    (hrecord : ∀ manifest dir, Sat A G (L manifest) (recordLaunch dir manifest name phase)
      (fun _ => P) P) :
    Maintains A G P (launch name phase) := by
  refine load_sat.bind fun manifest => (hcheck manifest).bind fun _ => ?_
  refine ((quiets_instanceDir.maintains (undisturbed_with hP)).weaken fun _ => With.left).bind
    fun dir => (hprepare manifest dir).bind fun _ => ?_
  have hquiet : ∀ {α : Type} {call : Call α}, Quiets call →
      Sat A G (C manifest) call (fun _ => C manifest) P :=
    fun hcall => (hcall.maintains (hC manifest)).weaken (hkept manifest)
  refine (hquiet (quiets_prepareRun dir manifest phase)).bind fun _ =>
    (hquiet (quiets_planLaunch dir manifest phase)).bind fun plan => ?_
  have hawait : Sat A G (L manifest) (awaitLaunch name) (fun _ => L manifest) P := by
    refine Sat.bind (Q := fun _ => L manifest) (Sat.attempt
      (quiets_waitForQmp.maintains (hL manifest)) (fun _ _ => id) (by simp)) fun result => ?_
    cases result with
    | ok _ => exact .pure fun _ => id
    | error e => exact habandon manifest e
  exact ((spawnPlanned_sat (hC manifest) (hspawn manifest) dir plan).weaken
    (hkept manifest)).bind fun _ => hawait.bind fun _ => hrecord manifest dir

namespace Tolerant

variable {R : Bool → World → Prop}

theorem checkLaunchable (h : Tolerant A G P R name) (manifest : InstanceManifest) :
    Sat A G (With P name manifest) (checkLaunchable name manifest.state phase)
      (fun _ => With P name manifest) P := by
  have hrefuse : ∀ e, Sat A G (With P name manifest) (fail e : Call Unit)
      (fun _ => With P name manifest) P := fun e => .fail fun _ => With.left
  have hpass : Sat A G (With P name manifest) (pure () : Call Unit)
      (fun _ => With P name manifest) P := .pure fun _ => id
  have hpresume : Sat A G (With P name manifest)
      (emit fun w => .presumedGone name .suspendedUnanswered (w.isLive name) : Call Unit)
      (fun _ => With P name manifest) P := .emit fun _ hw _ => ⟨h.presumedGone _ _, hw⟩
  cases manifest.state <;> cases phase <;>
    first | exact hrefuse _ | exact hpass | exact hpresume

theorem abandonChild (h : Tolerant A G P R name) : Maintains A G P (abandonChild name) := by
  refine Sat.look.bind fun managed => ?_
  cases managed with
  | none => exact .pure fun _ => id
  | some vm =>
    exact Sat.bind (Sat.modify h.unmanage) fun _ =>
      ((quiets_killAndWait vm.qemu).maintains h.quiet).bind fun _ =>
        (quiets_stopHelpers vm.helpers).maintains h.quiet

theorem recordLaunch (h : Tolerant A G P R name)
    (hdropped : ∀ stale, G (.balloonDropped name stale)) (dir : PathBuf)
    (manifest : InstanceManifest) :
    Maintains A G P (recordLaunch dir manifest name phase) := by
  have hnote : ∀ sent, Maintains A G P (noteDropped name manifest.spec.memoryMib sent) := by
    intro sent
    cases sent with
    | ok _ => exact .pure fun _ => id
    | error e => exact .emit fun _ hw _ => ⟨hdropped _, hw⟩
  exact (h.setState _ (by cases phase <;> decide)).bind fun _ =>
    (quiets_recordActivity.maintains h.quiet).bind fun _ =>
      (h.setBalloonTarget _).attempt.bind fun sent => (hnote sent).bind fun _ =>
        .pure fun _ => id

/-- A launch that bears the new child. -/
theorem launch (h : Tolerant A G P R name) {C : World → Prop} (hC : Undisturbed C)
    (hkept : ∀ w, C w → P w) (hdropped : ∀ stale, G (.balloonDropped name stale))
    (hprepare : ∀ dir, Sat A G P (prepareLaunch dir name) (fun _ => C) P)
    (hspawn : ∀ memoryMib, Sat A G C (spawnQemu name phase memoryMib)
      (fun qemu w => ∀ helpers, P (w.manage name { qemu, helpers })) C) :
    Maintains A G P (launch name phase) := by
  refine launch_maintains (C := fun _ => C) (L := fun _ => P) h.quiet (fun _ => hC)
    (fun _ => h.quiet) (fun _ => hkept) h.checkLaunchable
    (fun _ dir => (hprepare dir).pre fun _ => With.left) (fun _ => hspawn _) (fun _ e => ?_)
    fun manifest dir => h.recordLaunch hdropped dir manifest
  exact h.abandonChild.bind fun _ => (quiets_removeEphemeralOverlay.maintains h.quiet).bind
    fun _ => (h.setState .failed (by decide)).attempt.bind fun _ => .fail fun _ => id

end Tolerant

end Launching

/-! ## Operations -/

section Operations

variable {A G : Event → Prop} {P : World → Prop} {name : Str} {depth : Nat}

theorem stop_maintains (hP : Undisturbed P) (hpoll : Maintains A G P (poll depth)) {force : Bool}
    (hfrom : ∀ dir manifest, Sat A G (With P name manifest)
      (stopFrom dir name manifest.state force) (fun _ => P) P) :
    Maintains A G P (stop depth name force) :=
  hpoll.bind fun _ => (quiets_instanceDir.maintains hP).bind fun dir =>
    load_sat.bind fun manifest => .ite (fun _ => .pure fun _ => With.left) fun _ =>
      hfrom dir manifest

/-- A status, after its poll. -/
theorem status_maintains (hP : Undisturbed P) (hpoll : Maintains A G P (poll depth))
    (hanswered : ∀ manifest qmp, Sat A G (With P name manifest)
      (statusAnswered name manifest.state qmp) (fun _ => P) P)
    (hunanswered : ∀ manifest, Sat A G (With P name manifest)
      (statusUnanswered name manifest.state) (fun _ => P) P) :
    Maintains A G P (status depth name) := by
  refine hpoll.bind fun _ => load_sat.bind fun manifest => ?_
  have hqmp : Sat A G (With P name manifest) (attempt (qmpStatus name))
      (fun _ => With P name manifest) P :=
    (quiets_qmpStatus.maintains (undisturbed_with hP)).attempt.weaken fun _ => With.left
  refine hqmp.bind fun qmp => ?_
  cases qmp with
  | ok qmp => exact hanswered manifest qmp
  | error e => exact hunanswered manifest

theorem activity_maintains (hP : Undisturbed P)
    (hballoon : ∀ memoryMib, Maintains A G P (setBalloonTarget name memoryMib)) :
    Maintains A G P (activity name) :=
  (quiets_load.maintains hP).bind fun _ => (quiets_recordActivity.maintains hP).bind fun _ =>
    .ite (fun _ => (hballoon _).attempt.bind fun _ => .pure fun _ => id) fun _ => .pure fun _ => id

theorem balloon_maintains (hP : Undisturbed P) {memoryMib : UInt32}
    (hballoon : Maintains A G P (setBalloonTarget name memoryMib)) :
    Maintains A G P (balloon name memoryMib) :=
  (quiets_load.maintains hP).bind fun _ =>
    .ite (fun _ => hballoon.bind fun _ => .pure fun _ => id) fun _ => .fail fun _ => id

/-- What bears everything else only has to bear a request to hibernate and a launch. -/
theorem Tolerant.blocks {R : Str → Bool → World → Prop} {H : Str → Prop}
    (h : ∀ name, Tolerant A G P (R name) name) (hpolicy : G .policyPass)
    (hlisted : ∀ w manifests, P w → w.store.list = .ok manifests → ∀ manifest ∈ manifests,
      HibernatesWhenIdle manifest → H manifest.spec.name)
    (hhibernate : ∀ name manifest, H name → Sat A G (With P name manifest)
      (Daemon.hibernateFrom name manifest.state) (fun _ => P) P)
    (hlaunch : ∀ name, Maintains A G P (Daemon.launch name .run)) : BlocksMaintain A G P H where
  quiet := (h []).quiet
  policyPass := hpolicy
  listed := hlisted
  setBalloonTarget name := (h name).setBalloonTarget
  pollVm name vm := ((h name).pollVm vm).pre fun _ hw => hw.1
  suspendFrom name manifest := ((h name).suspendFrom manifest.state).pre fun _ => With.left
  resumeFrom name manifest := ((h name).resumeFrom manifest).pre fun _ => With.left
  hibernateFrom := hhibernate
  launch := hlaunch

/-- An assertion that bears whatever is done to any instance. -/
theorem perform_maintains {R : Str → Bool → World → Prop} (h : BlocksMaintain A G P)
    (htolerant : ∀ name, Tolerant A G P (R name) name)
    (hinstall : ∀ name, Maintains A G P (launch name .install))
    (hrestart : Maintains A G P restart) (depth : Nat) (operation : Operation) :
    Maintains A G P (operation.perform depth) := by
  have hnested := h.nested depth
  -- Each operation by the rule for it, over the nested ones.
  cases operation with
  | start name phase =>
    cases phase with
    | run => exact (hnested.start name).done
    -- Without any depth left, a start that polls cannot return.
    | install =>
      cases depth with
      | zero => exact Maintains.done (.fail fun _ => id)
      | succ depth =>
        exact (start_maintains h.quiet (h.nested depth).poll ((h.nested depth).resume name)
          (hinstall name)).done
  | stop name force =>
    exact (stop_maintains h.quiet hnested.poll fun dir manifest =>
      ((htolerant name).stopFrom dir manifest.state force).pre fun _ => With.left).done
  | status name =>
    exact (status_maintains h.quiet hnested.poll
      (fun manifest qmp => ((htolerant name).statusAnswered manifest.state qmp).pre
        fun _ => With.left)
      fun manifest => ((htolerant name).statusUnanswered manifest.state).pre
        fun _ => With.left).done
  | suspend name => exact (hnested.suspend name).done
  | resume name => exact (hnested.resume name).done
  | hibernate name => exact (hnested.hibernate name trivial).done
  | activity name => exact (activity_maintains h.quiet (h.setBalloonTarget name)).done
  | balloon name memoryMib => exact (balloon_maintains h.quiet (h.setBalloonTarget name _)).done
  | poll => exact hnested.poll
  | restart => exact hrestart

/-- One operation of a run. -/
def serveStep (depth : Nat) (w : World) (operation : Operation) : World :=
  (serve depth operation w).state

theorem serveStep_of_maintains {w : World} {operation : Operation}
    (h : Maintains (fun _ => True) G P (operation.perform depth)) (hw : P w) :
    P (serveStep depth w operation) := Sat.state (Maintains.done h.attemptNested) hw

end Operations

end Lsw.Daemon
