import Lsw.Daemon.Nesting
import Lsw.Lib.Run

/-!
# Installation Comes First

A new instance is stored as `Configured`; its disk is empty, and `start` boots it only to
install.  Nothing but a successful installation should take it out of that state, or the disk
can be booted and never be installed.

The guard of `start` looks at the stored state alone, so everything that sets a state matters.
A forced `stop` sets `Stopped` without looking at the state, and an installation whose QEMU
does not answer sets `Failed`.  As long as neither happens, the order is kept.
-/

namespace Lsw.Daemon

open Lsw.Lib Lsw.Core Traced

/-! ## The invariant -/

/-- Every manifest is stored under its own name. -/
def Named (store : StateStore) : Prop :=
  ∀ name manifest, store.load name = .ok manifest → manifest.spec.name = name

/-- The stored state of the instance is `Configured`. -/
def Configured (name : Str) (w : World) : Prop :=
  ∃ manifest, w.store.load name = .ok manifest ∧ manifest.state = .configured

/-- The instance is as it was created: the daemon has no child for it, and no QEMU has ever been
    launched for it. -/
structure Untouched (name : Str) (w : World) : Prop where
  named : Named w.store
  configured : Configured name w
  unowned : w.owns name = false
  unlaunched : ∀ (pid : Nat) process, w.processes[pid]? = some process → process.role = .qemu →
    process.owner ≠ name

/-- The instance is no longer `Configured`. -/
structure Beyond (name : Str) (w : World) : Prop where
  named : Named w.store
  state : ¬ Configured name w

/-- A QEMU is launched for the instance, in this phase. -/
def Launches (name : Str) (phase : LaunchPhase) (w w' : World) : Prop :=
  ∃ pid process, QemuAt name w' pid process ∧ process.phase = phase ∧
    ∀ old, ¬ QemuAt name w pid old

section Store

variable {store next : StateStore} {name other : Str} {manifest : InstanceManifest}
  {state : InstanceState} {seconds : UInt64}

theorem Named.update (h : Named store)
    (hupdate : StateStore.update (manifest.withState state seconds) store = (.ok (), next)) :
    Named next := by
  intro found loaded hloaded
  rcases load_update hupdate hloaded with ⟨hname, rfl⟩ | ⟨-, hkept⟩
  · exact hname
  · exact h found loaded hkept

/-- What is stored for another instance stays. -/
theorem Named.load_update_other (h : Named store) (hload : store.load other = .ok manifest)
    (hne : other ≠ name)
    (hupdate : StateStore.update (manifest.withState state seconds) store = (.ok (), next)) :
    next.load name = store.load name :=
  load_update_of_ne hupdate (by rw [withState_spec, h other manifest hload]; exact hne)

end Store

section Kept

variable {A G : Event → Prop} {name other : Str}

theorem undisturbed_untouched : Undisturbed (Untouched name) := by
  intro w w' h hw
  refine ⟨h.store ▸ hw.named, ?_, ?_, fun pid new hnew hqemu => ?_⟩
  · rw [Configured, h.store]
    exact hw.configured
  · rw [World.owns, h.managed]
    exact hw.unowned
  · rcases h.processes pid new hnew with hhelper | ⟨old, hold, hages⟩
    · rw [hhelper] at hqemu
      cases hqemu
    · rw [hages.owner]
      exact hw.unlaunched pid old hold (hages.role.symm.trans hqemu)

theorem undisturbed_beyond : Undisturbed (Beyond name) := by
  intro w w' h hw
  refine ⟨h.store ▸ hw.named, ?_⟩
  rw [Configured, h.store]
  exact hw.state

theorem Untouched.setBalloon {w : World} (h : Untouched name w) (pid : Nat)
    (memoryMib : UInt32) : Untouched name (w.setBalloon pid memoryMib) := by
  refine ⟨h.named, h.configured, h.unowned, fun other new hnew hqemu => ?_⟩
  rw [World.setBalloon, List.getElem?_modify, Option.map_eq_map, Option.map_eq_some_iff] at hnew
  obtain ⟨old, hold, rfl⟩ := hnew
  have hkept := h.unlaunched other old hold
  split at hqemu <;> split <;> exact hkept hqemu

/-- The state of another instance may be set. -/
theorem setState_untouched (hne : other ≠ name) (state : InstanceState) :
    Maintains A G (Untouched name) (setState other state) := by
  refine setState_sat (fun w w' h hw => undisturbed_untouched w w' h hw)
    fun w manifest next hw hload hupdate => ?_
  have hpass := undisturbed_untouched w _ (.pass w (w.env w.tick)) hw
  refine ⟨hw.named.update hupdate, ?_, hpass.unowned, hpass.unlaunched⟩
  rw [Configured, hw.named.load_update_other hload hne hupdate]
  exact hw.configured

theorem setBalloonTarget_untouched (memoryMib : UInt32) :
    Maintains A G (Untouched name) (setBalloonTarget other memoryMib) :=
  setBalloonTarget_maintains undisturbed_untouched (fun _ pid h => h.setBalloon pid _)
    (fun _ _ h => ⟨h.named, h.configured, h.unowned, h.unlaunched⟩)
    fun _ _ h => ⟨h.named, h.configured, h.unowned, h.unlaunched⟩

/-- Whatever is done to another instance. -/
theorem tolerant_untouched (hne : other ≠ name) :
    Tolerant A (fun _ => True) (Untouched name) (fun _ => Untouched name) other where
  quiet := undisturbed_untouched
  quietNoted _ := undisturbed_untouched
  setState state _ := setState_untouched hne state
  setBalloonTarget := setBalloonTarget_untouched
  unlinked _ _ := trivial
  presumedGone _ _ := trivial
  unmanage _ h := ⟨h.named, h.configured, by rw [owns_unmanage_ne hne.symm]; exact h.unowned,
    h.unlaunched⟩
  noted _ := id
  unmanageNoted _ _ h := ⟨h.named, h.configured,
    by rw [owns_unmanage_ne hne.symm]; exact h.unowned, h.unlaunched⟩
  forget _ _ := id
  recordEnd _ state _ _ := Sat.bind (.ite (fun _ => .emit fun _ h _ => ⟨trivial, h⟩)
    fun _ => .pure fun _ => id) fun _ => setState_untouched hne state

/-- A QEMU may be launched for another instance. -/
theorem launch_untouched_other (hne : other ≠ name) (phase : LaunchPhase) :
    Maintains A (fun _ => True) (Untouched name) (launch other phase) := by
  refine (tolerant_untouched hne).launch undisturbed_untouched (fun _ => id) (fun _ => trivial)
    (fun dir => prepareLaunch_maintains undisturbed_untouched (fun _ _ => trivial) dir)
    fun memoryMib => spawnQemu_sat undisturbed_untouched fun w hw _ => ⟨trivial, fun helpers => ?_⟩
  refine ⟨hw.named, hw.configured, ?_, fun pid new hnew hqemu => ?_⟩
  · rw [owns_manage_ne hne.symm]
    exact hw.unowned
  · have hpushed : (w.processes ++
        [{ role := .qemu, owner := other, phase, balloon := memoryMib }])[pid]? = some new := hnew
    rw [List.getElem?_append] at hpushed
    split at hpushed
    · exact hw.unlaunched pid new hpushed hqemu
    · rw [List.mem_singleton.mp (List.mem_of_getElem? hpushed)]
      exact hne

end Kept

/-! ## The instance itself -/

section Itself

variable {A : Event → Prop} {name : Str}

/-- The manifest that an operation has loaded says `Configured`. -/
theorem state_of_with {manifest : InstanceManifest} {w : World}
    (h : With (Untouched name) name manifest w) : manifest.state = .configured := by
  obtain ⟨hw, hload⟩ := h
  obtain ⟨found, hfound, hstate⟩ := hw.configured
  rw [hload, Except.ok.injEq] at hfound
  exact hfound ▸ hstate

/-- What is called with the state of the instance is called with `Configured`. -/
theorem sat_of_configured {α : Type} {manifest : InstanceManifest} {call : Call α}
    (h : manifest.state = .configured →
      Sat A (fun _ => True) (With (Untouched name) name manifest) call (fun _ => Untouched name)
        (Untouched name)) :
    Sat A (fun _ => True) (With (Untouched name) name manifest) call (fun _ => Untouched name)
      (Untouched name) := by
  by_cases hstate : manifest.state = .configured
  · exact h hstate
  · exact .of_false fun w hw => hstate (state_of_with hw)

theorem Untouched.listener {w : World} (h : Untouched name w) : w.listener name = none := by
  rw [World.listener, List.findIdx?_eq_none_iff]
  intro process hmem
  obtain ⟨pid, hpid⟩ := List.mem_iff_getElem?.mp hmem
  have hnot := h.unlaunched pid process hpid
  simp only [Process.isLive, Bool.and_eq_false_iff, decide_eq_false_iff_not]
  by_cases hqemu : process.role = .qemu
  · exact .inl (.inl (.inr (hnot hqemu)))
  · exact .inl (.inl (.inl hqemu))

/-- Nobody answers for the instance. -/
theorem connect_untouched :
    Sat A (fun _ => True) (Untouched name) (connect name) (fun _ _ => False) (Untouched name) := by
  refine (quiets_outside.maintains undisturbed_untouched).bind fun _ => ?_
  refine Sat.bind (Q := fun listener w => Untouched name w ∧ listener = none)
    (Sat.read fun w hw => ⟨hw, hw.listener⟩) fun listener => ?_
  cases listener with
  | none => exact .fail fun _ hw => hw.1
  | some pid => exact .of_false fun _ hw => by cases hw.2

theorem launch_untouched_run :
    Maintains A (fun _ => True) (Untouched name) (launch name .run) := by
  refine load_sat.bind fun manifest => ?_
  refine sat_of_configured fun hstate => ?_
  rw [hstate]
  exact Sat.bind (Q := fun _ _ => False) (.fail fun _ => With.left) fun _ =>
    .of_false fun _ => id

/-- Before the installation nothing that runs by itself touches the instance. -/
theorem blocks_untouched : BlocksMaintain A (fun _ => True) (Untouched name) where
  quiet := undisturbed_untouched
  policyPass := trivial
  listed _ _ _ _ _ _ _ := trivial
  setBalloonTarget _ := setBalloonTarget_untouched
  -- The instance has no child that could be polled.
  pollVm other vm := by
    by_cases hname : other = name
    · refine .of_false fun w hw => ?_
      have howned := hw.1.unowned
      rw [World.owns, ← hname, hw.2] at howned
      cases howned
    · exact ((tolerant_untouched hname).pollVm vm).pre fun _ hw => hw.1
  -- A `Configured` instance is refused.
  suspendFrom other manifest := by
    by_cases hname : other = name
    · subst hname
      refine sat_of_configured fun hstate => ?_
      rw [hstate]
      exact .fail fun _ => With.left
    · exact ((tolerant_untouched hname).suspendFrom manifest.state).pre fun _ => With.left
  -- There is no QEMU of the instance that would answer.
  resumeFrom other manifest := by
    by_cases hname : other = name
    · subst hname
      refine Sat.pre (Sat.bind (quiets_instanceDir.maintains undisturbed_untouched) fun _ =>
        connect_untouched.bind fun _ => .of_false fun _ => id) fun _ => With.left
    · exact ((tolerant_untouched hname).resumeFrom manifest).pre fun _ => With.left
  hibernateFrom other manifest _ := Sat.pre (hibernateFrom_maintains undisturbed_untouched
    (fun _ h => ⟨h.named, h.configured, h.unowned, h.unlaunched⟩)
    fun _ _ h => ⟨h.named, h.configured, h.unowned, h.unlaunched⟩) fun _ => With.left
  -- A launch to run it is refused, and another one is of another instance.
  launch other := by
    by_cases hname : other = name
    · subst hname
      exact launch_untouched_run
    · exact launch_untouched_other hname .run

theorem stop_untouched (depth : Nat) :
    Maintains A (fun _ => True) (Untouched name) (stop depth name false) := by
  refine stop_maintains undisturbed_untouched (blocks_untouched.nested depth).poll
    fun dir manifest => Sat.pre ?_ fun _ => With.left
  refine Sat.bind (Q := fun connected w => Untouched name w ∧ connected.isOk = false)
    (.attempt (connect_untouched.mono (fun _ => id) (fun _ _ => False.elim) fun _ => id)
      (fun _ _ hw => ⟨hw, rfl⟩) (by simp)) fun connected => ?_
  cases connected with
  | error e => exact .fail fun _ hw => hw.1
  | ok qmp => exact .of_false fun _ hw => by cases hw.2

theorem status_untouched (depth : Nat) :
    Maintains A (fun _ => True) (Untouched name) (status depth name) := by
  refine status_maintains undisturbed_untouched (blocks_untouched.nested depth).poll
    (fun manifest qmp => sat_of_configured fun hstate => ?_)
    fun manifest => sat_of_configured fun hstate => ?_
  · rw [hstate]
    exact .ite (fun hchanged => absurd rfl hchanged) fun _ => .pure fun _ => With.left
  · rw [hstate]
    exact .ite (fun hactive => by cases hactive) fun _ => .pure fun _ => With.left

end Itself

/-! ## The installation -/

/-- `start`, from the loaded manifest to the managed child. -/
def spawnInstance (name : Str) (phase : LaunchPhase) : Call (PathBuf × InstanceManifest) := do
  let manifest ← load name
  checkLaunchable name manifest.state phase
  let dir ← instanceDir name
  prepareLaunch dir name
  prepareRun dir manifest name phase
  let plan ← planLaunch dir manifest phase
  spawnPlanned dir manifest name phase plan
  return (dir, manifest)

/-- `start(Install)` up to the managed child. -/
def beginInstall (depth : Nat) (name : Str) : Call (PathBuf × InstanceManifest) := do
  poll depth
  let _ ← attempt (qmpStatus name)
  spawnInstance name .install

/-- What has to work once the QEMU of an installation is spawned: QMP answers in time, and the
    state and the activity can be written. -/
def settleInstall (name : Str) : Call Unit := do
  waitForQmp name
  setState name .installing
  recordActivity name

/-- If `start(Install)` comes so far as to spawn QEMU, the rest works as well. -/
def Completes (depth : Nat) (name : Str) (w : World) : Prop :=
  (beginInstall depth name w).result.isOk = true →
    (settleInstall name (beginInstall depth name w).state).result.isOk = true

/-- `start(Install)` returns `Started`. -/
def Started (depth : Nat) (name : Str) (w : World) : Prop :=
  ∃ qmpSocket log, (start depth name .install w).result = .ok (.started name .install qmpSocket log)

/-- A QEMU of the instance has been launched, and only to install it. -/
def Installs (name : Str) (w : World) : Prop :=
  (∃ pid process, QemuAt name w pid process) ∧
    ∀ pid process, QemuAt name w pid process → process.phase = .install

/-- QEMU has been spawned for an installation that is not recorded yet. -/
def Installing (name : Str) (w : World) : Prop := Named w.store ∧ Installs name w

/-- The installation is recorded. -/
def Recording (name : Str) (w : World) : Prop := Beyond name w ∧ Installs name w

section Installation

variable {A : Event → Prop} {name : Str}

theorem undisturbed_installs : Undisturbed (Installs name) := by
  rintro w w' h ⟨⟨pid, process, hprocess, hqemu, howner⟩, hall⟩
  obtain ⟨new, hnew, hages⟩ := h.kept pid process hprocess
  refine ⟨⟨pid, new, hnew, hages.role.trans hqemu, hages.owner.trans howner⟩,
    fun pid new hnew => ?_⟩
  obtain ⟨hnew, hqemu, howner⟩ := hnew
  rcases h.processes pid new hnew with hhelper | ⟨old, hold, hages⟩
  · rw [hhelper] at hqemu
    cases hqemu
  · rw [hages.phase]
    exact hall pid old ⟨hold, hages.role.symm.trans hqemu, hages.owner.symm.trans howner⟩

theorem launch_eq_spawnInstance (phase : LaunchPhase) :
    launch name phase = (do
      let launched ← spawnInstance name phase
      awaitLaunch name
      recordLaunch launched.1 launched.2 name phase) := by
  simp only [launch, spawnInstance, bind_assoc, pure_bind]

/-- The new QEMU is the first of the instance. -/
theorem installs_pushQemu {w : World} (h : Untouched name w) (memoryMib : UInt32)
    (vm : ManagedVm) : Installs name ((w.pushQemu name .install memoryMib).manage name vm) := by
  have hprocesses : ((w.pushQemu name .install memoryMib).manage name vm).processes =
      w.processes ++ [{ role := .qemu, owner := name, phase := .install, balloon := memoryMib }] :=
    rfl
  simp only [Installs, QemuAt, hprocesses]
  refine ⟨⟨w.processes.length, _, List.getElem?_concat_length, rfl, rfl⟩,
    fun pid new hnew => ?_⟩
  obtain ⟨hnew, hqemu, howner⟩ := hnew
  rw [List.getElem?_append] at hnew
  split at hnew
  · exact absurd howner (h.unlaunched pid new hnew hqemu)
  · rw [List.mem_singleton.mp (List.mem_of_getElem? hnew)]

/-- Spawning a QEMU that installs, of an instance that was untouched. -/
theorem spawnInstance_install :
    Sat A (fun _ => True) (Untouched name) (spawnInstance name .install)
      (fun _ => Installing name) (Untouched name) := by
  have hcheck : ∀ state, Maintains A (fun _ => True) (Untouched name)
      (checkLaunchable name state .install) := by
    intro state
    cases state with
    | configured => exact .pure fun _ => id
    | _ => exact .fail fun _ => id
  refine (quiets_load.maintains undisturbed_untouched).bind fun manifest =>
    (hcheck manifest.state).bind fun _ =>
      (quiets_instanceDir.maintains undisturbed_untouched).bind fun dir =>
        (prepareLaunch_maintains undisturbed_untouched (fun _ _ => trivial) dir).bind fun _ =>
          ((quiets_prepareRun dir manifest .install).maintains undisturbed_untouched).bind
            fun _ => ((quiets_planLaunch dir manifest .install).maintains
              undisturbed_untouched).bind fun plan => ?_
  refine Sat.bind (spawnPlanned_sat undisturbed_untouched
    (spawnQemu_sat (Q := Installing name) undisturbed_untouched fun w hw _ => ⟨trivial,
      fun helpers => ⟨hw.named, installs_pushQemu hw _ _⟩⟩) dir plan) fun _ => .pure fun _ => id

theorem undisturbed_installing : Undisturbed (Installing name) :=
  fun w w' h hw => ⟨h.store ▸ hw.1, undisturbed_installs w w' h hw.2⟩

theorem undisturbed_recording : Undisturbed (Recording name) :=
  fun w w' h hw => ⟨undisturbed_beyond w w' h hw.1, undisturbed_installs w w' h hw.2⟩

/-- A balloon changes no phase. -/
theorem Installs.setBalloon {w : World} (h : Installs name w) (pid : Nat) (memoryMib : UInt32) :
    Installs name (w.setBalloon pid memoryMib) := by
  obtain ⟨⟨first, process, hprocess, hqemu, howner⟩, hall⟩ := h
  have hget : ∀ other : Nat, (w.setBalloon pid memoryMib).processes[other]? =
      (w.processes[other]?).map fun process =>
        if pid = other then { process with balloon := memoryMib } else process := by
    intro other
    rw [World.setBalloon, List.getElem?_modify]
    rfl
  constructor
  · refine ⟨first, _, by rw [hget, hprocess]; rfl, ?_, ?_⟩
    · split <;> exact hqemu
    · split <;> exact howner
  · rintro other new ⟨hnew, hqemu, howner⟩
    rw [hget, Option.map_eq_some_iff] at hnew
    obtain ⟨old, hold, rfl⟩ := hnew
    have hphase : old.role = .qemu → old.owner = name → old.phase = .install :=
      fun hqemu howner => hall other old ⟨hold, hqemu, howner⟩
    split at hqemu <;> simp_all

theorem setBalloonTarget_recording {other : Str} (memoryMib : UInt32) :
    Maintains A (fun _ => True) (Recording name) (setBalloonTarget other memoryMib) :=
  setBalloonTarget_maintains undisturbed_recording
    (fun _ pid h => ⟨⟨h.1.named, h.1.state⟩, h.2.setBalloon pid _⟩)
    (fun _ _ h => ⟨⟨h.1.named, h.1.state⟩, h.2⟩) fun _ _ h => ⟨⟨h.1.named, h.1.state⟩, h.2⟩

/-- The new state is not `Configured`. -/
theorem setState_installing :
    Sat A (fun _ => True) (Installing name) (setState name .installing)
      (fun _ => Recording name) (fun _ => True) := by
  refine setState_sat (fun _ _ _ _ => trivial) fun w manifest next hw hload hupdate => ?_
  have hpass := undisturbed_installs w _ (.pass w (w.env w.tick)) hw.2
  refine ⟨⟨hw.1.update hupdate, ?_⟩, hpass⟩
  rintro ⟨loaded, hloaded, hstate⟩
  rcases load_update hupdate hloaded with ⟨-, rfl⟩ | ⟨hne, -⟩
  · cases hstate
  · exact hne (hw.1 name manifest hload)

/-- Once QEMU is there, an installation that does not fail is recorded. -/
theorem finish_install (dir : PathBuf) (manifest : InstanceManifest) :
    Sat A (fun _ => True) (Installing name)
      (do
        awaitLaunch name
        recordLaunch dir manifest name .install)
      (fun response w => (∃ qmpSocket log, response = .started name .install qmpSocket log) ∧
        Recording name w) (fun _ => True) := by
  -- An installation whose QEMU does not answer fails.
  have hawait : Sat A (fun _ => True) (Installing name) (awaitLaunch name)
      (fun _ => Installing name) (fun _ => True) := by
    refine Sat.bind (Q := fun _ => Installing name) (Sat.attempt
      (quiets_waitForQmp.maintains undisturbed_installing) (fun _ _ => id) (by simp))
      fun result => ?_
    cases result with
    | ok _ => exact .pure fun _ => id
    | error e =>
      exact Sat.trivial.bind fun _ => Sat.trivial.bind fun _ => Sat.trivial.bind fun _ =>
        .fail fun _ => id
  -- A balloon that cannot be set is noted, and no failure.
  have hnote : ∀ sent, Maintains A (fun _ => True) (Recording name)
      (noteDropped name manifest.spec.memoryMib sent) := by
    intro sent
    cases sent with
    | ok _ => exact .pure fun _ => id
    | error e => exact .emit fun _ h _ => ⟨trivial, h⟩
  have hweaken : ∀ w, Recording name w → True := fun _ _ => trivial
  exact hawait.bind fun _ => setState_installing.bind fun _ =>
    ((quiets_recordActivity.maintains undisturbed_recording).weaken hweaken).bind fun _ =>
      ((setBalloonTarget_recording _).attempt.weaken hweaken).bind fun sent =>
        ((hnote sent).weaken hweaken).bind fun _ => .pure fun _ h => ⟨⟨_, _, rfl⟩, h⟩

/-- The balloon command of `start` does not make it fail. -/
theorem dropped_isOk (memoryMib : UInt32) (response : DaemonResponse) (w : World) :
    ((do
      let sent ← attempt (setBalloonTarget name memoryMib)
      noteDropped name memoryMib sent
      return response : Call DaemonResponse) w).result.isOk = true := by
  cases hsent : (setBalloonTarget name memoryMib w).result with
  | ok _ =>
    rw [attempt, bind_attempt_of_ok hsent]
    rfl
  | error e =>
    rw [attempt, bind_attempt_of_error hsent rfl]
    rfl

/-- What follows the spawning of QEMU fails only where `settleInstall` does. -/
theorem finish_isOk (dir : PathBuf) (manifest : InstanceManifest) {w : World}
    (h : (settleInstall name w).result.isOk = true) :
    ((do
      awaitLaunch name
      recordLaunch dir manifest name .install : Call DaemonResponse) w).result.isOk = true := by
  rw [settleInstall, isOk_bind] at h
  -- QMP answers, the state can be set and the activity recorded.
  obtain ⟨_, hqmp, h⟩ := h
  rw [isOk_bind] at h
  obtain ⟨_, hset, h⟩ := h
  -- So the launch is not abandoned.
  have hawait : awaitLaunch name w = ⟨.ok (), (waitForQmp name w).state,
      (waitForQmp name w).events⟩ := by
    rw [awaitLaunch, attempt, bind_attempt_of_ok hqmp]
    simp [Pure.pure]
  rw [isOk_bind]
  refine ⟨(), by rw [hawait], ?_⟩
  rw [hawait, recordLaunch, isOk_bind]
  refine ⟨_, hset, ?_⟩
  obtain ⟨_, hactivity⟩ : ∃ a, (recordActivity name
      (setState name .installing (waitForQmp name w).state).state).result = .ok a := by
    cases hresult : (recordActivity name
      (setState name .installing (waitForQmp name w).state).state).result with
    | ok a => exact ⟨a, rfl⟩
    | error e =>
      rw [hresult] at h
      cases h
  rw [isOk_bind]
  exact ⟨_, hactivity, dropped_isOk _ _ _⟩

/-- An installation leaves the instance as it was, or it is recorded and reported. -/
theorem start_install_untouched {depth : Nat} {w : World} (h : Untouched name w)
    (hcompletes : Completes (depth - 1) name w) :
    Untouched name (start depth name .install w).state ∨
      Started depth name w ∧ Recording name (start depth name .install w).state := by
  cases depth with
  | zero => exact .inl h
  | succ depth =>
    rw [Nat.add_sub_cancel] at hcompletes
    have hw₁ : Untouched name (poll depth w).state :=
      (blocks_untouched.nested depth).poll.state h
    rw [Started, start_succ]
    cases hpoll : (poll depth w).result with
    | error e =>
      rw [bind_of_error hpoll]
      exact .inl hw₁
    | ok _ =>
      rw [Completes, beginInstall, bind_of_ok hpoll] at hcompletes
      rw [bind_of_ok hpoll]
      generalize (poll depth w).state = w₁ at hcompletes hw₁ ⊢
      have hw₂ : Untouched name (qmpStatus name w₁).state :=
        undisturbed_untouched w₁ _ (quiets_qmpStatus w₁).1 hw₁
      cases hqmp : (qmpStatus name w₁).result with
      | ok status =>
        -- Somebody answers: the instance is taken for running.
        rw [attempt, bind_attempt_of_ok hqmp]
        have hnotice : Maintains (fun _ => True) (fun _ => True) (Untouched name) (do
            let manifest ← load name
            if LaunchPhase.install = .run ∧ manifest.state = .suspended ∧ status = .paused then
              resume depth name
            else return .notice [[.text "instance ", .shown name, .text " is already running"]]) :=
          (quiets_load.maintains undisturbed_untouched).bind fun _ =>
            .ite (fun hrun => nomatch hrun.1) fun _ => .pure fun _ => id
        exact .inl (hnotice.state hw₂)
      | error e =>
        rw [attempt, bind_attempt_of_error hqmp rfl] at hcompletes ⊢
        generalize (qmpStatus name w₁).state = w₂ at hcompletes hw₂ ⊢
        dsimp only at hcompletes ⊢
        rw [launch_eq_spawnInstance]
        cases hspawn : (spawnInstance name .install w₂).result with
        | error e =>
          rw [bind_of_error hspawn]
          exact .inl (spawnInstance_install.of_error hw₂ hspawn)
        | ok launched =>
          rw [bind_of_ok hspawn]
          rw [hspawn] at hcompletes
          have hinstalling : Installing name (spawnInstance name .install w₂).state :=
            spawnInstance_install.of_ok hw₂ hspawn
          have hok := finish_isOk launched.1 launched.2 (hcompletes rfl)
          generalize (spawnInstance name .install w₂).state = w₃ at hinstalling hok ⊢
          dsimp only at hok ⊢
          cases hresult : ((do
              awaitLaunch name
              recordLaunch launched.1 launched.2 name .install : Call DaemonResponse) w₃).result with
          | error e =>
            rw [hresult] at hok
            cases hok
          | ok response =>
            obtain ⟨⟨qmpSocket, log, rfl⟩, hrecording⟩ :=
              (finish_install launched.1 launched.2).of_ok hinstalling hresult
            exact .inr ⟨⟨qmpSocket, log, rfl⟩, hrecording⟩

end Installation

/-! ## After the installation -/

section After

variable {A : Event → Prop} {name other : Str}

theorem setState_beyond {state : InstanceState} (hstate : state ≠ .configured) :
    Maintains A (fun _ => True) (Beyond name) (setState other state) := by
  refine setState_sat (fun w w' h hw => undisturbed_beyond w w' h hw)
    fun w manifest next hw hload hupdate => ⟨hw.named.update hupdate, ?_⟩
  rintro ⟨loaded, hloaded, hconfigured⟩
  rcases load_update hupdate hloaded with ⟨-, rfl⟩ | ⟨-, hkept⟩
  · exact hstate hconfigured
  · exact hw.state ⟨loaded, hkept, hconfigured⟩

/-- An installed instance stays beyond its installation. -/
theorem tolerant_beyond :
    Tolerant A (fun _ => True) (Beyond name) (fun _ => Beyond name) other where
  quiet := undisturbed_beyond
  quietNoted _ := undisturbed_beyond
  setState _ := setState_beyond
  setBalloonTarget _ := setBalloonTarget_maintains undisturbed_beyond
    (fun _ _ h => ⟨h.named, h.state⟩) (fun _ _ h => ⟨h.named, h.state⟩)
    fun _ _ h => ⟨h.named, h.state⟩
  unlinked _ _ := trivial
  presumedGone _ _ := trivial
  unmanage _ h := ⟨h.named, h.state⟩
  noted _ := id
  unmanageNoted _ _ h := ⟨h.named, h.state⟩
  forget _ _ := id
  recordEnd _ _ hmem _ := Sat.bind (.ite (fun _ => .emit fun _ h _ => ⟨trivial, h⟩)
    fun _ => .pure fun _ => id) fun _ => setState_beyond fun hstate => by simp [hstate] at hmem

theorem launch_beyond (phase : LaunchPhase) :
    Maintains A (fun _ => True) (Beyond name) (launch other phase) :=
  tolerant_beyond.launch undisturbed_beyond (fun _ => id) (fun _ => trivial)
    (fun dir => prepareLaunch_maintains undisturbed_beyond (fun _ _ => trivial) dir)
    fun _ => spawnQemu_sat undisturbed_beyond fun _ h _ => ⟨trivial, fun _ => ⟨h.named, h.state⟩⟩

/-- No operation sets `Configured`. -/
theorem perform_beyond (depth : Nat) (operation : Operation) :
    Maintains A (fun _ => True) (Beyond name) (operation.perform depth) := by
  refine perform_maintains (R := fun _ _ => Beyond name) ?_ (fun _ => tolerant_beyond)
    (fun _ => launch_beyond .install) (.modify fun _ h => ⟨h.named, h.state⟩) depth operation
  exact Tolerant.blocks (R := fun _ _ => Beyond name) (fun _ => tolerant_beyond) trivial
    (fun _ _ _ _ _ _ _ => trivial)
    (fun _ manifest _ => Sat.pre (hibernateFrom_maintains undisturbed_beyond
      (fun _ h => ⟨h.named, h.state⟩) fun _ _ h => ⟨h.named, h.state⟩) fun _ => With.left)
    fun _ => launch_beyond .run

end After

/-! ## Runs -/

/-- The instance is not stopped by force while it is `Configured`, and an installation that comes
    so far as to spawn QEMU completes. -/
def Careful (depth : Nat) (name : Str) (w : World) : Operation → Prop
  | .stop other true => other = name → ¬ Configured name w
  | .start other .install => other = name → Completes (depth - 1) name w
  | _ => True

section Runs

variable {depth : Nat} {name : Str} {w : World}

theorem serveStep_start (name : Str) (phase : LaunchPhase) :
    serveStep depth w (.start name phase) = (start depth name phase w).state := by
  simp only [serveStep, serve, attemptNested, Traced.attempt, Operation.perform, Bind.bind,
    Pure.pure]
  cases (start depth name phase w).result with
  | ok response => rfl
  | error e =>
    dsimp only
    by_cases hstuck : e = .stuck <;> simp [hstuck]

/-- Before the installation every careful operation leaves the instance alone, except the one
    that installs it. -/
theorem perform_untouched {operation : Operation} (h : Untouched name w)
    (hcareful : Careful depth name w operation) (hne : operation ≠ .start name .install) :
    Maintains (fun _ => True) (fun _ => True) (Untouched name) (operation.perform depth) := by
  have hblocks : BlocksMaintain (fun _ => True) (fun _ => True) (Untouched name) :=
    blocks_untouched
  have hnested := hblocks.nested depth
  -- One case for each operation of the service.
  cases operation with
  | start other phase =>
    cases phase with
    | run => exact (hnested.start other).done
    -- An installation is one of another instance, and can nest a pass.
    | install =>
      have hother : other ≠ name := fun heq => hne (heq ▸ rfl)
      cases depth with
      | zero => exact Maintains.done (.fail fun _ => id)
      | succ depth =>
        exact (start_maintains undisturbed_untouched (hblocks.nested depth).poll
          ((hblocks.nested depth).resume other) (launch_untouched_other hother .install)).done
  -- Stopping this instance by force is what a careful run does not do.
  | stop other force =>
    by_cases hother : other = name
    · subst hother
      cases force with
      | false => exact (stop_untouched depth).done
      | true => exact absurd h.configured (hcareful rfl)
    -- Stopping another one leaves this one alone.
    · exact (stop_maintains undisturbed_untouched hnested.poll fun dir manifest =>
        ((tolerant_untouched hother).stopFrom dir manifest.state force).pre
          fun _ => With.left).done
  | status other =>
    by_cases hother : other = name
    · subst hother
      exact (status_untouched depth).done
    · exact (status_maintains undisturbed_untouched hnested.poll
        (fun manifest qmp => ((tolerant_untouched hother).statusAnswered manifest.state qmp).pre
          fun _ => With.left)
        fun manifest => ((tolerant_untouched hother).statusUnanswered manifest.state).pre
          fun _ => With.left).done
  -- The rest is built from blocks that leave the instance alone.
  | suspend other => exact (hnested.suspend other).done
  | resume other => exact (hnested.resume other).done
  | hibernate other => exact (hnested.hibernate other trivial).done
  | activity other =>
    exact (activity_maintains undisturbed_untouched setBalloonTarget_untouched).done
  | balloon other memoryMib =>
    exact (balloon_maintains undisturbed_untouched (setBalloonTarget_untouched memoryMib)).done
  | poll => exact hnested.poll
  | restart => exact .modify fun _ hw => ⟨hw.named, hw.configured, rfl, hw.unlaunched⟩

theorem serveStep_untouched {operation : Operation} (h : Untouched name w)
    (hcareful : Careful depth name w operation) :
    Untouched name (serveStep depth w operation) ∨
      operation = .start name .install ∧ Started depth name w ∧
        Recording name (serveStep depth w operation) := by
  by_cases hinstall : operation = .start name .install
  · subst hinstall
    rw [serveStep_start]
    exact (start_install_untouched h (hcareful rfl)).imp_right fun hstarted => ⟨rfl, hstarted⟩
  · exact .inl (serveStep_of_maintains (perform_untouched h hcareful hinstall) h)

/-- In a careful run the instance is untouched, or its installation has been reported. -/
theorem careful_history {operations : List Operation} (h : Untouched name w)
    (halong : Along (serveStep depth) (Careful depth name) w operations) :
    Untouched name (run (serveStep depth) w operations) ∨
      ∃ before after, operations = before ++ .start name .install :: after ∧
        Started depth name (run (serveStep depth) w before) ∧
        Launches name .install (run (serveStep depth) w before)
          (serveStep depth (run (serveStep depth) w before) (.start name .install)) ∧
        Beyond name (run (serveStep depth) w operations) := by
  -- Forward along the run; the invariant changes sides at the installation.
  induction operations generalizing w with
  | nil => exact .inl h
  | cons operation operations ih =>
    obtain ⟨hcareful, halong⟩ := halong
    rcases serveStep_untouched h hcareful with hnext | ⟨rfl, hstarted, hrecording⟩
    · rcases ih hnext halong with hlast | ⟨before, after, rfl, hstarted, hbeyond⟩
      · exact .inl hlast
      · exact .inr ⟨operation :: before, after, rfl, hstarted, hbeyond⟩
    · refine .inr ⟨[], operations, rfl, hstarted, ?_, ?_⟩
      · obtain ⟨⟨pid, process, hprocess⟩, hall⟩ := hrecording.2
        exact ⟨pid, process, hprocess, hall pid process hprocess,
          fun old hold => h.unlaunched pid old hold.1 hold.2.1 hold.2.2⟩
      · have halways : Along (serveStep depth) (fun _ _ => True)
            (serveStep depth w (.start name .install)) operations :=
          along_of_forall_mem fun _ _ => trivial
        rw [run_cons]
        exact run_invariant
          (fun w operation hw _ => serveStep_of_maintains (perform_beyond depth operation) hw)
          hrecording.1 halways

/-- In every run in which the instance is not stopped by force while it is `Configured` and every
    installation that spawns QEMU completes: a QEMU is launched to run the instance only after
    a `start(Install)` that returned `Started`; no operation but the installation takes the
    instance out of `Configured`; and it stays `Configured` until a `start(Install)` has launched
    QEMU. -/
theorem installation_comes_first {operations : List Operation} (h : Untouched name w)
    (halong : Along (serveStep depth) (Careful depth name) w operations) :
    (∀ before operation after, operations = before ++ operation :: after →
      (Launches name .run (run (serveStep depth) w before)
          (serveStep depth (run (serveStep depth) w before) operation) →
        ∃ first rest, before = first ++ .start name .install :: rest ∧
          Started depth name (run (serveStep depth) w first)) ∧
      (operation ≠ .start name .install → Configured name (run (serveStep depth) w before) →
        Configured name (serveStep depth (run (serveStep depth) w before) operation))) ∧
    ∀ before after, operations = before ++ after →
      (∀ first rest, before = first ++ .start name .install :: rest →
        ¬ Launches name .install (run (serveStep depth) w first)
          (serveStep depth (run (serveStep depth) w first) (.start name .install))) →
      Configured name (run (serveStep depth) w before) := by
  constructor
  · rintro before operation after rfl
    obtain ⟨hbefore, hcareful, -⟩ := along_append.mp halong
    -- Before the operation the instance was untouched, or had been installed.
    rcases careful_history h hbefore with huntouched | ⟨first, rest, rfl, hstarted, -, hbeyond⟩
    · refine ⟨fun hlaunches => ?_, fun hne _ => ?_⟩
      -- Untouched: a QEMU launched by the operation is one that installs.
      · obtain ⟨pid, process, ⟨hprocess, hqemu, howner⟩, hphase, -⟩ := hlaunches
        rcases serveStep_untouched huntouched hcareful with hnext | ⟨-, -, -, -, hall⟩
        · exact absurd howner (hnext.unlaunched pid process hprocess hqemu)
        · rw [hall pid process ⟨hprocess, hqemu, howner⟩] at hphase
          cases hphase
      -- No other operation than the installation ends that.
      · have hnext := (serveStep_untouched huntouched hcareful).resolve_right
          fun hinstalled => hne hinstalled.1
        exact hnext.configured
    -- Installed: that is the `start(Install)` that returned `Started`.
    · exact ⟨fun _ => ⟨first, rest, rfl, hstarted⟩,
        fun _ hconfigured => absurd hconfigured hbeyond.state⟩
  · rintro before after rfl hnone
    -- A history without a launch to install leaves the instance untouched.
    rcases careful_history h (along_append.mp halong).1 with
      huntouched | ⟨first, rest, hsplit, -, hlaunches, -⟩
    · exact huntouched.configured
    · exact absurd hlaunches (hnone first rest hsplit)

end Runs

/-! ### The demo instance -/

instance (name : Str) (w : World) : Decidable (Configured name w) :=
  decidable_of_iff ((w.store.load name).toOption.any (·.state = .configured) = true) (by
    rw [Configured]
    cases w.store.load name <;> simp [Except.toOption])

instance (depth : Nat) (name : Str) (w : World) : Decidable (Completes depth name w) :=
  inferInstanceAs (Decidable (_ → _))

instance (depth : Nat) (name : Str) (w : World) : DecidablePred (Careful depth name w)
  | .stop _ true | .start _ .install => inferInstanceAs (Decidable (_ → _))
  | .stop _ false | .start _ .run | .status _ | .suspend _ | .resume _ | .hibernate _
  | .activity _ | .balloon _ _ | .poll | .restart => inferInstanceAs (Decidable True)

theorem named_demoWorldOf {manifest : InstanceManifest} {text : Str} (env : Nat → Answer)
    (hname : manifest.spec.name = "demo".toList) (hencode : manifest.encode = .ok text) :
    Named (demoWorldOf manifest env).store := by
  intro name loaded hload
  simp only [StateStore.load, bind_eq_ok, okOr_eq_ok] at hload
  obtain ⟨-, -, dir, hdir, read, hread, hdecode⟩ := hload
  simp only [StateStore.dir?, demoWorldOf, hencode, List.lookup_cons, List.lookup_nil,
    Except.toOption] at hdir
  split at hdir
  · rename_i hfound
    cases hdir
    cases hread
    rw [decode_stored hencode hdecode, eq_of_beq hfound]
    exact hname
  · cases hdir

/-- The demo instance as it is created. -/
def newManifest : InstanceManifest := { demoManifest [] with state := .configured }

/-- Helper and QEMU create their sockets, and QEMU ends when it is asked to quit. -/
def installAnswer (tick : Nat) : Answer where
  exits := if tick = 18 then [(1, { success := true, shown := "exit status: 0" })] else []
  created := if tick ∈ [3, 27] then [("demo".toList, .swtpmSock)]
    else if tick ∈ [6, 30] then [("demo".toList, .qmpSock)] else []
  fs := preparedFs
  proc := { entries := none, commandLine := fun _ => .missing }

theorem untouched_newManifest (env : Nat → Answer) :
    Untouched "demo".toList (demoWorldOf newManifest env) := by
  obtain ⟨text, htext⟩ : ∃ text, newManifest.encode = .ok text := ⟨_, rfl⟩
  have hconfigured : Configured "demo".toList (demoWorldOf newManifest installAnswer) := by
    decide +kernel
  exact ⟨named_demoWorldOf env rfl htext, hconfigured, rfl, by simp [demoWorldOf, demoWorld]⟩

/-- The demo instance is installed, stopped and started. -/
def installOperations : List Operation :=
  [.start "demo".toList .install, .stop "demo".toList true, .start "demo".toList .run]

instance (name : Str) (w : World) (pid : Nat) (process : Process) :
    Decidable (QemuAt name w pid process) := inferInstanceAs (Decidable (_ ∧ _ ∧ _))

/-- The last operation launches QEMU, and the first one has reported the installation. -/
theorem demo_installation_comes_first :
    Launches "demo".toList .run
      (run (serveStep 3) (demoWorldOf newManifest installAnswer) (installOperations.take 2))
      (run (serveStep 3) (demoWorldOf newManifest installAnswer) installOperations) ∧
    ∃ first rest, installOperations.take 2 = first ++ .start "demo".toList .install :: rest ∧
      Started 3 "demo".toList
        (run (serveStep 3) (demoWorldOf newManifest installAnswer) first) := by
  obtain ⟨hcareful, hnone, hqemu⟩ :
      Along (serveStep 3) (Careful 3 "demo".toList) (demoWorldOf newManifest installAnswer)
        installOperations ∧
      (run (serveStep 3) (demoWorldOf newManifest installAnswer)
        (installOperations.take 2)).processes[3]? = none ∧
      QemuAt "demo".toList
        (run (serveStep 3) (demoWorldOf newManifest installAnswer) installOperations) 3
        { role := .qemu, owner := "demo".toList, phase := .run, balloon := 4096 } := by
    decide +kernel
  have hlaunches : Launches "demo".toList .run
      (run (serveStep 3) (demoWorldOf newManifest installAnswer) (installOperations.take 2))
      (run (serveStep 3) (demoWorldOf newManifest installAnswer) installOperations) := by
    refine ⟨3, _, hqemu, rfl, ?_⟩
    rintro old ⟨hold, -⟩
    rw [hnone] at hold
    cases hold
  have hfirst := (installation_comes_first (untouched_newManifest installAnswer) hcareful).1
    (installOperations.take 2) (.start "demo".toList .run) [] rfl
  exact ⟨hlaunches, hfirst.1 hlaunches⟩

/-- The same host; only a helper is started. -/
def unaskedAnswer (tick : Nat) : Answer where
  created := if tick = 6 then [("demo".toList, .swtpmSock)] else []
  fs := preparedFs
  proc := { entries := none, commandLine := fun _ => .missing }

/-- A new instance that is stopped by force becomes `Stopped`, and is then booted although it
    was never installed. -/
theorem forced_stop_skips_installation :
    Untouched "demo".toList (demoWorldOf newManifest unaskedAnswer) ∧
    ¬ Configured "demo".toList
      (serveStep 3 (demoWorldOf newManifest unaskedAnswer) (.stop "demo".toList true)) ∧
    Launches "demo".toList .run
      (run (serveStep 3) (demoWorldOf newManifest unaskedAnswer) [.stop "demo".toList true])
      (run (serveStep 3) (demoWorldOf newManifest unaskedAnswer)
        [.stop "demo".toList true, .start "demo".toList .run]) := by
  obtain ⟨hstopped, hnone, hqemu⟩ :
      ¬ Configured "demo".toList
        (serveStep 3 (demoWorldOf newManifest unaskedAnswer) (.stop "demo".toList true)) ∧
      (run (serveStep 3) (demoWorldOf newManifest unaskedAnswer)
        [.stop "demo".toList true]).processes[1]? = none ∧
      QemuAt "demo".toList
        (run (serveStep 3) (demoWorldOf newManifest unaskedAnswer)
          [.stop "demo".toList true, .start "demo".toList .run]) 1
        { role := .qemu, owner := "demo".toList, phase := .run, balloon := 4096 } := by
    decide +kernel
  refine ⟨untouched_newManifest _, hstopped, 1, _, hqemu, rfl, ?_⟩
  rintro old ⟨hold, -⟩
  rw [hnone] at hold
  cases hold

end Lsw.Daemon
