import Lsw.Core.StoredManifest
import Lsw.Daemon.Supervisor

/-!
# Live QEMU Processes

A QEMU process lives from its launch until it ends, whatever the daemon knows about it.  Most
calls of the supervisor start none and change neither the store nor the daemon's children;
they are `Calms`, and whatever is said about these three things survives them.  All but a few
of them leave the memory of the guest and of its balloon alone as well; they are `Quiets`.
-/

namespace Lsw.Daemon

open Lsw.Lib Lsw.Core Traced

/-! ## Live processes -/

/-- The process of the PID is a QEMU that was launched for the instance. -/
def QemuAt (name : Str) (w : World) (pid : Nat) (process : Process) : Prop :=
  w.processes[pid]? = some process ∧ process.role = .qemu ∧ process.owner = name

section Live

variable {w : World} {name : Str} {pid : Nat}

/-- The process of this PID is a QEMU of the instance and has not ended. -/
def World.LiveAt (w : World) (name : Str) (pid : Nat) : Prop :=
  ∃ process, w.processes[pid]? = some process ∧ process.isLive name = true

theorem isLive_iff : w.isLive name = true ↔ ∃ pid, w.LiveAt name pid := by
  simp only [World.isLive, World.LiveAt, List.any_eq_true, List.mem_iff_getElem?]
  constructor
  · rintro ⟨process, ⟨pid, hpid⟩, hlive⟩
    exact ⟨pid, process, hpid, hlive⟩
  · rintro ⟨pid, process, hpid, hlive⟩
    exact ⟨process, ⟨pid, hpid⟩, hlive⟩

theorem QemuAt.liveAt {process : Process} (h : QemuAt name w pid process)
    (hrunning : w.isRunning pid = true) : w.LiveAt name pid := by
  obtain ⟨hprocess, hrole, howner⟩ := h
  rw [World.isRunning, hprocess, Option.any_some] at hrunning
  exact ⟨process, hprocess, by simp [Process.isLive, hrole, howner, hrunning]⟩

theorem qemuAt_of_listener (h : w.listener name = some pid) : ∃ process, QemuAt name w pid process := by
  obtain ⟨hlt, hfound, -⟩ := List.findIdx?_eq_some_iff_getElem.mp h
  simp only [Process.isLive, Bool.and_eq_true, decide_eq_true_eq] at hfound
  exact ⟨_, List.getElem?_eq_getElem hlt, hfound.1.1⟩

theorem isLive_eq_false (h : ∀ pid, ¬ w.LiveAt name pid) : w.isLive name = false := by
  rw [Bool.eq_false_iff, Ne, isLive_iff]
  rintro ⟨pid, hpid⟩
  exact h pid hpid

@[simp] theorem isLive_ended (process : Process) (status : ExitStatus) :
    (process.ended status).isLive name = false := by
  cases hexit : process.exit <;> simp [Process.isLive, Process.ended, hexit]

/-- Only a process that has not ended is live, and ending one ends no other. -/
theorem liveAt_endProcess {other : Nat} {status : ExitStatus} :
    (w.endProcess other status).LiveAt name pid ↔ pid ≠ other ∧ w.LiveAt name pid := by
  simp only [World.LiveAt, World.endProcess, List.getElem?_modify, Option.map_eq_map,
    Option.map_eq_some_iff]
  constructor
  · rintro ⟨process, ⟨old, hold, rfl⟩, hlive⟩
    by_cases heq : other = pid
    · simp [heq] at hlive
    · rw [if_neg heq] at hlive
      exact ⟨Ne.symm heq, old, hold, hlive⟩
  · rintro ⟨hne, process, hprocess, hlive⟩
    exact ⟨process, ⟨process, hprocess, by rw [if_neg (Ne.symm hne)]⟩, hlive⟩

theorem liveAt_push {process : Process} :
    (w.push process).LiveAt name pid ↔
      w.LiveAt name pid ∨ pid = w.processes.length ∧ process.isLive name = true := by
  simp only [World.LiveAt, World.push, List.getElem?_append]
  by_cases hlt : pid < w.processes.length
  · simp [hlt, Nat.ne_of_lt hlt]
  · by_cases heq : pid = w.processes.length
    · simp [heq]
    · have hpos : pid - w.processes.length ≠ 0 := by omega
      simp [hlt, heq, hpos]

end Live

/-! ## Children -/

section Children

variable {w : World} {name : Str}

theorem lookup_filter_self (managed : List (Str × ManagedVm)) :
    (managed.filter fun entry => entry.1 ≠ name).lookup name = none := by
  rw [List.lookup_eq_none_iff]
  intro entry hentry
  have hne : entry.1 ≠ name := of_decide_eq_true (List.mem_filter.mp hentry).2
  exact bne_iff_ne.mpr hne.symm

theorem lookup_filter_ne {other : Str} (h : other ≠ name) (managed : List (Str × ManagedVm)) :
    (managed.filter fun entry => entry.1 ≠ name).lookup other = managed.lookup other := by
  induction managed with
  | nil => rfl
  | cons entry managed ih =>
    obtain ⟨key, vm⟩ := entry
    rw [List.filter_cons, List.lookup_cons, ← ih]
    by_cases hkey : key = name
    · rw [if_neg (by simpa using hkey), beq_eq_false_iff_ne.mpr (hkey ▸ h)]
    · rw [if_pos (by simpa using hkey), List.lookup_cons]

@[simp] theorem owns_unmanage_self : (w.unmanage name).owns name = false := by
  rw [World.owns, World.unmanage, lookup_filter_self]
  rfl

theorem owns_unmanage_ne {other : Str} (h : other ≠ name) :
    (w.unmanage name).owns other = w.owns other := by
  rw [World.owns, World.unmanage, lookup_filter_ne h, ← World.owns]

theorem owns_manage_ne {other : Str} (h : other ≠ name) (vm : ManagedVm) :
    (w.manage name vm).owns other = w.owns other := by
  rw [World.owns, World.manage, List.lookup_cons, beq_eq_false_iff_ne.mpr h, lookup_filter_ne h,
    ← World.owns]

end Children

/-! ## Calls that change nothing that matters -/

/-- The store and the daemon's children are as before, and no QEMU has been started. -/
structure Calm (w w' : World) : Prop where
  env : w'.env = w.env
  store : w'.store = w.store
  managed : w'.managed = w.managed
  live : ∀ name pid, w'.LiveAt name pid → w.LiveAt name pid

namespace Calm

instance : Std.Refl Calm := ⟨fun _ => ⟨rfl, rfl, rfl, fun _ _ => id⟩⟩

instance : IsTrans World Calm := ⟨fun _ _ _ h h' =>
  ⟨h'.env.trans h.env, h'.store.trans h.store, h'.managed.trans h.managed,
    fun name pid hlive => h.live name pid (h'.live name pid hlive)⟩⟩

/-- Only the processes matter. -/
theorem of_processes {w w' : World} (henv : w'.env = w.env) (hstore : w'.store = w.store)
    (hmanaged : w'.managed = w.managed) (hprocesses : w'.processes = w.processes) : Calm w w' :=
  ⟨henv, hstore, hmanaged, fun name pid hlive => by
    rw [World.LiveAt, hprocesses] at hlive
    exact hlive⟩

end Calm

/-- A process as it was before, except that it may have ended or may have lost its socket. -/
structure Process.Ages (old new : Process) : Prop where
  role : new.role = old.role
  owner : new.owner = old.owner
  phase : new.phase = old.phase
  balloon : new.balloon = old.balloon
  exit : new.exit = none → old.exit = none

/-- Calm in every respect: beside time, only files that decide nothing and the ends of
    processes are new, and helpers. -/
structure Quiet (w w' : World) : Prop where
  env : w'.env = w.env
  store : w'.store = w.store
  managed : w'.managed = w.managed
  balloonTarget : w'.balloonTarget = w.balloonTarget
  guestHibernating : w'.guestHibernating = w.guestHibernating
  reports : w'.reports = w.reports
  marker : ∀ name, w'.files name .hibernateRequested = .file →
    w.files name .hibernateRequested = .file
  processes : ∀ (pid : Nat) new, w'.processes[pid]? = some new →
    new.role = .helper ∨ ∃ old, w.processes[pid]? = some old ∧ old.Ages new
  kept : ∀ (pid : Nat) old, w.processes[pid]? = some old →
    ∃ new, w'.processes[pid]? = some new ∧ old.Ages new

namespace Process.Ages

variable {a b c : Process} {name : Str}

theorem refl (process : Process) : process.Ages process := ⟨rfl, rfl, rfl, rfl, id⟩

theorem trans (h : a.Ages b) (h' : b.Ages c) : a.Ages c :=
  ⟨h'.role.trans h.role, h'.owner.trans h.owner, h'.phase.trans h.phase,
    h'.balloon.trans h.balloon, fun hexit => h.exit (h'.exit hexit)⟩

theorem isLive (h : a.Ages b) (hlive : b.isLive name = true) : a.isLive name = true := by
  simp only [Process.isLive, Bool.and_eq_true, decide_eq_true_eq, Option.isNone_iff_eq_none]
    at hlive ⊢
  exact ⟨⟨h.role ▸ hlive.1.1, h.owner ▸ hlive.1.2⟩, h.exit hlive.2⟩

theorem ended (process : Process) (status : ExitStatus) :
    process.Ages (process.ended status) := by
  refine ⟨rfl, rfl, rfl, rfl, fun hexit => ?_⟩
  cases hprocess : process.exit with
  | none => rfl
  | some old => simp [Process.ended, hprocess] at hexit

end Process.Ages

namespace Quiet

variable {w w' : World}

instance : Std.Refl Quiet := ⟨fun _ => ⟨rfl, rfl, rfl, rfl, rfl, rfl, fun _ => id,
  fun _ process hprocess => .inr ⟨process, hprocess, .refl process⟩,
  fun _ process hprocess => ⟨process, hprocess, .refl process⟩⟩⟩

instance : IsTrans World Quiet := ⟨fun _ _ _ h h' => by
  refine ⟨h'.env.trans h.env, h'.store.trans h.store, h'.managed.trans h.managed,
    h'.balloonTarget.trans h.balloonTarget, h'.guestHibernating.trans h.guestHibernating,
    h'.reports.trans h.reports, fun name hfile => h.marker name (h'.marker name hfile),
    fun pid new hnew => ?_, fun pid old hold => ?_⟩
  · rcases h'.processes pid new hnew with hhelper | ⟨middle, hmiddle, hages⟩
    · exact .inl hhelper
    · rcases h.processes pid middle hmiddle with hhelper | ⟨old, hold, hages'⟩
      · exact .inl (hages.role.trans hhelper)
      · exact .inr ⟨old, hold, hages'.trans hages⟩
  · obtain ⟨middle, hmiddle, hages⟩ := h.kept pid old hold
    obtain ⟨new, hnew, hages'⟩ := h'.kept pid middle hmiddle
    exact ⟨new, hnew, hages.trans hages'⟩⟩

theorem live (h : Quiet w w') (name : Str) (pid : Nat) (hlive : w'.LiveAt name pid) :
    w.LiveAt name pid := by
  obtain ⟨new, hnew, hlive⟩ := hlive
  rcases h.processes pid new hnew with hhelper | ⟨old, hold, hages⟩
  · simp [Process.isLive, hhelper] at hlive
  · exact ⟨old, hold, hages.isLive hlive⟩

theorem qemuAt (h : Quiet w w') {name : Str} {pid : Nat} (hqemu : ∃ old, QemuAt name w pid old) :
    ∃ new, QemuAt name w' pid new := by
  obtain ⟨old, hold, hrole, howner⟩ := hqemu
  obtain ⟨new, hnew, hages⟩ := h.kept pid old hold
  exact ⟨new, hnew, hages.role.trans hrole, hages.owner.trans howner⟩

theorem calm (h : Quiet w w') : Calm w w' := ⟨h.env, h.store, h.managed, h.live⟩

variable (w)

/-- Every process changes by itself, and none is new. -/
theorem of_map {w w' : World} (henv : w'.env = w.env) (hstore : w'.store = w.store)
    (hmanaged : w'.managed = w.managed) (htarget : w'.balloonTarget = w.balloonTarget)
    (hguest : w'.guestHibernating = w.guestHibernating) (hreports : w'.reports = w.reports)
    (hfiles : w'.files = w.files) {f : Nat → Process → Process}
    (hprocesses : ∀ pid, w'.processes[pid]? = (w.processes[pid]?).map (f pid))
    (hages : ∀ pid (process : Process), process.Ages (f pid process)) : Quiet w w' := by
  refine ⟨henv, hstore, hmanaged, htarget, hguest, hreports, fun name hfile => ?_,
    fun pid new hnew => .inr ?_, fun pid old hold => ?_⟩
  · rwa [hfiles] at hfile
  · rw [hprocesses, Option.map_eq_some_iff] at hnew
    obtain ⟨old, hold, rfl⟩ := hnew
    exact ⟨old, hold, hages pid old⟩
  · exact ⟨f pid old, by rw [hprocesses, hold]; rfl, hages pid old⟩

/-- A change of the clock or of `run/last-activity`. -/
theorem of_eq {w w' : World} (henv : w'.env = w.env) (hstore : w'.store = w.store)
    (hmanaged : w'.managed = w.managed) (htarget : w'.balloonTarget = w.balloonTarget)
    (hguest : w'.guestHibernating = w.guestHibernating) (hreports : w'.reports = w.reports)
    (hfiles : w'.files = w.files) (hprocesses : w'.processes = w.processes) : Quiet w w' :=
  .of_map henv hstore hmanaged htarget hguest hreports hfiles (f := fun _ => id)
    (by simp [hprocesses]) fun _ => .refl

theorem endProcess (pid : Nat) (status : ExitStatus) : Quiet w (w.endProcess pid status) := by
  refine .of_map rfl rfl rfl rfl rfl rfl rfl
    (f := fun other process => if pid = other then process.ended status else process)
    (fun other => by rw [World.endProcess, List.getElem?_modify]; rfl) fun other process => ?_
  split
  · exact .ended process status
  · exact .refl process

/-- A file, unless it is a marker that a request to hibernate leaves. -/
theorem setFile (name : Str) (file : RunFile) (entry : RunEntry)
    (h : file = .hibernateRequested → entry = .absent) : Quiet w (w.setFile name file entry) := by
  refine ⟨rfl, rfl, rfl, rfl, rfl, rfl, fun other hfile => ?_,
    fun pid process hprocess => .inr ⟨process, hprocess, .refl process⟩,
    fun pid process hprocess => ⟨process, hprocess, .refl process⟩⟩
  simp only [World.setFile] at hfile
  split at hfile
  · rename_i heq
    rw [h heq.2.symm] at hfile
    cases hfile
  · exact hfile

theorem createFile (name : Str) (file : RunFile) : Quiet w (w.createFile name file) := by
  rw [World.createFile]
  split
  · rename_i hcreated _
    refine .setFile w name file _ fun heq => ?_
    subst heq
    cases hcreated
  · exact Std.Refl.refl w

theorem unlink (name : Str) (file : RunFile) : Quiet w (w.unlink name file) := by
  have hfile : Quiet w (w.setFile name file .absent) := .setFile w name file .absent fun _ => rfl
  rw [World.unlink]
  split
  · refine IsTrans.trans _ _ _ hfile (.of_map rfl rfl rfl rfl rfl rfl rfl
      (fun pid => List.getElem?_map) fun _ process => ?_)
    split
    · exact ⟨rfl, rfl, rfl, rfl, id⟩
    · exact .refl process
  · exact hfile

theorem foldl {α : Type} {step : World → α → World} (h : ∀ w a, Quiet w (step w a))
    (as : List α) : Quiet w (as.foldl step w) := by
  induction as generalizing w with
  | nil => exact Std.Refl.refl w
  | cons a as ih => exact IsTrans.trans _ _ _ (h w a) (ih (step w a))

theorem pass (answer : Answer) : Quiet w (w.pass answer) := by
  have hexits : Quiet w (answer.exits.foldl (fun w exit => w.endProcess exit.1 exit.2) w) :=
    .foldl w (fun w exit => .endProcess w exit.1 exit.2) answer.exits
  exact IsTrans.trans _ _ _ (IsTrans.trans _ _ _ hexits
    (.foldl _ (fun w created => .createFile w created.1 created.2) answer.created))
    (.of_eq rfl rfl rfl rfl rfl rfl rfl rfl)

theorem pushHelper (owner : Str) : Quiet w (w.push { role := .helper, owner }) := by
  refine ⟨rfl, rfl, rfl, rfl, rfl, rfl, fun _ => id, fun pid new hnew => ?_, fun pid old hold => ?_⟩
  · rw [World.push, List.getElem?_append] at hnew
    split at hnew
    · exact .inr ⟨new, hnew, .refl new⟩
    · rw [List.mem_singleton.mp (List.mem_of_getElem? hnew)]
      exact .inl rfl
  · exact ⟨old, List.getElem?_append_left (List.getElem?_eq_some_iff.mp hold).1 ▸ hold, .refl old⟩

end Quiet

/-- A call is quiet if it only ever asks the environment, reads, and changes files or other
    memories of the daemon that decide nothing. -/
abbrev Quiets {α : Type} (call : Call α) : Prop := Within Quiet call

/-- A call that is calm. -/
abbrev Calms {α : Type} (call : Call α) : Prop := Within Calm call

theorem Quiets.calms {α : Type} {call : Call α} (h : Quiets call) : Calms call :=
  Within.mono h fun _ _ => Quiet.calm

section Quiets

variable {name : Str} {α : Type}

theorem quiets_ask : Quiets ask :=
  (Within.read _).bind fun answer => (Within.modify fun w => .pass w answer).bind fun _ => .pure _

theorem quiets_outside : Quiets outside := quiets_ask.bind fun _ => .ite (.pure _) (.fail _)

theorem quiets_disk : Quiets disk := quiets_ask.bind fun _ => .ite (.pure _) (.fail _)

theorem quiets_diskOf (file : RunFile) : Quiets (diskOf file) :=
  quiets_ask.bind fun _ => .ite (.pure _) (.fail _)

theorem quiets_ofCore (result : Result α) : Quiets (ofCore result) := by
  cases result with
  | ok a => exact .pure a
  | error e => exact .fail _

theorem quiets_instanceDir : Quiets (instanceDir name) :=
  (Within.read _).bind fun _ => quiets_ofCore _

theorem quiets_load : Quiets (load name) := (Within.read _).bind fun _ => quiets_ofCore _

theorem quiets_remove (file : RunFile) : Quiets (modify fun w => w.setFile name file .absent) :=
  .modify fun w => .setFile w name file .absent fun _ => rfl

/-! ### QMP and children -/

theorem quiets_connect : Quiets (connect name) := by
  refine quiets_outside.bind fun _ => (Within.read _).bind fun listener => ?_
  cases listener with
  | none => exact .fail _
  | some pid => exact .pure pid

theorem quiets_queryStatus (pid : Nat) : Quiets (queryStatus pid) :=
  quiets_ask.bind fun _ => (Within.read _).bind fun _ => .ite (.pure _) (.fail _)

theorem quiets_execute (pid : Nat) : Quiets (execute pid) :=
  quiets_outside.bind fun _ => (Within.read _).bind fun _ => .ite (.pure _) (.fail _)

theorem quiets_qmpStatus : Quiets (qmpStatus name) :=
  quiets_instanceDir.bind fun _ => quiets_connect.bind fun qmp => quiets_queryStatus qmp

theorem quiets_tryWait (pid : Nat) : Quiets (tryWait pid) := quiets_ask.bind fun _ => .read _

theorem quiets_killAndWait (pid : Nat) : Quiets (killAndWait pid) :=
  .modify fun w => .endProcess w pid .killed

theorem quiets_sleep : Quiets sleep := .modify fun _ => .of_eq rfl rfl rfl rfl rfl rfl rfl rfl

theorem quiets_stopHelpers (pids : List Nat) : Quiets (stopHelpers pids) :=
  .each fun pid => (quiets_tryWait pid).bind fun _ => .ite (quiets_killAndWait pid) (.pure _)

theorem quiets_anyExited (pids : List Nat) : Quiets (anyExited pids) := by
  induction pids with
  | nil => exact .pure false
  | cons pid pids ih => exact (quiets_tryWait pid).bind fun _ => .ite (.pure _) ih

theorem quiets_waitForChildExit (pid timeout : Nat) : Quiets (waitForChildExit pid timeout) := by
  refine (Within.read _).bind fun now => ?_
  generalize timeout / 50 + 1 = rounds
  induction rounds with
  | zero => exact .pure none
  | succ rounds ih =>
    exact (Within.read _).bind fun _ => .ite (.pure _) ((quiets_tryWait pid).bind fun _ =>
      .ite (.pure _) (quiets_sleep.bind fun _ => ih))

theorem quiets_waitOrKill (pid timeout : Nat) : Quiets (waitOrKill pid timeout) :=
  (quiets_waitForChildExit pid timeout).bind fun _ => .ite (.pure _) (quiets_killAndWait pid)

theorem quiets_endQemu (hibernateRequested : Bool) (vm : ManagedVm) :
    Quiets (endQemu hibernateRequested vm) := by
  have hnatural : Quiets (naturalQemuExit hibernateRequested vm) :=
    .ite (quiets_waitForChildExit vm.qemu forceStopTimeout) (.pure none)
  refine hnatural.bind fun exit => ?_
  cases exit with
  | some status => exact .pure _
  | none => exact (quiets_killAndWait vm.qemu).bind fun _ => .pure _

theorem quiets_spawnHelper : Quiets (spawnHelper name) :=
  quiets_outside.bind fun _ => (Within.read _).bind fun _ =>
    (Within.modify fun w => .pushHelper w name).bind fun _ => .pure _

/-! ### Files -/

theorem quiets_removeEntry (file : RunFile) : Quiets (removeEntry name file) :=
  quiets_ask.bind fun _ => .ite (quiets_remove file) (.pure _)

theorem quiets_removeFile (file : RunFile) : Quiets (removeFile name file) :=
  (Within.read _).bind fun _ => .ite (quiets_removeEntry file) (.pure _)

theorem quiets_writeMarker {file : RunFile} (hfile : file ≠ .hibernateRequested) :
    Quiets (writeMarker name file) := by
  refine (quiets_diskOf file).bind fun _ => (Within.modify fun w => ?_).bind fun _ =>
    quiets_diskOf file
  split
  · exact .setFile w name file .file fun heq => absurd heq hfile
  · exact Std.Refl.refl w

theorem quiets_removeEphemeralOverlay : Quiets (removeEphemeralOverlay name) := by
  refine (Within.read _).bind fun manifest => ?_
  cases manifest with
  | error e => exact .pure _
  | ok manifest => exact .ite (quiets_removeFile .ephemeralOverlay) (.pure _)

theorem quiets_recordActivity : Quiets (recordActivity name) :=
  quiets_instanceDir.bind fun _ => quiets_ask.bind fun _ => quiets_disk.bind fun _ =>
    (Within.modify fun _ => .of_eq rfl rfl rfl rfl rfl rfl rfl rfl).bind fun _ => quiets_disk.bind fun _ =>
      .modify fun _ => .of_eq rfl rfl rfl rfl rfl rfl rfl rfl

/-! ### Preparing a launch -/

theorem quiets_removeOldOverlay (dir : PathBuf) (state : InstanceState) :
    Quiets (removeOldOverlay dir name state) := by
  have hremove : Quiets (do disk; modify fun w => w.setFile name .ephemeralOverlay .absent) :=
    quiets_disk.bind fun _ => quiets_remove .ephemeralOverlay
  refine (Within.read _).bind fun entry => ?_
  cases entry with
  | absent => exact .pure _
  | file => cases state <;> first | exact hremove | exact .fail _
  | socket => exact .fail _
  | other => exact .fail _

theorem quiets_prepareEphemeralOverlay (dir : PathBuf) (state : InstanceState) :
    Quiets (prepareEphemeralOverlay dir name state) := by
  refine (quiets_removeOldOverlay dir state).bind fun _ => quiets_disk.bind fun _ =>
    (Within.read _).bind fun _ => (Within.ofExcept _).bind fun _ => quiets_outside.bind fun _ =>
    quiets_ask.bind fun _ => .ite ?_ ?_
  · exact (Within.modify fun w => .setFile w name .ephemeralOverlay .file nofun).bind fun _ =>
      quiets_disk
  · exact (quiets_removeEntry .ephemeralOverlay).bind fun _ => .fail _

theorem quiets_prepareRun (dir : PathBuf) (manifest : InstanceManifest) (phase : LaunchPhase) :
    Quiets (prepareRun dir manifest name phase) := by
  cases phase with
  | install => exact .pure _
  | run =>
    have hshare : Quiets (prepareLiveShare name) :=
      (Within.read _).bind fun _ => (quiets_ofCore _).bind fun _ => quiets_outside
    exact hshare.bind fun _ => .ite (quiets_prepareEphemeralOverlay dir manifest.state) (.pure _)

theorem quiets_planLaunch (dir : PathBuf) (manifest : InstanceManifest) (phase : LaunchPhase) :
    Quiets (planLaunch dir manifest phase) :=
  quiets_ask.bind fun _ => (Within.read _).bind fun _ => (quiets_ofCore _).bind fun _ =>
    .ite (.pure _) (.fail _)

theorem quiets_withdraw (helpers : List Nat) (e : Failure) :
    Quiets (do stopHelpers helpers; removeEphemeralOverlay name; fail e : Call α) :=
  (quiets_stopHelpers helpers).bind fun _ => quiets_removeEphemeralOverlay.bind fun _ => .fail e

theorem quiets_orWithdraw (helpers : List Nat) {step : Call α} (h : Quiets step) :
    Quiets (orWithdraw name helpers step) := by
  refine (Within.attempt h).bind fun result => ?_
  cases result with
  | ok a => exact .pure a
  | error e => exact quiets_withdraw helpers e

theorem quiets_spawnHelpers (commands : List CommandInvocation) (helpers : List Nat) :
    Quiets (spawnHelpers name commands helpers) := by
  induction commands generalizing helpers with
  | nil => exact .pure helpers
  | cons command commands ih =>
    exact (quiets_orWithdraw helpers quiets_spawnHelper).bind fun pid => ih (helpers ++ [pid])

/-- Waiting for a socket only looks. -/
theorem quiets_waitForSocket (dir : PathBuf) (helpers : List Nat) :
    Quiets (waitForSocket dir name helpers) := by
  have hhelper : ∀ pid, Quiets (checkHelper pid) := by
    refine fun pid => (quiets_tryWait pid).bind fun status => ?_
    cases status with
    | none => exact .pure _
    | some status => exact .fail _
  refine (Within.read _).bind fun now => ?_
  generalize helperTimeout / 50 + 2 = rounds
  induction rounds with
  | zero => exact .fail _
  | succ rounds ih =>
    exact quiets_ask.bind fun _ => (Within.read _).bind fun _ => .ite (.pure _)
      ((Within.each hhelper).bind fun _ => (Within.read _).bind fun _ => .ite (.fail _)
        (quiets_sleep.bind fun _ => ih))

theorem quiets_checkStarting : Quiets (checkStarting name) := by
  refine (Within.read _).bind fun managed => ?_
  cases managed with
  | none => exact .fail _
  | some vm =>
    refine (quiets_tryWait vm.qemu).bind fun status => ?_
    cases status with
    | none => exact .pure _
    | some status => exact .fail _

theorem quiets_waitForQmp : Quiets (waitForQmp name) := by
  refine (Within.read _).bind fun now => ?_
  generalize startTimeout / 50 + 2 = rounds
  induction rounds with
  | zero => exact .fail _
  | succ rounds ih =>
    exact (Within.attempt quiets_qmpStatus).bind fun _ => .ite (.pure _)
      (quiets_checkStarting.bind fun _ => (Within.read _).bind fun _ => .ite (.fail _)
        (quiets_sleep.bind fun _ => ih))

/-! ### The guest -/

theorem quiets_continueGuest (qmp : Nat) (what : String) : Quiets (continueGuest name qmp what) :=
  (quiets_execute qmp).bind fun _ => (quiets_queryStatus qmp).bind fun _ => .ite (.fail _) (.pure _)

end Quiets

/-! ### Calls that are calm but not quiet -/

section Calms

variable {name : Str}

theorem calms_setBalloon (pid : Nat) (memoryMib : UInt32) :
    Calms (modify fun w => w.setBalloon pid memoryMib) := by
  refine .modify fun w => ⟨rfl, rfl, rfl, fun other pid' hlive => ?_⟩
  obtain ⟨new, hnew, hlive⟩ := hlive
  rw [World.setBalloon, List.getElem?_modify, Option.map_eq_map, Option.map_eq_some_iff] at hnew
  obtain ⟨old, hold, rfl⟩ := hnew
  refine ⟨old, hold, ?_⟩
  split at hlive <;> exact hlive

theorem calms_executeBalloon (pid : Nat) (memoryMib : UInt32) :
    Calms (executeBalloon pid memoryMib) :=
  quiets_ask.calms.bind fun _ => (Within.read _).bind fun _ =>
    .ite (calms_setBalloon pid memoryMib)
      (.ite ((calms_setBalloon pid memoryMib).bind fun _ => .fail _) (.fail _))

theorem calms_reportBalloonTarget (memoryMib : UInt32) :
    Calms (reportBalloonTarget name memoryMib) := .modify fun _ => .of_processes rfl rfl rfl rfl

theorem calms_setBalloonTarget (memoryMib : UInt32) : Calms (setBalloonTarget name memoryMib) := by
  have hsend : Calms (sendBalloonTarget name memoryMib) :=
    (Within.ofExcept _).bind fun _ => quiets_connect.calms.bind fun qmp =>
      (calms_executeBalloon qmp memoryMib).bind fun _ => quiets_disk.calms.bind fun _ =>
        (Within.modify fun _ => .of_processes rfl rfl rfl rfl).bind fun _ =>
          quiets_disk.calms.bind fun _ => .modify fun _ => .of_processes rfl rfl rfl rfl
  exact quiets_instanceDir.calms.bind fun _ => (Within.read _).bind fun _ =>
    .ite (calms_reportBalloonTarget memoryMib)
      (hsend.bind fun _ => calms_reportBalloonTarget memoryMib)

theorem calms_writeHibernateMarker : Calms (writeMarker name .hibernateRequested) := by
  refine (quiets_diskOf _).calms.bind fun _ => (Within.modify fun w => ?_).bind fun _ =>
    (quiets_diskOf _).calms
  split
  · exact .of_processes rfl rfl rfl rfl
  · exact Std.Refl.refl w

theorem calms_hibernateFrom (state : InstanceState) : Calms (hibernateFrom name state) := by
  have hrequest : Calms (requestGuestHibernate name) := by
    refine (Within.attempt quiets_outside.calms).bind fun result => ?_
    cases result with
    | ok _ => exact .modify fun _ => .of_processes rfl rfl rfl rfl
    | error e => exact (quiets_removeFile .hibernateRequested).calms.bind fun _ => .fail e
  exact .ite (.fail _) (quiets_instanceDir.calms.bind fun _ =>
    calms_writeHibernateMarker.bind fun _ => (Within.read _).bind fun _ =>
      (quiets_ofCore _).calms.bind fun _ => hrequest.bind fun _ => .pure _)

end Calms

/-! ## State changes -/

section SetState

variable {w : World} {name : Str} {state : InstanceState}

@[simp] theorem store_pass (w : World) (answer : Answer) : (w.pass answer).store = w.store :=
  (Quiet.pass w answer).store

/-- Nothing is written for an instance that cannot be read. -/
theorem setState_of_load_error {e : LswError} (hload : w.store.load name = .error e) :
    setState name state w = ⟨.error (.core e), w, []⟩ := by
  simp only [setState, Daemon.load, Bind.bind, Traced.read, Traced.fail, ofCore, hload]
  rfl

/-- In a readable store the state of an instance that can be read can be set. -/
theorem setState_of_readable (state : InstanceState) {manifests : List InstanceManifest}
    {manifest : InstanceManifest} (hreadable : ReadableWith w.store manifests) (hdisk : (w.env w.tick).disk = true)
    (hload : w.store.load name = .ok manifest) :
    ∃ next nextManifests, ReadableWith next nextManifests ∧
      next.load name = .ok (manifest.withState state (w.env w.tick).seconds) ∧
      (∀ other found, other ≠ name → w.store.load other = .ok found →
        next.load other = .ok found) ∧
      setState name state w = ⟨.ok (), { w.pass (w.env w.tick) with store := next }, []⟩ := by
  obtain ⟨next, nextManifests, hupdate, hnext, hloaded, hothers⟩ :=
    hreadable.update_state hload state (w.env w.tick).seconds
  refine ⟨next, nextManifests, hnext, hloaded, hothers, ?_⟩
  rw [InstanceManifest.withState] at hupdate
  simp only [setState, Daemon.load, ask, Bind.bind, Pure.pure, Traced.read, Traced.modify, ofCore,
    hload, store_pass, hupdate]
  rw [hdisk]
  rfl

/-- All that `setState` can do: it fails and has written nothing, or it has rewritten the
    manifest. -/
theorem setState_cases (name : Str) (state : InstanceState) (w : World) :
    (∃ e w', setState name state w = ⟨.error e, w', []⟩ ∧
        (w' = w ∨ w' = w.pass (w.env w.tick))) ∨
      ∃ manifest next, w.store.load name = .ok manifest ∧
        StateStore.update (manifest.withState state (w.env w.tick).seconds) w.store =
          (.ok (), next) ∧
        setState name state w = ⟨.ok (), { w.pass (w.env w.tick) with store := next }, []⟩ := by
  cases hload : w.store.load name with
  | error e => exact .inl ⟨_, _, setState_of_load_error hload, .inl rfl⟩
  | ok manifest =>
    rcases hupdate : StateStore.update (manifest.withState state (w.env w.tick).seconds) w.store
      with ⟨e | ⟨⟩, next⟩
    all_goals
      rw [InstanceManifest.withState] at hupdate
      simp only [setState, Daemon.load, ask, Bind.bind, Pure.pure, Traced.read, Traced.modify,
        ofCore, hload, store_pass, hupdate]
      cases (w.env w.tick).disk
    · exact .inl ⟨_, _, rfl, .inr rfl⟩
    · exact .inl ⟨_, _, rfl, .inr rfl⟩
    · exact .inl ⟨_, _, rfl, .inr rfl⟩
    · exact .inr ⟨manifest, next, rfl, hupdate, rfl⟩

end SetState

/-! ### The demo host -/

theorem readableWith_demoWorld (env : Nat → Answer) :
    ReadableWith (demoWorld env).store [demoManifest []] := by
  obtain ⟨text, htext⟩ : ∃ text, (demoManifest []).encode = .ok text := ⟨_, rfl⟩
  have hport : controlPortForInstance (demoManifest []).spec.name =
      .ok (demoManifest []).controlPort := by decide +kernel
  refine ⟨⟨.cons ⟨rfl, text, ?_, htext⟩ .nil, fun manifest hmem => ?_, by simp⟩,
    fun manifest hmem => ?_⟩
  · rw [htext]
    rfl
  · rw [List.mem_singleton.mp hmem]
    exact hostPorts_nodup htext hport
  · rw [List.mem_singleton.mp hmem]
    exact ⟨rfl, hport, by decide⟩

end Lsw.Daemon
