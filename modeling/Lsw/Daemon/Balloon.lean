import Lsw.Daemon.Nesting

/-!
# The Cached Balloon Target

`set_balloon_target` keeps the last target in `run/balloon.target` and does not ask QEMU again
for the value that stands there.  The file outlives the QEMU it was written for: a launch does
not remove it, but sends a command of its own, and drops its error.

So the file is right as long as QEMU carries out exactly the commands it reports, the file can be
written, and the command of a launch works or finds nothing else in the file.  Then every `Ok`
speaks of the QEMU that runs.
-/

namespace Lsw.Daemon

open Lsw.Lib Lsw.Core Traced

/-! ## The invariant -/

/-- Every living QEMU of the instance has this balloon target. -/
def Balloons (name : Str) (memoryMib : UInt32) (w : World) : Prop :=
  ∀ (pid : Nat) process, w.processes[pid]? = some process → process.isLive name = true →
    process.balloon = memoryMib

/-- A report that is true of the QEMU it is about. -/
def BalloonReport.IsRight (report : BalloonReport) : Prop :=
  ∀ target ∈ report.targets, target = report.memoryMib

/-- Files can be written, QEMU carries out no command that it does not report, the store can be
    read, every instance has one living QEMU at most, and what is cached is its balloon target,
    unless the instance is exempt.  All reports so far are right. -/
structure Coherent (exempt : Str → Prop) (w : World) : Prop where
  disk : ∀ tick, (w.env tick).disk = true
  heard : ∀ tick, (w.env tick).carriedOut = false
  readable : ∃ manifests, ReadableWith w.store manifests
  sole : ∀ name pid pid', w.LiveAt name pid → w.LiveAt name pid' → pid = pid'
  cached : ∀ name memoryMib, ¬ exempt name → w.balloonTarget name = some memoryMib →
    Balloons name memoryMib w
  right : ∀ report ∈ w.reports, report.IsRight

/-- No QEMU is launched beside another one of its instance, and no launch drops an error of its
    balloon command while another target is cached. -/
def Orderly : Event → Prop
  | .launched _ _ live => live = false
  | .balloonDropped _ stale => stale = false
  | _ => True

section Invariant

variable {exempt : Str → Prop} {name : Str} {memoryMib : UInt32} {w w' : World}

theorem undisturbed_balloons : Undisturbed (Balloons name memoryMib) := by
  intro w w' h hw pid new hnew hlive
  rcases h.processes pid new hnew with hhelper | ⟨old, hold, hages⟩
  · simp [Process.isLive, hhelper] at hlive
  · rw [hages.balloon]
    exact hw pid old hold (hages.isLive hlive)

theorem undisturbed_coherent : Undisturbed (Coherent exempt) := by
  intro w w' h hw
  refine ⟨h.env ▸ hw.disk, h.env ▸ hw.heard, h.store ▸ hw.readable, fun name pid pid' hpid hpid' =>
    hw.sole name pid pid' (h.live name pid hpid) (h.live name pid' hpid'),
    fun name memoryMib hname hcached => ?_, h.reports ▸ hw.right⟩
  rw [h.balloonTarget] at hcached
  exact undisturbed_balloons w w' h (hw.cached name memoryMib hname hcached)

theorem Balloons.targets (h : Balloons name memoryMib w) :
    ∀ target ∈ w.balloonTargets name, target = memoryMib := by
  intro target htarget
  obtain ⟨process, hprocess, rfl⟩ := List.mem_map.mp htarget
  obtain ⟨hmem, hlive⟩ := List.mem_filter.mp hprocess
  obtain ⟨pid, hpid⟩ := List.mem_iff_getElem?.mp hmem
  exact h pid process hpid hlive

/-- What is cached for an exempt instance is right, after all. -/
theorem Coherent.settled (h : Coherent (· = name) w)
    (hcached : ∀ cached, w.balloonTarget name = some cached → Balloons name cached w) :
    Coherent (fun _ => False) w := by
  refine ⟨h.disk, h.heard, h.readable, h.sole, fun other memoryMib _ htarget => ?_, h.right⟩
  by_cases hother : other = name
  · rw [hother] at htarget ⊢
    exact hcached memoryMib htarget
  · exact h.cached other memoryMib hother htarget

theorem Coherent.exempting (h : Coherent (fun _ => False) w) : Coherent exempt w :=
  ⟨h.disk, h.heard, h.readable, h.sole, fun other memoryMib _ => h.cached other memoryMib id,
    h.right⟩

/-- What is reported while it is true stays reported. -/
theorem Coherent.report (h : Coherent exempt w) (hballoons : Balloons name memoryMib w) :
    Coherent exempt { w with
      reports := { name, memoryMib, targets := w.balloonTargets name } :: w.reports } := by
  refine ⟨h.disk, h.heard, h.readable, h.sole, h.cached, fun report hreport => ?_⟩
  rcases List.mem_cons.mp hreport with rfl | hold
  · exact hballoons.targets
  · exact h.right report hold

end Invariant

/-! ## The command -/

section Command

variable {A G : Event → Prop} {S : World → Prop} {name : Str} {memoryMib : UInt32} {w : World}

/-- QEMU has carried out the command; the file says nothing about it yet. -/
theorem Coherent.setBalloon {pid : Nat} (h : Coherent (· = name) w) (hlive : w.LiveAt name pid) :
    Coherent (· = name) (w.setBalloon pid memoryMib) ∧
      Balloons name memoryMib (w.setBalloon pid memoryMib) := by
  have hget : ∀ {other : Nat} {new : Process},
      (w.setBalloon pid memoryMib).processes[other]? = some new →
      ∃ old, w.processes[other]? = some old ∧ (∀ owner, old.isLive owner = new.isLive owner) ∧
        new.balloon = if pid = other then memoryMib else old.balloon := by
    intro other new hnew
    rw [World.setBalloon, List.getElem?_modify, Option.map_eq_map, Option.map_eq_some_iff] at hnew
    obtain ⟨old, hold, rfl⟩ := hnew
    refine ⟨old, hold, ?_, ?_⟩
    · split <;> exact fun _ => rfl
    · split <;> rfl
  have hback : ∀ owner other, (w.setBalloon pid memoryMib).LiveAt owner other →
      w.LiveAt owner other := by
    intro owner other hother
    obtain ⟨new, hnew, hlive⟩ := hother
    obtain ⟨old, hold, hsame, -⟩ := hget hnew
    exact ⟨old, hold, (hsame owner).trans hlive⟩
  constructor
  · refine ⟨h.disk, h.heard, h.readable, fun owner first second hfirst hsecond =>
      h.sole owner first second (hback owner first hfirst) (hback owner second hsecond),
      fun owner cached howner hcached other new hnew hnewLive => ?_, h.right⟩
    obtain ⟨old, hold, hsame, hballoon⟩ := hget hnew
    have holdLive : old.isLive owner = true := (hsame owner).trans hnewLive
    -- The QEMU that was asked is one of `name`, and so of no other instance.
    have hne : pid ≠ other := by
      rintro rfl
      obtain ⟨asked, hasked, haskedLive⟩ := hlive
      rw [hold, Option.some.injEq] at hasked
      simp only [Process.isLive, Bool.and_eq_true, decide_eq_true_eq] at haskedLive holdLive
      rw [← hasked, holdLive.1.2] at haskedLive
      exact howner haskedLive.1.2
    rw [hballoon, if_neg hne]
    exact h.cached owner cached howner hcached other old hold holdLive
  · intro other new hnew hnewLive
    obtain ⟨old, hold, hsame, hballoon⟩ := hget hnew
    have hsole : pid = other :=
      h.sole name pid other hlive ⟨old, hold, (hsame name).trans hnewLive⟩
    rw [hballoon, if_pos hsole]

theorem connect_sat (hS : Undisturbed S) :
    Sat A G S (connect name) (fun pid w => S w ∧ ∃ process, QemuAt name w pid process) S := by
  refine (quiets_outside.maintains hS).bind fun _ => ?_
  refine Sat.bind (Q := fun listener w => S w ∧ w.listener name = listener)
    (Sat.read fun _ hw => ⟨hw, rfl⟩) fun listener => ?_
  cases listener with
  | none => exact .fail fun _ hw => hw.1
  | some pid => exact .pure fun _ hw => ⟨hw.1, qemuAt_of_listener hw.2⟩

/-- QEMU carries out a command if and only if it says so. -/
theorem executeBalloon_sat {pid : Nat} (hS : Undisturbed S)
    (hcoherent : ∀ w, S w → Coherent (· = name) w) :
    Sat A G (fun w => S w ∧ ∃ process, QemuAt name w pid process) (executeBalloon pid memoryMib)
      (fun _ w => Coherent (· = name) w ∧ Balloons name memoryMib w) S := by
  have hreached : Undisturbed fun w => S w ∧ ∃ process, QemuAt name w pid process :=
    fun w w' h hw => ⟨hS w w' h hw.1, h.qemuAt hw.2⟩
  refine (ask_sat (Q := fun answer => answer.carriedOut = false) hreached
    fun w hw => (hcoherent w hw.1).heard w.tick).bind fun answer => ?_
  refine Sat.bind (Q := fun running w => (S w ∧ (running = true → w.LiveAt name pid)) ∧
    answer.carriedOut = false) (Sat.read fun w hw => ⟨⟨hw.1.1, fun hrunning => ?_⟩, hw.2⟩)
    fun running => .ite (fun hok => ?_) fun _ => .ite (fun hcarried => ?_) fun _ => ?_
  · obtain ⟨process, hprocess⟩ := hw.1.2
    exact hprocess.liveAt hrunning
  · refine .modify fun w hw => (hcoherent w hw.1.1).setBalloon (hw.1.2 ?_)
    exact (Bool.and_eq_true _ _ ▸ hok).2
  · exact .of_false fun w hw => by simp [hw.2] at hcarried
  · exact .fail fun _ hw => hw.1.1

/-- A command that works is what the file says afterwards; one that does not work has changed
    nothing. -/
theorem sendBalloonTarget_sat (hS : Undisturbed S)
    (hcoherent : ∀ w, S w → Coherent (· = name) w) :
    Sat A G S (sendBalloonTarget name memoryMib)
      (fun _ w => Coherent (fun _ => False) w ∧ Balloons name memoryMib w) S := by
  let Sent (w : World) : Prop := Coherent (· = name) w ∧ Balloons name memoryMib w
  have hsent : Undisturbed Sent :=
    fun w w' h hw => ⟨undisturbed_coherent w w' h hw.1, undisturbed_balloons w w' h hw.2⟩
  have hdisk : ∀ {E : World → Prop}, Sat A G Sent disk (fun _ => Sent) E :=
    (ask_sat (Q := fun answer => answer.disk = true) hsent
      fun w hw => hw.1.disk w.tick).bind fun answer =>
        .ite (fun _ => .pure fun _ hw => hw.1) fun hfull => .of_false fun _ hw => hfull hw.2
  have hcache : ∀ target : Option UInt32, ∀ w, Sent w →
      Sent { w with balloonTarget := Function.update w.balloonTarget name target } := by
    refine fun target w hw => ⟨⟨hw.1.disk, hw.1.heard, hw.1.readable, hw.1.sole,
      fun other cached hother hcached => hw.1.cached other cached hother ?_, hw.1.right⟩, hw.2⟩
    exact (Function.update_of_ne hother target w.balloonTarget).symm.trans hcached
  refine Sat.bind (.ofExcept (fun _ _ _ => id) fun _ => id) fun _ =>
    (connect_sat hS).bind fun qmp => (executeBalloon_sat hS hcoherent).bind fun _ =>
      hdisk.bind fun _ => Sat.bind (Q := fun _ => Sent) (.modify (hcache none)) fun _ =>
        hdisk.bind fun _ => .modify fun w hw => ⟨(hcache (some memoryMib) w hw).1.settled ?_, hw.2⟩
  intro cached hcached
  have hsame : Function.update w.balloonTarget name (some memoryMib) name = some cached := hcached
  rw [Function.update_self, Option.some.injEq] at hsame
  exact hsame ▸ hw.2

/-- An `Ok` of `set_balloon_target` is true, from the file or from QEMU. -/
theorem setBalloonTarget_sat (hS : Undisturbed S)
    (hcoherent : ∀ w, S w → Coherent (· = name) w)
    (hcached : ∀ w, S w → w.balloonTarget name = some memoryMib →
      Coherent (fun _ => False) w ∧ Balloons name memoryMib w) :
    Sat A G S (setBalloonTarget name memoryMib) (fun _ => Coherent fun _ => False) S := by
  have hreport : ∀ {E : World → Prop}, Sat A G
      (fun w => Coherent (fun _ => False) w ∧ Balloons name memoryMib w)
      (reportBalloonTarget name memoryMib) (fun _ => Coherent fun _ => False) E :=
    .modify fun w hw => hw.1.report hw.2
  refine (quiets_instanceDir.maintains hS).bind fun _ => ?_
  refine Sat.bind (Q := fun target w => S w ∧ w.balloonTarget name = target)
    (Sat.read fun _ hw => ⟨hw, rfl⟩) fun target => .ite (fun hsame => ?_) fun _ => ?_
  · exact hreport.pre fun w hw => hcached w hw.1 (hw.2.trans hsame)
  · exact ((sendBalloonTarget_sat hS hcoherent).pre fun _ hw => hw.1).bind fun _ => hreport

end Command

/-! ## A new QEMU -/

/-- The new QEMU of the instance is the child of the daemon and has its boot memory; the file may
    still speak of an earlier one. -/
structure Booted (name : Str) (manifest : InstanceManifest) (w : World) : Prop where
  coherent : Coherent (· = name) w
  boots : Balloons name manifest.spec.memoryMib w
  loads : ∃ stored, w.store.load name = .ok stored
  child : ∃ vm, w.managed.lookup name = some vm ∧ ∀ pid, w.LiveAt name pid → pid = vm.qemu

section Launch

variable {G : Event → Prop} {exempt : Str → Prop} {name : Str} {manifest : InstanceManifest}
  {state : InstanceState} {w : World}

theorem undisturbed_booted : Undisturbed (Booted name manifest) := by
  intro w w' h hw
  refine ⟨undisturbed_coherent w w' h hw.coherent, undisturbed_balloons w w' h hw.boots,
    h.store ▸ hw.loads, ?_⟩
  obtain ⟨vm, hvm, hsole⟩ := hw.child
  exact ⟨vm, h.managed ▸ hvm, fun pid hpid => hsole pid (h.live name pid hpid)⟩

theorem Coherent.storing (h : Coherent exempt w) {next : StateStore}
    {manifests : List InstanceManifest} (hnext : ReadableWith next manifests) :
    Coherent exempt { w with store := next } :=
  ⟨h.disk, h.heard, ⟨manifests, hnext⟩, h.sole, h.cached, h.right⟩

/-- The state of an instance may be set. -/
theorem setState_coherent {A : Event → Prop} :
    Maintains A G (Coherent exempt) (setState name state) := by
  refine setState_sat (fun w w' h hw => undisturbed_coherent w w' h hw)
    fun w manifest next hw hload hupdate => ?_
  obtain ⟨manifests, hreadable⟩ := hw.readable
  obtain ⟨next', manifests', hupdate', hnext, -⟩ :=
    hreadable.update_state hload state (w.env w.tick).seconds
  rw [hupdate, Prod.mk.injEq] at hupdate'
  obtain ⟨-, rfl⟩ := hupdate'
  exact (undisturbed_coherent w _ (.pass w (w.env w.tick)) hw).storing hnext

/-- The state of a launched instance is set without an error. -/
theorem setState_booted {A : Event → Prop} {E : World → Prop} :
    Sat A G (Booted name manifest) (setState name state) (fun _ => Booted name manifest) E := by
  intro w hw _
  obtain ⟨manifests, hreadable⟩ := hw.coherent.readable
  obtain ⟨stored, hload⟩ := hw.loads
  obtain ⟨next, nextManifests, hnext, hloaded, -, hrun⟩ :=
    setState_of_readable state hreadable (hw.coherent.disk w.tick) hload
  have hpass := undisturbed_booted w _ (.pass w (w.env w.tick)) hw
  rw [hrun]
  exact ⟨by simp, hpass.coherent.storing hnext, hpass.boots, ⟨_, hloaded⟩, hpass.child⟩

theorem instanceDir_of_load {store : StateStore} {stored : InstanceManifest}
    (h : store.load name = .ok stored) : ∃ dir, store.instanceDir name = .ok dir := by
  rw [StateStore.load, bind_eq_ok] at h
  obtain ⟨dir, hdir, -⟩ := h
  exact ⟨dir, hdir⟩

/-- So is its activity. -/
theorem recordActivity_booted {A : Event → Prop} {E : World → Prop} :
    Sat A G (Booted name manifest) (recordActivity name) (fun _ => Booted name manifest) E := by
  -- The directory is found, since the manifest can be loaded.
  have hdir : Sat A G (Booted name manifest) (instanceDir name)
      (fun _ => Booted name manifest) E := by
    refine Sat.bind (Q := fun dir w => Booted name manifest w ∧ ∃ path, dir = .ok path)
      (Sat.read fun w hw => ?_) fun dir => ?_
    · obtain ⟨stored, hload⟩ := hw.loads
      exact ⟨hw, instanceDir_of_load hload⟩
    · cases dir with
      | ok path => exact .pure fun _ hw => hw.1
      | error e => exact .of_false fun _ hw => by simp at hw
  -- The disk is not full in an orderly run.
  have hdisk : Sat A G (Booted name manifest) disk (fun _ => Booted name manifest) E :=
    (ask_sat (Q := fun answer => answer.disk = true) undisturbed_booted
      fun w hw => hw.coherent.disk w.tick).bind fun answer =>
        .ite (fun _ => .pure fun _ hw => hw.1) fun hfull => .of_false fun _ hw => hfull hw.2
  have hask : Sat A G (Booted name manifest) ask (fun _ => Booted name manifest) E :=
    (ask_sat (Q := fun _ => True) undisturbed_booted fun _ _ => trivial).mono (fun _ => id)
      (fun _ _ hw => hw.1) fun _ => id
  -- The clock of the activity is no part of what is said.
  have hnote : ∀ activity : Str → Option UInt64, ∀ w, Booted name manifest w →
      Booted name manifest { w with lastActivity := activity } :=
    fun _ w hw => undisturbed_booted w _ (.of_eq rfl rfl rfl rfl rfl rfl rfl rfl) hw
  exact hdir.bind fun _ => hask.bind fun _ => hdisk.bind fun _ =>
    Sat.bind (Q := fun _ => Booted name manifest) (.modify fun w => hnote _ w) fun _ =>
      hdisk.bind fun _ => .modify fun w => hnote _ w

/-- The file speaks of the new QEMU once its command has worked, or has failed where nothing else
    was cached. -/
theorem recordLaunch_booted (phase : LaunchPhase) (dir : PathBuf) :
    Sat Orderly (fun _ => True) (Booted name manifest) (recordLaunch dir manifest name phase)
      (fun _ => Coherent fun _ => False) (Coherent fun _ => False) := by
  -- What is cached speaks of the new QEMU if it is the memory it was started with.
  have hcached : ∀ w, Booted name manifest w →
      (∀ cached, w.balloonTarget name = some cached → cached = manifest.spec.memoryMib) →
      Coherent (fun _ => False) w :=
    fun w hw hsame => hw.coherent.settled fun cached hcached => hsame cached hcached ▸ hw.boots
  refine setState_booted.bind fun _ => recordActivity_booted.bind fun _ => ?_
  refine Sat.bind (Q := fun sent w => match sent with
    | .ok _ => Coherent (fun _ => False) w
    | .error _ => Booted name manifest w) (.attempt
      (setBalloonTarget_sat undisturbed_booted (fun _ hw => hw.coherent) fun w hw hsame => ?_)
      (fun _ _ => id) (by simp)) fun sent => ?_
  -- The command works: then it is.
  · refine ⟨hcached w hw fun cached htarget => ?_, hw.boots⟩
    exact Option.some.inj (htarget.symm.trans hsame)
  · refine Sat.bind (Q := fun _ => Coherent fun _ => False) ?_ fun _ => .pure fun _ => id
    cases sent with
    | ok _ => exact .pure fun _ => id
    | error e =>
      refine .emit fun w hw horderly => ⟨trivial, hcached w hw fun cached htarget => ?_⟩
      -- It fails: in an orderly run nothing else was cached.
      have hfresh : ¬ (w.balloonTarget name ≠ none ∧
          w.balloonTarget name ≠ some manifest.spec.memoryMib) := of_decide_eq_false horderly
      by_contra hne
      exact hfresh ⟨by simp [htarget], by simpa [htarget] using hne⟩

/-- A QEMU that does not answer in time is killed, and then there is none. -/
theorem abandon_booted (e : Failure) :
    Sat Orderly (fun _ => True) (Booted name manifest) (abandon name e)
      (fun _ => Booted name manifest) (Coherent fun _ => False) := by
  have hquiet : ∀ {α : Type} {call : Call α}, Quiets call →
      Maintains Orderly (fun _ => True) (Coherent fun _ => False) call :=
    fun hcall => hcall.maintains undisturbed_coherent
  -- Abandoning the child kills its QEMU.
  have hkilled : Sat Orderly (fun _ => True) (Booted name manifest) (abandonChild name)
      (fun _ => Coherent fun _ => False) (Coherent fun _ => False) := by
    refine Sat.bind (Q := fun managed w => Booted name manifest w ∧
      w.managed.lookup name = managed) (Sat.read fun _ hw => ⟨hw, rfl⟩) fun managed => ?_
    cases managed with
    -- There is a child.
    | none =>
      refine .of_false fun w hw => ?_
      -- It is not managed any more, but it still lives.
      obtain ⟨vm, hvm, -⟩ := hw.1.child
      rw [hw.2] at hvm
      cases hvm
    | some vm =>
      refine Sat.bind (Q := fun _ w => Coherent (· = name) w ∧
        ∀ pid, w.LiveAt name pid → pid = vm.qemu) (Sat.modify fun w hw => ?_) fun _ => ?_
      · obtain ⟨vm', hvm', hsole⟩ := hw.1.child
        rw [hw.2, Option.some.injEq] at hvm'
        have hcoherent := hw.1.coherent
        exact ⟨⟨hcoherent.disk, hcoherent.heard, hcoherent.readable, hcoherent.sole,
          hcoherent.cached, hcoherent.right⟩, hvm' ▸ hsole⟩
      · refine Sat.bind (Q := fun _ => Coherent fun _ => False) (Sat.modify fun w hw => ?_)
          fun _ => hquiet (quiets_stopHelpers vm.helpers)
        -- It is ended, and no other QEMU of the instance lives.
        refine (undisturbed_coherent w _ (.endProcess w vm.qemu .killed) hw.1).settled
          fun cached _ pid process hprocess hlive => ?_
        obtain ⟨hne, hbefore⟩ := liveAt_endProcess.mp ⟨process, hprocess, hlive⟩
        exact absurd (hw.2 pid hbefore) hne
  -- The state is set at last; nothing in between starts a process.
  exact hkilled.bind fun _ => (hquiet quiets_removeEphemeralOverlay).bind fun _ =>
    setState_coherent.attempt.bind fun _ => .fail fun _ => id

/-- Where no other QEMU of the instance lives, the new one is the only one. -/
theorem Coherent.pushQemu (h : Coherent (fun _ => False) w)
    (hload : w.store.load name = .ok manifest) (hnone : w.isLive name = false)
    (phase : LaunchPhase) (helpers : List Nat) :
    Booted name manifest ((w.pushQemu name phase manifest.spec.memoryMib).manage name
      { qemu := w.processes.length, helpers }) := by
  let new : Process := { role := .qemu, owner := name, phase, balloon := manifest.spec.memoryMib }
  -- The new process is the only one that lives in addition.
  have hlive : ∀ owner pid, (w.push new).LiveAt owner pid →
      w.LiveAt owner pid ∨ pid = w.processes.length ∧ owner = name := by
    intro owner pid hpid
    refine (liveAt_push.mp hpid).imp_right fun hnew => ⟨hnew.1, ?_⟩
    have howner := hnew.2
    simp only [Process.isLive, Bool.and_eq_true, decide_eq_true_eq] at howner
    exact howner.1.2.symm
  -- Before it no QEMU of the instance did.
  have hdead : ∀ pid, ¬ w.LiveAt name pid := by
    intro pid hpid
    rw [isLive_iff.mpr ⟨pid, hpid⟩] at hnone
    cases hnone
  -- So it is the only one now.
  have honly : ∀ pid, (w.push new).LiveAt name pid → pid = w.processes.length := by
    intro pid hpid
    exact ((hlive name pid hpid).resolve_left (hdead pid)).1
  refine ⟨⟨h.disk, h.heard, h.readable, fun owner pid pid' hpid hpid' => ?_,
    fun owner cached howner hcached pid process hprocess hprocessLive => ?_, h.right⟩,
    fun pid process hprocess hprocessLive => ?_, ⟨manifest, hload⟩, ⟨_, List.lookup_cons_self, honly⟩⟩
  -- There is at most one for each instance.
  · rcases hlive owner pid hpid with hold | ⟨rfl, howner⟩
    · rcases hlive owner pid' hpid' with hold' | ⟨-, howner⟩
      · exact h.sole owner pid pid' hold hold'
      · exact absurd (howner ▸ hold) (hdead pid)
    · rcases hlive owner pid' hpid' with hold' | ⟨rfl, -⟩
      · exact absurd (howner ▸ hold') (hdead pid')
      · rfl
  -- What is cached of other instances is about their processes.
  · have hprocesses : (w.processes ++ [new])[pid]? = some process := hprocess
    rw [List.getElem?_append] at hprocesses
    split at hprocesses
    · exact h.cached owner cached id hcached pid process hprocesses hprocessLive
    · rw [List.mem_singleton.mp (List.mem_of_getElem? hprocesses)] at hprocessLive
      simp only [Process.isLive, Bool.and_eq_true, decide_eq_true_eq] at hprocessLive
      exact absurd hprocessLive.1.2.symm howner
  · have hprocesses : (w.processes ++ [new])[pid]? = some process := hprocess
    rw [honly pid ⟨process, hprocess, hprocessLive⟩, List.getElem?_concat_length,
      Option.some.injEq] at hprocesses
    rw [← hprocesses]

end Launch

/-! ## Runs -/

/-- What happens on the host: the daemon serves an operation, or somebody else changes what is
    stored. -/
inductive HostStep where
  | serve (operation : Operation)
  | configure (store : StateStore)
  deriving DecidableEq

/-- A step of the host. -/
def HostStep.perform (depth : Nat) : HostStep → Call Unit
  | .serve operation => Daemon.serve depth operation
  | .configure store => modify fun w => { w with store }

section Runs

variable {depth : Nat} {name : Str} {w : World}

theorem setBalloonTarget_coherent (memoryMib : UInt32) :
    Maintains Orderly (fun _ => True) (Coherent fun _ => False)
      (setBalloonTarget name memoryMib) :=
  setBalloonTarget_sat undisturbed_coherent (fun _ hw => hw.exempting)
    fun _ hw hsame => ⟨hw, hw.cached name memoryMib id hsame⟩

/-- What is done to an instance that is loaded leaves the balloon coherent. -/
theorem tolerant_coherent (name : Str) :
    Tolerant Orderly (fun _ => True) (Coherent fun _ => False) (fun _ => Coherent fun _ => False)
      name where
  quiet := undisturbed_coherent
  quietNoted _ := undisturbed_coherent
  setState _ _ := setState_coherent
  setBalloonTarget := setBalloonTarget_coherent
  unlinked _ _ := trivial
  presumedGone _ _ := trivial
  unmanage _ h := ⟨h.disk, h.heard, h.readable, h.sole, h.cached, h.right⟩
  noted _ := id
  unmanageNoted _ _ h := ⟨h.disk, h.heard, h.readable, h.sole, h.cached, h.right⟩
  forget _ _ := id
  recordEnd _ _ _ _ := Sat.bind (.ite (fun _ => .emit fun _ h _ => ⟨trivial, h⟩)
    fun _ => .pure fun _ => id) fun _ => setState_coherent

theorem launch_coherent (phase : LaunchPhase) :
    Maintains Orderly (fun _ => True) (Coherent fun _ => False) (launch name phase) := by
  have hloaded : ∀ manifest, Undisturbed (With (Coherent fun _ => False) name manifest) :=
    fun _ => undisturbed_with undisturbed_coherent
  refine launch_maintains (C := With (Coherent fun _ => False) name) (L := Booted name)
    undisturbed_coherent hloaded (fun _ => undisturbed_booted) (fun _ _ => With.left)
    (tolerant_coherent name).checkLaunchable
    (fun manifest dir => (prepareLaunch_maintains (hloaded manifest) (fun _ _ => trivial)
      dir).weaken fun _ => With.left)
    (fun manifest => spawnQemu_sat (hloaded manifest) fun w hw hnone =>
      ⟨trivial, fun helpers => hw.1.pushQemu hw.2 hnone phase helpers⟩)
    (fun _ e => abandon_booted e) fun _ dir => recordLaunch_booted phase dir

theorem perform_coherent (depth : Nat) (operation : Operation) :
    Maintains Orderly (fun _ => True) (Coherent fun _ => False) (operation.perform depth) := by
  refine perform_maintains (R := fun _ _ => Coherent fun _ => False) ?_ tolerant_coherent
    (fun _ => launch_coherent .install)
    (.modify fun _ h => ⟨h.disk, h.heard, h.readable, h.sole, h.cached, h.right⟩) depth operation
  exact Tolerant.blocks (R := fun _ _ => Coherent fun _ => False) tolerant_coherent trivial
    (fun _ _ _ _ _ _ _ => trivial)
    (fun _ _ _ => Sat.pre (hibernateFrom_maintains undisturbed_coherent
      (fun _ h => ⟨h.disk, h.heard, h.readable, h.sole, h.cached, h.right⟩)
      fun _ _ h => ⟨h.disk, h.heard, h.readable, h.sole, h.cached, h.right⟩) fun _ => With.left)
    fun _ => launch_coherent .run

/-- In every run over any number of launches, restarts and changes of the configuration, with any
    failures of QMP: if files can be written and manifests can be read, QEMU carries out no
    command whose reply is lost, no QEMU is launched beside another one, and no launch drops an
    error of its balloon command while another target is cached, then whenever
    `set_balloon_target` has returned `Ok`, the QEMU of the instance had that target. -/
theorem balloon_reports_are_right {steps : List HostStep} (h : Coherent (fun _ => False) w)
    (hstores : ∀ store, .configure store ∈ steps → ∃ manifests, ReadableWith store manifests)
    (hevents : ∀ event ∈ (each (HostStep.perform depth) steps w).events, Orderly event) :
    ∀ report ∈ (each (HostStep.perform depth) steps w).state.reports, report.IsRight := by
  have hstep : ∀ step ∈ steps, Maintains Orderly (fun _ => True) (Coherent fun _ => False)
      (HostStep.perform depth step) := by
    intro step hmem
    cases step with
    | serve operation => exact (perform_coherent depth operation).attemptNested.done
    | configure store =>
      obtain ⟨manifests, hreadable⟩ := hstores store hmem
      exact .modify fun _ hw => hw.storing hreadable
  have hrun := (Sat.each_mem hstep w h hevents).2
  cases hresult : (each (HostStep.perform depth) steps w).result with
  | ok _ =>
    rw [hresult] at hrun
    exact hrun.right
  | error e =>
    rw [hresult] at hrun
    exact hrun.right

end Runs

/-! ### The demo instance -/

instance (report : BalloonReport) : Decidable report.IsRight :=
  inferInstanceAs (Decidable (∀ target ∈ report.targets, target = report.memoryMib))

instance : DecidablePred Orderly
  | .launched _ _ live => inferInstanceAs (Decidable (live = false))
  | .balloonDropped _ stale => inferInstanceAs (Decidable (stale = false))
  | .unlinked _ _ _ | .presumedGone _ _ _ | .policyPass | .hibernationRecorded _ _ =>
    inferInstanceAs (Decidable True)

/-- Helper and QEMU create their sockets, QEMU ends when it is asked to quit, and some calls do not
    work. -/
def balloonAnswer (failing : List Nat) (tick : Nat) : Answer where
  exits := if tick = 25 then [(1, { success := true, shown := "exit status: 0" })] else []
  created := if tick ∈ [5, 35] then [("demo".toList, .swtpmSock)]
    else if tick ∈ [7, 37] then [("demo".toList, .qmpSock)] else []
  ok := decide (tick ∉ failing)
  fs := preparedFs
  proc := { entries := none, commandLine := fun _ => .missing }

/-- The balloon of the demo instance is set, the instance is stopped by force and started again,
    and its balloon is set to the same value. -/
def balloonSteps : List HostStep :=
  [.start "demo".toList .run, .balloon "demo".toList 2048, .stop "demo".toList true,
    .start "demo".toList .run, .balloon "demo".toList 2048].map .serve

theorem coherent_demoWorld (failing : List Nat) :
    Coherent (fun _ => False) (demoWorld (balloonAnswer failing)) where
  disk _ := rfl
  heard _ := rfl
  readable := ⟨_, readableWith_demoWorld _⟩
  sole := by simp [World.LiveAt, demoWorld]
  cached _ _ _ := by simp [demoWorld]
  right := by simp [demoWorld]

/-- Where every call works, four reports are made, and they are right. -/
theorem demo_balloon_reports_are_right :
    (each (HostStep.perform 3) balloonSteps (demoWorld (balloonAnswer []))).state.reports.length =
      4 ∧
    ∀ report ∈ (each (HostStep.perform 3) balloonSteps
      (demoWorld (balloonAnswer []))).state.reports, report.IsRight := by
  -- One evaluation of the run gives the number of its reports and that its events are orderly.
  obtain ⟨hcount, horderly⟩ :
      (each (HostStep.perform 3) balloonSteps
        (demoWorld (balloonAnswer []))).state.reports.length = 4 ∧
      ∀ event ∈ (each (HostStep.perform 3) balloonSteps
        (demoWorld (balloonAnswer []))).events, Orderly event := by
    decide +kernel
  exact ⟨hcount, balloon_reports_are_right (coherent_demoWorld []) (by simp [balloonSteps])
    horderly⟩

/-- The second launch cannot set the balloon, and nobody is told.  What the file says about the
    QEMU before is then reported of the new one, which has its boot memory. -/
theorem stale_balloon_target_is_reported :
    Coherent (fun _ => False) (demoWorld (balloonAnswer [43])) ∧
    { name := "demo".toList, memoryMib := 2048, targets := [4096] } ∈
      (each (HostStep.perform 3) balloonSteps
        (demoWorld (balloonAnswer [43]))).state.reports :=
  ⟨coherent_demoWorld _, by decide +kernel⟩

end Lsw.Daemon
