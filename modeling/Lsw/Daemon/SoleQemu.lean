import Lsw.Daemon.Calm

/-!
# At Most One QEMU for an Instance

Two QEMU processes on one disk image destroy it.  What keeps the supervisor from launching a
second one is not a single check: `start` relies on the answer of QMP and, where there is none,
on the stored state.  So the stored state has to be active as long as a QEMU lives, through
every operation and across restarts of the daemon.

Three places take silence for the end of QEMU.  As long as they are right, the invariant holds
and no operation launches a QEMU, or unlinks the sockets of one, beside another of the same
instance.
-/

namespace Lsw.Daemon

open Lsw.Lib Lsw.Core Traced

/-! ## The invariant -/

/-- The daemon was right to take the QEMU for ended. -/
def Event.Warranted : Event → Prop
  | .presumedGone _ _ live => live = false
  | _ => True

instance : DecidablePred Event.Warranted
  | .presumedGone _ _ live => inferInstanceAs (Decidable (live = false))
  | .launched _ _ _ | .unlinked _ _ _ | .policyPass | .hibernationRecorded _ _
  | .balloonDropped _ _ => inferInstanceAs (Decidable True)

/-- Nothing was launched, and no socket unlinked, beside a live QEMU of the same instance. -/
def Event.Safe : Event → Prop
  | .launched _ _ live | .unlinked _ _ live => live = false
  | _ => True

/-- An instance with a QEMU, or with a child of the daemon, is stored as active, and the child
    is its only QEMU.  One instance may be exempt, while it is being launched. -/
structure Recorded (exempt : Option Str) (w : World) : Prop where
  disk : ∀ tick, (w.env tick).disk = true
  readable : ∃ manifests, ReadableWith w.store manifests
  active : ∀ name, exempt ≠ some name → (w.owns name = true ∨ ∃ pid, w.LiveAt name pid) →
    ∃ manifest, w.store.load name = .ok manifest ∧ StateStore.isActive manifest.state = true
  sole : ∀ name vm pid, exempt ≠ some name → w.managed.lookup name = some vm →
    w.LiveAt name pid → pid = vm.qemu

/-- The only QEMU of the instance that may live is that of the PID. -/
def OnlyAt (name : Str) (pid : Nat) (w : World) : Prop := ∀ other, w.LiveAt name other → other = pid

/-- No QEMU of the instance lives. -/
def NoneLive (name : Str) (w : World) : Prop := ∀ pid, ¬ w.LiveAt name pid

/-- Assertions that calm calls keep. -/
def Steady (P : World → Prop) : Prop := ∀ w w', Calm w w' → P w → P w'

section Steady

variable {exempt : Option Str} {name : Str}

theorem Steady.and {P Q : World → Prop} (hP : Steady P) (hQ : Steady Q) :
    Steady fun w => P w ∧ Q w := fun w w' h hw => ⟨hP w w' h hw.1, hQ w w' h hw.2⟩

theorem steady_recorded : Steady (Recorded exempt) := by
  intro w w' h hw
  refine ⟨fun tick => ?_, ?_, fun name hexempt hlive => ?_, fun name vm pid hexempt hvm hlive => ?_⟩
  · rw [h.env]
    exact hw.disk tick
  · rw [h.store]
    exact hw.readable
  · rw [h.store]
    refine hw.active name hexempt (hlive.imp (fun howns => ?_) fun ⟨pid, hpid⟩ => ?_)
    · rwa [World.owns, h.managed] at howns
    · exact ⟨pid, h.live name pid hpid⟩
  · rw [h.managed] at hvm
    exact hw.sole name vm pid hexempt hvm (h.live name pid hlive)

theorem steady_noneLive : Steady (NoneLive name) :=
  fun _ _ h hw pid hlive => hw pid (h.live name pid hlive)

theorem steady_onlyAt {pid : Nat} : Steady (OnlyAt name pid) :=
  fun _ _ h hw other hlive => hw other (h.live name other hlive)

theorem steady_store {P : StateStore → Prop} : Steady fun w => P w.store := by
  intro w w' h hw
  rwa [h.store]

theorem steady_managed {P : List (Str × ManagedVm) → Prop} : Steady fun w => P w.managed := by
  intro w w' h hw
  rwa [h.managed]

/-- The QEMU of the instance has ended. -/
def Ended (exempt : Option Str) (name : Str) (w : World) : Prop :=
  Recorded exempt w ∧ NoneLive name w

theorem steady_ended : Steady (Ended exempt name) := steady_recorded.and steady_noneLive

/-- The QEMU of the instance has ended, and the daemon has forgotten it. -/
def Released (exempt : Option Str) (name : Str) (w : World) : Prop :=
  Ended exempt name w ∧ w.owns name = false

theorem steady_released : Steady (Released exempt name) :=
  steady_ended.and (steady_managed (P := fun managed => (managed.lookup name).isSome = false))

end Steady

/-! ### What the changes of the world do to it -/

section Changes

variable {w : World} {exempt : Option Str} {name : Str}

/-- Forgetting a child is harmless. -/
theorem Recorded.unmanage (h : Recorded exempt w) : Recorded exempt (w.unmanage name) := by
  have hlookup : ∀ other vm, (w.unmanage name).managed.lookup other = some vm →
      w.managed.lookup other = some vm := by
    intro other vm hvm
    by_cases hother : other = name
    · rw [hother, World.unmanage, lookup_filter_self] at hvm
      cases hvm
    · rwa [World.unmanage, lookup_filter_ne hother] at hvm
  refine ⟨h.disk, h.readable, fun other hexempt hlive => ?_, fun other vm pid hexempt hvm hlive => ?_⟩
  · refine h.active other hexempt (hlive.imp_left fun howns => ?_)
    obtain ⟨vm, hvm⟩ := Option.isSome_iff_exists.mp howns
    exact Option.isSome_iff_exists.mpr ⟨vm, hlookup other vm hvm⟩
  · exact h.sole other vm pid hexempt (hlookup other vm hvm) hlive

theorem Ended.unmanage (h : Ended exempt name w) : Released exempt name (w.unmanage name) :=
  ⟨⟨h.1.unmanage, h.2⟩, owns_unmanage_self⟩

/-- An instance without a QEMU and without a child needs no exemption. -/
theorem Released.recorded (h : Released (some name) name w) : Recorded none w := by
  obtain ⟨⟨hrecorded, hnone⟩, howns⟩ := h
  refine ⟨hrecorded.disk, hrecorded.readable, fun other _ hlive => ?_,
    fun other vm pid _ hvm hlive => ?_⟩
  · by_cases hother : other = name
    · subst hother
      rcases hlive with hlive | ⟨pid, hpid⟩
      · rw [howns] at hlive
        cases hlive
      · exact absurd hpid (hnone pid)
    · exact hrecorded.active other (fun heq => hother (Option.some.inj heq).symm) hlive
  · by_cases hother : other = name
    · subst hother
      exact absurd hlive (hnone pid)
    · exact hrecorded.sole other vm pid (fun heq => hother (Option.some.inj heq).symm) hvm hlive

/-- An instance that is not stored as active has no QEMU and no child. -/
theorem Recorded.released {manifest : InstanceManifest} (h : Recorded none w)
    (hload : w.store.load name = .ok manifest)
    (hstate : StateStore.isActive manifest.state = false) : Released none name w := by
  have hnot : ¬ (w.owns name = true ∨ ∃ pid, w.LiveAt name pid) := by
    intro hlive
    obtain ⟨found, hfound, hactive⟩ := h.active name (by simp) hlive
    rw [hload, Except.ok.injEq] at hfound
    rw [← hfound, hstate] at hactive
    cases hactive
  rw [not_or] at hnot
  exact ⟨⟨h, fun pid hpid => hnot.2 ⟨pid, hpid⟩⟩, Bool.eq_false_iff.mpr hnot.1⟩

/-- The one child that may live has ended. -/
theorem OnlyAt.noneLive {pid : Nat} (h : OnlyAt name pid w) (hended : ¬ w.LiveAt name pid) :
    NoneLive name w := by
  intro other hother
  exact hended (h other hother ▸ hother)

end Changes

/-! ## State changes -/

/-- A call meets its specification as long as the daemon presumes no QEMU gone that lives. -/
abbrev Spec {α : Type} (P : World → Prop) (call : Call α) (Q : α → World → Prop)
    (E : World → Prop) : Prop := Sat Event.Warranted Event.Safe P call Q E

/-- Calm calls keep steady assertions. -/
theorem Calms.spec {α : Type} {call : Call α} (h : Calms call) {P : World → Prop}
    (hP : Steady P) : Spec P call (fun _ => P) P := Within.sat h hP

theorem Quiets.spec {α : Type} {call : Call α} (h : Quiets call) {P : World → Prop}
    (hP : Steady P) : Spec P call (fun _ => P) P := h.calms.spec hP

/-- What `setState` does when it succeeds. -/
structure StateSet (name : Str) (state : InstanceState) (w w' : World) : Prop where
  env : w'.env = w.env
  managed : w'.managed = w.managed
  live : ∀ other pid, w'.LiveAt other pid → w.LiveAt other pid
  readable : ∃ manifests, ReadableWith w'.store manifests
  load : ∃ manifest, w'.store.load name = .ok manifest ∧ manifest.state = state
  others : ∀ other found, other ≠ name → w.store.load other = .ok found →
    w'.store.load other = .ok found

section SetState

variable {w w' : World} {exempt : Option Str} {name : Str} {state : InstanceState}

/-- The state of an instance that can be read can be set. -/
theorem setState_of_load {manifest : InstanceManifest} (h : Recorded exempt w)
    (hload : w.store.load name = .ok manifest) :
    ∃ w', setState name state w = ⟨.ok (), w', []⟩ ∧ StateSet name state w w' := by
  obtain ⟨manifests, hreadable⟩ := h.readable
  have hcalm := (Quiet.pass w (w.env w.tick)).calm
  obtain ⟨next, nextManifests, hnext, hloaded, hothers, hrun⟩ :=
    setState_of_readable state hreadable (h.disk w.tick) hload
  exact ⟨_, hrun, hcalm.env, hcalm.managed, hcalm.live, ⟨nextManifests, hnext⟩,
    ⟨_, hloaded, rfl⟩, hothers⟩

/-- A state is set, or the manifest cannot be loaded. -/
theorem setState_spec {P Q E : World → Prop} (hP : ∀ w, P w → Recorded exempt w)
    (hset : ∀ w w', P w → StateSet name state w w' → Q w')
    (hE : ∀ w e, P w → w.store.load name = .error e → E w) :
    Spec P (setState name state) (fun _ => Q) E := by
  intro w hw _
  cases hload : w.store.load name with
  | ok manifest =>
    obtain ⟨w', hrun, hstate⟩ :
        ∃ w', setState name state w = ⟨.ok (), w', []⟩ ∧ StateSet name state w w' :=
      setState_of_load (hP w hw) hload
    rw [hrun]
    exact ⟨by simp, hset w w' hw hstate⟩
  | error e =>
    rw [setState_of_load_error hload]
    exact ⟨by simp, hE w e hw hload⟩

/-- The instance whose state is set needs an active state, or no QEMU and no child; then it
    needs no exemption. -/
theorem StateSet.recorded (hset : StateSet name state w w') (h : Recorded exempt w)
    (hexempt : exempt = none ∨ exempt = some name)
    (hstate : StateStore.isActive state = true ∨ w.owns name = false ∧ NoneLive name w)
    (hsole : ∀ vm, w.managed.lookup name = some vm → OnlyAt name vm.qemu w) :
    Recorded none w' := by
  -- No other instance is exempt.
  have hother : ∀ other, other ≠ name → exempt ≠ some other := by
    rintro other hne rfl
    rcases hexempt with hexempt | hexempt
    · cases hexempt
    · exact hne (Option.some.inj hexempt)
  refine ⟨fun tick => ?_, hset.readable, fun other _ hlive => ?_, fun other vm pid _ hvm hlive => ?_⟩
  · rw [hset.env]
    exact h.disk tick
  -- Setting a state neither starts nor ends a process.
  · have hlive' : w.owns other = true ∨ ∃ pid, w.LiveAt other pid := by
      refine hlive.imp (fun howns => ?_) fun ⟨pid, hpid⟩ => ⟨pid, hset.live other pid hpid⟩
      rwa [World.owns, hset.managed] at howns
    -- The instance itself has its new state, any other one its old.
    by_cases hname : other = name
    · subst hname
      obtain ⟨manifest, hload, hstored⟩ := hset.load
      refine ⟨manifest, hload, ?_⟩
      rw [hstored]
      rcases hstate with hstate | ⟨howns, hnone⟩
      · exact hstate
      · rcases hlive' with hlive' | ⟨pid, hpid⟩
        · rw [howns] at hlive'
          cases hlive'
        · exact absurd hpid (hnone pid)
    · obtain ⟨manifest, hload, hactive⟩ := h.active other (hother other hname) hlive'
      exact ⟨manifest, hset.others other manifest hname hload, hactive⟩
  -- The children are those of before.
  · rw [hset.managed] at hvm
    by_cases hname : other = name
    · subst hname
      exact hsole vm hvm pid (hset.live other pid hlive)
    · exact h.sole other vm pid (hother other hname) hvm (hset.live other pid hlive)

/-- Setting an active state. -/
theorem setState_active (hstate : StateStore.isActive state = true) :
    Spec (Recorded none) (setState name state) (fun _ => Recorded none) (Recorded none) :=
  setState_spec (fun _ => id)
    (fun _ _ h hset => hset.recorded h (.inl rfl) (.inl hstate)
      fun vm hvm pid hlive => h.sole name vm pid (by simp) hvm hlive)
    fun _ _ h _ => h

/-- Setting any state once the QEMU has ended and is forgotten. -/
theorem setState_released (hexempt : exempt = none ∨ exempt = some name) :
    Spec (Released exempt name) (setState name state) (fun _ => Released none name)
      (Released exempt name) := by
  refine setState_spec (fun _ h => h.1.1) (fun w w' h hset => ?_) fun _ _ h _ => h
  obtain ⟨⟨hrecorded, hnone⟩, howns⟩ := h
  have hnext : Recorded none w' := hset.recorded hrecorded hexempt (.inr ⟨howns, hnone⟩)
    fun _ _ pid hlive => absurd hlive (hnone pid)
  refine ⟨⟨hnext, fun pid hlive => hnone pid (hset.live name pid hlive)⟩, ?_⟩
  rwa [World.owns, hset.managed]

theorem noteHibernation_spec {P E : World → Prop} :
    Spec P (noteHibernation name state) (fun _ => P) E :=
  .ite (fun _ => .emit fun _ h _ => ⟨trivial, h⟩) fun _ => .pure fun _ => id

theorem recordEnd_released (hexempt : exempt = none ∨ exempt = some name) :
    Spec (Released exempt name) (recordEnd name state) (fun _ => Released none name)
      (Released exempt name) :=
  noteHibernation_spec.bind fun _ => setState_released hexempt

end SetState

/-! ## Children that end -/

section Children

variable {P : World → Prop} {name : Str} {pid : Nat}

/-- The process of the PID has ended. -/
def GoneAt (pid : Nat) (w : World) : Prop := ∀ name, ¬ w.LiveAt name pid

theorem tryWait_spec (hP : Steady P) :
    Spec P (tryWait pid) (fun status w => P w ∧ (status.isSome = true → GoneAt pid w)) P := by
  refine (quiets_ask.spec hP).bind fun _ => .read fun w hw => ⟨hw, fun hsome name hlive => ?_⟩
  obtain ⟨process, hprocess, hlive⟩ := hlive
  rw [hprocess, Option.bind_some] at hsome
  simp [Process.isLive, Option.isSome_iff_ne_none.mp hsome] at hlive

theorem killAndWait_spec (hP : Steady P) :
    Spec P (killAndWait pid) (fun _ w => P w ∧ GoneAt pid w) P :=
  .modify fun w hw => ⟨hP w _ (Quiet.endProcess w pid .killed).calm hw,
    fun _ hlive => (liveAt_endProcess.mp hlive).1 rfl⟩

theorem waitForChildExit_spec (hP : Steady P) (timeout : Nat) :
    Spec P (waitForChildExit pid timeout)
      (fun status w => P w ∧ (status.isSome = true → GoneAt pid w)) P := by
  refine Sat.bind Sat.look fun now => ?_
  generalize timeout / 50 + 1 = rounds
  induction rounds with
  | zero => exact .pure fun _ hw => ⟨hw, by simp⟩
  | succ rounds ih =>
    refine Sat.bind Sat.look fun _ => .ite (fun _ => .pure fun _ hw => ⟨hw, by simp⟩)
      fun _ => (tryWait_spec hP).bind fun status => .ite (fun _ => .pure fun _ => id) fun _ => ?_
    exact ((quiets_sleep.spec hP).pre fun _ h => h.1).bind fun _ => ih

theorem waitOrKill_spec (hP : Steady P) (timeout : Nat) :
    Spec P (waitOrKill pid timeout) (fun _ w => P w ∧ GoneAt pid w) P :=
  (waitForChildExit_spec hP timeout).bind fun _ => .ite
    (fun hsome => .pure fun _ h => ⟨h.1, h.2 hsome⟩)
    fun _ => (killAndWait_spec hP).pre fun _ h => h.1

theorem endQemu_spec (hP : Steady P) (hibernateRequested : Bool) (vm : ManagedVm) :
    Spec P (endQemu hibernateRequested vm) (fun _ w => P w ∧ GoneAt vm.qemu w) P := by
  have hnatural : Spec P (naturalQemuExit hibernateRequested vm)
      (fun status w => P w ∧ (status.isSome = true → GoneAt vm.qemu w)) P :=
    .ite (fun _ => waitForChildExit_spec hP forceStopTimeout)
      fun _ => .pure fun _ hw => ⟨hw, by simp⟩
  refine hnatural.bind fun exit => ?_
  cases exit with
  | some status => exact .pure fun _ h => ⟨h.1, h.2 rfl⟩
  | none => exact ((killAndWait_spec hP).pre fun _ h => h.1).bind fun _ => .pure fun _ => id

/-- Sockets are unlinked once no QEMU of the instance lives. -/
theorem cleanupRuntimeSockets_spec (hP : Steady P) (hnone : ∀ w, P w → NoneLive name w)
    (dir : PathBuf) : Spec P (cleanupRuntimeSockets dir name) (fun _ => P) P := by
  refine .each fun file => Sat.bind Sat.look fun entry => ?_
  cases entry with
  | absent => exact .pure fun _ => id
  | file => exact .fail fun _ => id
  | other => exact .fail fun _ => id
  | socket =>
    exact (quiets_disk.spec hP).bind fun _ =>
      Sat.bind (Sat.emit fun w hw _ => ⟨isLive_eq_false (hnone w hw), hw⟩) fun _ =>
        .modify fun w hw => hP w _ (Quiet.unlink w name file).calm hw

theorem cleanupStoppedRuntimeArtifacts_spec (hP : Steady P)
    (hnone : ∀ w, P w → NoneLive name w) :
    Spec P (cleanupStoppedRuntimeArtifacts name) (fun _ => P) P := by
  refine Sat.bind Sat.look fun dir => ?_
  cases dir with
  | error e => exact .pure fun _ => id
  | ok dir =>
    exact ((quiets_removeFile .qemuPid).spec hP).bind fun _ =>
      ((quiets_removeFile .installationViewer).spec hP).bind fun _ =>
        (Sat.attempt (cleanupRuntimeSockets_spec hP hnone dir) (fun _ _ => id) (by simp)).bind
          fun _ => .pure fun _ => id

theorem clearRuntime_spec (hP : Steady P) (hnone : ∀ w, P w → NoneLive name w) :
    Spec P (clearRuntime name) (fun _ => P) P :=
  ((quiets_removeFile .shutdownRequested).spec hP).bind fun _ =>
    ((quiets_removeFile .hibernateRequested).spec hP).bind fun _ =>
      (cleanupStoppedRuntimeArtifacts_spec hP hnone).bind fun _ =>
        quiets_removeEphemeralOverlay.spec hP

/-- What `poll` does once a QEMU has ended and is forgotten. -/
theorem retire_spec (helpers : List Nat) (state : InstanceState) :
    Spec (Released none name)
      (do
        stopHelpers helpers
        clearRuntime name
        let _ ← attempt (recordEnd name state)
        return)
      (fun _ => Recorded none) (Recorded none) := by
  have hweaken : ∀ w, Released none name w → Recorded none w := fun _ h => h.1.1
  have hset : Spec (Released none name) (attempt (recordEnd name state))
      (fun _ => Recorded none) (Recorded none) :=
    .attempt ((recordEnd_released (.inl rfl)).mono (fun _ => id) (fun _ => hweaken) hweaken)
      (fun _ _ => id) (by simp)
  exact (((quiets_stopHelpers helpers).spec steady_released).weaken hweaken).bind fun _ =>
    ((clearRuntime_spec steady_released fun _ h => h.1.2).weaken hweaken).bind fun _ =>
      hset.bind fun _ => .pure fun _ => id

/-- `poll` keeps the record of every child. -/
theorem pollVm_spec (vm : ManagedVm) :
    Spec (fun w => Recorded none w ∧ OnlyAt name vm.qemu w) (pollVm name vm)
      (fun _ => Recorded none) (Recorded none) := by
  have hsteady : Steady fun w => Recorded none w ∧ OnlyAt name vm.qemu w :=
    steady_recorded.and steady_onlyAt
  have hweaken : ∀ w, Recorded none w ∧ OnlyAt name vm.qemu w → Recorded none w := fun _ h => h.1
  refine ((tryWait_spec hsteady).weaken hweaken).bind fun exit => ?_
  -- The child has ended, or it has not.
  cases exit with
  -- It has: no other QEMU of the instance lives, since it was the only one.
  | some status =>
    refine Sat.bind Sat.look fun _ => Sat.bind Sat.look fun _ => ?_
    refine Sat.bind (Q := fun _ => Released none name) (Sat.modify fun w h => ?_) fun _ =>
      retire_spec vm.helpers _
    exact Ended.unmanage ⟨h.1.1, h.1.2.noneLive (h.2 rfl name)⟩
  -- A helper of it may have ended: then it is stopped and forgotten.
  | none =>
    refine ((((quiets_anyExited vm.helpers).spec hsteady).pre fun _ h => h.1).weaken
      hweaken).bind fun _ => .ite (fun _ => ?_) fun _ => .pure hweaken
    refine Sat.bind Sat.look fun _ => Sat.bind Sat.look fun _ => ?_
    refine Sat.bind (Q := fun _ w => (Recorded none w ∧ OnlyAt name vm.qemu w) ∧
      w.owns name = false) (Sat.modify fun w h => ⟨⟨h.1.unmanage, h.2⟩, owns_unmanage_self⟩)
      fun _ => ?_
    have hforgotten : Steady fun w => (Recorded none w ∧ OnlyAt name vm.qemu w) ∧
        w.owns name = false :=
      hsteady.and (steady_managed (P := fun managed => (managed.lookup name).isSome = false))
    refine ((endQemu_spec hforgotten _ vm).weaken fun _ h => h.1.1).bind fun exit => ?_
    refine (retire_spec vm.helpers _).pre fun w h => ?_
    exact ⟨⟨h.1.1.1, h.1.1.2.noneLive (h.2 name)⟩, h.1.2⟩

theorem pollNames_spec (names : List Str) :
    Spec (Recorded none) (each pollName names) (fun _ => Recorded none) (Recorded none) := by
  refine .each fun name => ?_
  refine Sat.bind (Q := fun managed w => Recorded none w ∧
    ∀ vm, managed = some vm → OnlyAt name vm.qemu w)
    (Sat.read fun w h => ⟨h, fun vm hvm pid hlive => h.sole name vm pid (by simp) hvm hlive⟩)
    fun managed => ?_
  cases managed with
  | none => exact .pure fun _ h => h.1
  | some vm => exact (pollVm_spec vm).pre fun _ h => ⟨h.1, h.2 vm rfl⟩

end Children

/-! ## Launching -/

section Launching

variable {name : Str}

/-- The manifest of the instance can be read. -/
def Loads (name : Str) (w : World) : Prop := ∃ manifest, w.store.load name = .ok manifest

theorem steady_loads : Steady (Loads name) :=
  steady_store (P := fun store => ∃ manifest, store.load name = .ok manifest)

/-- An instance that may be launched. -/
def Clear (name : Str) (w : World) : Prop := Ended none name w ∧ Loads name w

theorem steady_clear : Steady (Clear name) := steady_ended.and steady_loads

theorem Clear.recorded {w : World} (h : Clear name w) : Recorded none w := h.1.1

/-- An instance whose QEMU has just been launched, and is not recorded yet. -/
def Launched (name : Str) (w : World) : Prop :=
  (Recorded (some name) w ∧ Loads name w) ∧
    ∃ vm, w.managed.lookup name = some vm ∧ OnlyAt name vm.qemu w

theorem steady_launched : Steady (Launched name) := by
  refine (steady_recorded.and steady_loads).and fun w w' h hw => ?_
  obtain ⟨vm, hvm, honly⟩ := hw
  exact ⟨vm, by rwa [h.managed], steady_onlyAt w w' h honly⟩

/-- A presumption that was right. -/
theorem presume_spec {P : World → Prop} {E : World → Prop} (why : Presumption) :
    Spec P (emit fun w => .presumedGone name why (w.isLive name))
      (fun _ w => P w ∧ NoneLive name w) E := by
  refine .emit fun w hw hwarranted => ⟨trivial, hw, fun pid hlive => ?_⟩
  have hlive' := isLive_iff.mpr ⟨pid, hlive⟩
  rw [show w.isLive name = false from hwarranted] at hlive'
  cases hlive'

/-- The guard of `start` lets an instance pass only when no QEMU of it lives: the state says so,
    or the presumption about a suspended one was right. -/
theorem checkLaunchable_spec (manifest : InstanceManifest) (phase : LaunchPhase) :
    Spec (fun w => Recorded none w ∧ w.store.load name = .ok manifest)
      (checkLaunchable name manifest.state phase) (fun _ => Clear name) (Recorded none) := by
  have hrefuse : ∀ e, Spec (fun w => Recorded none w ∧ w.store.load name = .ok manifest)
      (fail e) (fun (_ : Unit) => Clear name) (Recorded none) := fun e => .fail fun _ h => h.1
  have hpass : StateStore.isActive manifest.state = false →
      Spec (fun w => Recorded none w ∧ w.store.load name = .ok manifest)
        (pure ()) (fun _ => Clear name) (Recorded none) := fun hstate =>
    .pure fun w h => ⟨(h.1.released h.2 hstate).1, manifest, h.2⟩
  have hpresume : Spec (fun w => Recorded none w ∧ w.store.load name = .ok manifest)
      (emit fun w => .presumedGone name .suspendedUnanswered (w.isLive name))
      (fun _ => Clear name) (Recorded none) :=
    (presume_spec .suspendedUnanswered).mono (fun _ => id)
      (fun _ _ h => ⟨⟨h.1.1, h.2⟩, manifest, h.1.2⟩) fun _ => id
  cases hstate : manifest.state <;> cases phase <;> rw [hstate] at hpass <;>
    first | exact hrefuse _ | exact hpass rfl | exact hpresume

theorem prepareLaunch_spec (dir : PathBuf) :
    Spec (Clear name) (prepareLaunch dir name) (fun _ => Clear name) (Clear name) :=
  (quiets_outside.spec steady_clear).bind fun _ =>
    (cleanupStoppedRuntimeArtifacts_spec steady_clear fun _ h => h.1.2).bind fun _ =>
      (cleanupRuntimeSockets_spec steady_clear (fun _ h => h.1.2) dir).bind fun _ =>
        ((quiets_removeFile .shutdownRequested).spec steady_clear).bind fun _ =>
          (quiets_removeFile .hibernateRequested).spec steady_clear

theorem liveAt_pushQemu {w : World} {other : Str} {phase : LaunchPhase} {memoryMib : UInt32}
    {pid : Nat} :
    (w.pushQemu name phase memoryMib).LiveAt other pid ↔
      w.LiveAt other pid ∨ pid = w.processes.length ∧ name = other := by
  have hpush : (w.pushQemu name phase memoryMib).LiveAt other pid ↔
      (w.push { role := .qemu, owner := name, phase, balloon := memoryMib }).LiveAt other pid :=
    Iff.rfl
  rw [hpush, liveAt_push]
  simp [Process.isLive]

theorem Recorded.pushQemu {w : World} (h : Recorded none w) (phase : LaunchPhase)
    (memoryMib : UInt32) : Recorded (some name) (w.pushQemu name phase memoryMib) := by
  have hlive : ∀ other pid, some name ≠ some other →
      (w.pushQemu name phase memoryMib).LiveAt other pid → w.LiveAt other pid := by
    intro other pid hne hlive
    rcases liveAt_pushQemu.mp hlive with hlive | ⟨-, heq⟩
    · exact hlive
    · exact absurd (congrArg some heq) hne
  refine ⟨h.disk, h.readable, fun other hne hother => ?_, fun other vm pid hne hvm hother => ?_⟩
  · exact h.active other (by simp) (hother.imp_right fun ⟨pid, hpid⟩ => ⟨pid, hlive other pid hne hpid⟩)
  · exact h.sole other vm pid (by simp) hvm (hlive other pid hne hother)

/-- A QEMU is spawned where none of the instance lives. -/
theorem spawnQemu_spec (phase : LaunchPhase) (memoryMib : UInt32) :
    Spec (Clear name) (spawnQemu name phase memoryMib)
      (fun pid w => (Recorded (some name) w ∧ Loads name w) ∧ OnlyAt name pid w) (Clear name) := by
  refine (quiets_outside.spec steady_clear).bind fun _ => ?_
  refine Sat.bind (Q := fun pid w => Clear name w ∧ pid = w.processes.length)
    (Sat.read fun _ h => ⟨h, rfl⟩) fun pid => ?_
  refine Sat.bind (Q := fun _ w => Clear name w ∧ pid = w.processes.length)
    (Sat.emit fun w h _ => ⟨isLive_eq_false h.1.1.2, h⟩) fun _ => ?_
  refine Sat.bind (Q := fun _ w => (Recorded (some name) w ∧ Loads name w) ∧ OnlyAt name pid w)
    (Sat.modify fun w h => ?_) fun _ => .pure fun _ => id
  obtain ⟨⟨⟨hrecorded, hnone⟩, hloads⟩, rfl⟩ := h
  refine ⟨⟨hrecorded.pushQemu phase memoryMib, hloads⟩, fun other hlive => ?_⟩
  rcases liveAt_pushQemu.mp hlive with hlive | ⟨heq, -⟩
  · exact absurd hlive (hnone other)
  · exact heq

/-- The new QEMU becomes the child of its instance. -/
theorem Launched.manage {w : World} {vm : ManagedVm} (h : Recorded (some name) w ∧ Loads name w)
    (honly : OnlyAt name vm.qemu w) : Launched name (w.manage name vm) := by
  have hlookup : ∀ other, some name ≠ some other →
      (w.manage name vm).managed.lookup other = w.managed.lookup other := by
    intro other hne
    have hother : other ≠ name := fun heq => hne (congrArg some heq.symm)
    rw [World.manage, List.lookup_cons, beq_eq_false_iff_ne.mpr hother, lookup_filter_ne hother]
  refine ⟨⟨⟨h.1.disk, h.1.readable, fun other hne hother => ?_,
    fun other vm' pid hne hvm hlive => ?_⟩, h.2⟩, vm, ?_, honly⟩
  · refine h.1.active other hne (hother.imp_left fun howns => ?_)
    rwa [World.owns, hlookup other hne] at howns
  · rw [hlookup other hne] at hvm
    exact h.1.sole other vm' pid hne hvm hlive
  · rw [World.manage, List.lookup_cons, beq_self_eq_true]

theorem orWithdraw_spec {α : Type} {P E : World → Prop} {Q : α → World → Prop} {step : Call α}
    (helpers : List Nat) (hE : Steady E) (h : Spec P step Q E) :
    Spec P (orWithdraw name helpers step) Q E := by
  refine Sat.bind (Q := caught Q E) (.attempt h (fun _ _ => id) (by simp)) fun result => ?_
  cases result with
  | ok a => exact .pure fun _ => id
  | error e =>
    exact ((quiets_stopHelpers helpers).spec hE).bind fun _ =>
      (quiets_removeEphemeralOverlay.spec hE).bind fun _ => .fail fun _ => id

theorem spawnPlanned_spec (dir : PathBuf) (manifest : InstanceManifest) (phase : LaunchPhase)
    (plan : CommandPlan) :
    Spec (Clear name) (spawnPlanned dir manifest name phase plan) (fun _ => Launched name)
      (Clear name) := by
  refine ((quiets_spawnHelpers plan.helperCommands []).spec steady_clear).bind fun helpers => ?_
  refine ((quiets_orWithdraw helpers (quiets_waitForSocket dir helpers)).spec steady_clear).bind
    fun _ => ?_
  refine (orWithdraw_spec helpers steady_clear (spawnQemu_spec phase _)).bind fun qemu => ?_
  exact .modify fun w h => Launched.manage h.1 h.2

/-- A child that was launched in vain is killed and forgotten. -/
theorem abandonChild_spec :
    Spec (Launched name) (abandonChild name) (fun _ => Released (some name) name)
      (Released (some name) name) := by
  refine Sat.bind (Q := fun managed w => Launched name w ∧ w.managed.lookup name = managed)
    (Sat.read fun _ h => ⟨h, rfl⟩) fun managed => ?_
  -- A QEMU that was launched is the child of the instance.
  cases managed with
  | none =>
    refine .pure fun w h => ?_
    obtain ⟨⟨-, vm, hvm, -⟩, hnone⟩ := h
    rw [hnone] at hvm
    cases hvm
  | some vm =>
    -- What holds once it is forgotten is kept by ending processes.
    have hforgotten : Steady fun w => (Recorded (some name) w ∧ OnlyAt name vm.qemu w) ∧
        w.owns name = false :=
      (steady_recorded.and steady_onlyAt).and
        (steady_managed (P := fun managed => (managed.lookup name).isSome = false))
    refine Sat.bind (Q := fun _ w => (Recorded (some name) w ∧ OnlyAt name vm.qemu w) ∧
      w.owns name = false) (Sat.modify fun w h => ?_) fun _ => ?_
    · obtain ⟨⟨hrecorded, vm', hvm', honly⟩, hvm⟩ := h
      rw [hvm, Option.some.injEq] at hvm'
      subst hvm'
      exact ⟨⟨hrecorded.1.unmanage, honly⟩, owns_unmanage_self⟩
    · refine Sat.bind (Q := fun _ => Released (some name) name)
        (Sat.modify fun w h => ?_) fun _ => (quiets_stopHelpers vm.helpers).spec steady_released
      have hkept := hforgotten w _ (Quiet.endProcess w vm.qemu .killed).calm h
      -- It has ended, and there was no other.
      have hgone : ¬ (w.endProcess vm.qemu .killed).LiveAt name vm.qemu :=
        fun hlive => (liveAt_endProcess.mp hlive).1 rfl
      exact ⟨⟨hkept.1.1, hkept.1.2.noneLive hgone⟩, hkept.2⟩

/-- A launch that is awaited in vain leaves no QEMU. -/
theorem awaitLaunch_spec :
    Spec (Launched name) (awaitLaunch name) (fun _ => Launched name) (Recorded none) := by
  have hweaken : ∀ w, Released (some name) name w → Recorded none w := fun _ h => h.recorded
  refine Sat.bind (Q := fun _ => Launched name) ?_ fun result => ?_
  · exact .attempt (quiets_waitForQmp.spec steady_launched) (fun _ _ => id) (by simp)
  · cases result with
    | ok _ => exact .pure fun _ => id
    | error e =>
      refine (abandonChild_spec.weaken hweaken).bind fun _ => ?_
      refine ((quiets_removeEphemeralOverlay.spec steady_released).weaken hweaken).bind fun _ => ?_
      have hset : Spec (Released (some name) name) (attempt (setState name .failed))
          (fun _ => Recorded none) (Recorded none) :=
        .attempt ((setState_released (.inr rfl)).mono (fun _ => id) (fun _ _ h => h.1.1) hweaken)
          (fun _ _ => id) (by simp)
      exact hset.bind fun _ => .fail fun _ => id

/-- A launch is recorded in the state of its instance. -/
theorem recordLaunch_spec (dir : PathBuf) (manifest : InstanceManifest) (phase : LaunchPhase) :
    Spec (Launched name) (recordLaunch dir manifest name phase) (fun _ => Recorded none)
      (Recorded none) := by
  have hactive : StateStore.isActive (launchedState phase) = true := by cases phase <;> rfl
  have hset : Spec (Launched name) (setState name (launchedState phase))
      (fun _ => Recorded none) (Recorded none) := by
    refine setState_spec (fun _ h => h.1.1) (fun w w' h hset => ?_) fun w e h herror => ?_
    · obtain ⟨⟨hrecorded, -⟩, vm, hvm, honly⟩ := h
      refine hset.recorded hrecorded (.inr rfl) (.inl hactive) fun vm' hvm' => ?_
      rw [hvm, Option.some.injEq] at hvm'
      exact hvm' ▸ honly
    · obtain ⟨manifest, hload⟩ := h.1.2
      rw [hload] at herror
      cases herror
  refine hset.bind fun _ => (quiets_recordActivity.spec steady_recorded).bind fun _ => ?_
  have hnote : ∀ sent, Spec (Recorded none) (noteDropped name manifest.spec.memoryMib sent)
      (fun _ => Recorded none) (Recorded none) := by
    intro sent
    cases sent with
    | ok _ => exact .pure fun _ => id
    | error e => exact .emit fun _ h _ => ⟨trivial, h⟩
  exact (Sat.attempt ((calms_setBalloonTarget _).spec steady_recorded) (fun _ _ => id)
    (by simp)).bind fun sent => (hnote sent).bind fun _ => .pure fun _ => id

/-- A call that keeps the record. -/
abbrev Keeps {α : Type} (call : Call α) : Prop :=
  Spec (Recorded none) call (fun _ => Recorded none) (Recorded none)

theorem Calms.keeps {α : Type} {call : Call α} (h : Calms call) : Keeps call :=
  h.spec steady_recorded

theorem Quiets.keeps {α : Type} {call : Call α} (h : Quiets call) : Keeps call :=
  h.calms.keeps

/-- A call after which the manifest it has loaded is still the stored one. -/
theorem load_spec :
    Spec (Recorded none) (load name)
      (fun manifest w => Recorded none w ∧ w.store.load name = .ok manifest) (Recorded none) := by
  refine Sat.bind (Q := fun manifest w => Recorded none w ∧ w.store.load name = manifest)
    (Sat.read fun _ h => ⟨h, rfl⟩) fun manifest => ?_
  cases manifest with
  | ok manifest => exact .pure fun _ => id
  | error e => exact .fail fun _ h => h.1

theorem launch_keeps (phase : LaunchPhase) : Keeps (launch name phase) := by
  have hweaken : ∀ w, Clear name w → Recorded none w := fun _ h => h.recorded
  refine load_spec.bind fun manifest => (checkLaunchable_spec manifest phase).bind fun _ => ?_
  refine ((quiets_instanceDir.spec steady_clear).weaken hweaken).bind fun dir => ?_
  refine ((prepareLaunch_spec dir).weaken hweaken).bind fun _ => ?_
  refine (((quiets_prepareRun dir manifest phase).spec steady_clear).weaken hweaken).bind
    fun _ => ?_
  refine (((quiets_planLaunch dir manifest phase).spec steady_clear).weaken hweaken).bind
    fun plan => ?_
  exact ((spawnPlanned_spec dir manifest phase plan).weaken hweaken).bind fun _ =>
    awaitLaunch_spec.bind fun _ => recordLaunch_spec dir manifest phase

end Launching

/-! ## The operations keep the record -/

section Operations

variable {name : Str}

theorem attempt_keeps {α : Type} {call : Call α} (h : Keeps call) : Keeps (attempt call) :=
  .attempt h (fun _ _ => id) (by simp)

theorem attemptNested_keeps {α : Type} {call : Call α} (h : Keeps call) :
    Keeps (attemptNested call) := .attempt h (fun _ _ => id) fun _ _ _ => id

theorem load_keeps : Keeps (load name) := quiets_load.keeps

/-- A suspension keeps the record. -/
theorem suspendFrom_keeps (state : InstanceState) : Keeps (suspendFrom name state) := by
  have hpause : Keeps (pauseGuest name) :=
    quiets_instanceDir.keeps.bind fun _ => quiets_connect.keeps.bind fun qmp =>
      (quiets_queryStatus qmp).keeps.bind fun _ => .ite (fun _ => .fail fun _ => id) fun _ =>
        (quiets_execute qmp).keeps.bind fun _ => (quiets_queryStatus qmp).keeps.bind fun _ =>
          .ite (fun _ => .fail fun _ => id) fun _ =>
            (setState_active rfl).bind fun _ => .pure fun _ => id
  have hfail : ∀ e, Keeps (fail e : Call (List Message)) := fun e => .fail fun _ => id
  cases state with
  | running => exact hpause
  | suspended =>
    refine (attempt_keeps quiets_qmpStatus.keeps).bind fun status => ?_
    split
    · exact .pure fun _ => id
    · exact hfail _
  | _ => exact hfail _

theorem resumeFrom_keeps (manifest : InstanceManifest) : Keeps (resumeFrom name manifest) := by
  refine quiets_instanceDir.keeps.bind fun _ => quiets_connect.keeps.bind fun qmp =>
    (quiets_queryStatus qmp).keeps.bind fun _ => .ite (fun _ => .pure fun _ => id) fun _ =>
      .ite (fun _ => .fail fun _ => id) fun _ => ?_
  exact (quiets_continueGuest qmp _).keeps.bind fun _ => (setState_active rfl).bind fun _ =>
    quiets_recordActivity.keeps.bind fun _ =>
      (attempt_keeps (calms_setBalloonTarget _).keeps).bind fun _ => .pure fun _ => id

/-- So does the policy of an idle instance. -/
theorem idlePolicy_keeps {suspend hibernate : Str → Call (List Message)}
    (hsuspend : ∀ name, Keeps (suspend name)) (hhibernate : ∀ name, Keeps (hibernate name))
    (now : UInt64) (memoryPressure : Bool) (manifest : InstanceManifest) :
    Keeps (idlePolicy suspend hibernate now memoryPressure manifest) := by
  have hballoon : ∀ idleSeconds, Keeps (idleBalloon manifest memoryPressure idleSeconds) :=
    fun _ => .ite (fun _ => (attempt_keeps (calms_setBalloonTarget _).keeps).bind fun _ =>
      .pure fun _ => id) fun _ => .pure fun _ => id
  refine .ite (fun _ => .pure fun _ => id) fun _ => Sat.look.bind fun _ => ?_
  split
  · exact (hballoon _).bind fun _ => .ite (fun _ =>
      (attemptNested_keeps (hsuspend _)).bind fun _ => .pure fun _ => id) fun _ =>
        .pure fun _ => id
  · exact .ite (fun _ => (attemptNested_keeps (hhibernate _)).bind fun _ => .pure fun _ => id)
      fun _ => .pure fun _ => id
  · exact .pure fun _ => id

/-- The operations that call one another, up to a depth. -/
structure NestedKeep (depth : Nat) : Prop where
  poll : Keeps (poll depth)
  applyIdlePolicies : Keeps (applyIdlePolicies depth)
  suspend : ∀ name, Keeps (suspend depth name)
  hibernate : ∀ name, Keeps (hibernate depth name)
  resume : ∀ name, Keeps (resume depth name)
  start : ∀ name phase, Keeps (start depth name phase)

/-- By induction on the depth: each operation calls only operations of smaller depth. -/
theorem nestedKeep (depth : Nat) : NestedKeep depth := by
  induction depth with
  | zero =>
    -- Without any depth left no call returns.
    have hstuck : ∀ {α : Type}, Keeps (fail .stuck : Call α) := .fail fun _ => id
    exact ⟨hstuck, hstuck, fun _ => hstuck, fun _ => hstuck, fun _ => hstuck, fun _ _ => hstuck⟩
  | succ depth ih =>
    refine ⟨?_, ?_, fun name => ?_, fun name => ?_, fun name => ?_, fun name phase => ?_⟩
    · refine Sat.look.bind fun names => (pollNames_spec names).bind fun _ =>
        Sat.look.bind fun _ => .ite (fun _ => ?_) fun _ => .pure fun _ => id
      -- `poll`: every child, and the policies if it is time for them.
      have hclock : Keeps (modify fun w => { w with lastPolicyPoll := w.clock }) :=
        Calms.keeps (.modify fun _ => .of_processes rfl rfl rfl rfl)
      exact hclock.bind fun _ => (attemptNested_keeps ih.applyIdlePolicies).bind fun _ =>
        .pure fun _ => id
    -- `apply_idle_policies`: an operation for each instance that is idle.
    · have hpass : Keeps (emit fun _ => .policyPass) := .emit fun _ h _ => ⟨trivial, h⟩
      exact hpass.bind fun _ => quiets_ask.keeps.bind fun _ => Sat.look.bind fun _ =>
        (quiets_ofCore _).keeps.bind fun _ => .each fun manifest =>
          idlePolicy_keeps ih.suspend ih.hibernate _ _ manifest
    -- `suspend`.
    · exact ih.poll.bind fun _ => load_keeps.bind fun _ => suspendFrom_keeps _
    -- `hibernate`, which resumes a suspended instance first.
    · refine ih.poll.bind fun _ => load_keeps.bind fun manifest => ?_
      split
      · exact .pure fun _ => id
      · exact (ih.resume name).bind fun _ => load_keeps.bind fun _ => (calms_hibernateFrom _).keeps
      · exact (calms_hibernateFrom _).keeps
    -- `resume`.
    · exact ih.poll.bind fun _ => load_keeps.bind fun manifest =>
        .ite (fun _ => ih.start name .run) fun _ => resumeFrom_keeps manifest
    -- `start`, of an instance whose QEMU answers or not.
    · refine ih.poll.bind fun _ => (attempt_keeps quiets_qmpStatus.keeps).bind fun status => ?_
      cases status with
      | error e => exact launch_keeps phase
      | ok status =>
        exact load_keeps.bind fun _ => .ite (fun _ => ih.resume name) fun _ => .pure fun _ => id

/-! ### Stopping -/

theorem shutDown_keeps (qmp : Nat) : Keeps (shutDown name qmp) := by
  have hunpause : ∀ status, Keeps (unpause name qmp status) := by
    intro status
    cases status with
    | paused => exact (quiets_continueGuest qmp _).keeps.bind fun _ => setState_active rfl
    | _ => exact .pure fun _ => id
  exact (quiets_queryStatus qmp).keeps.bind fun status => (hunpause status).bind fun _ =>
    (quiets_execute qmp).keeps.bind fun _ => (quiets_writeMarker (by decide)).keeps.bind
      fun _ => .pure fun _ => id

theorem waitForQmpDisconnect_spec (dir : PathBuf) :
    Spec (Recorded none) (waitForQmpDisconnect dir name) (fun _ => Ended none name)
      (Recorded none) := by
  refine Sat.look.bind fun now => ?_
  generalize forceStopTimeout / 50 + 1 = rounds
  induction rounds with
  | zero => exact .fail fun _ => id
  | succ rounds ih =>
    exact Sat.look.bind fun _ => .ite (fun _ => .fail fun _ => id) fun _ =>
      (attempt_keeps quiets_connect.keeps).bind fun _ =>
        .ite (fun _ => quiets_sleep.keeps.bind fun _ => ih) fun _ => presume_spec .disconnected

/-- A forced `stop` goes on only when no QEMU of the instance lives: it was a child and has
    ended, it was presumed gone, or the state says that there was none. -/
theorem awaitEnd_spec (dir : PathBuf) (manifest : InstanceManifest)
    {requestedQmpQuit owned : Bool} (hproven : ¬ (requestedQmpQuit = false ∧ owned = false ∧
      StateStore.isActive manifest.state = true)) :
    Spec (fun w => (Recorded none w ∧ w.store.load name = .ok manifest) ∧ w.owns name = owned)
      (awaitEnd dir name requestedQmpQuit) (fun _ => Ended none name) (Recorded none) := by
  refine Sat.bind (Q := fun managed w => ((Recorded none w ∧ w.store.load name = .ok manifest) ∧
    w.owns name = owned) ∧ w.managed.lookup name = managed) (Sat.read fun _ h => ⟨h, rfl⟩)
    fun managed => ?_
  cases managed with
  -- The child is waited for, or killed.
  | some vm =>
    have hsteady : Steady fun w => Recorded none w ∧ OnlyAt name vm.qemu w :=
      steady_recorded.and steady_onlyAt
    refine (waitOrKill_spec hsteady forceStopTimeout).mono
      (fun w h => ⟨h.1.1.1, fun pid hlive => ?_⟩) (fun _ w h => ?_) fun _ h => h.1
    · exact h.1.1.1.sole name vm pid (by simp) h.2 hlive
    · exact ⟨h.1.1, h.1.2.noneLive (h.2 name)⟩
  -- Without a child: QMP goes away, or the state was not active.
  | none =>
    refine .ite (fun _ => (waitForQmpDisconnect_spec dir).pre fun _ h => h.1.1.1) fun hquit => ?_
    refine .pure fun w h => ?_
    obtain ⟨⟨⟨hrecorded, hload⟩, howned⟩, hlookup⟩ := h
    -- Neither child nor answer: then the state says that there is none.
    have hnot : owned = false := by
      rw [← howned, World.owns, hlookup]
      rfl
    have hstate : StateStore.isActive manifest.state = false := by
      rw [Bool.eq_false_iff]
      intro hactive
      exact hproven ⟨Bool.eq_false_iff.mpr hquit, hnot, hactive⟩
    exact (hrecorded.released hload hstate).1

theorem releaseChild_spec :
    Spec (Ended none name) (releaseChild name) (fun _ => Released none name)
      (Released none name) := by
  refine Sat.bind (Q := fun managed w => Ended none name w ∧ w.managed.lookup name = managed)
    (Sat.read fun _ h => ⟨h, rfl⟩) fun managed => ?_
  cases managed with
  | none => exact .pure fun w h => ⟨h.1, by rw [World.owns, h.2]; rfl⟩
  | some vm =>
    exact Sat.bind (Sat.modify fun w h => h.1.unmanage) fun _ =>
      (quiets_stopHelpers vm.helpers).spec steady_released

/-- A forced stop leaves no QEMU of the instance. -/
theorem finishForceStop_spec (dir : PathBuf) (manifest : InstanceManifest)
    (requestedQmpQuit : Bool) :
    Spec (fun w => Recorded none w ∧ w.store.load name = .ok manifest)
      (finishForceStop dir name manifest.state requestedQmpQuit) (fun _ => Recorded none)
      (Recorded none) := by
  have hweaken : ∀ w, Released none name w → Recorded none w := fun _ h => h.1.1
  refine Sat.bind (Q := fun owned w => (Recorded none w ∧ w.store.load name = .ok manifest) ∧
    w.owns name = owned) (Sat.read fun _ h => ⟨h, rfl⟩) fun owned => ?_
  by_cases hproven : requestedQmpQuit = false ∧ owned = false ∧
      StateStore.isActive manifest.state = true
  · -- The stop is refused.
    refine Sat.bind (Q := fun _ _ => False) ?_ fun _ _ h => absurd h id
    exact .ite (fun _ => .fail fun _ h => h.1.1) fun h => absurd hproven h
  · have hpassed : Spec (fun w => (Recorded none w ∧ w.store.load name = .ok manifest) ∧
        w.owns name = owned)
        (refuseUnprovenExternalForceStop requestedQmpQuit owned manifest.state name)
        (fun _ w => (Recorded none w ∧ w.store.load name = .ok manifest) ∧ w.owns name = owned)
        (Recorded none) := .ite (fun h => absurd h hproven) fun _ => .pure fun _ => id
    refine hpassed.bind fun _ => (awaitEnd_spec dir manifest hproven).bind fun _ => ?_
    refine (releaseChild_spec.weaken hweaken).bind fun _ => ?_
    refine ((setState_released (.inl rfl)).weaken hweaken).bind fun _ => ?_
    exact ((clearRuntime_spec steady_released fun _ h => h.1.2).weaken hweaken).bind fun _ =>
      .pure hweaken

/-- Stopping keeps the record. -/
theorem stop_keeps (depth : Nat) (force : Bool) : Keeps (stop depth name force) := by
  refine (nestedKeep depth).poll.bind fun _ => quiets_instanceDir.keeps.bind fun dir =>
    load_spec.bind fun manifest => .ite (fun _ => .pure fun _ h => h.1) fun _ => ?_
  have hsteady : Steady fun w => Recorded none w ∧ w.store.load name = .ok manifest :=
    steady_recorded.and (steady_store (P := fun store => store.load name = .ok manifest))
  have hconnect : Spec (fun w => Recorded none w ∧ w.store.load name = .ok manifest)
      (attempt (connect name)) (fun _ w => Recorded none w ∧ w.store.load name = .ok manifest)
      (Recorded none) := .attempt (quiets_connect.spec hsteady) (fun _ _ => id) (by simp)
  refine hconnect.bind fun connected => ?_
  cases connected with
  | error e =>
    cases force with
    | false => exact .fail fun _ h => h.1
    | true => exact finishForceStop_spec dir manifest false
  | ok qmp =>
    cases force with
    | false => exact (shutDown_keeps qmp).pre fun _ h => h.1
    | true =>
      exact ((quiets_outside.spec hsteady).weaken fun _ h => h.1).bind fun _ =>
        finishForceStop_spec dir manifest true

/-! ### Status -/

theorem statusAnswered_keeps (state : InstanceState) (qmp : QmpState) :
    Keeps (statusAnswered name state qmp) := by
  refine .ite (fun hchanged => ?_) fun _ => .pure fun _ => id
  have hactive : StateStore.isActive (reconciledState state qmp) = true := by
    revert hchanged
    cases state <;> cases qmp <;> simp [reconciledState, StateStore.isActive]
  exact (setState_active hactive).bind fun _ => .pure fun _ => id

theorem gatherEvidence_spec (dir : PathBuf) :
    Spec (Recorded none) (gatherEvidence dir name)
      (fun evidence w => Recorded none w ∧ (evidence = .gone → w.owns name = false))
      (Recorded none) := by
  refine quiets_ask.keeps.bind fun answer => .read fun w h => ⟨h, fun hgone => ?_⟩
  rw [Bool.eq_false_iff]
  intro howns
  rw [qemuProcessEvidence, howns, if_pos rfl] at hgone
  cases hgone

theorem statusGone_spec :
    Spec (fun w => Recorded none w ∧ w.owns name = false) (statusGone name)
      (fun _ => Recorded none) (Recorded none) := by
  have hweaken : ∀ w, Released none name w → Recorded none w := fun _ h => h.1.1
  refine Sat.bind (Q := fun _ => Released none name) ((presume_spec .noEvidence).mono
    (fun _ => id) (fun _ w h => ⟨⟨h.1.1, h.2⟩, h.1.2⟩) fun _ => id) fun _ => ?_
  refine Sat.look.bind fun requested => Sat.look.bind fun hibernated => ?_
  refine ((recordEnd_released (.inl rfl)).weaken hweaken).bind fun _ => ?_
  exact ((clearRuntime_spec steady_released fun _ h => h.1.2).weaken hweaken).bind fun _ =>
    .pure hweaken

theorem status_keeps (depth : Nat) : Keeps (status depth name) := by
  refine (nestedKeep depth).poll.bind fun _ => load_keeps.bind fun manifest =>
    (attempt_keeps quiets_qmpStatus.keeps).bind fun qmp => ?_
  cases qmp with
  | ok qmp => exact statusAnswered_keeps manifest.state qmp
  | error e =>
    refine .ite (fun _ => ?_) fun _ => .pure fun _ => id
    refine quiets_instanceDir.keeps.bind fun dir => (gatherEvidence_spec dir).bind
      fun evidence => ?_
    cases evidence with
    | live => exact .pure fun _ h => h.1
    | unknown => exact .pure fun _ h => h.1
    | gone => exact statusGone_spec.pre fun _ h => ⟨h.1, h.2 rfl⟩

end Operations

/-! ## Runs -/

/-- Every operation keeps the record. -/
theorem perform_keeps (depth : Nat) (operation : Operation) :
    Keeps (operation.perform depth) := by
  have hdone : ∀ {α : Type} {call : Call α}, Keeps call → Keeps (do let _ ← call; return) :=
    fun h => h.bind fun _ => .pure fun _ => id
  -- One case for each operation; its answer plays no part.
  cases operation with
  | start name phase => exact hdone ((nestedKeep depth).start name phase)
  | stop name force => exact hdone (stop_keeps depth force)
  | status name => exact hdone (status_keeps depth)
  | suspend name => exact hdone ((nestedKeep depth).suspend name)
  | resume name => exact hdone ((nestedKeep depth).resume name)
  | hibernate name => exact hdone ((nestedKeep depth).hibernate name)
  | activity name =>
    refine hdone (load_keeps.bind fun _ => quiets_recordActivity.keeps.bind fun _ => ?_)
    exact .ite (fun _ => (attempt_keeps (calms_setBalloonTarget _).keeps).bind fun _ =>
      .pure fun _ => id) fun _ => .pure fun _ => id
  | balloon name memoryMib =>
    exact hdone (load_keeps.bind fun _ => .ite (fun _ =>
      (calms_setBalloonTarget _).keeps.bind fun _ => .pure fun _ => id) fun _ =>
        .fail fun _ => id)
  | poll => exact (nestedKeep depth).poll
  -- A restart forgets the children, but not the states.
  | restart =>
    refine .modify fun w h => ⟨h.disk, h.readable, fun name _ hlive => ?_, by simp⟩
    exact h.active name (by simp) (.inr (hlive.resolve_left (by simp [World.owns])))

theorem serveAll_keeps (depth : Nat) (operations : List Operation) :
    Keeps (serveAll depth operations) :=
  .each fun operation => (attemptNested_keeps (perform_keeps depth operation)).bind fun _ =>
    .pure fun _ => id

/-- In every run in which the daemon is right each time it takes a QEMU for ended (a suspended
    instance that does not answer when it is started, a connection that fails after `quit`, a
    process of which no evidence is found), no operation launches a QEMU or unlinks a runtime
    socket of an instance while an earlier QEMU of it lives. -/
theorem warranted_runs_launch_alone (w : World) (hfirst : w.processes = [])
    (hchildren : w.managed = []) (hdisk : ∀ tick, (w.env tick).disk = true)
    (hstore : ∃ manifests, ReadableWith w.store manifests) (depth : Nat)
    (operations : List Operation)
    (hwarranted : ∀ event ∈ (serveAll depth operations w).events, event.Warranted) :
    ∀ event ∈ (serveAll depth operations w).events, event.Safe := by
  have hrecorded : Recorded none w := by
    refine ⟨hdisk, hstore, fun name _ hlive => ?_, fun name vm pid _ hvm => ?_⟩
    · rcases hlive with howns | ⟨pid, process, hprocess, -⟩
      · simp [World.owns, hchildren] at howns
      · simp [hfirst] at hprocess
    · simp [hchildren] at hvm
  exact (serveAll_keeps depth operations w hrecorded hwarranted).1

/-- The demo instance is started, suspended and started again. -/
def demoOperations : List Operation :=
  [.start "demo".toList .run, .suspend "demo".toList, .start "demo".toList .run]

/-- Every call works: the helper and QEMU create their sockets, the guest is paused while it is
    suspended, and QEMU ends when it is asked to quit. -/
def demoAnswer (tick : Nat) : Answer where
  exits := if tick = 40 then [(1, { success := true, shown := "exit status: 0" })] else []
  created := if tick = 5 then [("demo".toList, .swtpmSock)]
    else if tick = 7 then [("demo".toList, .qmpSock)] else []
  qmp := if tick ∈ [22, 27, 31] then .paused else .running
  fs := preparedFs
  proc := { entries := none, commandLine := fun _ => .missing }

/-- The second `start` resumes the guest.  After that the daemon is restarted and the instance
    is stopped by force. -/
theorem demo_run_launches_alone :
    (serveAll 3 (demoOperations ++ [.restart, .stop "demo".toList true])
      (demoWorld demoAnswer)).events =
      [.launched "demo".toList 1 false, .presumedGone "demo".toList .disconnected false,
        .unlinked "demo".toList .swtpmSock false, .unlinked "demo".toList .qmpSock false] ∧
    ∀ event ∈ (serveAll 3 (demoOperations ++ [.restart, .stop "demo".toList true])
      (demoWorld demoAnswer)).events, event.Safe := by
  have hevents : (serveAll 3 (demoOperations ++ [.restart, .stop "demo".toList true])
      (demoWorld demoAnswer)).events =
      [.launched "demo".toList 1 false, .presumedGone "demo".toList .disconnected false,
        .unlinked "demo".toList .swtpmSock false, .unlinked "demo".toList .qmpSock false] := by
    decide +kernel
  refine ⟨hevents, warranted_runs_launch_alone _ rfl rfl (fun _ => rfl)
    ⟨_, readableWith_demoWorld _⟩ 3 _ ?_⟩
  rw [hevents]
  decide

/-- The same host, except that the connection with which the second `start` asks for the status
    fails. -/
def silentAnswer (tick : Nat) : Answer :=
  { demoAnswer tick with
    ok := tick ≠ 26
    created := if tick = 33 then [("demo".toList, .swtpmSock)] else (demoAnswer tick).created }

/-- A suspended instance that does not answer once is launched a second time, and the sockets
    of its living QEMU are unlinked. -/
theorem suspended_start_launches_second :
    (demoWorld silentAnswer).processes = [] ∧ (demoWorld silentAnswer).managed = [] ∧
    (∀ tick, ((demoWorld silentAnswer).env tick).disk = true) ∧
    (∃ manifests, ReadableWith (demoWorld silentAnswer).store manifests) ∧
    (serveAll 3 demoOperations (demoWorld silentAnswer)).events =
      [.launched "demo".toList 1 false,
        .presumedGone "demo".toList .suspendedUnanswered true,
        .unlinked "demo".toList .swtpmSock true, .unlinked "demo".toList .qmpSock true,
        .launched "demo".toList 3 true] ∧
    ¬ ∀ event ∈ (serveAll 3 demoOperations (demoWorld silentAnswer)).events, event.Safe := by
  have hevents : (serveAll 3 demoOperations (demoWorld silentAnswer)).events =
      [.launched "demo".toList 1 false,
        .presumedGone "demo".toList .suspendedUnanswered true,
        .unlinked "demo".toList .swtpmSock true, .unlinked "demo".toList .qmpSock true,
        .launched "demo".toList 3 true] := by decide +kernel
  refine ⟨rfl, rfl, fun _ => rfl, ⟨_, readableWith_demoWorld _⟩, hevents, fun hsafe => ?_⟩
  rw [hevents] at hsafe
  have hsecond : (true : Bool) = false := hsafe (.launched "demo".toList 3 true) (by simp)
  cases hsecond

end Lsw.Daemon
