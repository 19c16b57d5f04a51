import Lsw.Daemon.Nesting
import Lsw.Lib.Run

/-!
# The Marker of a Hibernation

`hibernate` leaves `run/hibernate.requested` and then asks the guest.  Whoever finds the marker
once QEMU has ended records the instance as hibernated, so the marker has to mean that the guest
has accepted.  The file is there before three things that can fail: its contents are written,
the agent token is read, and the guest is asked; only after the last one is it taken back, and
then also where an earlier request has left it.

As long as the file can be written and removed and the tokens can be read, a marker stands for
an accepted request, through every operation and every nesting of them.
-/

namespace Lsw.Daemon

open Lsw.Lib Lsw.Core Traced

/-! ## The invariant -/

/-- `hibernate_was_requested`. -/
def World.hibernateWasRequested (w : World) (name : Str) : Bool :=
  decide (w.files name .hibernateRequested = .file)

/-- The marker can be written and removed, the agent tokens can be read, and a marker stands
    for a request that the guest has accepted. -/
structure Hibernable (w : World) : Prop where
  writable : ∀ tick, (w.env tick).markerDisk = true
  tokened : Tokened w.store
  accepted : ∀ name, w.hibernateWasRequested name = true → w.guestHibernating name = true

/-- No idle policy hibernates the instance. -/
def LeftAwake (name : Str) (manifest : InstanceManifest) : Prop :=
  HibernatesWhenIdle manifest → manifest.spec.name ≠ name

/-- The same, while nobody asks for some instances to be hibernated. -/
structure Sparing (spared : Str → Prop) (w : World) : Prop extends Hibernable w where
  unmarked : ∀ name, spared name → w.hibernateWasRequested name = false
  spares : ∀ name, spared name → AllRead (LeftAwake name) w.store

/-- An ended QEMU is recorded as hibernated only if its guest has accepted a request. -/
def OnlyAccepted : Event → Prop
  | .hibernationRecorded _ accepted => accepted = true
  | _ => True

/-- What is known after the marker was looked at. -/
def Noted (spared : Str → Prop) (name : Str) (requested : Bool) (w : World) : Prop :=
  Sparing spared w ∧ (requested = true → w.guestHibernating name = true)

/-- A request is being made: the marker of the instance does not stand for anything yet. -/
structure Requesting (spared : Str → Prop) (name : Str) (w : World) : Prop where
  writable : ∀ tick, (w.env tick).markerDisk = true
  tokened : Tokened w.store
  accepted : ∀ other, other ≠ name → w.hibernateWasRequested other = true →
    w.guestHibernating other = true
  unmarked : ∀ other, spared other → other ≠ name → w.hibernateWasRequested other = false
  spares : ∀ other, spared other → AllRead (LeftAwake other) w.store

section Kept

variable {A : Event → Prop} {spared : Str → Prop} {name : Str} {w w' : World}

/-- A quiet call leaves no marker. -/
theorem Quiet.unmarked (h : Quiet w w') (hw : w.hibernateWasRequested name = false) :
    w'.hibernateWasRequested name = false := by
  rw [World.hibernateWasRequested, decide_eq_false_iff_not] at hw ⊢
  exact fun hfile => hw (h.marker name hfile)

theorem Quiet.marked (h : Quiet w w') (hw : w'.hibernateWasRequested name = true) :
    w.hibernateWasRequested name = true := by
  rw [World.hibernateWasRequested, decide_eq_true_eq] at hw ⊢
  exact h.marker name hw

theorem undisturbed_sparing : Undisturbed (Sparing spared) := by
  intro w w' h hw
  refine ⟨⟨h.env ▸ hw.writable, h.store ▸ hw.tokened, fun name hmarked => ?_⟩,
    fun name hspared => h.unmarked (hw.unmarked name hspared), h.store ▸ hw.spares⟩
  rw [h.guestHibernating]
  exact hw.accepted name (h.marked hmarked)

theorem undisturbed_noted (requested : Bool) : Undisturbed (Noted spared name requested) :=
  fun w w' h hw => ⟨undisturbed_sparing w w' h hw.1, h.guestHibernating ▸ hw.2⟩

theorem undisturbed_requesting : Undisturbed (Requesting spared name) := by
  intro w w' h hw
  refine ⟨h.env ▸ hw.writable, h.store ▸ hw.tokened, fun other hne hmarked => ?_,
    fun other hspared hne => h.unmarked (hw.unmarked other hspared hne), h.store ▸ hw.spares⟩
  rw [h.guestHibernating]
  exact hw.accepted other hne (h.marked hmarked)

/-- The policies of an instance are none of its states. -/
theorem setState_sparing (state : InstanceState) :
    Maintains A OnlyAccepted (Sparing spared) (setState name state) := by
  refine setState_sat (fun w w' h hw => undisturbed_sparing w w' h hw)
    fun w manifest next hw hload hupdate => ?_
  have hpass := undisturbed_sparing w _ (.pass w (w.env w.tick)) hw
  refine ⟨⟨hpass.writable, hw.tokened.update hupdate, hpass.accepted⟩, hpass.unmarked,
    fun other hspared => ?_⟩
  have hloaded : LeftAwake other manifest := (hw.spares other hspared).load hload
  have hwritten : LeftAwake other (manifest.withState state (w.env w.tick).seconds).asRead :=
    hloaded
  exact (hw.spares other hspared).update hwritten hupdate

theorem setBalloonTarget_sparing (memoryMib : UInt32) :
    Maintains A OnlyAccepted (Sparing spared) (setBalloonTarget name memoryMib) :=
  setBalloonTarget_maintains undisturbed_sparing
    (fun _ _ h => ⟨⟨h.writable, h.tokened, h.accepted⟩, h.unmarked, h.spares⟩)
    (fun _ _ h => ⟨⟨h.writable, h.tokened, h.accepted⟩, h.unmarked, h.spares⟩)
    fun _ _ h => ⟨⟨h.writable, h.tokened, h.accepted⟩, h.unmarked, h.spares⟩

/-- The end of a QEMU is recorded as what the marker says. -/
theorem recordEnd_sparing {requested : Bool} {state : InstanceState}
    (hstate : state = .hibernated → requested = true) :
    Sat A OnlyAccepted (Noted spared name requested) (recordEnd name state)
      (fun _ => Sparing spared) (Sparing spared) := by
  have hnote : Sat A OnlyAccepted (Noted spared name requested) (noteHibernation name state)
      (fun _ => Sparing spared) (Sparing spared) :=
    .ite (fun hhibernated => .emit fun _ h _ => ⟨h.2 (hstate hhibernated), h.1⟩)
      fun _ => .pure fun _ h => h.1
  exact hnote.bind fun _ => setState_sparing state

/-- Handling one instance spares the others. -/
theorem tolerant_sparing (name : Str) :
    Tolerant A OnlyAccepted (Sparing spared) (Noted spared name) name where
  quiet := undisturbed_sparing
  quietNoted := undisturbed_noted
  setState state _ := setState_sparing state
  setBalloonTarget := setBalloonTarget_sparing
  unlinked _ _ := trivial
  presumedGone _ _ := trivial
  unmanage _ h := ⟨⟨h.writable, h.tokened, h.accepted⟩, h.unmarked, h.spares⟩
  noted _ h := ⟨h, h.accepted name⟩
  unmanageNoted _ _ h :=
    ⟨⟨⟨h.1.writable, h.1.tokened, h.1.accepted⟩, h.1.unmarked, h.1.spares⟩, h.2⟩
  forget _ _ h := h.1
  recordEnd _ _ _ hstate := recordEnd_sparing hstate

end Kept

/-! ## The marker -/

section Marker

variable {A G : Event → Prop} {P : World → Prop} {spared : Str → Prop} {name : Str}

/-- The marker is opened and written without an error. -/
theorem diskOf_writable {E : World → Prop} (hP : Undisturbed P)
    (hwritable : ∀ w, P w → ∀ tick, (w.env tick).markerDisk = true) :
    Sat A G P (diskOf .hibernateRequested) (fun _ => P) E := by
  refine (ask_sat (Q := fun answer => answer.markerDisk = true) hP
    fun w hw => hwritable w hw w.tick).bind fun answer => ?_
  exact .ite (fun _ => .pure fun _ hw => hw.1) fun hrefused => .of_false fun _ hw => hrefused hw.2

/-- No marker is left after it was removed. -/
theorem removeMarker_sat {E : World → Prop} (hP : Undisturbed P)
    (hwritable : ∀ w, P w → ∀ tick, (w.env tick).markerDisk = true) :
    Sat A G P (removeFile name .hibernateRequested)
      (fun _ w => P w ∧ w.hibernateWasRequested name = false) E := by
  refine Sat.bind (Q := fun present w => P w ∧ w.hibernateWasRequested name = present)
    (Sat.read fun w hw => ⟨hw, rfl⟩) fun present => ?_
  cases present with
  | false => exact .pure fun _ => id
  | true =>
    refine Sat.bind ((ask_sat (Q := fun answer => answer.markerDisk = true) hP
      fun w hw => hwritable w hw w.tick).pre fun _ hw => hw.1) fun answer => ?_
    refine .ite (fun _ => .modify fun w hw => ⟨hP w _ ?_ hw.1, ?_⟩) fun hrefused => ?_
    · exact .setFile w name .hibernateRequested .absent fun _ => rfl
    · simp [World.hibernateWasRequested, World.setFile]
    · exact .of_false fun w hw => hrefused hw.2

theorem Sparing.requesting {w : World} (h : Sparing spared w) : Requesting spared name w :=
  ⟨h.writable, h.tokened, fun other _ => h.accepted other, fun other hspared _ =>
    h.unmarked other hspared, h.spares⟩

/-- Without its marker there is no request. -/
theorem Requesting.withdrawn {w : World} (h : Requesting spared name w)
    (hunmarked : w.hibernateWasRequested name = false) : Sparing spared w := by
  refine ⟨⟨h.writable, h.tokened, fun other hmarked => ?_⟩, fun other hspared => ?_, h.spares⟩
  · refine h.accepted other (fun heq => ?_) hmarked
    rw [heq, hunmarked] at hmarked
    cases hmarked
  · by_cases hother : other = name
    · rw [hother]
      exact hunmarked
    · exact h.unmarked other hspared hother

/-- The guest has accepted. -/
theorem Requesting.granted {w : World} (h : Requesting spared name w) (hname : ¬ spared name)
    (haccepted : w.guestHibernating name = true) : Sparing spared w := by
  refine ⟨⟨h.writable, h.tokened, fun other hmarked => ?_⟩, fun other hspared => ?_, h.spares⟩
  · by_cases hother : other = name
    · rw [hother]
      exact haccepted
    · exact h.accepted other hother hmarked
  · exact h.unmarked other hspared fun heq => hname (heq ▸ hspared)

/-- Only the marker of the instance is written. -/
theorem Requesting.setFile {w : World} (h : Requesting spared name w) :
    Requesting spared name (w.setFile name .hibernateRequested .file) := by
  have hother : ∀ other, other ≠ name →
      (w.setFile name .hibernateRequested .file).hibernateWasRequested other =
        w.hibernateWasRequested other := by
    intro other hne
    simp [World.hibernateWasRequested, World.setFile, hne]
  refine ⟨h.writable, h.tokened, fun other hne hmarked => ?_, fun other hspared hne => ?_,
    h.spares⟩
  · rw [hother other hne] at hmarked
    exact h.accepted other hne hmarked
  · rw [hother other hne]
    exact h.unmarked other hspared hne

/-- The guest accepts, or the request is taken back. -/
theorem requestGuestHibernate_sat :
    Sat A G (Requesting spared name) (requestGuestHibernate name)
      (fun _ w => Requesting spared name w ∧ w.guestHibernating name = true)
      (Sparing spared) := by
  refine Sat.bind (Q := fun _ => Requesting spared name)
    (Sat.attempt (quiets_outside.maintains undisturbed_requesting) (fun _ _ => id) (by simp))
    fun result => ?_
  cases result with
  | ok _ =>
    refine .modify fun w hw => ⟨⟨hw.writable, hw.tokened, fun other hne hmarked => ?_,
      hw.unmarked, hw.spares⟩, ?_⟩
    · show Function.update w.guestHibernating name true other = true
      rw [Function.update_of_ne hne]
      exact hw.accepted other hne hmarked
    · exact Function.update_self name true w.guestHibernating
  | error e =>
    exact (removeMarker_sat undisturbed_requesting fun _ hw => hw.writable).bind fun _ =>
      .fail fun _ hw => hw.1.withdrawn hw.2

/-- A request that fails leaves no marker of its own; one that works has been accepted. -/
theorem hibernateFrom_sat {manifest : InstanceManifest} :
    Sat A G (With (Sparing spared) name manifest) (hibernateFrom name manifest.state)
      (fun _ w => Requesting spared name w ∧ w.guestHibernating name = true)
      (Sparing spared) := by
  refine .ite (fun _ => .fail fun _ => With.left) fun _ => ?_
  have hrequesting : Undisturbed (With (Requesting spared name) name manifest) :=
    undisturbed_with undisturbed_requesting
  have hdisk : ∀ {E : World → Prop}, Sat A G (With (Requesting spared name) name manifest)
      (diskOf .hibernateRequested) (fun _ => With (Requesting spared name) name manifest) E :=
    diskOf_writable hrequesting fun _ hw => hw.1.writable
  refine ((quiets_instanceDir.maintains (undisturbed_with undisturbed_sparing)).weaken
    fun _ => With.left).bind fun _ => ?_
  -- Between the marker and the answer of the guest nothing fails.
  refine Sat.bind (Q := fun _ => With (Requesting spared name) name manifest) ?_ fun _ => ?_
  · refine Sat.bind (hdisk.pre fun _ hw => ⟨hw.1.requesting, hw.2⟩) fun _ =>
      Sat.bind (Q := fun _ => With (Requesting spared name) name manifest)
        (Sat.modify fun w hw => ?_) fun _ => hdisk
    split
    · exact ⟨hw.1.setFile, hw.2⟩
    · exact hw
  · refine Sat.bind (Q := fun token w => Requesting spared name w ∧ ∃ text, token = .ok text)
      (Sat.read fun w hw => ⟨hw.1, hw.1.tokened.of_load hw.2⟩) fun token => ?_
    cases token with
    | error e => exact .of_false fun w hw => by simp at hw
    | ok text =>
      exact Sat.bind (Q := fun _ => Requesting spared name) (.pure fun _ hw => hw.1) fun _ =>
        requestGuestHibernate_sat.bind fun _ => .pure fun _ => id

/-- The leavings of an earlier run are removed before a launch. -/
theorem prepareLaunch_sparing (dir : PathBuf) :
    Sat A OnlyAccepted (Sparing spared) (prepareLaunch dir name)
      (fun _ w => Sparing spared w ∧ w.hibernateWasRequested name = false) (Sparing spared) :=
  (quiets_outside.maintains undisturbed_sparing).bind fun _ =>
    (cleanupStoppedRuntimeArtifacts_maintains undisturbed_sparing fun _ _ => trivial).bind
      fun _ => (cleanupRuntimeSockets_maintains undisturbed_sparing (fun _ _ => trivial)
        dir).bind fun _ =>
          ((quiets_removeFile .shutdownRequested).maintains undisturbed_sparing).bind fun _ =>
            removeMarker_sat undisturbed_sparing fun _ hw => hw.writable

/-- Nobody has asked a new guest for anything, and nothing says so. -/
theorem launch_sparing (phase : LaunchPhase) :
    Maintains A OnlyAccepted (Sparing spared) (launch name phase) := by
  have hcleared : Undisturbed fun w => Sparing spared w ∧ w.hibernateWasRequested name = false :=
    fun w w' h hw => ⟨undisturbed_sparing w w' h hw.1, h.unmarked hw.2⟩
  refine (tolerant_sparing name).launch hcleared (fun _ hw => hw.1) (fun _ => trivial)
    prepareLaunch_sparing fun memoryMib => spawnQemu_sat hcleared fun w hw _ =>
      ⟨trivial, fun helpers => ⟨⟨hw.1.writable, hw.1.tokened, fun other hmarked => ?_⟩,
        hw.1.unmarked, hw.1.spares⟩⟩
  have hne : other ≠ name := by
    rintro rfl
    have hunmarked : w.hibernateWasRequested other = true := hmarked
    rw [hw.2] at hunmarked
    cases hunmarked
  show Function.update w.guestHibernating name false other = true
  rw [Function.update_of_ne hne]
  exact hw.1.accepted other hmarked

/-- Only instances that nobody spares are hibernated by the idle policies. -/
theorem blocks_sparing :
    BlocksMaintain A OnlyAccepted (Sparing spared) (fun name => ¬ spared name) :=
  Tolerant.blocks (R := Noted spared) tolerant_sparing trivial
    (fun _ _ hw hlist _ hmem hidle hspared =>
      (hw.spares _ hspared).list hlist hmem hidle rfl)
    (fun _ _ hname => hibernateFrom_sat.mono (fun _ => id)
      (fun _ _ hw => hw.1.granted hname hw.2) fun _ => id)
    fun _ => launch_sparing .run

end Marker

/-! ## Runs -/

/-- No request to hibernate the instance is pending, and no idle policy makes one. -/
structure Unrequested (name : Str) (w : World) : Prop where
  unmarked : w.hibernateWasRequested name = false
  spares : AllRead (LeftAwake name) w.store

/-- What is recorded as hibernated was accepted by the guest, and a `hibernate` that fails leaves
    the marker as it was, if none was there and nobody else asks for one. -/
def Truthful (depth : Nat) (w : World) (operation : Operation) : Prop :=
  (∀ name accepted, .hibernationRecorded name accepted ∈ (serve depth operation w).events →
    accepted = true) ∧
  ∀ name e, operation = .hibernate name → Unrequested name w →
    (hibernate depth name w).result = .error e →
    (hibernate depth name w).state.hibernateWasRequested name = w.hibernateWasRequested name

section Runs

variable {depth : Nat} {name : Str} {w : World}

/-- The invariant with nobody spared. -/
theorem sparing_none : Sparing (fun _ => False) w ↔ Hibernable w :=
  ⟨Sparing.toHibernable, fun h => ⟨h, fun _ => False.elim, fun _ => False.elim⟩⟩

theorem perform_hibernable (depth : Nat) (operation : Operation) :
    Maintains (fun _ => True) OnlyAccepted (Sparing fun _ => False)
      (operation.perform depth) := by
  refine perform_maintains (R := Noted fun _ => False) ?_ tolerant_sparing
    (fun _ => launch_sparing .install)
    (.modify fun _ h => ⟨⟨h.writable, h.tokened, h.accepted⟩, h.unmarked, h.spares⟩)
    depth operation
  have hblocks : BlocksMaintain (fun _ => True) OnlyAccepted (Sparing fun _ => False)
      fun _ => ¬ False := blocks_sparing
  exact { hblocks with
    listed := fun _ _ _ _ _ _ _ => trivial
    hibernateFrom := fun name manifest _ => hblocks.hibernateFrom name manifest id }

/-- While the instance itself is hibernated, nothing else asks for that. -/
theorem hibernate_sparing (depth : Nat) (name : Str) :
    Sat (fun _ => True) OnlyAccepted (Sparing (· = name)) (hibernate depth name)
      (fun _ _ => True) (Sparing (· = name)) := by
  cases depth with
  | zero => exact .fail fun _ => id
  | succ depth =>
    have hblocks : BlocksMaintain (fun _ => True) OnlyAccepted (Sparing (· = name))
        fun other => ¬ other = name := blocks_sparing
    have hnested := hblocks.nested depth
    have hfrom : ∀ manifest : InstanceManifest, Sat (fun _ => True) OnlyAccepted
        (With (Sparing (· = name)) name manifest) (hibernateFrom name manifest.state)
        (fun _ _ => True) (Sparing (· = name)) :=
      fun _ => hibernateFrom_sat.mono (fun _ => id) (fun _ _ _ => trivial) fun _ => id
    rw [hibernate_succ]
    refine hnested.poll.bind fun _ => load_sat.bind fun manifest => ?_
    have hloaded := hfrom manifest
    cases hstate : manifest.state <;> rw [hstate] at hloaded
    case hibernated => exact .pure fun _ _ => trivial
    case suspended =>
      exact ((hnested.resume name).pre fun _ => With.left).bind fun _ =>
        load_sat.bind fun manifest => hfrom manifest
    all_goals exact hloaded

/-- In every run, with any failures but those of the marker file itself and of the agent tokens:
    an ended QEMU is recorded as hibernated only if its guest has accepted a request, and a
    `hibernate` that fails leaves the presence of the marker as it was, unless a request was
    pending or the idle policies hibernate the instance as well. -/
theorem hibernation_markers_are_truthful {operations : List Operation} (h : Hibernable w) :
    Along (serveStep depth) (Truthful depth) w operations := by
  -- Forward along the run: every operation keeps the invariant.
  induction operations generalizing w with
  | nil => trivial
  | cons operation operations ih =>
    have hperform := perform_hibernable depth operation
    refine ⟨⟨fun name accepted hrecorded => ?_, fun name e hoperation hunrequested herror => ?_⟩,
      ih (sparing_none.mp (serveStep_of_maintains hperform (sparing_none.mpr h)))⟩
    · have hserve := Maintains.done hperform.attemptNested
      exact (hserve w (sparing_none.mpr h) fun _ _ => trivial).1 _ hrecorded
    · have hbefore : Sparing (· = name) w :=
        ⟨h, fun _ heq => heq ▸ hunrequested.unmarked, fun _ heq => heq ▸ hunrequested.spares⟩
      have hafter := (hibernate_sparing depth name).of_error hbefore herror
      rw [hafter.unmarked name rfl, hunrequested.unmarked]

end Runs

/-! ### The demo instance -/

/-- Helper and QEMU create their sockets, and QEMU ends at some time; the marker cannot be written
    at some times, and the guest refuses at some. -/
def hibernateAnswer (ended : Nat) (unwritable refused : List Nat) (tick : Nat) : Answer where
  exits := if tick = ended then [(1, { success := true, shown := "exit status: 0" })] else []
  created := if tick = 5 then [("demo".toList, .swtpmSock)]
    else if tick = 7 then [("demo".toList, .qmpSock)] else []
  ok := decide (tick ∉ refused)
  markerDisk := decide (tick ∉ unwritable)
  fs := preparedFs
  proc := { entries := none, commandLine := fun _ => .missing }

theorem tokened_demoWorld (env : Nat → Answer) : Tokened (demoWorld env).store := by
  have htoken : (demoWorld (hibernateAnswer 21 [] [])).store.readAgentToken "demo".toList =
      .ok (List.replicate 64 'a') := by decide +kernel
  intro name path _ hdir
  rw [StateStore.dir?, demoWorld, List.lookup_cons] at hdir
  split at hdir
  · rename_i hfound
    rw [eq_of_beq hfound]
    exact ⟨_, htoken⟩
  · cases hdir

theorem hibernable_demoWorld (ended : Nat) (refused : List Nat) :
    Hibernable (demoWorld (hibernateAnswer ended [] refused)) :=
  ⟨fun _ => rfl, tokened_demoWorld _, fun _ hmarked => by simp [demoWorld,
    World.hibernateWasRequested] at hmarked⟩

/-- The demo instance is started and hibernated, and its QEMU ends. -/
def hibernateOperations : List Operation :=
  [.start "demo".toList .run, .hibernate "demo".toList, .poll]

/-- The hibernation of the demo instance is recorded, and rightly so. -/
theorem demo_hibernation_markers_are_truthful :
    .hibernationRecorded "demo".toList true ∈
      (serveAll 3 hibernateOperations (demoWorld (hibernateAnswer 21 [] []))).events ∧
    Along (serveStep 3) (Truthful 3) (demoWorld (hibernateAnswer 21 [] [])) hibernateOperations :=
  ⟨by decide +kernel, hibernation_markers_are_truthful (hibernable_demoWorld 21 [])⟩

/-- The marker of a failed `hibernate` stays when its contents cannot be written, and the next end
    of QEMU is taken for a hibernation that no guest has accepted. -/
theorem unwritten_marker_counts_as_accepted :
    (serveStep 3 (demoWorld (hibernateAnswer 21 [20] []))
      (.start "demo".toList .run)).hibernateWasRequested "demo".toList = false ∧
    (hibernate 3 "demo".toList (serveStep 3 (demoWorld (hibernateAnswer 21 [20] []))
      (.start "demo".toList .run))).result.isOk = false ∧
    (hibernate 3 "demo".toList (serveStep 3 (demoWorld (hibernateAnswer 21 [20] []))
      (.start "demo".toList .run))).state.hibernateWasRequested "demo".toList = true ∧
    .hibernationRecorded "demo".toList false ∈
      (serveAll 3 hibernateOperations (demoWorld (hibernateAnswer 21 [20] []))).events := by
  decide +kernel

/-- A second request that the guest refuses takes back the marker of the first. -/
example : ((run (serveStep 3) (demoWorld (hibernateAnswer 99 [] [26]))
    [.start "demo".toList .run, .hibernate "demo".toList]).hibernateWasRequested "demo".toList,
    (run (serveStep 3) (demoWorld (hibernateAnswer 99 [] [26]))
      [.start "demo".toList .run, .hibernate "demo".toList,
        .hibernate "demo".toList]).hibernateWasRequested "demo".toList) = (true, false) := by
  decide +kernel

end Lsw.Daemon
