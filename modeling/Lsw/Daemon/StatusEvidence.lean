import Lsw.Daemon.Calm

/-!
# When `status` Gives an Instance Up

`status` is the one operation that may record the end of a QEMU which is not a child of the
daemon.  It does so only when QMP does not answer, the daemon owns no child and no evidence of
the process is found; whatever else happens, it leaves the files of every instance and the
active states as they are.

The evidence itself is as good as the PID file.  Without one, `/proc` is searched and a QEMU
that shows there is found.  A PID file that names another process ends the search before it
has begun.
-/

namespace Lsw.Daemon

open Lsw.Lib Lsw.Core Traced

/-! ## Evidence -/

section Evidence

variable {proc : ProcRoot} {dir : PathBuf} {name : Str}

/-- `/proc` can be read and shows a process with the command line of the instance. -/
def ProcRoot.Shows (proc : ProcRoot) (dir : PathBuf) (name : Str) : Prop :=
  ∃ entries entry line, proc.entries = some entries ∧ some entry ∈ entries ∧
    (parsePid entry).isSome = true ∧ proc.commandLine entry = .contents line ∧
      qemuCommandMatchesInstance line dir name = true

/-- The PID that `run/qemu.pid` records, if it is a file with a PID in it. -/
def PidFile.recordedPid : PidFile → Option UInt32
  | .regular length contents =>
    if length = 0 ∨ 32 < length then none else contents.bind fun value => parsePid (trim value)
  | .missing | .irregular => none

/-- There is no process of this PID, or it is known not to be the QEMU of the instance. -/
def ProcRoot.Lacks (proc : ProcRoot) (dir : PathBuf) (name : Str) (pid : UInt32) : Prop :=
  proc.commandLine (decimal pid.toNat) = .missing ∨
    ∃ line, proc.commandLine (decimal pid.toNat) = .contents line ∧
      qemuCommandMatchesInstance line dir name = false

/-- The PID file records the PID of something else. -/
def PidFile.Misleads (pidFile : PidFile) (proc : ProcRoot) (dir : PathBuf) (name : Str) : Prop :=
  ∃ pid, pidFile.recordedPid = some pid ∧ proc.Lacks dir name pid

/-- A PID is evidence of an end when there is no process of it, or one that is known to be
    another. -/
theorem evidenceOfPid_eq_gone_iff {pid : UInt32} :
    evidenceOfPid proc dir name pid = .gone ↔ proc.Lacks dir name pid := by
  rw [evidenceOfPid, ProcRoot.Lacks]
  cases proc.commandLine (decimal pid.toNat) with
  | missing => simp
  | unreadable => simp
  | contents line =>
    by_cases hmatch : qemuCommandMatchesInstance line dir name = true
    · -- An empty command line matches nothing.
      have hline : line ≠ [] := by
        rintro rfl
        cases hmatch
      simp [hmatch, hline]
    · simp [hmatch]

/-- While the QEMU shows in `/proc`, only a PID file of something else leads to the conclusion
    that it is gone. -/
theorem evidence_eq_gone_iff {owned : Bool} {pidFile : PidFile} (hshown : proc.Shows dir name) :
    qemuProcessEvidence owned pidFile proc dir name = .gone ↔
      owned = false ∧ pidFile.Misleads proc dir name := by
  rw [qemuProcessEvidence]
  cases owned with
  | true => simp
  | false =>
    cases pidFile with
    | missing =>
      obtain ⟨entries, entry, line, hentries, hmem, hpid, hline, hmatch⟩ := hshown
      have hfound := scanExactQemuProcess_ne_gone hentries hmem hpid hline hmatch
      simp [qemuProcessEvidenceWithProc, PidFile.Misleads, PidFile.recordedPid, hfound]
    | irregular => simp [qemuProcessEvidenceWithProc, PidFile.Misleads, PidFile.recordedPid]
    | regular length contents =>
      simp only [Bool.false_eq_true, if_false, qemuProcessEvidenceWithProc, PidFile.Misleads,
        PidFile.recordedPid, true_and]
      split
      · simp
      · cases contents.bind fun value => parsePid (trim value) with
        | none => simp
        | some pid => simp [evidenceOfPid_eq_gone_iff]

end Evidence

/-! ## Giving up -/

/-- The end of an instance that was stored as active is recorded, or a file is removed. -/
def GivesUp (name : Str) (w w' : World) : Prop :=
  (∃ manifest manifest', w.store.load name = .ok manifest ∧
    StateStore.isActive manifest.state = true ∧ w'.store.load name = .ok manifest' ∧
      manifest'.state ∈ [.hibernated, .stopped, .failed]) ∨
  ∃ owner file, w.files owner file ≠ .absent ∧ w'.files owner file = .absent

/-- QMP does not answer, the daemon owns no child, and there is no evidence of the process. -/
def FoundGone (name : Str) (w : World) : Prop :=
  ∃ dir e, w.store.instanceDir name = .ok dir ∧ (qmpStatus name w).result = .error e ∧
    w.owns name = false ∧
      (gatherEvidence dir name (qmpStatus name w).state).result = .ok .gone

/-- Every file is still there, and the state is active or the one that it was. -/
structure Spares (name : Str) (w w' : World) : Prop where
  files : ∀ owner file, w.files owner file ≠ .absent → w'.files owner file ≠ .absent
  state : ∀ manifest', w'.store.load name = .ok manifest' →
    StateStore.isActive manifest'.state = true ∨
      ∃ manifest, w.store.load name = .ok manifest ∧ manifest.state = manifest'.state

namespace Spares

variable {name : Str} {w w' : World}

instance : Std.Refl (Spares name) :=
  ⟨fun _ => ⟨fun _ _ => id, fun manifest hload => .inr ⟨manifest, hload, rfl⟩⟩⟩

instance : IsTrans World (Spares name) := ⟨fun _ _ _ h h' => by
  refine ⟨fun owner file hfile => h'.files owner file (h.files owner file hfile),
    fun last hlast => ?_⟩
  rcases h'.state last hlast with hactive | ⟨middle, hmiddle, heq⟩
  · exact .inl hactive
  · rw [← heq]
    exact h.state middle hmiddle⟩

theorem not_givesUp (h : Spares name w w') : ¬ GivesUp name w w' := by
  rintro (⟨manifest, manifest', hload, hactive, hload', hend⟩ | ⟨owner, file, hfile, hfile'⟩)
  · have hended : StateStore.isActive manifest'.state = false := by
      revert hend
      cases manifest'.state <;> simp [StateStore.isActive]
    rcases h.state manifest' hload' with hactive' | ⟨found, hfound, heq⟩
    · rw [hended] at hactive'
      cases hactive'
    · rw [hload, Except.ok.injEq] at hfound
      rw [hfound, heq, hended] at hactive
      cases hactive
  · exact h.files owner file hfile hfile'

/-- What leaves the store alone and removes no file. -/
theorem of_files (hstore : w'.store = w.store)
    (hfiles : ∀ owner file, w.files owner file ≠ .absent → w'.files owner file ≠ .absent) :
    Spares name w w' :=
  ⟨hfiles, fun manifest hload => .inr ⟨manifest, hstore ▸ hload, rfl⟩⟩

theorem createFile (w : World) (owner : Str) (file : RunFile) :
    Spares name w (w.createFile owner file) := by
  rw [World.createFile]
  split
  · rename_i entry hcreated habsent
    refine .of_files rfl fun owner' file' hfile => ?_
    have hother : ¬ (owner' = owner ∧ file' = file) := by
      rintro ⟨rfl, rfl⟩
      exact hfile habsent
    simpa [World.setFile, hother] using hfile
  · exact Std.Refl.refl w

theorem foldl {α : Type} {f : World → α → World} (h : ∀ w a, Spares name w (f w a))
    (as : List α) (w : World) : Spares name w (as.foldl f w) := by
  induction as generalizing w with
  | nil => exact Std.Refl.refl w
  | cons a as ih => exact IsTrans.trans _ _ _ (h w a) (ih (f w a))

theorem pass (w : World) (answer : Answer) : Spares name w (w.pass answer) :=
  IsTrans.trans _ _ _ (IsTrans.trans _ _ _
    (foldl (f := fun w exit => w.endProcess exit.1 exit.2)
      (fun _ _ => .of_files rfl fun _ _ => id) answer.exits w)
    (foldl (fun w created => createFile w created.1 created.2) answer.created _))
    (.of_files rfl fun _ _ => id)

end Spares

section Status

variable {name : Str}

theorem ask_spares : Within (Spares name) ask :=
  (Within.read _).bind fun answer => (Within.modify fun w => .pass w answer).bind fun _ => .pure _

theorem ofCore_spares {α : Type} (result : Result α) : Within (Spares name) (ofCore result) := by
  cases result with
  | ok a => exact .pure a
  | error e => exact .fail _

theorem instanceDir_spares : Within (Spares name) (instanceDir name) :=
  (Within.read _).bind fun _ => ofCore_spares _

theorem qmpStatus_spares : Within (Spares name) (qmpStatus name) := by
  have hconnect : Within (Spares name) (connect name) := by
    refine (ask_spares.bind fun _ => .ite (.pure _) (.fail _)).bind fun _ =>
      (Within.read _).bind fun listener => ?_
    cases listener with
    | none => exact .fail _
    | some pid => exact .pure pid
  exact instanceDir_spares.bind fun _ => hconnect.bind fun qmp =>
    ask_spares.bind fun _ => (Within.read _).bind fun _ => .ite (.pure _) (.fail _)

theorem gatherEvidence_spares (dir : PathBuf) : Within (Spares name) (gatherEvidence dir name) :=
  ask_spares.bind fun _ => .read _

/-- An active state may be set. -/
theorem setState_spares {state : InstanceState} (hactive : StateStore.isActive state = true) :
    Within (Spares name) (setState name state) := by
  intro w
  have hpass : Spares name w (w.pass (w.env w.tick)) := .pass w _
  rcases setState_cases name state w with
    ⟨e, w', hrun, rfl | rfl⟩ | ⟨manifest, next, hload, hupdate, hrun⟩
  · rw [hrun]
    exact ⟨Std.Refl.refl w', rfl⟩
  · rw [hrun]
    exact ⟨hpass, rfl⟩
  · rw [hrun]
    refine ⟨⟨hpass.files, fun loaded hloaded => ?_⟩, rfl⟩
    rcases load_update hupdate hloaded with ⟨-, rfl⟩ | ⟨-, hkept⟩
    · exact .inl hactive
    · exact .inr ⟨loaded, hkept, rfl⟩

theorem statusAnswered_spares (state : InstanceState) (qmp : QmpState) :
    Within (Spares name) (statusAnswered name state qmp) := by
  rw [statusAnswered]
  split
  · rename_i hchanged
    have hactive : StateStore.isActive (reconciledState state qmp) = true := by
      revert hchanged
      cases state <;> cases qmp <;> simp [reconciledState, StateStore.isActive]
    exact (setState_spares hactive).bind fun _ => .pure _
  · exact .pure _

/-- Without an answer of QMP, nothing is given up unless the evidence says so. -/
theorem statusUnanswered_spares (state : InstanceState) (w : World) :
    Spares name w (statusUnanswered name state w).state ∨
      ∃ dir, w.store.instanceDir name = .ok dir ∧
        (gatherEvidence dir name w).result = .ok .gone := by
  rw [statusUnanswered]
  split
  -- An active instance: the evidence about its process is gathered.
  · cases hdir : (instanceDir name w).result with
    | error e =>
      rw [bind_of_error hdir]
      exact .inl (instanceDir_spares w).1
    | ok dir =>
      obtain ⟨hstate, hfound⟩ : (instanceDir name w).state = w ∧
          w.store.instanceDir name = .ok dir := by
        rw [instanceDir] at hdir ⊢
        cases hstore : w.store.instanceDir name with
        | error e => simp [Bind.bind, Traced.read, ofCore, hstore, Traced.fail] at hdir
        | ok found => simpa [Bind.bind, Pure.pure, Traced.read, ofCore, hstore] using hdir
      rw [bind_of_ok hdir, hstate]
      cases hevidence : (gatherEvidence dir name w).result with
      | error e =>
        rw [bind_of_error hevidence]
        exact .inl (gatherEvidence_spares dir w).1
      | ok evidence =>
        rw [bind_of_ok hevidence]
        -- Only `Gone` gives the instance up.
        cases evidence with
        | live => exact .inl (gatherEvidence_spares dir w).1
        | unknown => exact .inl (gatherEvidence_spares dir w).1
        | gone => exact .inr ⟨dir, hfound, hevidence⟩
  -- Any other instance is left as it is.
  · exact .inl (Std.Refl.refl w)

/-- Evidence that is gone is not gathered about a child of the daemon. -/
theorem owns_eq_false_of_gone {dir : PathBuf} {w : World}
    (h : (gatherEvidence dir name w).result = .ok .gone) : w.owns name = false := by
  have hquiet := Quiet.pass w (w.env w.tick)
  have hevidence : qemuProcessEvidence ((w.pass (w.env w.tick)).owns name)
      ((w.pass (w.env w.tick)).pidFile name (w.env w.tick).pidFile) (w.env w.tick).proc dir name =
        .gone := Except.ok.inj h
  rw [World.owns, hquiet.managed, ← World.owns] at hevidence
  cases howns : w.owns name with
  | false => rfl
  | true =>
    rw [howns, qemuProcessEvidence, if_pos rfl] at hevidence
    cases hevidence

/-- What `status` does after its `poll`. -/
theorem status_spares (depth : Nat) (w : World) :
    Spares name (poll depth w).state (status depth name w).state ∨
      FoundGone name (poll depth w).state := by
  rw [status]
  -- A pass that fails ends the call.
  cases hpoll : (poll depth w).result with
  | error e =>
    rw [bind_of_error hpoll]
    exact .inl (Std.Refl.refl _)
  | ok _ =>
    rw [bind_of_ok hpoll]
    generalize (poll depth w).state = w₁
    dsimp only
    -- Loading changes nothing.
    have hloaded : (load name w₁).state = w₁ := by
      cases hload : w₁.store.load name <;>
        simp [load, Bind.bind, Pure.pure, Traced.read, Traced.fail, ofCore, hload]
    cases hload : (load name w₁).result with
    | error e =>
      rw [bind_of_error hload, hloaded]
      exact .inl (Std.Refl.refl w₁)
    | ok manifest =>
      rw [bind_of_ok hload, hloaded]
      -- Asking QEMU for its status spares it.
      have hqmp : Spares name w₁ (qmpStatus name w₁).state := (qmpStatus_spares w₁).1
      cases hstatus : (qmpStatus name w₁).result with
      -- It answers.
      | ok qmp =>
        rw [attempt, bind_attempt_of_ok hstatus]
        exact .inl (IsTrans.trans _ _ _ hqmp (statusAnswered_spares manifest.state qmp _).1)
      | error e =>
        -- It does not: only a process found gone is given up.
        rw [attempt, bind_attempt_of_error hstatus rfl]
        have hquiet : Quiet w₁ (qmpStatus name w₁).state := (quiets_qmpStatus w₁).1
        rcases statusUnanswered_spares manifest.state (qmpStatus name w₁).state with
          hspares | ⟨dir, hdir, hgone⟩
        · exact .inl (IsTrans.trans _ _ _ hqmp hspares)
        · rw [hquiet.store] at hdir
          have howns := owns_eq_false_of_gone hgone
          rw [World.owns, hquiet.managed, ← World.owns] at howns
          exact .inr ⟨dir, e, hdir, hstatus, howns, hgone⟩

end Status

/-- After its `poll`, `status` records the end of an active instance or removes a file only
    when QMP does not answer, the daemon owns no child and the evidence is `Gone`.  While
    `/proc` shows a process with the command line of the instance, the evidence is not `Gone`
    exactly when the daemon owns a child or the PID file does not record the PID of something
    else. -/
theorem status_gives_up_on_evidence (depth : Nat) (name : Str) (w : World) (owned : Bool)
    (pidFile : PidFile) (proc : ProcRoot) (dir : PathBuf) :
    (GivesUp name (poll depth w).state (status depth name w).state →
      FoundGone name (poll depth w).state) ∧
    (ProcRoot.Shows proc dir name →
      (qemuProcessEvidence owned pidFile proc dir name ≠ .gone ↔
        owned = true ∨ ¬ pidFile.Misleads proc dir name)) := by
  constructor
  · intro hgivesUp
    exact (status_spares depth w).resolve_left fun hspares => hspares.not_givesUp hgivesUp
  · intro hshown
    rw [Ne, evidence_eq_gone_iff hshown, not_and_or, Bool.not_eq_false]

/-- The directory of the demo instance. -/
def demoDir : PathBuf := .ofStr "/s/instances/demo".toList

/-- The command line of the QEMU of the demo instance, as far as it is looked at. -/
def demoLine : List OsUnit :=
  commandLine (.ofStr "/usr/bin/qemu-system-x86_64".toList)
    (["-name", "demo", "-qmp", "unix:/s/instances/demo/run/qmp.sock,server=on,wait=off",
      "-pidfile", "/s/instances/demo/run/qemu.pid"].map fun argument => .ofStr argument.toList)

/-- Two processes: a shell, and the QEMU of the demo instance. -/
def demoProc : ProcRoot where
  entries := some [some "100".toList, some "200".toList]
  commandLine entry :=
    if entry = "100".toList then .contents (commandLine (.ofStr "/bin/sh".toList) [])
    else if entry = "200".toList then .contents demoLine
    else .missing

theorem demoProc_shows : demoProc.Shows demoDir "demo".toList := by
  refine ⟨_, "200".toList, demoLine, rfl, by simp, ?_, rfl, ?_⟩
  all_goals decide +kernel

/-- A host on which QMP does not answer and no process shows. -/
def deadAnswer (_ : Nat) : Answer where
  ok := false
  fs := preparedFs
  proc := { entries := some [], commandLine := fun _ => .missing }

/-- A running instance whose QEMU has ended behind the back of the daemon. -/
def deadWorld : World := demoWorldOf { demoManifest [] with state := .running } deadAnswer

/-- Its end is recorded, for which there was evidence; the QEMU that shows is not given up where no
    PID was recorded. -/
theorem dead_qemu_is_given_up :
    (((status 1 "demo".toList deadWorld).state.store.load "demo".toList).toOption.map
        InstanceManifest.state = some .failed ∧
      FoundGone "demo".toList (poll 1 deadWorld).state) ∧
    qemuProcessEvidence false .missing demoProc demoDir "demo".toList ≠ .gone := by
  obtain ⟨hrunning, hfailed⟩ :
      (poll 1 deadWorld).state.store.load "demo".toList =
        .ok { demoManifest [] with state := .running } ∧
      ((status 1 "demo".toList deadWorld).state.store.load "demo".toList).toOption.map
        InstanceManifest.state = some .failed := by
    decide +kernel
  obtain ⟨manifest', hload, hstate⟩ := Option.map_eq_some_iff.mp hfailed
  have hgivesUp : GivesUp "demo".toList (poll 1 deadWorld).state
      (status 1 "demo".toList deadWorld).state :=
    .inl ⟨_, manifest', hrunning, rfl, toOption_eq_some.mp hload, by simp [hstate]⟩
  have hmissing : ¬ PidFile.missing.Misleads demoProc demoDir "demo".toList := by
    rintro ⟨pid, hpid, -⟩
    cases hpid
  obtain ⟨hfound, hevidence⟩ := status_gives_up_on_evidence 1 "demo".toList deadWorld false
    .missing demoProc demoDir
  exact ⟨⟨hfailed, hfound hgivesUp⟩, (hevidence demoProc_shows).mpr (.inr hmissing)⟩

/-- A PID file that holds the PID of the shell hides the living QEMU. -/
theorem reused_pid_hides_living_qemu :
    demoProc.Shows demoDir "demo".toList ∧
      qemuProcessEvidence false (.regular 4 (some "100\n".toList)) demoProc demoDir
        "demo".toList = .gone :=
  ⟨demoProc_shows, by decide +kernel⟩

end Lsw.Daemon
