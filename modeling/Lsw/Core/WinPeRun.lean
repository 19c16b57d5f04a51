import Lsw.Core.Manifest
import Lsw.Lib.Lossy
import Mathlib.Data.List.Infix

/-!
# Running a WinPE Phase

`run_vm_with_progress` (`winpe_dism/runtime.rs`) starts QEMU for one phase and watches it: in every round
it reads the two logs that the guest writes, polls QEMU, and kills it after the timeout.  A log that
cannot be read, is no regular file or is too large ends the call.  Dropping a child neither stops nor
reaps it, so a call that ends so leaves QEMU behind.

What the host shows the call is data here, a list of rounds and what is found after the last; the
progress that it reports is left out.
-/

namespace Lsw.Core.WinPe

open Lsw.Lib

/-! ## Plans -/

/-- `WinPeDismVmPhase`. -/
inductive WinPeDismVmPhase where
  | prepare
  | apply
  deriving DecidableEq

/-- `WinPeDismVmPhase::completion_marker`. -/
def WinPeDismVmPhase.completionMarker : WinPeDismVmPhase → String
  | .prepare => "LSW-WINPE-DISM complete"
  | .apply => "LSW-WINPE-DISM apply-complete"

/-- `WinPeDismVmPhase::failure_marker`. -/
def WinPeDismVmPhase.failureMarker : WinPeDismVmPhase → String
  | .prepare => "LSW-WINPE-DISM failed"
  | .apply => "LSW-WINPE-DISM apply-failed"

/-- `{:?}` of a phase. -/
def WinPeDismVmPhase.debug : WinPeDismVmPhase → String
  | .prepare => "Prepare"
  | .apply => "Apply"

/-- `WinPeDismVmPlan`, as far as it is used once everything is prepared. -/
structure WinPeDismVmPlan where
  phase : WinPeDismVmPhase
  program : PathBuf
  statusLog : PathBuf
  dismLog : PathBuf
  serialLog : PathBuf
  qemuLog : PathBuf
  missingCapabilities : List String
  qemuImg : PathBuf
  /-- `(phase == WinPeDismVmPhase::Apply).then_some(target_disk)`. -/
  targetDisk : Option PathBuf
  target_of_apply : targetDisk.isSome = decide (phase = .apply)

/-- `MAX_STATUS_LOG_BYTES`. -/
def maxStatusLogBytes : Nat := 1024 * 1024

/-- `MAX_DISM_LOG_BYTES`. -/
def maxDismLogBytes : Nat := 8 * 1024 * 1024

/-- `MIN_APPLIED_DISK_BYTES`. -/
def minAppliedDiskBytes : Nat := 512 * 1024 * 1024

/-! ## What the host shows -/

/-- The type of a file, of the file itself and not of what a link stands for. -/
inductive FileKind where
  | file
  | directory
  | symlink
  | other
  deriving DecidableEq

/-- `fs::symlink_metadata`. -/
structure Metadata where
  kind : FileKind
  len : Nat
  deriving DecidableEq

/-- What one read of a log meets: its metadata, and everything up to its end; neither where that fails.
    The log may grow between the two. -/
structure LogObserved where
  metadata : Option Metadata
  contents : Option Bytes
  deriving DecidableEq

/-- One round of watching QEMU. -/
structure WatchRound where
  statusLog : LogObserved
  dismLog : LogObserved
  /-- The exit code of QEMU, none of a signal, when it has ended by the end of the round. -/
  ended : Option (Option Int)
  /-- `try_wait` fails. -/
  pollFails : Bool
  elapsed : Nat
  deriving DecidableEq

/-- What the checks of the target disk meet: its metadata, its length, and the exit code of
    `qemu-img check` when that could be run. -/
structure TargetObserved where
  metadata : Option Metadata
  length : Option Nat
  check : Option (Option Int)
  deriving DecidableEq

/-- The host, as a call meets it. -/
structure WinPeHost where
  /-- Preparing volumes, media and output files, and starting QEMU. -/
  spawned : Result Unit
  rounds : List WatchRound
  /-- The logs after QEMU has ended. -/
  lastStatus : LogObserved
  lastDism : LogObserved
  finalStatus : LogObserved
  target : TargetObserved
  elapsed : Nat

/-- What has become of QEMU: it was never started, it runs, it has ended and nobody has waited for it, or
    it has been waited for. -/
inductive QemuLeft where
  | notStarted
  | running
  | ended
  | reaped
  deriving DecidableEq

/-! ## Logs -/

/-- The text of a log that is a regular file and not too large. -/
def readLog (field : String) (limit : Nat) (tooLarge : String) (path : PathBuf) (log : LogObserved) :
    Result Str := do
  let metadata ← okOr log.metadata .io
  rejectIf (metadata.kind ≠ .file)
    (.invalidValue field [.shown path.display, .text " is not a regular file"])
  rejectIf (metadata.len > limit) (.invalidValue field [.shown path.display, .text tooLarge])
  let contents ← okOr log.contents .io
  let bytes := contents.take (limit + 1)
  return fromUtf8Lossy bytes.length bytes

/-- `str::trim_matches`. -/
def trimMatches (p : Char → Bool) (s : Str) : Str :=
  ((s.dropWhile p).reverse.dropWhile p).reverse

/-- `read_status_events`. -/
def readStatusEvents (path : PathBuf) (log : LogObserved) : Result (List Str) := do
  let text ← readLog "WinPE status log" maxStatusLogBytes " exceeds 1 MiB" path log
  return ((lines text).map (trimMatches isControl)).filter fun line =>
    decide ("LSW-WINPE-DISM ".toList <:+: line)

/-- `read_dism_progress`, as far as it can fail. -/
def readDismProgress (path : PathBuf) (log : LogObserved) : Result Unit := do
  let _ ← readLog "WinPE DISM log" maxDismLogBytes " exceeds 8 MiB" path log
  return ()

/-- `report_winpe_progress`, as far as it can fail. -/
def reportWinpeProgress (plan : WinPeDismVmPlan) (status dism : LogObserved) : Result Unit := do
  let _ ← readStatusEvents plan.statusLog status
  readDismProgress plan.dismLog dism

/-! ## The target disk -/

/-- `run_control_command`, of what the command exits with. -/
def runControlCommand (program : PathBuf) (status : Option (Option Int)) : Result Unit := do
  let code ← okOr status .io
  rejectIf (code ≠ some 0) (.externalCommandFailed program code)

/-- `validate_applied_target`. -/
def validateAppliedTarget (qemuImg targetDisk : PathBuf) (target : TargetObserved) : Result Unit := do
  let metadata ← okOr target.metadata .io
  rejectIf (metadata.kind ≠ .file) (.invalidValue "applied target disk"
    [.shown targetDisk.display, .text " is not a regular file"])
  let length ← okOr target.length .io
  rejectIf (length < minAppliedDiskBytes) (.invalidValue "WinPE DISM apply"
    [.shown targetDisk.display, .text " is only ", .shown (decimal length),
      .text " bytes after apply; refusing a false completion marker"])
  runControlCommand qemuImg target.check

/-! ## The run -/

/-- `WinPeDismRunResult`. -/
structure WinPeDismRunResult where
  phase : WinPeDismVmPhase
  elapsed : Nat
  statusEvents : List Str
  deriving DecidableEq

/-- QEMU, when a call ends without waiting for it. -/
def WatchRound.left (round : WatchRound) : QemuLeft :=
  if round.ended.isSome then .ended else .running

/-- The loop of `run_vm_with_progress`, over the rounds that there are: how QEMU ended, or the error of
    the call, and what has become of QEMU.  After `kill` and `wait` QEMU is gone. -/
def watchQemu (plan : WinPeDismVmPlan) (timeout : Nat) :
    List WatchRound → Option (Result (Option Int) × QemuLeft)
  | [] => none
  | round :: rounds =>
    match reportWinpeProgress plan round.statusLog round.dismLog with
    | .error error => some (.error error, round.left)
    | .ok _ =>
      if round.pollFails then some (.error .io, round.left)
      else
        match round.ended with
        | some code => some (.ok code, .reaped)
        | none =>
          if round.elapsed ≥ timeout then
            some (.error (.invalidValue "WinPE DISM run"
              [.text plan.phase.debug, .text " phase exceeded ",
                .shown (decimal (timeout / 1000000000)), .text " seconds; inspect ",
                .shown plan.statusLog.display, .text ", ", .shown plan.serialLog.display,
                .text ", and ", .shown plan.qemuLog.display]), .reaped)
          else watchQemu plan timeout rounds

/-- `run_vm_with_progress`, after QEMU has ended. -/
def afterQemu (plan : WinPeDismVmPlan) (host : WinPeHost) (code : Option Int) :
    Result WinPeDismRunResult := do
  reportWinpeProgress plan host.lastStatus host.lastDism
  rejectIf (code ≠ some 0) (.externalCommandFailed plan.program code)
  let events ← readStatusEvents plan.statusLog host.finalStatus
  rejectIf (events.any (fun event => decide (plan.phase.failureMarker.toList <:+: event)) = true)
    (.invalidValue "WinPE DISM run" [.text plan.phase.debug, .text " phase reported failure; inspect ",
      .shown plan.statusLog.display, .text " and ", .shown plan.qemuLog.display])
  rejectIf (events.any (fun event => decide (plan.phase.completionMarker.toList <:+: event)) = false)
    (.invalidValue "WinPE DISM run" [.text plan.phase.debug,
      .text " phase exited without completion marker ", .debug plan.phase.completionMarker.toList,
      .text "; inspect ", .shown plan.statusLog.display])
  match plan.targetDisk with
  | some targetDisk => validateAppliedTarget plan.qemuImg targetDisk host.target
  | none => pure ()
  return { phase := plan.phase, elapsed := host.elapsed, statusEvents := events }

/-- `WinPeDismBackend::run_vm_with_progress`: nothing while it is still watching. -/
def runVmWithProgress (plan : WinPeDismVmPlan) (timeout : Nat) (host : WinPeHost) :
    Option (Result WinPeDismRunResult × QemuLeft) :=
  if timeout = 0 then
    some (.error (.invalidValue "WinPE timeout" [.text "must be greater than zero"]), .notStarted)
  else if plan.missingCapabilities ≠ [] then
    some (.error (.missingCapabilities plan.missingCapabilities), .notStarted)
  else
    match host.spawned with
    | .error error => some (.error error, .notStarted)
    | .ok _ =>
      (watchQemu plan timeout host.rounds).map fun (status, qemu) =>
        (status >>= afterQemu plan host, qemu)

/-! ## What a return promises -/

/-- The text of a log. -/
def LogObserved.text (log : LogObserved) (limit : Nat) : Str :=
  let bytes := (log.contents.getD []).take (limit + 1)
  fromUtf8Lossy bytes.length bytes

/-- QEMU is watched until it ends with this code. -/
def EndsWith (code : Option Int) (rounds : List WatchRound) : Prop :=
  ∃ running last later, rounds = running ++ last :: later ∧
    (∀ round ∈ running, round.ended = none) ∧ last.ended = some code

/-- What a result stands for. -/
structure Succeeded (plan : WinPeDismVmPlan) (host : WinPeHost) : Prop where
  ended : EndsWith (some 0) host.rounds
  completed : ∃ line ∈ lines (host.finalStatus.text maxStatusLogBytes),
    plan.phase.completionMarker.toList <:+: line
  not_failed : ∀ line ∈ lines (host.finalStatus.text maxStatusLogBytes),
    ¬ plan.phase.failureMarker.toList <:+: line
  checked : plan.phase = .apply → ∃ targetDisk, plan.targetDisk = some targetDisk ∧
    validateAppliedTarget plan.qemuImg targetDisk host.target = .ok ()

/-- A call that has started QEMU returns after QEMU has ended, and a result is that of a phase that
    has been completed. -/
def ReturnsStopped (plan : WinPeDismVmPlan) (timeout : Nat) (host : WinPeHost) : Prop :=
  ∀ result qemu, runVmWithProgress plan timeout host = some (result, qemu) → qemu ≠ .notStarted →
    qemu ≠ .running ∧ ∀ value, result = .ok value → Succeeded plan host

/-- The log can be read: it is a regular file that is not too large. -/
def LogObserved.Readable (log : LogObserved) (limit : Nat) : Prop :=
  (∃ metadata, log.metadata = some metadata ∧ metadata.kind = .file ∧ metadata.len ≤ limit) ∧
    log.contents ≠ none

/-- A round in which both logs can be read and QEMU can be polled. -/
structure WatchRound.Clean (round : WatchRound) : Prop where
  status : round.statusLog.Readable maxStatusLogBytes
  dism : round.dismLog.Readable maxDismLogBytes
  polls : round.pollFails = false

/-- Until QEMU ends or the timeout comes, every round is clean. -/
def CleanWhileRunning (timeout : Nat) : List WatchRound → Prop
  | [] => True
  | round :: rounds => round.ended = none →
      round.Clean ∧ (round.elapsed < timeout → CleanWhileRunning timeout rounds)

/-! ## Reading logs -/

/-- A log is read when it is readable within the limit. -/
theorem readLog_ok_iff {field tooLarge : String} {limit : Nat} {path : PathBuf} {log : LogObserved} :
    (∃ text, readLog field limit tooLarge path log = .ok text) ↔ log.Readable limit := by
  constructor
  · rintro ⟨text, h⟩
    simp only [readLog, bind_eq_ok, okOr_eq_ok, rejectIf_eq_ok, ne_eq, not_not, not_lt] at h
    obtain ⟨metadata, hmetadata, -, hkind, -, hlen, contents, hcontents, -⟩ := h
    exact ⟨⟨metadata, hmetadata, hkind, hlen⟩, by rw [hcontents]; exact Option.some_ne_none _⟩
  · rintro ⟨⟨metadata, hmetadata, hkind, hlen⟩, hcontents⟩
    obtain ⟨contents, hcontents⟩ := Option.ne_none_iff_exists'.mp hcontents
    refine ⟨log.text limit, ?_⟩
    rw [readLog, hmetadata, okOr_some, ok_bind, rejectIf_of_not _ (not_not.mpr hkind), ok_bind,
      rejectIf_of_not _ (Nat.not_lt.mpr hlen), ok_bind, hcontents, okOr_some, ok_bind,
      LogObserved.text, hcontents]
    rfl

theorem text_of_readLog {field tooLarge : String} {limit : Nat} {path : PathBuf}
    {log : LogObserved} {text : Str} (h : readLog field limit tooLarge path log = .ok text) :
    text = log.text limit := by
  simp only [readLog, bind_eq_ok, okOr_eq_ok, pure_eq_ok_iff] at h
  obtain ⟨-, -, -, -, -, -, contents, hcontents, rfl⟩ := h
  rw [LogObserved.text, hcontents]
  rfl

theorem reportWinpeProgress_ok_iff {plan : WinPeDismVmPlan} {status dism : LogObserved} :
    reportWinpeProgress plan status dism = .ok () ↔
      status.Readable maxStatusLogBytes ∧ dism.Readable maxDismLogBytes := by
  rw [← readLog_ok_iff, ← readLog_ok_iff]
  simp only [reportWinpeProgress, readStatusEvents, readDismProgress, bind_eq_ok, pure_eq_ok_iff]
  constructor
  · rintro ⟨-, ⟨text, htext, -⟩, other, hother, -⟩
    exact ⟨⟨text, htext⟩, other, hother⟩
  · rintro ⟨⟨text, htext⟩, other, hother⟩
    exact ⟨_, ⟨text, htext, rfl⟩, other, hother, trivial⟩

/-! ## Watching QEMU -/

variable {plan : WinPeDismVmPlan} {timeout : Nat}

/-- QEMU is left running by no call exactly when every round before its end is clean. -/
theorem watchQemu_stopped_iff {rounds : List WatchRound} :
    (∀ result qemu, watchQemu plan timeout rounds = some (result, qemu) → qemu ≠ .running) ↔
      CleanWhileRunning timeout rounds := by
  induction rounds with
  | nil => simp [watchQemu, CleanWhileRunning]
  | cons round rounds ih =>
    rw [CleanWhileRunning]
    cases hended : round.ended with
    | some code =>
      -- Whatever ends the call here, QEMU has ended before.
      refine iff_of_true ?_ (by simp)
      have hleft : round.left = .ended := by simp [WatchRound.left, hended]
      intro result qemu hwatch
      rw [watchQemu, hleft] at hwatch
      cases hreport : reportWinpeProgress plan round.statusLog round.dismLog with
      | error error =>
        rw [hreport] at hwatch
        obtain ⟨-, rfl⟩ := Prod.mk.inj (Option.some.inj hwatch)
        decide
      | ok _ =>
        simp only [hreport, hended] at hwatch
        split at hwatch
        · obtain ⟨-, rfl⟩ := Prod.mk.inj (Option.some.inj hwatch)
          decide
        · obtain ⟨-, rfl⟩ := Prod.mk.inj (Option.some.inj hwatch)
          decide
    | none =>
      have hleft : round.left = .running := by simp [WatchRound.left, hended]
      rw [watchQemu, hleft]
      by_cases hclean : round.Clean
      · have hreport : reportWinpeProgress plan round.statusLog round.dismLog = .ok () :=
          reportWinpeProgress_ok_iff.mpr ⟨hclean.status, hclean.dism⟩
        have hpolls : ¬ round.pollFails = true := by simp [hclean.polls]
        simp only [hreport, if_neg hpolls, hended]
        by_cases hlate : round.elapsed ≥ timeout
        · rw [if_pos hlate]
          refine iff_of_true ?_ fun _ => ⟨hclean, fun hearly => absurd hlate (Nat.not_le.mpr hearly)⟩
          rintro result qemu hwatch
          obtain ⟨-, rfl⟩ := Prod.mk.inj (Option.some.inj hwatch)
          decide
        · rw [if_neg hlate, ih]
          exact ⟨fun h _ => ⟨hclean, fun _ => h⟩, fun h => (h trivial).2 (Nat.not_le.mp hlate)⟩
      · -- The call returns here, and nobody stops QEMU.
        refine iff_of_false ?_ fun h => hclean (h rfl).1
        cases hreport : reportWinpeProgress plan round.statusLog round.dismLog with
        | error error => exact fun h => h (.error error) .running rfl rfl
        | ok _ =>
          have hreadable := reportWinpeProgress_ok_iff.mp hreport
          have hpolls : round.pollFails = true := by
            by_contra hno
            exact hclean ⟨hreadable.1, hreadable.2, Bool.eq_false_iff.mpr hno⟩
          simp only [if_pos hpolls]
          exact fun h => h (.error .io) .running rfl rfl

/-- The loop returns the code with which QEMU has ended. -/
theorem watchQemu_ok {rounds : List WatchRound} {code : Option Int} {qemu : QemuLeft}
    (h : watchQemu plan timeout rounds = some (.ok code, qemu)) : EndsWith code rounds := by
  -- Over the rounds.
  induction rounds with
  | nil => cases h
  | cons round rounds ih =>
    rw [watchQemu] at h
    -- A log that turns bad ends the loop with an error.
    cases hreport : reportWinpeProgress plan round.statusLog round.dismLog with
    | error error =>
      rw [hreport] at h
      cases h
    | ok _ =>
      simp only [hreport] at h
      split at h
      · cases h
      -- QEMU has ended in this round, or the next one is awaited.
      · cases hended : round.ended with
        | some other =>
          simp only [hended] at h
          obtain ⟨hcode, -⟩ := Prod.mk.inj (Option.some.inj h)
          obtain rfl := Except.ok.inj hcode
          exact ⟨[], round, rounds, rfl, by simp, hended⟩
        | none =>
          simp only [hended] at h
          split at h
          · cases h
          · obtain ⟨running, last, later, rfl, hrunning, hlast⟩ := ih h
            exact ⟨round :: running, last, later, rfl,
              List.forall_mem_cons.mpr ⟨hended, hrunning⟩, hlast⟩

/-! ## Markers -/

/-- What stands in a text stands in it without the characters dropped in front. -/
theorem infix_dropWhile {α : Type} {p : α → Bool} {part whole : List α}
    (hpart : ∀ a ∈ part, p a = false) (h : part <:+: whole) : part <:+: whole.dropWhile p := by
  induction whole with
  | nil => exact h
  | cons a whole ih =>
    cases hp : p a with
    | false => rwa [List.dropWhile_cons_of_neg (by simp [hp])]
    | true =>
      rw [List.dropWhile_cons_of_pos hp]
      -- The part cannot begin at what is dropped, unless there is nothing in it.
      rcases List.infix_cons_iff.mp h with hpre | hinside
      · cases part with
        | nil => exact List.nil_infix
        | cons b part =>
          obtain ⟨rfl, -⟩ := List.cons_prefix_cons.mp hpre
          rw [hpart b List.mem_cons_self] at hp
          cases hp
      · exact ih hinside

/-- What has no trimmed character stands in a line if and only if it does in the trimmed one. -/
theorem infix_trimMatches {p : Char → Bool} {part line : Str} (hpart : ∀ c ∈ part, p c = false) :
    part <:+: trimMatches p line ↔ part <:+: line := by
  constructor
  · intro h
    have hback : trimMatches p line <:+: (line.dropWhile p).reverse.reverse :=
      List.reverse_infix.mpr (List.dropWhile_suffix p).isInfix
    rw [List.reverse_reverse] at hback
    exact h.trans (hback.trans (List.dropWhile_suffix p).isInfix)
  · intro h
    have hfront := infix_dropWhile hpart h
    have hplain : ∀ c ∈ part.reverse, p c = false := fun c hc => hpart c (List.mem_reverse.mp hc)
    have hreverse := infix_dropWhile hplain (List.reverse_infix.mpr hfront)
    have := List.reverse_infix.mpr hreverse
    rwa [List.reverse_reverse] at this

theorem marker_not_control (phase : WinPeDismVmPhase) :
    (∀ c ∈ phase.completionMarker.toList, isControl c = false) ∧
      ∀ c ∈ phase.failureMarker.toList, isControl c = false := by
  cases phase <;> exact ⟨forall_mem_of_all (by decide), forall_mem_of_all (by decide)⟩

theorem tag_infix_marker (phase : WinPeDismVmPhase) :
    "LSW-WINPE-DISM ".toList <:+: phase.completionMarker.toList ∧
      "LSW-WINPE-DISM ".toList <:+: phase.failureMarker.toList := by
  cases phase with
  | prepare => decide
  | apply => decide

/-- A marker is in some event exactly when it is in some line of the log. -/
theorem marker_in_events {path : PathBuf} {log : LogObserved} {events : List Str} {marker : Str}
    (h : readStatusEvents path log = .ok events) (hplain : ∀ c ∈ marker, isControl c = false)
    (htag : "LSW-WINPE-DISM ".toList <:+: marker) :
    events.any (fun event => decide (marker <:+: event)) = true ↔
      ∃ line ∈ lines (log.text maxStatusLogBytes), marker <:+: line := by
  simp only [readStatusEvents, bind_eq_ok, pure_eq_ok_iff] at h
  obtain ⟨text, htext, rfl⟩ := h
  rw [← text_of_readLog htext]
  simp only [List.any_eq_true, List.mem_filter, List.mem_map, decide_eq_true_eq]
  constructor
  · rintro ⟨event, ⟨⟨line, hline, rfl⟩, -⟩, hmarker⟩
    exact ⟨line, hline, (infix_trimMatches hplain).mp hmarker⟩
  · rintro ⟨line, hline, hmarker⟩
    have htrimmed := (infix_trimMatches hplain).mpr hmarker
    exact ⟨_, ⟨⟨line, hline, rfl⟩, htag.trans htrimmed⟩, htrimmed⟩

/-! ## A call -/

/-- What follows the loop succeeds only for a phase that has. -/
theorem afterQemu_ok {host : WinPeHost} {code : Option Int} {value : WinPeDismRunResult}
    (hends : EndsWith code host.rounds) (h : afterQemu plan host code = .ok value) :
    Succeeded plan host := by
  simp only [afterQemu, bind_eq_ok, rejectIf_eq_ok, ne_eq, not_not, Bool.not_eq_true,
    Bool.not_eq_false] at h
  obtain ⟨-, -, -, rfl, events, hevents, -, hfailed, -, hcompleted, htarget⟩ := h
  obtain ⟨hcompletion, hfailure⟩ := marker_not_control plan.phase
  obtain ⟨htagC, htagF⟩ := tag_infix_marker plan.phase
  refine ⟨hends, (marker_in_events hevents hcompletion htagC).mp hcompleted, ?_, fun happly => ?_⟩
  · intro line hline hmarker
    rw [(marker_in_events hevents hfailure htagF).mpr ⟨line, hline, hmarker⟩] at hfailed
    cases hfailed
  · -- Only a plan for applying has a target, and it always has one.
    have hsome := plan.target_of_apply
    rw [happly, decide_eq_true rfl, Option.isSome_iff_exists] at hsome
    obtain ⟨targetDisk, htargetDisk⟩ := hsome
    rw [htargetDisk] at htarget
    obtain ⟨⟨⟩, hcheck, -⟩ := bind_eq_ok.mp htarget
    exact ⟨targetDisk, htargetDisk, hcheck⟩

/-- A call starts QEMU. -/
structure Spawns (plan : WinPeDismVmPlan) (timeout : Nat) (host : WinPeHost) : Prop where
  timeout : timeout ≠ 0
  capable : plan.missingCapabilities = []
  spawned : host.spawned = .ok ()

/-- Whatever the guest writes and however QEMU ends, a call that has started QEMU leaves none running
    exactly when no log turns bad and no poll fails while it runs; what it returns is then, as always, the
    result of a completed phase. -/
theorem run_returns_stopped_iff (plan : WinPeDismVmPlan) (timeout : Nat) (host : WinPeHost) :
    ReturnsStopped plan timeout host ↔
      (Spawns plan timeout host → CleanWhileRunning timeout host.rounds) := by
  -- With no QEMU started there is none to be left.
  by_cases hspawns : Spawns plan timeout host
  · have hrun : runVmWithProgress plan timeout host =
        (watchQemu plan timeout host.rounds).map fun (status, qemu) =>
          (status >>= afterQemu plan host, qemu) := by
      rw [runVmWithProgress, if_neg hspawns.timeout, if_neg (not_not.mpr hspawns.capable),
        hspawns.spawned]
    simp only [hspawns, forall_const]
    -- The loop leaves no running QEMU exactly under the condition.
    have hstopped : (∀ result qemu, watchQemu plan timeout host.rounds = some (result, qemu) →
        qemu ≠ .running) ↔ CleanWhileRunning timeout host.rounds := watchQemu_stopped_iff
    -- So the question is what a call adds to the loop: nothing that could start or stop one.
    rw [← hstopped]
    constructor
    · rintro h result qemu hwatch rfl
      rw [ReturnsStopped, hrun, hwatch] at h
      exact (h _ .running rfl (by decide)).1 rfl
    · intro h result qemu hreturn hstarted
      rw [hrun] at hreturn
      obtain ⟨⟨status, left⟩, hwatch, heq⟩ := Option.map_eq_some_iff.mp hreturn
      obtain ⟨rfl, rfl⟩ := Prod.mk.inj heq
      refine ⟨h status left hwatch, fun value hvalue => ?_⟩
      obtain ⟨code, rfl, hafter⟩ := bind_eq_ok.mp hvalue
      exact afterQemu_ok (watchQemu_ok hwatch) hafter
  -- A call that has started none returns from one of the three checks.
  · refine iff_of_true ?_ fun h => absurd h hspawns
    intro result qemu hreturn hstarted
    rw [runVmWithProgress] at hreturn
    refine absurd ?_ hstarted
    split at hreturn
    · exact (Prod.mk.inj (Option.some.inj hreturn)).2.symm
    · rename_i htimeout
      split at hreturn
      · exact (Prod.mk.inj (Option.some.inj hreturn)).2.symm
      · rename_i hcapable
        split at hreturn
        · exact (Prod.mk.inj (Option.some.inj hreturn)).2.symm
        · rename_i hspawned
          exact absurd ⟨htimeout, not_not.mp hcapable, hspawned⟩ hspawns

/-! ## A log that grows too large -/

def somePlan : WinPeDismVmPlan where
  phase := .prepare
  program := .ofStr "qemu-system-x86_64".toList
  statusLog := .ofStr "winpe/status.log".toList
  dismLog := .ofStr "winpe/dism.log".toList
  serialLog := .ofStr "winpe/serial.log".toList
  qemuLog := .ofStr "winpe/qemu.log".toList
  missingCapabilities := []
  qemuImg := .ofStr "qemu-img".toList
  targetDisk := none
  target_of_apply := rfl

def emptyLog : LogObserved := ⟨some ⟨.file, 0⟩, some []⟩

/-- The guest has written 8 MiB and a byte of DISM output, and QEMU runs. -/
def largeRound : WatchRound where
  statusLog := emptyLog
  dismLog := ⟨some ⟨.file, maxDismLogBytes + 1⟩, some (List.replicate (maxDismLogBytes + 1) 37)⟩
  ended := none
  pollFails := false
  elapsed := 1000000000

def largeLogHost : WinPeHost where
  spawned := .ok ()
  rounds := [largeRound]
  lastStatus := emptyLog
  lastDism := emptyLog
  finalStatus := emptyLog
  target := ⟨none, none, none⟩
  elapsed := 0

/-- The call fails while QEMU runs, and leaves it running. -/
theorem large_log_leaves_qemu_running :
    ¬ ReturnsStopped somePlan 14400000000000 largeLogHost := by
  intro h
  have hreturn : runVmWithProgress somePlan 14400000000000 largeLogHost =
      some (.error (.invalidValue "WinPE DISM log"
        [.shown somePlan.dismLog.display, .text " exceeds 8 MiB"]), .running) := rfl
  exact (h _ _ hreturn (by decide)).1 rfl

end Lsw.Core.WinPe
