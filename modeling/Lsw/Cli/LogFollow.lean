import Lsw.Lib.Lossy
import Lsw.Lib.Run

/-!
# Following a Log

`lsw logs --follow` (`management.rs`) prints the last lines of a log that QEMU is writing, and then what
is appended, round by round.  It takes the length of the file and reads to the end in two steps, and
goes on from the length.  What is appended between the two steps is read as well, so it is printed in
this round and again in the next.

`FollowStep` is a step of either side.  `PrintedOnce` says what has been printed at some moment, and a run
keeps it as long as nothing is appended between a length and its read.
-/

namespace Lsw.Cli

open Lsw.Lib

/-! ## The tail -/

/-- `MAX_TAIL_BYTES`. -/
def maxTailBytes : Nat := 1024 * 1024

/-- The text that `read_log_tail` returns for what it has read. -/
def tailText (lineCount : Nat) (contents : Bytes) : Str :=
  let text := fromUtf8Lossy contents.length contents
  let selected := ((lines text).reverse.take lineCount).reverse
  let output := ['\n'].intercalate selected
  if output = [] then output else output ++ ['\n']

/-! ## The two sides -/

/-- The next step of `logs`, with the variables that it holds. -/
inductive LogPhase where
  /-- `read_log_tail`: the length, the position, the contents from there, and their last lines. -/
  | tailLength
  | tailSeek (length : Nat)
  | tailRead (length start : Nat)
  | tailPrint (text : Str) (length : Nat)
  /-- A round: the pause, the length, and when the log has grown the position, the rest and its text. -/
  | sleep (offset : Nat)
  | length (offset : Nat)
  | seek (offset length : Nat)
  | read (offset length : Nat)
  | print (contents : Bytes) (length : Nat)
  deriving DecidableEq

/-- The log, and `logs` on it. -/
structure LogRun where
  log : Bytes
  phase : LogPhase
  printed : Str
  /-- The selected lines, and how much of the log there was when they were read. -/
  tail : Str
  tailEnd : Nat
  /-- The length that was taken last. -/
  measured : Nat
  deriving DecidableEq

/-- `logs` starts on a log. -/
def LogRun.start (log : Bytes) : LogRun := ⟨log, .tailLength, [], [], 0, 0⟩

/-- A step of `logs`; `read_to_end` is taken where it meets the end. -/
def LogRun.next (lineCount : Nat) (logs : LogRun) : LogRun :=
  match logs.phase with
  | .tailLength => { logs with phase := .tailSeek logs.log.length, measured := logs.log.length }
  | .tailSeek length => { logs with phase := .tailRead length (length - maxTailBytes) }
  | .tailRead length start =>
    let text := tailText lineCount (logs.log.drop start)
    { logs with phase := .tailPrint text length, tail := text, tailEnd := logs.log.length }
  | .tailPrint text length =>
    { logs with phase := .sleep length, printed := logs.printed ++ text }
  | .sleep offset => { logs with phase := .length offset }
  | .length offset =>
    let length := logs.log.length
    let offset := if length < offset then 0 else offset
    { logs with
      phase := if length > offset then .seek offset length else .sleep offset
      measured := length }
  | .seek offset length => { logs with phase := .read offset length }
  | .read offset length => { logs with phase := .print (logs.log.drop offset) length }
  | .print contents length =>
    { logs with
      phase := .sleep length
      printed := logs.printed ++ fromUtf8Lossy contents.length contents }

/-- A step of either side: QEMU appends ASCII text, or `logs` goes on. -/
inductive FollowStep where
  | append (text : Bytes) (ascii : ∀ b ∈ text, b < 0x80)
  | next

def followStep (lineCount : Nat) (logs : LogRun) : FollowStep → LogRun
  | .append text _ => { logs with log := logs.log ++ text }
  | .next => logs.next lineCount

/-! ## What is printed -/

/-- ASCII text. -/
def asciiText (contents : Bytes) : Str := contents.map fun b => Char.ofNat b.toNat

/-- `logs` has printed the selected lines. -/
def LogPhase.Following : LogPhase → Prop
  | .tailLength | .tailSeek _ | .tailRead _ _ | .tailPrint _ _ => False
  | _ => True

/-- `logs` has taken a length, and not yet read up to the end. -/
def LogPhase.Reading : LogPhase → Prop
  | .tailSeek _ | .tailRead _ _ | .seek _ _ | .read _ _ => True
  | _ => False

/-- The selected lines are printed, and behind them every byte once that was appended after they were
    read, up to a place in the log. -/
structure LogRun.Upto (logs : LogRun) (upto : Nat) : Prop where
  after_tail : logs.tailEnd ≤ upto
  there : upto ≤ logs.log.length
  printed : logs.printed = logs.tail ++ asciiText ((logs.log.take upto).drop logs.tailEnd)

/-- What `logs` is to have printed: at the end of a round, all that the round found. -/
structure LogRun.PrintedOnce (logs : LogRun) : Prop where
  before : ¬ logs.phase.Following → logs.printed = []
  after : logs.phase.Following → ∃ upto, logs.Upto upto ∧
    ∀ offset, logs.phase = .sleep offset → logs.measured ≤ upto

/-- Nothing is appended between a length and its read. -/
def NoGap (logs : LogRun) : FollowStep → Prop
  | .append text _ => logs.phase.Reading → text = []
  | .next => True

/-! ## What is kept -/

/-- What holds before each step of `logs`. -/
def LogRun.AtPhase (logs : LogRun) : LogPhase → Prop
  | .tailLength => logs.printed = []
  | .tailSeek length => logs.printed = [] ∧ logs.log.length = length ∧ logs.measured = length
  | .tailRead length _ => logs.printed = [] ∧ logs.log.length = length ∧ logs.measured = length
  | .tailPrint text length => logs.printed = [] ∧ logs.tail = text ∧ logs.tailEnd = length ∧
      length ≤ logs.log.length ∧ logs.measured = length
  | .sleep offset => logs.Upto offset ∧ logs.measured ≤ offset
  | .length offset => logs.Upto offset
  | .seek offset length => logs.Upto offset ∧ offset < length ∧ logs.log.length = length ∧
      logs.measured = length
  | .read offset length => logs.Upto offset ∧ offset < length ∧ logs.log.length = length ∧
      logs.measured = length
  | .print contents length => ∃ offset, logs.Upto offset ∧ offset < length ∧
      length ≤ logs.log.length ∧ logs.measured = length ∧
      contents = (logs.log.take length).drop offset

structure LogRun.Kept (logs : LogRun) : Prop where
  ascii : ∀ b ∈ logs.log, b < 0x80
  at_phase : logs.AtPhase logs.phase

/-- While the invariant holds, everything is printed once. -/
theorem LogRun.Kept.printedOnce {logs : LogRun} (h : logs.Kept) : logs.PrintedOnce := by
  obtain ⟨log, phase, printed, tail, tailEnd, measured⟩ := logs
  obtain ⟨-, hphase⟩ := h
  cases phase with
  | tailLength => exact ⟨fun _ => hphase, False.elim⟩
  | tailSeek length => exact ⟨fun _ => hphase.1, False.elim⟩
  | tailRead length start => exact ⟨fun _ => hphase.1, False.elim⟩
  | tailPrint text length => exact ⟨fun _ => hphase.1, False.elim⟩
  | sleep offset =>
    exact ⟨fun hno => absurd trivial hno, fun _ => ⟨offset, hphase.1, fun _ _ => hphase.2⟩⟩
  | length offset =>
    exact ⟨fun hno => absurd trivial hno, fun _ => ⟨offset, hphase, fun _ h => by cases h⟩⟩
  | seek offset length =>
    exact ⟨fun hno => absurd trivial hno, fun _ => ⟨offset, hphase.1, fun _ h => by cases h⟩⟩
  | read offset length =>
    exact ⟨fun hno => absurd trivial hno, fun _ => ⟨offset, hphase.1, fun _ h => by cases h⟩⟩
  | print contents length =>
    obtain ⟨offset, hupto, -⟩ := hphase
    exact ⟨fun hno => absurd trivial hno, fun _ => ⟨offset, hupto, fun _ h => by cases h⟩⟩

/-! ## Steps -/

/-- What is appended changes nothing in front of it. -/
theorem LogRun.Upto.append {logs : LogRun} {upto : Nat} (h : logs.Upto upto) (text : Bytes) :
    ({ logs with log := logs.log ++ text } : LogRun).Upto upto where
  after_tail := h.after_tail
  there := by
    show upto ≤ (logs.log ++ text).length
    rw [List.length_append]
    exact Nat.le_add_right_of_le h.there
  printed := by
    show logs.printed = logs.tail ++ asciiText (((logs.log ++ text).take upto).drop logs.tailEnd)
    rw [List.take_append_of_le_length h.there]
    exact h.printed

/-- Text that is appended outside of a gap keeps the invariant. -/
theorem LogRun.Kept.append {logs : LogRun} (h : logs.Kept) {text : Bytes}
    (hascii : ∀ b ∈ text, b < 0x80) (hgap : logs.phase.Reading → text = []) :
    ({ logs with log := logs.log ++ text } : LogRun).Kept := by
  refine ⟨fun b hb => (List.mem_append.mp hb).elim (h.ascii b) (hascii b), ?_⟩
  -- The log only grows.
  have hlonger (length : Nat) (hle : length ≤ logs.log.length) :
      length ≤ (logs.log ++ text).length := by
    rw [List.length_append]
    exact Nat.le_add_right_of_le hle
  have hphase := h.at_phase
  obtain ⟨log, phase, printed, tail, tailEnd, measured⟩ := logs
  -- In the phases between a length and its reading nothing is appended.
  cases phase with
  | tailLength => exact hphase
  | tailSeek length =>
    obtain rfl := hgap trivial
    simpa using hphase
  | tailRead length start =>
    obtain rfl := hgap trivial
    simpa using hphase
  -- What has been read stays what it is.
  | tailPrint text' length =>
    obtain ⟨hprinted, htail, hend, hle, hmeasured⟩ := hphase
    exact ⟨hprinted, htail, hend, hlonger length hle, hmeasured⟩
  | sleep offset => exact ⟨hphase.1.append text, hphase.2⟩
  | length offset => exact hphase.append text
  | seek offset length =>
    obtain rfl := hgap trivial
    simpa using hphase
  | read offset length =>
    obtain rfl := hgap trivial
    simpa using hphase
  | print contents length =>
    obtain ⟨offset, hupto, hlt, hle, hmeasured, hcontents⟩ := hphase
    refine ⟨offset, hupto.append text, hlt, hlonger length hle, hmeasured, ?_⟩
    show contents = ((log ++ text).take length).drop offset
    rw [List.take_append_of_le_length hle]
    exact hcontents

/-- What a round prints continues what has been printed. -/
theorem asciiText_extend {log : Bytes} {front offset length : Nat} (hfront : front ≤ offset)
    (hoffset : offset ≤ length) :
    asciiText ((log.take offset).drop front) ++ asciiText ((log.take length).drop offset) =
      asciiText ((log.take length).drop front) := by
  have htake : log.take offset = (log.take length).take offset := by
    rw [List.take_take, Nat.min_eq_left hoffset]
  have hdrop : (log.take length).drop offset =
      ((log.take length).drop front).drop (offset - front) := by
    rw [List.drop_drop, Nat.add_sub_cancel' hfront]
  rw [asciiText, asciiText, asciiText, ← List.map_append, htake, hdrop, List.drop_take,
    List.take_append_drop]

/-- So does every step of the command. -/
theorem LogRun.Kept.next {logs : LogRun} (lineCount : Nat) (h : logs.Kept) :
    (logs.next lineCount).Kept := by
  have hphase := h.at_phase
  have hascii := h.ascii
  obtain ⟨log, phase, printed, tail, tailEnd, measured⟩ := logs
  cases phase with
  | tailLength => exact ⟨hascii, hphase, rfl, rfl⟩
  | tailSeek length => exact ⟨hascii, hphase⟩
  | tailRead length start =>
    obtain ⟨hprinted, hlength, hmeasured⟩ := hphase
    exact ⟨hascii, hprinted, rfl, hlength, hlength.ge, hmeasured⟩
  | tailPrint text length =>
    obtain ⟨hprinted, htail, hend, hle, hmeasured⟩ := hphase
    refine ⟨hascii, ⟨hend.le, hle, ?_⟩, hmeasured.le⟩
    -- Nothing has been appended that is printed already.
    have hnone : (log.take length).drop tailEnd = [] := by
      rw [show tailEnd = length from hend, List.drop_eq_nil_iff]
      exact List.length_take_le length log
    show printed ++ text = tail ++ asciiText ((log.take length).drop tailEnd)
    rw [hnone, show printed = [] from hprinted, show tail = text from htail]
    simp [asciiText]
  | sleep offset =>
    obtain ⟨hupto, -⟩ := hphase
    exact ⟨hascii, hupto.after_tail, hupto.there, hupto.printed⟩
  | length offset =>
    have hthere : ¬ log.length < offset := Nat.not_lt.mpr hphase.there
    refine ⟨hascii, ?_⟩
    by_cases hgrown : log.length > offset
    · simp only [LogRun.next, if_neg hthere, if_pos hgrown]
      exact ⟨⟨hphase.after_tail, hphase.there, hphase.printed⟩, hgrown, rfl, rfl⟩
    · simp only [LogRun.next, if_neg hthere, if_neg hgrown]
      exact ⟨⟨hphase.after_tail, hphase.there, hphase.printed⟩, Nat.not_lt.mp hgrown⟩
  | seek offset length =>
    obtain ⟨hupto, hgrown⟩ := hphase
    exact ⟨hascii, ⟨hupto.after_tail, hupto.there, hupto.printed⟩, hgrown⟩
  | read offset length =>
    obtain ⟨hupto, hlt, hlength, hmeasured⟩ := hphase
    refine ⟨hascii, offset, ⟨hupto.after_tail, hupto.there, hupto.printed⟩, hlt, hlength.ge,
      hmeasured, ?_⟩
    show log.drop offset = (log.take length).drop offset
    rw [List.take_of_length_le hlength.le]
  | print contents length =>
    obtain ⟨offset, hupto, hlt, hle, hmeasured, hcontents⟩ := hphase
    refine ⟨hascii, ⟨hupto.after_tail.trans hlt.le, hle, ?_⟩, hmeasured.le⟩
    have hlossy : fromUtf8Lossy contents.length contents = asciiText contents :=
      fromUtf8Lossy_ascii fun b hb =>
        hascii b (List.mem_of_mem_take (List.mem_of_mem_drop (hcontents ▸ hb)))
    show printed ++ fromUtf8Lossy contents.length contents = _
    rw [hlossy, show printed = _ from hupto.printed, List.append_assoc, hcontents]
    exact congrArg (tail ++ ·) (asciiText_extend hupto.after_tail hlt.le)

/-! ## Runs -/

/-- Whatever is appended and whenever: nothing is lost or printed twice as long as nothing is appended
    between a length and the read to the end that follows it. -/
theorem follow_prints_every_byte_once (lineCount : Nat) {log : Bytes} (hascii : ∀ b ∈ log, b < 0x80)
    {steps : List FollowStep}
    (hgap : Along (followStep lineCount) NoGap (LogRun.start log) steps) :
    (run (followStep lineCount) (LogRun.start log) steps).PrintedOnce := by
  refine LogRun.Kept.printedOnce (run_invariant (I := LogRun.Kept) ?_ ⟨hascii, rfl⟩ hgap)
  intro logs step hkept hallowed
  cases step with
  | append text htext => exact hkept.append htext hallowed
  | next => exact hkept.next lineCount

/-- `"a\n"` and `"b\n"`. -/
def lineA : Bytes := [97, 10]
def lineB : Bytes := [98, 10]

/-- `logs` takes the length of the tail and of every round, and prints the rest. -/
def tailSteps : List FollowStep := List.replicate 4 .next
def roundSteps : List FollowStep := List.replicate 5 .next

def appendB : FollowStep := .append lineB (forall_mem_of_all (by decide))

theorem line_appended_before_a_round_is_printed_once :
    (run (followStep 10) (LogRun.start lineA) (tailSteps ++ appendB :: roundSteps)).PrintedOnce := by
  refine follow_prints_every_byte_once 10 (forall_mem_of_all (by decide)) ?_
  simp [tailSteps, roundSteps, appendB, List.replicate, Along, NoGap, LogPhase.Reading, followStep,
    LogRun.next, LogRun.start]

/-- A line that is appended between the length of the tail and its read is printed twice. -/
theorem line_appended_in_a_gap_is_printed_twice :
    ¬ ∀ steps, (run (followStep 10) (LogRun.start lineA) steps).PrintedOnce := by
  intro hall
  have htwice : run (followStep 10) (LogRun.start lineA)
      (.next :: appendB :: List.replicate 3 .next ++ roundSteps) =
      ⟨lineA ++ lineB, .sleep 4, "a\nb\nb\n".toList, "a\nb\n".toList, 4, 4⟩ := by decide
  obtain ⟨upto, hupto, -⟩ := (htwice ▸ hall _).after trivial
  -- All four bytes were there when the tail was read, so nothing was appended after it.
  have hprinted := hupto.printed
  rw [show ((lineA ++ lineB).take upto).drop 4 = [] from
    List.drop_eq_nil_of_le (List.length_take_le' upto (lineA ++ lineB))] at hprinted
  revert hprinted
  decide

end Lsw.Cli
