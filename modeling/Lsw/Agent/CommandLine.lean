import Lsw.Lib.WindowsWords

/-!
# The Command Line of a Process

`CreateProcessW` takes one text, so the agent writes the program and its arguments into a
command line (`process_bridge.rs`), quoting those that need it and doubling the backslashes
that a quote follows.  What is written is read by the rules of `Lsw.Lib.WindowsWords`.

The quoting loop holds back a run of backslashes until it sees what follows; `Written` relates
what it has written by then to the word the reader has.
-/

namespace Lsw.Agent.CommandLine

open Lsw.Lib Lsw.Lib.WindowsWords

/-! ## The program -/

/-- `needs_quotes`. -/
def needsQuotes (argument : Str) : Bool :=
  argument.isEmpty || argument.any fun character => isWhitespace character || character == '"'

/-- One character in the loop of `append_windows_quoted_argument`; the state is the command line
    and the number of backslashes held back. -/
def pushCharacter (state : Str × Nat) (character : Char) : Str × Nat :=
  let (commandLine, backslashes) := state
  if character = '\\' then (commandLine, backslashes + 1)
  else if character = '"' then
    (commandLine ++ List.replicate (backslashes * 2 + 1) '\\' ++ ['"'], 0)
  else (commandLine ++ List.replicate backslashes '\\' ++ [character], 0)

/-- `append_windows_quoted_argument`. -/
def appendWindowsQuotedArgument (commandLine argument : Str) : Str :=
  if needsQuotes argument = false then commandLine ++ argument
  else
    let (commandLine, backslashes) := argument.foldl pushCharacter (commandLine ++ ['"'], 0)
    commandLine ++ List.replicate (backslashes * 2) '\\' ++ ['"']

/-- `windows_command_line`. -/
def windowsCommandLine (program : Str) (arguments : List Str) : Str :=
  arguments.foldl
    (fun commandLine argument => appendWindowsQuotedArgument (commandLine ++ [' ']) argument)
    (appendWindowsQuotedArgument [] program)

/-! ## Writing behind something -/

theorem pushCharacter_append (front : Str) (state : Str × Nat) (c : Char) :
    pushCharacter (front ++ state.1, state.2) c =
      (front ++ (pushCharacter state c).1, (pushCharacter state c).2) := by
  simp only [pushCharacter]
  split
  · rfl
  · split <;> simp

theorem foldl_pushCharacter_append (front s : Str) (state : Str × Nat) :
    s.foldl pushCharacter (front ++ state.1, state.2) =
      (front ++ (s.foldl pushCharacter state).1, (s.foldl pushCharacter state).2) := by
  induction s generalizing state with
  | nil => rfl
  | cons c s ih => rw [List.foldl_cons, pushCharacter_append, ih, List.foldl_cons]

/-- What is in front stays as it is. -/
theorem appendWindowsQuotedArgument_append (front argument : Str) :
    appendWindowsQuotedArgument front argument =
      front ++ appendWindowsQuotedArgument [] argument := by
  have hfold := foldl_pushCharacter_append front argument (['"'], 0)
  simp only [appendWindowsQuotedArgument]
  split
  · rfl
  · simp only at hfold
    simp [hfold]

/-- The command line: the program, and behind a space each argument. -/
theorem windowsCommandLine_eq (program : Str) (arguments : List Str) :
    windowsCommandLine program arguments = appendWindowsQuotedArgument [] program ++
      (arguments.map (appendWindowsQuotedArgument [])).flatMap (' ' :: ·) := by
  rw [windowsCommandLine]
  generalize appendWindowsQuotedArgument [] program = front
  induction arguments generalizing front with
  | nil => simp
  | cons argument arguments ih =>
    rw [List.foldl_cons, ih, appendWindowsQuotedArgument_append]
    simp

/-! ## The quoting loop -/

/-- The reader is inside a quoted part and has read what was written; the backslashes held back
    are all that it lacks. -/
def Written (state : Str × Nat) (done : Str) : Prop :=
  ∃ text, done = text ++ List.replicate state.2 '\\' ∧
    ∀ rest, reader.scan (some .start) (state.1 ++ rest) = reader.scan (some ⟨.inside, 0, text⟩) rest

theorem written_start : Written (['"'], 0) [] := ⟨[], rfl, fun _ => rfl⟩

/-- Backslashes that are written wait in the reader. -/
theorem Written.backslashes {commandLine text : Str}
    (h : ∀ rest, reader.scan (some .start) (commandLine ++ rest) = reader.scan (some ⟨.inside, 0, text⟩) rest)
    (n : Nat) (rest : Str) :
    reader.scan (some .start) (commandLine ++ List.replicate n '\\' ++ rest) =
      reader.scan (some ⟨.inside, n, text⟩) rest := by
  rw [List.append_assoc, h, scan_backslashes rfl, Nat.zero_add]

/-- A character is written so that it is read behind those before it. -/
theorem Written.push {state : Str × Nat} {done : Str} (h : Written state done) (c : Char) :
    Written (pushCharacter state c) (done ++ [c]) := by
  obtain ⟨commandLine, backslashes⟩ := state
  obtain ⟨text, rfl, hscan⟩ := h
  rw [pushCharacter]
  split
  · -- A backslash is held back.
    rename_i hc
    exact ⟨text, by simp [List.replicate_succ', hc], hscan⟩
  · rename_i hbackslash
    split
    · -- A quote takes twice the backslashes, and one of its own.
      rename_i hc
      refine ⟨text ++ List.replicate backslashes '\\' ++ ['"'], by simp [hc], fun rest => ?_⟩
      rw [List.append_assoc, Written.backslashes hscan, List.singleton_append,
        WordReader.scan_push (push_quote_odd backslashes text)]
    · -- In front of any other character backslashes stand for themselves.
      rename_i hquote
      refine ⟨text ++ List.replicate backslashes '\\' ++ [c], by simp, fun rest => ?_⟩
      rw [List.append_assoc, Written.backslashes hscan, List.singleton_append,
        WordReader.scan_push (push_inside hbackslash hquote backslashes text)]

theorem Written.run {s done : Str} {state : Str × Nat} (h : Written state done) :
    Written (s.foldl pushCharacter state) (done ++ s) := by
  induction s generalizing state done with
  | nil => simpa using h
  | cons c s ih => simpa using ih (h.push c)

/-! ## Arguments -/

theorem isBlank_of_plain {c : Char} (h : isWhitespace c = false) :
    WindowsWords.isBlank c = false := by
  by_contra hblank
  rw [Bool.not_eq_false, WindowsWords.isBlank, Bool.or_eq_true, beq_iff_eq, beq_iff_eq] at hblank
  rcases hblank with rfl | rfl
  · exact absurd h (by decide)
  · exact absurd h (by decide)

theorem needsQuotes_eq_false {argument : Str} (h : needsQuotes argument = false) :
    argument ≠ [] ∧ '"' ∉ argument ∧ ∀ c ∈ argument, WindowsWords.isBlank c = false := by
  simp only [needsQuotes, Bool.or_eq_false_iff, List.any_eq_false, Bool.not_eq_true,
    beq_eq_false_iff_ne] at h
  refine ⟨by simpa using h.1, fun hmem => (h.2 '"' hmem).2 rfl, fun c hc => ?_⟩
  exact isBlank_of_plain (h.2 c hc).1

/-- Every argument is written so that it is read as itself. -/
theorem reads_argument (argument : Str) :
    reader.Reads (appendWindowsQuotedArgument [] argument) argument := by
  rw [appendWindowsQuotedArgument]
  split
  -- An argument without blanks and quotes stands as it is.
  · rename_i hplain
    obtain ⟨hne, hquote, hblank⟩ := needsQuotes_eq_false hplain
    rw [List.nil_append]
    exact reads_plain hne hquote hblank
  · -- The loop writes behind the opening quote.
    have hfold := foldl_pushCharacter_append ['"'] argument ([], 0)
    obtain ⟨text, hdone, hscan⟩ := written_start.run (s := argument)
    simp only [List.append_nil, List.nil_append] at hfold hdone hscan ⊢
    rw [hfold] at hdone hscan ⊢
    generalize argument.foldl pushCharacter ([], 0) = state at hdone hscan ⊢
    obtain ⟨written, backslashes⟩ := state
    dsimp only at hdone hscan ⊢
    -- The backslashes before the closing quote are doubled, so it closes.
    have hread : ∀ rest, reader.scan (some .start)
        ('"' :: written ++ List.replicate (backslashes * 2) '\\' ++ ['"'] ++ rest) =
          reader.scan (some ⟨.closed, 0, argument⟩) rest := by
      intro rest
      rw [← List.singleton_append, List.append_assoc, Written.backslashes hscan,
        List.singleton_append, WordReader.scan_push (push_quote_even backslashes text), ← hdone]
    have hreads := reads_of_scan rfl (by simp) hread
    simpa [Word.finish] using hreads

theorem forall₂_yields (arguments : List Str) :
    List.Forall₂ reader.Yields (arguments.map (appendWindowsQuotedArgument []))
      (arguments.map fun argument => [argument]) := by
  induction arguments with
  | nil => exact .nil
  | cons argument arguments ih => exact .cons (reads_argument argument).yields ih

/-! ## The program path -/

/-- Without quotes the loop copies the text, but for the backslashes it holds back. -/
theorem foldl_pushCharacter_of_not_mem {s : Str} (h : '"' ∉ s) (state : Str × Nat) :
    (s.foldl pushCharacter state).1 ++ List.replicate (s.foldl pushCharacter state).2 '\\' =
      state.1 ++ List.replicate state.2 '\\' ++ s := by
  induction s generalizing state with
  | nil => simp
  | cons c s ih =>
    simp only [List.mem_cons, not_or] at h
    rw [List.foldl_cons, ih h.2, pushCharacter]
    split
    · rename_i hc
      simp [List.replicate_succ', hc]
    · rw [if_neg (Ne.symm h.1)]
      simp

/-- A program path without quotes that ends in no backslash is read as the program. -/
theorem program_appendWindowsQuotedArgument {path rest : Str} (hquote : '"' ∉ path)
    (hlast : path.getLast? ≠ some '\\')
    (hrest : ∀ c ∈ rest.head?, WindowsWords.isBlank c = true) :
    program (appendWindowsQuotedArgument [] path ++ rest) = (path, rest) := by
  rw [appendWindowsQuotedArgument]
  split
  · rename_i hplain
    obtain ⟨hne, -, hblank⟩ := needsQuotes_eq_false hplain
    rw [List.nil_append]
    exact program_of_plain hquote hne hblank hrest
  · have hcopied := foldl_pushCharacter_of_not_mem hquote (['"'], 0)
    rw [List.nil_append]
    generalize path.foldl pushCharacter (['"'], 0) = state at hcopied ⊢
    obtain ⟨written, backslashes⟩ := state
    dsimp only at hcopied ⊢
    -- What is held back is at the end of the path, where no backslash stands.
    have hnone : backslashes = 0 := by
      cases backslashes with
      | zero => rfl
      | succ n =>
        have hend := congrArg List.getLast? hcopied
        rw [List.replicate_succ', ← List.append_assoc, List.getLast?_concat] at hend
        cases path with
        | nil => simp at hend
        | cons c path =>
          rw [List.getLast?_append_of_ne_nil _ (by simp)] at hend
          exact absurd hend.symm hlast
    subst hnone
    simp only [List.replicate_zero, List.append_nil, Nat.zero_mul] at hcopied ⊢
    rw [hcopied, List.append_assoc]
    exact program_of_quoted hquote rest

/-- A program that takes its command line apart by the documented rules gets its path and the
    arguments it was started with. -/
theorem command_line_is_read_back (path : Str) (arguments : List Str) (hquote : '"' ∉ path)
    (hlast : path.getLast? ≠ some '\\') :
    parseCommandLine (windowsCommandLine path arguments) = some (path :: arguments) := by
  have hrest : ∀ c ∈ ((arguments.map (appendWindowsQuotedArgument [])).flatMap (' ' :: ·)).head?,
      WindowsWords.isBlank c = true := by
    cases arguments with
    | nil => simp
    | cons argument arguments => simp [WindowsWords.isBlank]
  rw [windowsCommandLine_eq, parseCommandLine,
    program_appendWindowsQuotedArgument hquote hlast hrest]
  have hspace : reader.isBlank ' ' = true := rfl
  have hwords := (WordReader.yields_nil.cons hspace (forall₂_yields arguments)).words
  rw [List.nil_append, List.nil_append] at hwords
  rw [← List.flatMap_def, List.flatMap_singleton'] at hwords
  simp [hwords]

/-- A program below a directory with a space, and arguments that need care. -/
theorem spaced_command_line_is_read_back :
    parseCommandLine (windowsCommandLine "C:\\Program Files\\tool.exe".toList
        ["".toList, "\\\\".toList, "a\"b\\".toList, "x y\\".toList]) =
      some ("C:\\Program Files\\tool.exe".toList ::
        ["".toList, "\\\\".toList, "a\"b\\".toList, "x y\\".toList]) :=
  command_line_is_read_back _ _ (by decide) (by decide)

end Lsw.Agent.CommandLine
