import Lsw.Lib.Words

/-!
# Words of a POSIX Shell

How a shell takes a simple command apart and removes its quotes, as far as a command goes that
is nothing but words: an unquoted character that would end the command, redirect it, expand or
begin a comment is refused, as are a `$` and a backtick between double quotes.  What a word
means once it is read (a reserved word, an assignment, an alias) is not the concern here.

Nothing here names a particular program.
-/

namespace Lsw.Lib.ShellWords

/-- A blank between words. -/
def isBlank (c : Char) : Bool := c == ' ' || c == '\t'

/-- The characters that stand for more than themselves when nothing quotes them. -/
def isSpecial (c : Char) : Bool := "|&;<>()$`*?[#~\n".toList.contains c

/-- What quotes the next character of a word. -/
inductive Mode where
  | plain
  | escaped
  | single
  | double
  | doubleEscaped
  deriving DecidableEq

/-- A word that is being read, and what it is without quotes so far. -/
structure Word where
  mode : Mode
  text : Str
  deriving DecidableEq

/-- Read one character of a word. -/
def push (word : Word) (c : Char) : Next Word :=
  match word.mode with
  | .plain =>
    if c = '\'' then .more ⟨.single, word.text⟩
    else if c = '"' then .more ⟨.double, word.text⟩
    else if c = '\\' then .more ⟨.escaped, word.text⟩
    else if isBlank c then .ends
    else if isSpecial c then .fails
    else .more ⟨.plain, word.text ++ [c]⟩
  -- A backslash at the end of a line continues the line; a command has one line.
  | .escaped => if c = '\n' then .fails else .more ⟨.plain, word.text ++ [c]⟩
  | .single =>
    if c = '\'' then .more ⟨.plain, word.text⟩ else .more ⟨.single, word.text ++ [c]⟩
  | .double =>
    if c = '"' then .more ⟨.plain, word.text⟩
    else if c = '\\' then .more ⟨.doubleEscaped, word.text⟩
    else if "$`".toList.contains c then .fails
    else .more ⟨.double, word.text ++ [c]⟩
  | .doubleEscaped =>
    if c = '\n' then .fails
    else if "$`\"\\".toList.contains c then .more ⟨.double, word.text ++ [c]⟩
    else .more ⟨.double, word.text ++ ['\\', c]⟩

/-- The reading of a command of words. -/
def reader : WordReader Word where
  isBlank := isBlank
  start := ⟨.plain, []⟩
  push := push
  finish word := if word.mode = .plain then some word.text else none

/-! ## Reading a word -/

/-- A character that needs no quotes. -/
structure IsPlain (c : Char) : Prop where
  ne_single : c ≠ '\''
  ne_double : c ≠ '"'
  ne_backslash : c ≠ '\\'
  not_blank : isBlank c = false
  not_special : isSpecial c = false

theorem push_plain {c : Char} (h : IsPlain c) (text : Str) :
    reader.push ⟨.plain, text⟩ c = .more ⟨.plain, text ++ [c]⟩ := by
  simp [reader, push, h.ne_single, h.ne_double, h.ne_backslash, h.not_blank, h.not_special]

theorem push_single {c : Char} (h : c ≠ '\'') (text : Str) :
    reader.push ⟨.single, text⟩ c = .more ⟨.single, text ++ [c]⟩ := by
  simp [reader, push, h]

theorem push_blank {c : Char} (h : isBlank c = true) (text : Str) :
    reader.push ⟨.plain, text⟩ c = .ends := by
  rw [isBlank, Bool.or_eq_true, beq_iff_eq, beq_iff_eq] at h
  rcases h with rfl | rfl <;> rfl

/-- A text that ends outside quotes is a word. -/
theorem reads_of_scan {c : Char} {s word : Str} {state : Word} (hblank : isBlank c = false)
    (hpush : reader.push reader.start c = .more state)
    (hscan : ∀ rest, reader.scan (some reader.start) (c :: s ++ rest) =
      reader.scan (some ⟨.plain, word⟩) rest) : reader.Reads (c :: s) word :=
  ⟨⟨c, s, state, rfl, hblank, hpush⟩, ⟨.plain, word⟩, rfl, fun _ h => push_blank h word, hscan⟩

theorem scan_plain {s : Str} (h : ∀ c ∈ s, IsPlain c) (text rest : Str) :
    reader.scan (some ⟨.plain, text⟩) (s ++ rest) =
      reader.scan (some ⟨.plain, text ++ s⟩) rest := by
  induction s generalizing text with
  | nil => simp
  | cons c s ih =>
    rw [List.cons_append, WordReader.scan_push (push_plain (h c List.mem_cons_self) text),
      ih fun d hd => h d (List.mem_cons_of_mem c hd), List.append_assoc, List.singleton_append]

/-- A text of plain characters is a word, unless it is empty. -/
theorem reads_plain {s : Str} (hne : s ≠ []) (h : ∀ c ∈ s, IsPlain c) : reader.Reads s s := by
  obtain ⟨c, rest, rfl⟩ := List.exists_cons_of_ne_nil hne
  have hc := h c List.mem_cons_self
  exact reads_of_scan hc.not_blank (push_plain hc []) (scan_plain h [])

/-! ## Single quotes -/

/-- A text between single quotes; a quote of its own is written behind a backslash, outside. -/
def singleQuoted (s : Str) : Str :=
  '\'' :: (s.flatMap fun c => if c = '\'' then "'\\''".toList else [c]) ++ ['\'']

/-- A single-quoted text is read as it is, each quote closed and opened again. -/
theorem scan_single (s text rest : Str) :
    reader.scan (some ⟨.single, text⟩)
        ((s.flatMap fun c => if c = '\'' then "'\\''".toList else [c]) ++ rest) =
      reader.scan (some ⟨.single, text ++ s⟩) rest := by
  induction s generalizing text with
  | nil => simp
  | cons c s ih =>
    rw [List.flatMap_cons, List.append_assoc]
    by_cases hc : c = '\''
    · -- The quotes are closed, the quote is escaped, and the quotes are opened again.
      have hquote : ∀ more, reader.scan (some ⟨.single, text⟩) ("'\\''".toList ++ more) =
          reader.scan (some ⟨.single, text ++ ['\'']⟩) more := fun more => rfl
      rw [if_pos hc, hquote, ih, List.append_assoc, List.singleton_append, hc]
    · rw [if_neg hc, List.singleton_append, WordReader.scan_push (push_single hc text), ih,
        List.append_assoc, List.singleton_append]

/-- Every text is read back from between single quotes, the empty one included. -/
theorem reads_singleQuoted (s : Str) : reader.Reads (singleQuoted s) s := by
  have hopen : reader.push reader.start '\'' = .more ⟨.single, []⟩ := rfl
  have hclose : reader.push ⟨.single, s⟩ '\'' = .more ⟨.plain, s⟩ := rfl
  refine reads_of_scan rfl hopen fun rest => ?_
  change reader.scan (some reader.start) (singleQuoted s ++ rest) = _
  rw [singleQuoted, List.cons_append, List.cons_append, WordReader.scan_push hopen,
    List.append_assoc, scan_single, List.nil_append, List.singleton_append,
    WordReader.scan_push hclose]

end Lsw.Lib.ShellWords
