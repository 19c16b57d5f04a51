import Lsw.Lib.Words

/-!
# Windows Command Lines

A Windows program is given one text and splits it into its arguments itself, by rules that
are documented: the first word, the program, ends at its closing quote or at a blank; in
every other word a quote starts or ends a quoted part, and of backslashes before a quote
each pair stands for one, an odd one makes the quote literal.  `parseCommandLine` is that
reading.

Nothing here names a particular program.
-/

namespace Lsw.Lib.WindowsWords

/-! ## The machine -/

/-- A blank between words. -/
def isBlank (c : Char) : Bool := c == ' ' || c == '\t'

/-- Where a word is: outside a quoted part, inside, or right behind the end of one. -/
inductive Quoting where
  | outside
  | inside
  | closed
  deriving DecidableEq

/-- A word that is being read: what it is so far, and backslashes whose meaning depends on what
    follows. -/
structure Word where
  quoting : Quoting
  pending : Nat
  text : Str
  deriving DecidableEq

namespace Word

/-- The beginning of a word. -/
def start : Word := ⟨.outside, 0, []⟩

/-- The word when nothing more belongs to it: the last backslashes are literal. -/
def finish (word : Word) : Str := word.text ++ List.replicate word.pending '\\'

/-- Behind the end of a quoted part the word goes on outside it. -/
def settle : Quoting → Quoting
  | .closed => .outside
  | quoting => quoting

/-- Read one character; a blank outside quotes ends the word. -/
def push (word : Word) (c : Char) : Next Word :=
  if c = '\\' then
    .more { word with quoting := settle word.quoting, pending := word.pending + 1 }
  else if c = '"' then
    let text := word.text ++ List.replicate (word.pending / 2) '\\'
    if word.pending % 2 = 1 then .more ⟨settle word.quoting, 0, text ++ ['"']⟩
    else match word.quoting with
      | .outside => .more ⟨.inside, 0, text⟩
      | .inside => .more ⟨.closed, 0, text⟩
      -- A doubled quote inside a quoted part stands for one.
      | .closed => .more ⟨.inside, 0, text ++ ['"']⟩
  else if isBlank c ∧ word.quoting ≠ .inside then .ends
  else .more ⟨settle word.quoting, 0, word.finish ++ [c]⟩

end Word

/-- The reading of the arguments. -/
def reader : WordReader Word where
  isBlank := isBlank
  start := .start
  push := Word.push
  finish word := some word.finish

/-- The program: up to the closing quote, or up to a blank. -/
def program : Str → Str × Str
  | '"' :: s => (s.takeWhile (· ≠ '"'), (s.dropWhile (· ≠ '"')).drop 1)
  | s => (s.takeWhile fun c => !isBlank c, s.dropWhile fun c => !isBlank c)

/-- The words of a command line. -/
def parseCommandLine (line : Str) : Option (List Str) :=
  let (first, rest) := program line
  (reader.words rest).map (first :: ·)

/-! ## Quoted parts -/

/-- Backslashes wait for what follows them. -/
theorem scan_backslashes {quoting : Quoting} (h : Word.settle quoting = quoting) (n pending : Nat)
    (text rest : Str) :
    reader.scan (some ⟨quoting, pending, text⟩) (List.replicate n '\\' ++ rest) =
      reader.scan (some ⟨quoting, pending + n, text⟩) rest := by
  induction n generalizing pending with
  | zero => rfl
  | succ n ih =>
    have hpush : reader.push ⟨quoting, pending, text⟩ '\\' =
        .more ⟨quoting, pending + 1, text⟩ := by
      simp [reader, Word.push, h]
    rw [List.replicate_succ, List.cons_append, WordReader.scan_push hpush, ih, Nat.add_assoc,
      Nat.add_comm 1 n]

/-- A quote behind an odd number of backslashes is literal. -/
theorem push_quote_odd (n : Nat) (text : Str) :
    reader.push ⟨.inside, n * 2 + 1, text⟩ '"' =
      .more ⟨.inside, 0, text ++ List.replicate n '\\' ++ ['"']⟩ := by
  have hhalf : (n * 2 + 1) / 2 = n := by omega
  have hodd : (n * 2 + 1) % 2 = 1 := by omega
  simp [reader, Word.push, hhalf, hodd, Word.settle]

/-- A quote behind an even number of backslashes ends the quoted part. -/
theorem push_quote_even (n : Nat) (text : Str) :
    reader.push ⟨.inside, n * 2, text⟩ '"' =
      .more ⟨.closed, 0, text ++ List.replicate n '\\'⟩ := by
  have hhalf : n * 2 / 2 = n := by omega
  simp [reader, Word.push, hhalf]

/-- Inside a quoted part every other character is literal. -/
theorem push_inside {c : Char} (hbackslash : c ≠ '\\') (hquote : c ≠ '"') (n : Nat) (text : Str) :
    reader.push ⟨.inside, n, text⟩ c =
      .more ⟨.inside, 0, text ++ List.replicate n '\\' ++ [c]⟩ := by
  simp [reader, Word.push, hbackslash, hquote, Word.settle, Word.finish]

/-- Outside quotes every character but a quote and a blank is a part of the word. -/
theorem push_outside {c : Char} (hquote : c ≠ '"') (hblank : isBlank c = false) {word : Word}
    (hword : word.quoting = .outside) : ∃ next, reader.push word c = .more next ∧
      next.quoting = .outside ∧ next.finish = word.finish ++ [c] := by
  by_cases hbackslash : c = '\\'
  · refine ⟨⟨.outside, word.pending + 1, word.text⟩, ?_, rfl, ?_⟩
    · simp [reader, Word.push, hbackslash, hword, Word.settle]
    · simp [Word.finish, List.replicate_succ', hbackslash]
  · refine ⟨⟨.outside, 0, word.finish ++ [c]⟩, ?_, rfl, ?_⟩
    · simp [reader, Word.push, hbackslash, hquote, hblank, hword, Word.settle]
    · simp [Word.finish]

/-- A text without quotes and blanks is read as it stands. -/
theorem scan_plain {s : Str} (hquote : '"' ∉ s) (hblank : ∀ c ∈ s, isBlank c = false) {word : Word}
    (hword : word.quoting = .outside) : ∃ last : Word, last.quoting = .outside ∧
      last.finish = word.finish ++ s ∧
      ∀ rest, reader.scan (some word) (s ++ rest) = reader.scan (some last) rest := by
  induction s generalizing word with
  | nil => exact ⟨word, hword, by simp, fun rest => rfl⟩
  | cons c s ih =>
    simp only [List.mem_cons, not_or] at hquote
    obtain ⟨next, hpush, hnext, hfinish⟩ :=
      push_outside (Ne.symm hquote.1) (hblank c List.mem_cons_self) hword
    obtain ⟨last, hlast, heq, hscan⟩ :=
      ih hquote.2 (fun d hd => hblank d (List.mem_cons_of_mem c hd)) hnext
    refine ⟨last, hlast, by simp [heq, hfinish], fun rest => ?_⟩
    rw [List.cons_append, WordReader.scan_push hpush, hscan]

/-- A blank ends a word, unless a quoted part is open. -/
theorem push_blank {word : Word} (houtside : word.quoting ≠ .inside) {c : Char}
    (h : isBlank c = true) : reader.push word c = .ends := by
  have hbackslash : c ≠ '\\' := by
    rintro rfl
    cases h
  have hquote : c ≠ '"' := by
    rintro rfl
    cases h
  simp only [reader, Word.push, if_neg hbackslash, if_neg hquote, if_pos (And.intro h houtside)]

theorem push_start {c : Char} (h : isBlank c = false) : ∃ word, reader.push .start c = .more word := by
  simp only [reader, Word.push]
  split
  · exact ⟨_, rfl⟩
  · split
    · exact ⟨_, rfl⟩
    · simp [h]

/-- A text that starts with no blank, and at whose end no quoted part is open, is a word. -/
theorem reads_of_scan {c : Char} {s : Str} (hblank : isBlank c = false) {last : Word}
    (houtside : last.quoting ≠ .inside)
    (hscan : ∀ rest, reader.scan (some .start) (c :: s ++ rest) = reader.scan (some last) rest) :
    reader.Reads (c :: s) last.finish := by
  obtain ⟨word, hpush⟩ := push_start hblank
  exact ⟨⟨c, s, word, rfl, hblank, hpush⟩, last, rfl, fun _ h => push_blank houtside h, hscan⟩

/-- Such a text is a word. -/
theorem reads_plain {s : Str} (hne : s ≠ []) (hquote : '"' ∉ s)
    (hblank : ∀ c ∈ s, isBlank c = false) : reader.Reads s s := by
  obtain ⟨c, rest, rfl⟩ := List.exists_cons_of_ne_nil hne
  obtain ⟨last, houtside, hfinish, hscan⟩ :=
    scan_plain hquote hblank (rfl : Word.start.quoting = .outside)
  have hreads := reads_of_scan (hblank c List.mem_cons_self) (by simp [houtside]) hscan
  rwa [hfinish] at hreads

/-! ## The program -/

/-- A text that takes everything up to a place, and stops there. -/
theorem span_append {p : Char → Bool} {text rest : Str} (htext : ∀ c ∈ text, p c = true)
    (hrest : ∀ c ∈ rest.head?, p c = false) :
    (text ++ rest).takeWhile p = text ∧ (text ++ rest).dropWhile p = rest := by
  rw [List.takeWhile_append_of_pos htext, List.dropWhile_append_of_pos htext]
  cases rest with
  | nil => simp
  | cons c rest => simp [hrest c rfl]

theorem program_of_plain {text rest : Str} (hquote : '"' ∉ text) (hne : text ≠ [])
    (htext : ∀ c ∈ text, isBlank c = false) (hrest : ∀ c ∈ rest.head?, isBlank c = true) :
    program (text ++ rest) = (text, rest) := by
  have hspan : (text ++ rest).takeWhile (fun c => !isBlank c) = text ∧
      (text ++ rest).dropWhile (fun c => !isBlank c) = rest :=
    span_append (by simpa using htext) (by simpa using hrest)
  obtain ⟨c, s, rfl⟩ := List.exists_cons_of_ne_nil hne
  have hfirst : c ≠ '"' := fun heq => hquote (heq ▸ List.mem_cons_self)
  unfold program
  split
  · simp_all
  · rw [hspan.1, hspan.2]

theorem program_of_quoted {text : Str} (htext : '"' ∉ text) (rest : Str) :
    program ('"' :: text ++ '"' :: rest) = (text, rest) := by
  have hinner : ∀ c ∈ text, c ≠ '"' := fun c hc heq => htext (heq ▸ hc)
  have hspan : (text ++ '"' :: rest).takeWhile (· ≠ '"') = text ∧
      (text ++ '"' :: rest).dropWhile (· ≠ '"') = '"' :: rest :=
    span_append (by simpa using hinner) (by simp)
  rw [List.cons_append, program, hspan.1, hspan.2, List.drop_one, List.tail_cons]

end Lsw.Lib.WindowsWords
