import Lsw.Lib.Words

/-!
# Desktop Entries

A desktop entry is a file of lines, each a group, a key with its value, a comment or nothing.  A value
of type string has escapes; where it is a command, what they stand for is then taken apart into
arguments, with double quotes and backslashes of their own, and codes for files.

A backslash may stand where the rules give it no meaning, in a value or between quotes.  A `Reading` is
what a program makes of it there, and what holds for every reading rests on the rules alone.
-/

namespace Lsw.Lib.KeyFile

/-! ## Lines -/

/-- A line that says something. -/
inductive Line where
  | group (name : Str)
  | entry (key value : Str)
  deriving DecidableEq

/-- The lines that a line is: none if it is blank or a comment. -/
def readLine (line : Str) : Option (List Line) :=
  if line.all (· == ' ') = true ∨ line.head? = some '#' then some []
  else if line.head? = some '[' then
    if line.getLast? = some ']' then some [.group (line.drop 1).dropLast] else none
  else
    (splitOnce '=' line).map fun (key, value) =>
      [.entry (key.reverse.dropWhile (· == ' ')).reverse (value.dropWhile (· == ' '))]

/-- The lines of a file. -/
def readLines (file : Str) : Option (List Line) :=
  ((file.splitOn '\n').mapM readLine).map List.flatten

/-! ## Values -/

/-- What a backslash and a character stand for in a value. -/
def valueEscape (c : Char) : Option Char :=
  if c = 's' then some ' '
  else if c = 'n' then some '\n'
  else if c = 't' then some '\t'
  else if c = 'r' then some '\r'
  else if c = '\\' then some '\\'
  else none

/-- What a program makes of a backslash and a character that mean nothing by the rules. -/
structure Reading where
  inValue : Char → Option Str
  inQuotes : Char → Option Str

/-- The reading that makes nothing of them. -/
def strict : Reading := ⟨fun _ => none, fun _ => none⟩

/-- What a backslash and a character stand for, for a reading. -/
def escape (reading : Reading) (c : Char) : Option Str :=
  ((valueEscape c).map fun d => [d]) <|> reading.inValue c

/-- A value without its escapes; the flag says that a backslash is in front. -/
def unescapeFrom (reading : Reading) : Bool → Str → Option Str
  | escaped, [] => if escaped then none else some []
  | false, c :: s =>
    if c = '\\' then unescapeFrom reading true s else (unescapeFrom reading false s).map (c :: ·)
  | true, c :: s =>
    (escape reading c).bind fun front => (unescapeFrom reading false s).map (front ++ ·)

/-- A value without its escapes. -/
def unescape (reading : Reading) (value : Str) : Option Str := unescapeFrom reading false value

/-! ## Commands -/

/-- What is read of an argument so far: nothing or plain text, the inside of quotes, a backslash there,
    or the whole of them. -/
inductive Mode where
  | plain
  | quoted
  | escaped
  | closed
  deriving DecidableEq

/-- An argument that is being read. -/
structure Word where
  mode : Mode
  text : Str
  deriving DecidableEq

/-- The characters that an argument without quotes may not have. -/
def isReserved (c : Char) : Bool := "\"'\\><~|&;$*?#()`\t\n".toList.contains c

/-- The characters that have to be escaped between quotes. -/
def isEscaped (c : Char) : Bool := "\"`$\\".toList.contains c

/-- Read one character of an argument. -/
def push (reading : Reading) (word : Word) (c : Char) : Next Word :=
  match word.mode with
  | .plain =>
    if c = ' ' then .ends
    else if c = '"' ∧ word.text = [] then .more ⟨.quoted, []⟩
    else if isReserved c then .fails
    else .more ⟨.plain, word.text ++ [c]⟩
  | .quoted =>
    if c = '"' then .more ⟨.closed, word.text⟩
    else if c = '\\' then .more ⟨.escaped, word.text⟩
    else if isEscaped c then .fails
    else .more ⟨.quoted, word.text ++ [c]⟩
  | .escaped =>
    if isEscaped c then .more ⟨.quoted, word.text ++ [c]⟩
    else (reading.inQuotes c).elim .fails fun s => .more ⟨.quoted, word.text ++ s⟩
  | .closed => if c = ' ' then .ends else .fails

/-- The reading of a command as arguments, with the codes still in them. -/
def reader (reading : Reading) : WordReader Word where
  isBlank := (· == ' ')
  start := ⟨.plain, []⟩
  push := push reading
  finish word := if word.mode = .plain ∨ word.mode = .closed then some word.text else none

/-- An argument of a command. -/
inductive Argument where
  | text (value : Str)
  | files
  deriving DecidableEq

/-- A percent sign stands for itself when it is doubled; the flag says that one is in front. -/
def expandFrom : Bool → Str → Option Str
  | percent, [] => if percent then none else some []
  | false, c :: s => if c = '%' then expandFrom true s else (expandFrom false s).map (c :: ·)
  | true, c :: s => if c = '%' then (expandFrom false s).map ('%' :: ·) else none

/-- `%F` stands for the files, however many. -/
def expandWord (word : Str) : Option Argument :=
  if word = ['%', 'F'] then some .files else (expandFrom false word).map .text

/-- The arguments of a value that is a command. -/
def readCommand (reading : Reading) (value : Str) : Option (List Argument) := do
  let text ← unescape reading value
  let words ← (reader reading).words text
  words.mapM expandWord

/-! ## Reading lines -/

theorem readLines_nil : readLines [] = some [] := rfl

/-- A line and what is behind it. -/
theorem readLines_cons {line : Str} (h : '\n' ∉ line) (file : Str) :
    readLines (line ++ '\n' :: file) =
      (readLine line).bind fun front => (readLines file).map (front ++ ·) := by
  rw [readLines, List.splitOn_append_cons_self_of_not_mem h, List.mapM_cons, readLines]
  cases readLine line with
  | none => rfl
  | some front => cases (file.splitOn '\n').mapM readLine <;> rfl

/-- A key that is read as it is written. -/
def isKey (key : Str) : Bool := key ≠ [] && key.all (· ∉ " #[=\n".toList)

theorem newline_not_mem_of_isKey {key : Str} (h : isKey key = true) : '\n' ∉ key := by
  simp only [isKey, Bool.and_eq_true, decide_eq_true_eq, List.all_eq_true] at h
  exact fun hmem => absurd (h.2 '\n' hmem) (by decide)

/-- A key in front of its value. -/
theorem readLine_entry {key : Str} (h : isKey key = true) (value : Str) :
    readLine (key ++ '=' :: value) = some [.entry key (value.dropWhile (· == ' '))] := by
  simp only [isKey, Bool.and_eq_true, decide_eq_true_eq, List.all_eq_true] at h
  obtain ⟨hne, hplain⟩ := h
  have hkey : ∀ c ∈ key, c ≠ ' ' ∧ c ≠ '#' ∧ c ≠ '[' ∧ c ≠ '=' ∧ c ≠ '\n' := fun c hc => by
    simpa using hplain c hc
  have hend : (key.reverse.dropWhile (· == ' ')).reverse = key := by
    obtain ⟨init, last, rfl⟩ := (List.eq_nil_or_concat key).resolve_left hne
    have hlast := (hkey last (by simp)).1
    rw [List.concat_eq_append, List.reverse_concat,
      List.dropWhile_cons_of_neg (by simpa using hlast), ← List.reverse_concat, List.reverse_reverse]
  have hsep : '=' ∉ key := fun hmem => (hkey '=' hmem).2.2.2.1 rfl
  obtain ⟨first, rest, rfl⟩ := List.exists_cons_of_ne_nil hne
  obtain ⟨-, hcomment, hgroup, -⟩ := hkey first List.mem_cons_self
  rw [readLine, if_neg (by simp [hcomment]), if_neg (by simp [hgroup]),
    splitOnce_append hsep, Option.map_some]
  simp only [hend]

/-! ## Reading values -/

section Values

variable {reading : Reading}

theorem unescape_cons {c : Char} (h : c ≠ '\\') (s : Str) :
    unescape reading (c :: s) = (unescape reading s).map (c :: ·) := by
  rw [unescape, unescapeFrom, if_neg h]
  rfl

theorem unescape_escape {c : Char} (s : Str) : unescape reading ('\\' :: c :: s) =
    (escape reading c).bind fun front => (unescape reading s).map (front ++ ·) := by
  rw [unescape, unescapeFrom, if_pos rfl, unescapeFrom]
  rfl

/-- By the rules alone, of the characters that are escaped between quotes only a backslash is in a
    value. -/
theorem eq_of_strict_escape {c : Char} {front : Str} (h : isEscaped c = true)
    (hfront : escape strict c = some front) : c = '\\' ∧ front = ['\\'] := by
  have hspecial : c = '"' ∨ c = '`' ∨ c = '$' ∨ c = '\\' := by simpa [isEscaped] using h
  rcases hspecial with rfl | rfl | rfl | rfl
  · cases hfront
  · cases hfront
  · cases hfront
  · exact ⟨rfl, (Option.some.inj hfront).symm⟩

theorem unescape_plain {text : Str} (h : '\\' ∉ text) (s : Str) :
    unescape reading (text ++ s) = (unescape reading s).map (text ++ ·) := by
  induction text with
  | nil => simp
  | cons c text ih =>
    obtain ⟨hc, htext⟩ := not_or.mp (mt List.mem_cons.mpr h)
    rw [List.cons_append, unescape_cons (Ne.symm hc), ih htext, Option.map_map]
    rfl

end Values

/-! ## Reading commands -/

section Commands

variable {reading : Reading}

/-- A text whose percent signs are doubled. -/
def doubled (text : Str) : Str := text.flatMap fun c => if c = '%' then ['%', '%'] else [c]

theorem expandFrom_doubled (text : Str) : expandFrom false (doubled text) = some text := by
  induction text with
  | nil => rfl
  | cons c text ih =>
    rw [doubled, List.flatMap_cons, ← doubled]
    by_cases hc : c = '%'
    · rw [if_pos hc, List.cons_append, List.singleton_append, expandFrom, if_pos rfl, expandFrom,
        if_pos rfl, ih, hc]
      rfl
    · rw [if_neg hc, List.singleton_append, expandFrom, if_neg hc, ih]
      rfl

/-- No doubled text is a code. -/
theorem expandWord_doubled (text : Str) : expandWord (doubled text) = some (.text text) := by
  have hcode : doubled text ≠ ['%', 'F'] := by
    intro h
    have hread := expandFrom_doubled text
    rw [h] at hread
    exact absurd hread (by simp [expandFrom])
  rw [expandWord, if_neg hcode, expandFrom_doubled]
  rfl

theorem mem_doubled {text : Str} {c : Char} : c ∈ doubled text ↔ c ∈ text := by
  rw [doubled, List.mem_flatMap]
  constructor
  · rintro ⟨d, hd, hc⟩
    split at hc
    · rename_i hpercent
      simp only [List.mem_cons, List.not_mem_nil, or_false, or_self] at hc
      rwa [hc, ← hpercent]
    · rwa [List.mem_singleton.mp hc]
  · intro hc
    refine ⟨c, hc, ?_⟩
    split <;> simp_all

/-- An argument between quotes. -/
def quote (text : Str) : Str := '"' :: (text ++ ['"'])

/-- Between quotes a character that needs no escape stands for itself. -/
theorem scan_quoted {text : Str} (h : ∀ c ∈ text, isEscaped c = false) (front rest : Str) :
    (reader reading).scan (some ⟨.quoted, front⟩) (text ++ rest) =
      (reader reading).scan (some ⟨.quoted, front ++ text⟩) rest := by
  induction text generalizing front with
  | nil => rw [List.nil_append, List.append_nil]
  | cons c text ih =>
    obtain ⟨hc, htext⟩ := List.forall_mem_cons.mp h
    have hplain : c ≠ '"' ∧ c ≠ '\\' := by
      constructor
      all_goals
        rintro rfl
        exact absurd hc (by decide)
    have hpush : (reader reading).push ⟨.quoted, front⟩ c = .more ⟨.quoted, front ++ [c]⟩ := by
      simp [reader, push, hplain, hc]
    rw [List.cons_append, WordReader.scan_push hpush, ih htext, List.append_assoc,
      List.singleton_append]

/-- Quotes around a text that needs nothing else give the text. -/
theorem yields_quote {text : Str} (h : ∀ c ∈ text, isEscaped c = false) :
    (reader reading).Yields (quote text) [text] := by
  have hstart : (reader reading).push (reader reading).start '"' = .more ⟨.quoted, []⟩ := by
    simp [reader, push]
  refine WordReader.Reads.yields ⟨⟨'"', text ++ ['"'], ⟨.quoted, []⟩, rfl, by rfl, hstart⟩,
    ⟨⟨.closed, text⟩, rfl, fun c hc => ?_, fun rest => ?_⟩⟩
  · have hspace : c = ' ' := by simpa [reader] using hc
    simp [reader, push, hspace]
  · have hclose : (reader reading).push ⟨.quoted, text⟩ '"' = .more ⟨.closed, text⟩ := by
      simp [reader, push]
    rw [quote, List.cons_append, WordReader.scan_push hstart, List.append_assoc, scan_quoted h,
      List.nil_append, List.singleton_append, WordReader.scan_push hclose]

theorem yields_files : (reader reading).Yields ['%', 'F'] [['%', 'F']] := by
  have hpercent : (reader reading).push ⟨.plain, []⟩ '%' = .more ⟨.plain, ['%']⟩ := by
    simp [reader, push, isReserved]
  have hcode : (reader reading).push ⟨.plain, ['%']⟩ 'F' = .more ⟨.plain, ['%', 'F']⟩ := by
    simp [reader, push, isReserved]
  refine WordReader.Reads.yields ⟨⟨'%', ['F'], ⟨.plain, ['%']⟩, rfl, by rfl, hpercent⟩,
    ⟨⟨.plain, ['%', 'F']⟩, rfl, fun c hc => ?_, fun rest => ?_⟩⟩
  · have hspace : c = ' ' := by simpa [reader] using hc
    simp [reader, push, hspace]
  · exact (WordReader.scan_push hpercent _).trans (WordReader.scan_push hcode _)

/-- Arguments between quotes, each in front of a space. -/
def quoteAll (arguments : List Str) : Str :=
  arguments.flatMap fun argument => quote (doubled argument) ++ [' ']

/-- Quoted arguments are read one after the other. -/
theorem scan_quoteAll {arguments : List Str}
    (h : ∀ argument ∈ arguments, ∀ c ∈ argument, isEscaped c = false) (rest : Str) :
    (reader reading).scan none (quoteAll arguments ++ rest) =
      ((reader reading).scan none rest).map (arguments.map doubled ++ ·) := by
  induction arguments with
  | nil => simp [quoteAll]
  | cons argument arguments ih =>
    obtain ⟨hfirst, hrest⟩ := List.forall_mem_cons.mp h
    have hspace : (reader reading).isBlank ' ' = true := rfl
    have hyields := @yields_quote reading (doubled argument) fun c hc =>
      hfirst c (mem_doubled.mp hc)
    rw [quoteAll, List.flatMap_cons, ← quoteAll, List.append_assoc, List.append_assoc,
      List.singleton_append, hyields _ (WordReader.boundary_cons hspace _),
      WordReader.scan_blank hspace, ih hrest, Option.map_map]
    rfl

theorem mapM_expandWord (arguments : List Str) :
    (arguments.map doubled ++ [['%', 'F']]).mapM expandWord =
      some (arguments.map .text ++ [.files]) := by
  induction arguments with
  | nil => rfl
  | cons argument arguments ih =>
    rw [List.map_cons, List.cons_append, List.mapM_cons, ih, expandWord_doubled]
    rfl

/-- Quoting adds only quotes, spaces and percent signs. -/
theorem count_quoteAll {c : Char} (hc : c ∉ ['"', ' ', '%']) (arguments : List Str) :
    (quoteAll arguments).count c = (arguments.map fun argument => argument.count c).sum := by
  simp only [List.mem_cons, List.not_mem_nil, or_false, not_or] at hc
  obtain ⟨hquote, hspace, hpercent⟩ := hc
  have hdoubled : ∀ text : Str, (doubled text).count c = text.count c := by
    intro text
    induction text with
    | nil => rfl
    | cons d text ih =>
      rw [doubled, List.flatMap_cons, ← doubled, List.count_append, ih, List.count_cons]
      by_cases hd : d = '%'
      · simp [hd, Ne.symm hpercent]
      · simp [hd, List.count_cons, Nat.add_comm]
  induction arguments with
  | nil => rfl
  | cons argument arguments ih =>
    rw [quoteAll, List.flatMap_cons, ← quoteAll, List.count_append, ih, List.map_cons, List.sum_cons,
      quote]
    simp [hdoubled, Ne.symm hquote, Ne.symm hspace]

theorem backslash_not_mem_quoteAll {arguments : List Str}
    (h : ∀ argument ∈ arguments, ∀ c ∈ argument, isEscaped c = false) :
    '\\' ∉ quoteAll arguments := by
  rw [quoteAll, List.mem_flatMap]
  rintro ⟨argument, hargument, hmem⟩
  have hin : '\\' ∈ argument := by simpa [quote, mem_doubled] using hmem
  exact absurd (h argument hargument '\\' hin) (by decide)

/-- A command of quoted arguments is read as these, and the files. -/
theorem readCommand_quoteAll {arguments : List Str}
    (h : ∀ argument ∈ arguments, ∀ c ∈ argument, isEscaped c = false) :
    readCommand reading (quoteAll arguments ++ ['%', 'F']) =
      some (arguments.map .text ++ [.files]) := by
  have hvalue : unescape reading (quoteAll arguments ++ ['%', 'F']) =
      some (quoteAll arguments ++ ['%', 'F']) := by
    rw [unescape_plain (backslash_not_mem_quoteAll h)]
    rfl
  have hwords : (reader reading).words (quoteAll arguments ++ ['%', 'F']) =
      some (arguments.map doubled ++ [['%', 'F']]) := by
    rw [WordReader.words, scan_quoteAll h, ← WordReader.words, yields_files.words]
    rfl
  rw [readCommand, hvalue]
  simp only [Option.bind_eq_bind, Option.bind_some, hwords, mapM_expandWord]

end Commands

/-! ## What a strict reading can give -/

section Strict

theorem push_strict {word next : Word} {c : Char} (h : push strict word c = .more next) :
    next.text = word.text ∨ next.text = word.text ++ [c] := by
  obtain ⟨mode, text⟩ := word
  cases mode <;> simp only [push, strict] at h <;> grind [Option.elim]

/-- What a word has cost: each of its backslashes two. -/
def backslashCost (word : Word) : Nat :=
  2 * word.text.count '\\' + if word.mode = .escaped then 1 else 0

/-- A word has no more backslashes than the text that was read for it. -/
theorem backslashCost_push {word next : Word} {c : Char} (h : push strict word c = .more next) :
    backslashCost next ≤ backslashCost word + [c].count '\\' := by
  obtain ⟨mode, text⟩ := word
  -- A backslash opens an escape between quotes, or is the character escaped.
  by_cases hc : c = '\\'
  · subst hc
    cases mode with
    | plain | closed => simp [push, isReserved] at h
    | quoted =>
      obtain rfl : (⟨.escaped, text⟩ : Word) = next := by simpa [push] using h
      simp [backslashCost]
    | escaped =>
      obtain rfl : (⟨.quoted, text ++ ['\\']⟩ : Word) = next := by simpa [push, isEscaped] using h
      simp [backslashCost]
      omega
  · -- Any other character leaves the count, and no backslash open.
    have hcount : next.text.count '\\' ≤ text.count '\\' := by
      rcases push_strict h with htext | htext
      · exact Nat.le_of_eq (by rw [htext])
      · exact Nat.le_of_eq (by
          rw [htext, List.count_append, List.count_singleton, if_neg (by simpa using hc),
            Nat.add_zero])
    have hmode : next.mode ≠ .escaped := by
      cases mode <;> simp only [push, strict] at h <;> grind [Option.elim]
    simp only [backslashCost, if_neg hmode]
    omega

theorem sum_map_count (c : Char) (s : Str) : (s.map fun d => [d].count c).sum = s.count c := by
  induction s with
  | nil => rfl
  | cons d s ih => rw [List.map_cons, List.sum_cons, ih, ← List.count_append, List.singleton_append]

/-- Reading a command adds no characters. -/
theorem count_words_le {text : Str} {words : List Str} (h : (reader strict).words text = some words)
    (c : Char) : (words.map (·.count c)).sum ≤ text.count c := by
  have hscan := @WordReader.scan_weighs _ (reader strict) (·.count c) (·.text.count c)
    (fun d => [d].count c) (by simp [reader]) (fun state d next hpush => ?_)
    (fun state word hfinish => ?_) none text words h
  · rwa [sum_map_count, Option.elim_none, Nat.zero_add] at hscan
  · rcases push_strict hpush with htext | htext
    · rw [htext]
      exact Nat.le_add_right _ _
    · exact Nat.le_of_eq (by rw [htext, List.count_append])
  · simp only [reader] at hfinish
    split at hfinish
    · obtain rfl := Option.some.inj hfinish
      exact Nat.le_refl _
    · cases hfinish

/-- A backslash that is read is written as two. -/
theorem count_backslash_words {text : Str} {words : List Str}
    (h : (reader strict).words text = some words) :
    (words.map fun word => 2 * word.count '\\').sum ≤ text.count '\\' := by
  have hscan := @WordReader.scan_weighs _ (reader strict) (2 * ·.count '\\') backslashCost
    (fun d => [d].count '\\') rfl (fun state d next hpush => backslashCost_push hpush)
    (fun state word hfinish => ?_) none text words h
  · rwa [sum_map_count, Option.elim_none, Nat.zero_add] at hscan
  · simp only [reader] at hfinish
    split at hfinish
    · obtain rfl := Option.some.inj hfinish
      exact Nat.le_add_right _ _
    · cases hfinish

/-- The text of an argument. -/
def Argument.value : Argument → Str
  | text value => value
  | files => []

/-- Expansion makes no character more frequent, but for a percent sign that was waiting. -/
theorem count_expandFrom_le {percent : Bool} {word value : Str}
    (h : expandFrom percent word = some value) (c : Char) :
    value.count c ≤ word.count c + if percent = true ∧ c = '%' then 1 else 0 := by
  -- Over the word, with a percent sign that may be waiting for its second character.
  induction word generalizing percent value with
  | nil =>
    cases percent with
    | false =>
      obtain rfl := Option.some.inj h
      simp
    -- A percent sign at the end is no field code.
    | true => cases h
  | cons d word ih =>
    cases percent with
    | false =>
      rw [expandFrom] at h
      split at h
      -- A percent sign is waiting from here on.
      · rename_i hd
        have hrest := ih h
        rw [List.count_cons, hd]
        by_cases hc : c = '%'
        · simp only [hc, and_self, if_true, beq_self_eq_true] at hrest ⊢
          simpa using hrest
        · simp only [hc, and_false, if_false] at hrest ⊢
          omega
      -- Any other character is taken over.
      · obtain ⟨rest, hrest, rfl⟩ := Option.map_eq_some_iff.mp h
        have hle := ih hrest
        simp only [Bool.false_eq_true, false_and, if_false] at hle ⊢
        rw [List.count_cons, List.count_cons]
        omega
    | true =>
      rw [expandFrom] at h
      split at h
      -- Two percent signs are read as one; there is no other field code.
      · rename_i hd
        obtain ⟨rest, hrest, rfl⟩ := Option.map_eq_some_iff.mp h
        have hle := ih hrest
        simp only [Bool.false_eq_true, false_and, if_false] at hle
        rw [List.count_cons, List.count_cons, hd]
        omega
      · cases h

theorem count_expandWord_le {word : Str} {argument : Argument} (h : expandWord word = some argument)
    (c : Char) : argument.value.count c ≤ word.count c := by
  rw [expandWord] at h
  split at h
  · obtain rfl := Option.some.inj h
    exact Nat.zero_le _
  · obtain ⟨value, hvalue, rfl⟩ := Option.map_eq_some_iff.mp h
    simpa [Argument.value] using count_expandFrom_le hvalue c

/-- What no word gains, all of them together do not. -/
theorem sum_mapM_le {words : List Str} {arguments : List Argument}
    (h : words.mapM expandWord = some arguments) {f : Str → Nat}
    (hle : ∀ word argument, expandWord word = some argument → f argument.value ≤ f word) :
    (arguments.map fun argument => f argument.value).sum ≤ (words.map f).sum := by
  induction words generalizing arguments with
  | nil =>
    obtain rfl := Option.some.inj h
    exact Nat.le_refl _
  | cons word words ih =>
    simp only [List.mapM_cons, Option.bind_eq_bind, Option.bind_eq_some_iff, Option.pure_def,
      Option.some.injEq] at h
    obtain ⟨argument, hargument, others, hothers, rfl⟩ := h
    rw [List.map_cons, List.sum_cons, List.map_cons, List.sum_cons]
    exact Nat.add_le_add (hle word argument hargument) (ih hothers)

/-- What a command says has no more of any character than its value without escapes, and half as many
    backslashes. -/
theorem count_readCommand {value : Str} {arguments : List Argument}
    (h : readCommand strict value = some arguments) :
    ∃ text, unescape strict value = some text ∧
      (∀ c, (arguments.map fun argument => argument.value.count c).sum ≤ text.count c) ∧
      2 * (arguments.map fun argument => argument.value.count '\\').sum ≤ text.count '\\' := by
  simp only [readCommand, Option.bind_eq_bind, Option.bind_eq_some_iff] at h
  obtain ⟨text, htext, words, hwords, harguments⟩ := h
  refine ⟨text, htext, fun c => ?_, ?_⟩
  · have hle := sum_mapM_le harguments (f := fun word => word.count c)
      fun word argument hargument => count_expandWord_le hargument c
    exact Nat.le_trans hle (count_words_le hwords c)
  · have hle := sum_mapM_le harguments (f := fun word => 2 * word.count '\\')
      fun word argument hargument => Nat.mul_le_mul_left 2 (count_expandWord_le hargument _)
    have hdouble : (arguments.map fun argument => 2 * argument.value.count '\\').sum =
        2 * (arguments.map fun argument => argument.value.count '\\').sum := by
      clear harguments hle
      induction arguments with
      | nil => rfl
      | cons argument arguments ih => simp only [List.map_cons, List.sum_cons, ih, Nat.mul_add]
    rw [hdouble] at hle
    exact Nat.le_trans hle (count_backslash_words hwords)

end Strict

end Lsw.Lib.KeyFile
