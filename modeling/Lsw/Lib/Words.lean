import Lsw.Lib.Pieces

/-!
# Texts that are Read as Words

A shell, a program that takes its command line apart and a launcher each split a text into
words, with quoting rules of their own.  What they share is a machine that takes one character
at a time: blanks part the words, and the machine says when a character ends a word.

`Yields` is what a writer of such texts has to show of each part it writes: the words that are
read from the part, whatever follows behind a blank.  Parts that are joined by blanks then give
the words of each, in order (`words_intercalate`).  Nothing here names a particular program.
-/

namespace Lsw.Lib

/-- What a character does to a word that is being read. -/
inductive Next (σ : Type) where
  | more (state : σ)
  | ends
  | fails

/-- The rules by which a text is read as words. -/
structure WordReader (σ : Type) where
  /-- The characters between words. -/
  isBlank : Char → Bool
  /-- The state in front of a word. -/
  start : σ
  push : σ → Char → Next σ
  /-- The word, where it may end. -/
  finish : σ → Option Str

namespace WordReader

variable {σ : Type} (reader : WordReader σ)

/-- The words of a text, from the middle of a word or from between two. -/
def scan : Option σ → Str → Option (List Str)
  | none, [] => some []
  | some state, [] => (reader.finish state).map fun word => [word]
  | none, c :: s =>
    if reader.isBlank c then scan none s
    else match reader.push reader.start c with
      | .more state => scan (some state) s
      | .ends | .fails => none
  | some state, c :: s =>
    match reader.push state c with
    | .more state => scan (some state) s
    | .ends => (reader.finish state).bind fun word => (scan none s).map (word :: ·)
    | .fails => none

/-- The words of a text; nothing where the rules do not allow it. -/
def words (s : Str) : Option (List Str) := reader.scan none s

variable {reader}

theorem scan_push {state next : σ} {c : Char} (h : reader.push state c = .more next) (s : Str) :
    reader.scan (some state) (c :: s) = reader.scan (some next) s := by
  rw [scan, h]

theorem scan_ends {state : σ} {c : Char} (h : reader.push state c = .ends) {word : Str}
    (hword : reader.finish state = some word) (s : Str) :
    reader.scan (some state) (c :: s) = (reader.scan none s).map (word :: ·) := by
  rw [scan, h, hword]
  rfl

theorem scan_blank {c : Char} (h : reader.isBlank c = true) (s : Str) :
    reader.scan none (c :: s) = reader.scan none s := by
  rw [scan, if_pos h]

/-- A word starts with its first character that is no blank. -/
theorem scan_start {c : Char} {state : σ} (hblank : reader.isBlank c = false)
    (hpush : reader.push reader.start c = .more state) (s : Str) :
    reader.scan none (c :: s) = reader.scan (some reader.start) (c :: s) := by
  rw [scan, if_neg (by simp [hblank]), hpush, scan_push hpush]

/-- What words weigh, if a word weighs no more than the state it ends in, and a state no more than the
    characters that have led to it. -/
theorem scan_weighs {value : Str → Nat} {cost : σ → Nat} {weight : Char → Nat}
    (hstart : cost reader.start = 0)
    (hpush : ∀ state c next, reader.push state c = .more next → cost next ≤ cost state + weight c)
    (hfinish : ∀ state word, reader.finish state = some word → value word ≤ cost state)
    {state : Option σ} {s : Str} {read : List Str} (h : reader.scan state s = some read) :
    (read.map value).sum ≤ state.elim 0 cost + (s.map weight).sum := by
  -- Over the characters; the state says what the word at hand may weigh so far.
  induction s generalizing state read with
  -- At the end a word that has begun is finished.
  | nil =>
    cases state with
    | none =>
      obtain rfl := Option.some.inj h
      exact Nat.zero_le _
    | some state =>
      obtain ⟨word, hword, rfl⟩ := Option.map_eq_some_iff.mp h
      simpa using hfinish state word hword
  | cons c s ih =>
    rw [List.map_cons, List.sum_cons]
    cases state with
    -- Between two words.
    | none =>
      rw [scan] at h
      rw [Option.elim_none, Nat.zero_add]
      -- A blank between words weighs nothing.
      split at h
      · have hrest := ih h
        rw [Option.elim_none] at hrest
        omega
      -- Any other character starts a word.
      · cases hnext : reader.push reader.start c with
        | more next =>
          rw [hnext] at h
          have hrest := ih h
          have hcost := hpush _ _ _ hnext
          rw [Option.elim_some] at hrest
          omega
        | ends | fails =>
          rw [hnext] at h
          cases h
    -- Within a word.
    | some state =>
      rw [scan] at h
      rw [Option.elim_some]
      cases hnext : reader.push state c with
      -- It goes on, and its cost grows by no more than the character weighs.
      | more next =>
        rw [hnext] at h
        have hrest := ih h
        have hcost := hpush _ _ _ hnext
        rw [Option.elim_some] at hrest
        omega
      -- It is finished: it weighs no more than its state has cost.
      | ends =>
        rw [hnext] at h
        obtain ⟨word, hword, htail⟩ := Option.bind_eq_some_iff.mp h
        obtain ⟨others, hothers, rfl⟩ := Option.map_eq_some_iff.mp htail
        have hrest := ih hothers
        have hvalue := hfinish state word hword
        rw [Option.elim_none] at hrest
        rw [List.map_cons, List.sum_cons]
        omega
      | fails =>
        rw [hnext] at h
        cases h

/-! ## Parts of a text -/

/-- Nothing, or something behind a blank. -/
def Boundary (reader : WordReader σ) (rest : Str) : Prop := ∀ c ∈ rest.head?, reader.isBlank c = true

/-- A part of a text gives these words, and what follows it gives the others. -/
def Yields (reader : WordReader σ) (text : Str) (read : List Str) : Prop :=
  ∀ rest, reader.Boundary rest →
    reader.scan none (text ++ rest) = (reader.scan none rest).map (read ++ ·)

theorem boundary_nil : reader.Boundary [] := by simp [Boundary]

theorem boundary_cons {c : Char} (h : reader.isBlank c = true) (s : Str) :
    reader.Boundary (c :: s) := by
  simpa [Boundary] using h

theorem yields_nil : reader.Yields [] [] := by
  intro rest _
  rw [List.nil_append]
  cases reader.scan none rest <;> simp

theorem Yields.words {text : Str} {read : List Str} (h : reader.Yields text read) :
    reader.words text = some read := by
  have hscan := h [] boundary_nil
  rw [List.append_nil] at hscan
  rw [WordReader.words, hscan]
  simp [scan]

/-- The machine has read a text from the start of a word, and a blank would end the word. -/
structure Reads (reader : WordReader σ) (text word : Str) : Prop where
  starts : ∃ c s state, text = c :: s ∧ reader.isBlank c = false ∧
    reader.push reader.start c = .more state
  ends : ∃ last, reader.finish last = some word ∧
    (∀ c, reader.isBlank c = true → reader.push last c = .ends) ∧
    ∀ rest, reader.scan (some reader.start) (text ++ rest) = reader.scan (some last) rest

/-- Such a text gives that word. -/
theorem Reads.yields {text word : Str} (h : reader.Reads text word) :
    reader.Yields text [word] := by
  obtain ⟨c, s, state, rfl, hblank, hpush⟩ := h.starts
  obtain ⟨last, hfinish, hends, hscan⟩ := h.ends
  intro rest hrest
  rw [List.cons_append, scan_start hblank hpush, ← List.cons_append, hscan]
  cases rest with
  | nil => simp [scan, hfinish]
  | cons blank rest =>
    have hnext := hrest blank rfl
    rw [scan_ends (hends blank hnext) hfinish, scan_blank hnext]
    rfl

/-- A part, and parts behind a blank each, give their words one after the other. -/
theorem Yields.cons {sep : Char} (hsep : reader.isBlank sep = true) {text : Str}
    {read : List Str} (h : reader.Yields text read) {texts : List Str} {more : List (List Str)}
    (hmore : List.Forall₂ reader.Yields texts more) :
    reader.Yields (text ++ texts.flatMap (sep :: ·)) (read ++ more.flatten) := by
  induction hmore generalizing text read with
  | nil => simpa using h
  | @cons next words texts more hnext _ ih =>
    intro rest hrest
    rw [List.flatMap_cons, List.append_assoc, List.cons_append, List.cons_append,
      h _ (boundary_cons hsep _), scan_blank hsep, ih hnext rest hrest, Option.map_map]
    congr 1
    funext others
    simp

/-- Parts joined by a blank are read one after the other. -/
theorem words_intercalate {sep : Char} (hsep : reader.isBlank sep = true) {texts : List Str}
    {read : List (List Str)} (h : List.Forall₂ reader.Yields texts read) :
    reader.words ([sep].intercalate texts) = some read.flatten := by
  cases h with
  | nil => exact yields_nil.words
  | cons htext hrest =>
    rw [intercalate_eq_flatMap]
    exact (htext.cons hsep hrest).words

end WordReader

end Lsw.Lib
