import Lsw.Lib.Text

/-!
# Separated Pieces

A path is read as the pieces between its separators; several characters may separate, and
empty pieces often do not count.  `namedPieces` is that reading.  The module relates it to
concatenation, to a change of separators and to joining, and says which texts a joined list
of pieces can be read back from.

Nothing here names a particular program.
-/

namespace Lsw.Lib

variable {α : Type} {p : α → Bool} {sep : α}

/-- A piece can stand between separators: it is not empty and has none itself. -/
structure IsPiece (p : α → Bool) (piece : List α) : Prop where
  ne_nil : piece ≠ []
  unseparated : ∀ c ∈ piece, p c = false

/-- A joined list is its first piece, and each other one behind a separator. -/
theorem intercalate_eq_flatMap (sep : α) (piece : List α) (pieces : List (List α)) :
    [sep].intercalate (piece :: pieces) = piece ++ pieces.flatMap (sep :: ·) := by
  induction pieces generalizing piece with
  | nil => simp
  | cons next pieces ih =>
    rw [List.intercalate_cons_cons, ih, List.flatMap_cons]
    simp

/-- Joining unseparated pieces and splitting again changes nothing, when there is one. -/
theorem splitOnP_intercalate (hsep : p sep = true) {pieces : List (List α)} (hne : pieces ≠ [])
    (h : ∀ piece ∈ pieces, ∀ c ∈ piece, p c = false) :
    ([sep].intercalate pieces).splitOnP p = pieces := by
  induction pieces with
  | nil => exact absurd rfl hne
  | cons piece rest ih =>
    have hpiece := h piece List.mem_cons_self
    cases rest with
    | nil => simpa using List.splitOnP_eq_singleton hpiece
    | cons next rest =>
      rw [List.intercalate_cons_cons, List.append_assoc, List.singleton_append,
        List.splitOnP_append_cons_of_forall_mem hpiece sep hsep,
        ih (by simp) fun other hother => h other (List.mem_cons_of_mem piece hother)]

/-- The pieces of a text that are not empty. -/
def namedPieces (p : α → Bool) (s : List α) : List (List α) :=
  (s.splitOnP p).filter fun piece => !piece.isEmpty

@[simp] theorem namedPieces_nil : namedPieces p [] = [] := by
  simp [namedPieces]

theorem isPiece_of_mem {s piece : List α} (h : piece ∈ namedPieces p s) : IsPiece p piece := by
  obtain ⟨hmem, hne⟩ := List.mem_filter.mp h
  exact ⟨by simpa using hne, fun c hc => of_mem_splitOnP hmem hc⟩

/-- A separator parts the pieces before it from those after it. -/
theorem namedPieces_append (hsep : p sep = true) (s t : List α) :
    namedPieces p (s ++ sep :: t) = namedPieces p s ++ namedPieces p t := by
  rw [namedPieces, List.splitOnP_append_cons s t hsep, List.filter_append]
  rfl

@[simp] theorem namedPieces_cons (hsep : p sep = true) (s : List α) :
    namedPieces p (sep :: s) = namedPieces p s := by
  simpa using namedPieces_append hsep [] s

/-- Separators in front of a text do not count. -/
theorem namedPieces_dropWhile (s : List α) : namedPieces p (s.dropWhile p) = namedPieces p s := by
  induction s with
  | nil => rfl
  | cons c s ih =>
    by_cases hc : p c = true
    · rw [List.dropWhile_cons_of_pos hc, ih, namedPieces_cons hc]
    · rw [List.dropWhile_cons_of_neg hc]

/-- Nor do separators behind it. -/
theorem namedPieces_append_separators {t : List α} (h : ∀ c ∈ t, p c = true) (s : List α) :
    namedPieces p (s ++ t) = namedPieces p s := by
  induction t generalizing s with
  | nil => rw [List.append_nil]
  | cons c t ih =>
    have hrest := ih (fun d hd => h d (List.mem_cons_of_mem c hd)) []
    rw [List.nil_append, namedPieces_nil] at hrest
    rw [namedPieces_append (h c List.mem_cons_self), hrest, List.append_nil]

/-- A single piece is read as itself. -/
theorem namedPieces_of_isPiece {piece : List α} (h : IsPiece p piece) :
    namedPieces p piece = [piece] := by
  rw [namedPieces, List.splitOnP_eq_singleton h.unseparated]
  simp [h.ne_nil]

/-- Joined pieces are read back. -/
theorem namedPieces_intercalate (hsep : p sep = true) {pieces : List (List α)}
    (h : ∀ piece ∈ pieces, IsPiece p piece) :
    namedPieces p ([sep].intercalate pieces) = pieces := by
  by_cases hne : pieces = []
  · simp [hne]
  · rw [namedPieces, splitOnP_intercalate hsep hne fun piece hpiece => (h piece hpiece).unseparated]
    apply List.filter_eq_self.mpr
    intro piece hpiece
    simpa using (h piece hpiece).ne_nil

/-- What stands in joined pieces stands in a piece or separates two. -/
theorem mem_of_mem_intercalate {pieces : List (List α)} {c : α}
    (h : c ∈ [sep].intercalate pieces) : c = sep ∨ ∃ piece ∈ pieces, c ∈ piece := by
  induction pieces with
  | nil => simp at h
  | cons piece rest ih =>
    cases rest with
    | nil => exact .inr ⟨piece, by simp, by simpa using h⟩
    | cons next rest =>
      rw [List.intercalate_cons_cons, List.mem_append, List.mem_append, List.mem_singleton] at h
      rcases h with (hpiece | hsep) | hrest
      · exact .inr ⟨piece, List.mem_cons_self, hpiece⟩
      · exact .inl hsep
      · rcases ih hrest with hsep | ⟨other, hother, hc⟩
        · exact .inl hsep
        · exact .inr ⟨other, List.mem_cons_of_mem piece hother, hc⟩

/-- Writing one separator for another: the pieces stay. -/
theorem splitOnP_map_of_fixed {f : α → α} {q : α → Bool} (hq : ∀ c, q (f c) = p c)
    (hf : ∀ c, p c = false → f c = c) (s : List α) :
    (s.map f).splitOnP q = s.splitOnP p := by
  have hcomp : q ∘ f = p := funext hq
  rw [splitOnP_map, hcomp]
  conv_rhs => rw [← List.map_id (s.splitOnP p)]
  apply List.map_congr_left
  intro piece hpiece
  conv_rhs => rw [id, ← List.map_id piece]
  exact List.map_congr_left fun c hc => hf c (of_mem_splitOnP hpiece hc)

/-- Characters that do not occur do not separate. -/
theorem splitOnP_congr {q : α → Bool} {s : List α} (h : ∀ c ∈ s, p c = q c) :
    s.splitOnP p = s.splitOnP q := by
  induction s with
  | nil => simp
  | cons c s ih =>
    rw [List.splitOnP_cons_eq_if_modifyHead, List.splitOnP_cons_eq_if_modifyHead,
      h c List.mem_cons_self, ih fun d hd => h d (List.mem_cons_of_mem c hd)]

/-- The first piece ends the text, or a separator follows it and then the other pieces. -/
theorem eq_of_splitOnP_eq_cons {s piece : List α} {rest : List (List α)}
    (h : s.splitOnP p = piece :: rest) :
    (s = piece ∧ rest = []) ∨ ∃ c t, p c = true ∧ s = piece ++ c :: t ∧ t.splitOnP p = rest := by
  induction s generalizing piece with
  | nil => simp_all
  | cons d s ih =>
    rw [List.splitOnP_cons_eq_if_modifyHead] at h
    obtain ⟨first, others, hpieces⟩ := List.exists_cons_of_ne_nil (List.splitOnP_ne_nil p s)
    split at h
    · rename_i hd
      obtain ⟨rfl, rfl⟩ := List.cons.inj h
      exact .inr ⟨d, s, hd, rfl, rfl⟩
    · rw [hpieces, List.modifyHead_cons] at h
      obtain ⟨rfl, rfl⟩ := List.cons.inj h
      rcases ih hpieces with ⟨rfl, hnil⟩ | ⟨c, t, hc, rfl, ht⟩
      · exact .inl ⟨rfl, hnil⟩
      · exact .inr ⟨c, t, hc, rfl, ht⟩

/-! ## Repeated prefixes -/

section TrimStart

variable [DecidableEq α]

/-- The rounds of `trimStartMatches`. -/
def trimStartRounds (pattern : List α) : Nat → List α → List α
  | 0, s => s
  | rounds + 1, s =>
    if pattern.isPrefixOf s then trimStartRounds pattern rounds (s.drop pattern.length) else s

/-- `str::trim_start_matches`, of a pattern that is a string: every repetition of it is removed. -/
def trimStartMatches (pattern s : List α) : List α := trimStartRounds pattern s.length s

theorem trimStartRounds_of_not_isPrefix {pattern s : List α} (h : ¬ pattern <+: s) (rounds : Nat) :
    trimStartRounds pattern rounds s = s := by
  cases rounds with
  | zero => rfl
  | succ rounds => rw [trimStartRounds, if_neg (by simpa [List.isPrefixOf_iff_prefix] using h)]

/-- More rounds than there are characters change nothing. -/
theorem trimStartRounds_eq {pattern : List α} (hne : pattern ≠ []) {rounds : Nat} {s : List α}
    (h : s.length ≤ rounds) : trimStartRounds pattern rounds s = trimStartMatches pattern s := by
  rw [trimStartMatches]
  obtain ⟨extra, rfl⟩ := Nat.exists_eq_add_of_le h
  clear h
  induction hlength : s.length using Nat.strongRecOn generalizing s extra with
  | _ length ih =>
    by_cases hpre : pattern <+: s
    · obtain ⟨rest, rfl⟩ := hpre
      obtain ⟨c, pattern, rfl⟩ := List.exists_cons_of_ne_nil hne
      -- A round takes the pattern off, and leaves enough rounds for the rest.
      have hround : ∀ rounds, trimStartRounds (c :: pattern) (rounds + 1) (c :: pattern ++ rest) =
          trimStartRounds (c :: pattern) rounds rest := fun rounds => by
        rw [trimStartRounds, if_pos (by simp), List.drop_left]
      have hlen : length = rest.length + pattern.length + 1 := by
        rw [← hlength]
        simp only [List.cons_append, List.length_cons, List.length_append]
        omega
      subst hlen
      have hall : ∀ more, trimStartRounds (c :: pattern) (rest.length + more) rest =
          trimStartRounds (c :: pattern) rest.length rest := fun more =>
        ih rest.length (by omega) more rfl
      have hassoc : rest.length + pattern.length + 1 + extra =
          rest.length + (pattern.length + extra) + 1 := by omega
      rw [hassoc, hround, hround, hall, hall]
    · rw [trimStartRounds_of_not_isPrefix hpre, trimStartRounds_of_not_isPrefix hpre]

theorem trimStartMatches_of_not_isPrefix {pattern s : List α} (h : ¬ pattern <+: s) :
    trimStartMatches pattern s = s := trimStartRounds_of_not_isPrefix h s.length

theorem trimStartMatches_append {pattern : List α} (hne : pattern ≠ []) (s : List α) :
    trimStartMatches pattern (pattern ++ s) = trimStartMatches pattern s := by
  obtain ⟨c, pattern, rfl⟩ := List.exists_cons_of_ne_nil hne
  have hlength : (c :: pattern ++ s).length = s.length + pattern.length + 1 := by
    simp only [List.cons_append, List.length_cons, List.length_append]
    omega
  rw [trimStartMatches, hlength, trimStartRounds, if_pos (by simp), List.drop_left,
    trimStartRounds_eq hne (by omega)]

/-- What is left is the end of the text, and does not start with the pattern. -/
theorem trimStartMatches_spec {pattern : List α} (hne : pattern ≠ []) (s : List α) :
    ¬ pattern <+: trimStartMatches pattern s ∧ trimStartMatches pattern s <:+ s := by
  induction hlength : s.length using Nat.strongRecOn generalizing s with
  | _ length ih =>
    by_cases hpre : pattern <+: s
    · obtain ⟨rest, rfl⟩ := hpre
      have hpattern := List.length_pos_iff.mpr hne
      have hshorter : rest.length < length := by
        rw [← hlength, List.length_append]
        omega
      obtain ⟨hstart, hend⟩ := ih rest.length hshorter rest rfl
      rw [trimStartMatches_append hne]
      exact ⟨hstart, hend.trans (List.suffix_append pattern rest)⟩
    · rw [trimStartMatches_of_not_isPrefix hpre]
      exact ⟨hpre, List.suffix_refl s⟩

end TrimStart

/-! ## The separators of Windows paths -/

/-- `['/', '\\']`, as a pattern. -/
def isSeparator (c : Char) : Bool := c == '/' || c == '\\'

/-- `value.replace('\\', "/")`. -/
def forwardSlashes (value : Str) : Str := value.map fun c => if c = '\\' then '/' else c

theorem backslash_not_mem_forwardSlashes (value : Str) : '\\' ∉ forwardSlashes value := by
  intro h
  obtain ⟨c, -, hc⟩ := List.mem_map.mp h
  split at hc
  · cases hc
  · contradiction

theorem forwardSlashes_of_not_mem {s : Str} (h : '\\' ∉ s) : forwardSlashes s = s := by
  conv_rhs => rw [← List.map_id s]
  apply List.map_congr_left
  intro c hc
  have hne : c ≠ '\\' := fun heq => h (heq ▸ hc)
  simp [hne]

/-- Without backslashes a slash is the only separator. -/
theorem splitOn_slash {s : Str} (h : '\\' ∉ s) : s.splitOn '/' = s.splitOnP isSeparator := by
  rw [List.splitOn_eq_splitOnP]
  apply splitOnP_congr
  intro c hc
  have hne : c ≠ '\\' := fun heq => h (heq ▸ hc)
  simp [isSeparator, hne]

theorem isSeparator_forwardSlash (c : Char) :
    isSeparator (if c = '\\' then '/' else c) = isSeparator c := by
  by_cases hc : c = '\\'
  · simp [hc, isSeparator]
  · simp [hc]

theorem forwardSlash_of_not_separator {c : Char} (h : isSeparator c = false) :
    (if c = '\\' then '/' else c) = c := by
  simp only [isSeparator, Bool.or_eq_false_iff, beq_eq_false_iff_ne] at h
  exact if_neg h.2

/-- The separator that is written does not change the pieces. -/
theorem splitOnP_forwardSlashes (value : Str) :
    (forwardSlashes value).splitOnP isSeparator = value.splitOnP isSeparator :=
  splitOnP_map_of_fixed isSeparator_forwardSlash (fun _ => forwardSlash_of_not_separator) value

theorem namedPieces_forwardSlashes (value : Str) :
    namedPieces isSeparator (forwardSlashes value) = namedPieces isSeparator value := by
  rw [namedPieces, splitOnP_forwardSlashes, namedPieces]

end Lsw.Lib
