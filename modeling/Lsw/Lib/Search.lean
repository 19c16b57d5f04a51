import Mathlib.Data.List.Infix
import Mathlib.Tactic.Common

/-!
# Searching in Texts

Finding, splitting at and replacing a text within another.  `Misses needle piece` says that the needle
begins nowhere in a piece, whatever follows the piece: at no place is one of the two the beginning of the
other.  Such a piece is passed over by every search, so a search in a text is computed piece by piece.
-/

namespace Lsw.Lib

variable {α : Type} [DecidableEq α]

/-! ## Operations -/

/-- `str::find`: what is in front of the first occurrence, and what begins with it. -/
def find (needle : List α) : List α → Option (List α × List α)
  | [] => if needle = [] then some ([], []) else none
  | a :: text =>
    if needle <+: a :: text then some ([], a :: text)
    else (find needle text).map fun found => (a :: found.1, found.2)

/-- `str::split_once`, at a text. -/
def splitAtText (needle text : List α) : Option (List α × List α) :=
  (find needle text).map fun found => (found.1, found.2.drop needle.length)

/-- `str::replace`, of a text that is not empty, with so many elements still to be passed over. -/
def replaceFrom (needle other : List α) : Nat → List α → List α
  | _, [] => []
  | skip + 1, _ :: text => replaceFrom needle other skip text
  | 0, a :: text =>
    if needle <+: a :: text then other ++ replaceFrom needle other (needle.length - 1) text
    else a :: replaceFrom needle other 0 text

/-- `str::replace`, of a text that is not empty. -/
def replace (needle other text : List α) : List α := replaceFrom needle other 0 text

/-- The needle begins nowhere in the piece, whatever is behind it. -/
def Misses (needle piece : List α) : Prop :=
  ∀ at' < piece.length, ¬ needle <+: piece.drop at' ∧ ¬ piece.drop at' <+: needle

instance (needle piece : List α) : Decidable (Misses needle piece) :=
  inferInstanceAs (Decidable (∀ at' < piece.length, _))

/-! ## Pieces that are passed over -/

section Misses

variable {needle other piece front text : List α} {a : α}

omit [DecidableEq α] in
theorem misses_nil : Misses needle [] := fun at' h => absurd h (Nat.not_lt_zero at')

omit [DecidableEq α] in
theorem Misses.tail (h : Misses needle (a :: piece)) : Misses needle piece := fun at' hat =>
  h (at' + 1) (Nat.succ_lt_succ hat)

omit [DecidableEq α] in
/-- A text in front of which one of two texts could be continued to the other is no beginning. -/
theorem not_prefix_append (hneedle : ¬ needle <+: piece) (hpiece : ¬ piece <+: needle) :
    ¬ needle <+: piece ++ text := fun h =>
  (List.prefix_or_prefix_of_prefix h (List.prefix_append piece text)).elim hneedle hpiece

omit [DecidableEq α] in
theorem Misses.not_isPrefix (h : Misses needle (a :: piece)) : ¬ needle <+: a :: (piece ++ text) := by
  obtain ⟨hneedle, hpiece⟩ := h 0 (Nat.zero_lt_succ _)
  exact not_prefix_append hneedle hpiece

omit [DecidableEq α] in
theorem Misses.ne (h : Misses needle piece) (hneedle : needle ≠ []) : piece ≠ needle := by
  rintro rfl
  exact (h 0 (List.length_pos_iff.mpr hneedle)).1 (List.prefix_refl _)

omit [DecidableEq α] in
theorem misses_cons (hneedle : ¬ needle <+: a :: piece) (hpiece : ¬ a :: piece <+: needle)
    (h : Misses needle piece) : Misses needle (a :: piece) := by
  intro at' hat
  cases at' with
  | zero => exact ⟨hneedle, hpiece⟩
  | succ at' => exact h at' (Nat.lt_of_succ_lt_succ hat)

omit [DecidableEq α] in
/-- A needle begins at none but its first element. -/
theorem misses_of_not_mem (h : a ∉ piece) : Misses (a :: needle) piece := by
  induction piece with
  | nil => exact misses_nil
  | cons b piece ih =>
    obtain ⟨hne, hrest⟩ := not_or.mp (mt List.mem_cons.mpr h)
    refine misses_cons (fun hpre => ?_) (fun hpre => ?_) (ih hrest)
    · exact hne (List.cons_prefix_cons.mp hpre).1
    · exact hne (List.cons_prefix_cons.mp hpre).1.symm

omit [DecidableEq α] in
theorem Misses.append (hfront : Misses needle front) (hpiece : Misses needle piece) :
    Misses needle (front ++ piece) := by
  induction front with
  | nil => exact hpiece
  | cons b front ih =>
    refine misses_cons hfront.not_isPrefix (fun hpre => ?_) (ih hfront.tail)
    exact (hfront 0 (Nat.zero_lt_succ _)).2
      ((List.prefix_append (b :: front) piece).trans hpre)

/-! ## Searches -/

/-- What is found is a part of the text, and begins with the needle. -/
theorem eq_append_of_find {rest : List α} (h : find needle text = some (front, rest)) :
    text = front ++ rest ∧ needle <+: rest := by
  induction text generalizing front with
  | nil =>
    rw [find] at h
    split at h
    · rename_i hneedle
      cases h
      exact ⟨rfl, hneedle ▸ List.nil_prefix⟩
    · cases h
  | cons b text ih =>
    rw [find] at h
    split at h
    · rename_i hpre
      cases h
      exact ⟨rfl, hpre⟩
    · obtain ⟨found, hfound, heq⟩ := Option.map_eq_some_iff.mp h
      cases heq
      obtain ⟨htext, hpre⟩ := ih hfound
      exact ⟨by rw [htext, List.cons_append], hpre⟩

theorem length_le_of_find {rest : List α} (h : find needle text = some (front, rest)) :
    rest.length ≤ text.length := by
  rw [(eq_append_of_find h).1, List.length_append]
  exact Nat.le_add_left _ _

theorem find_misses (h : Misses needle piece) :
    find needle (piece ++ text) =
      (find needle text).map fun found => (piece ++ found.1, found.2) := by
  induction piece with
  | nil => simp
  | cons b piece ih =>
    rw [List.cons_append, find, if_neg h.not_isPrefix, ih h.tail, Option.map_map]
    rfl

theorem find_here (h : needle ≠ []) : find needle (needle ++ text) = some ([], needle ++ text) := by
  obtain ⟨b, needle, rfl⟩ := List.exists_cons_of_ne_nil h
  rw [List.cons_append, find, if_pos ⟨text, rfl⟩]

/-- A needle is found behind a piece in which it does not begin. -/
theorem find_behind (hfront : Misses needle front) (hneedle : needle ≠ []) :
    find needle (front ++ (needle ++ text)) = some (front, needle ++ text) := by
  rw [find_misses hfront, find_here hneedle]
  simp

theorem find_nowhere (h : Misses needle text) (hneedle : needle ≠ []) : find needle text = none := by
  have hfind : find needle (text ++ []) =
      (find needle []).map fun found => (text ++ found.1, found.2) := find_misses h
  rw [List.append_nil] at hfind
  rw [hfind]
  simp [find, hneedle]

theorem splitAtText_behind (hfront : Misses needle front) (hneedle : needle ≠ []) :
    splitAtText needle (front ++ (needle ++ text)) = some (front, text) := by
  rw [splitAtText, find_behind hfront hneedle]
  simp

theorem splitAtText_nowhere (h : Misses needle text) (hneedle : needle ≠ []) :
    splitAtText needle text = none := by
  rw [splitAtText, find_nowhere h hneedle]
  rfl

omit [DecidableEq α] in
/-- A needle is found behind a piece in which it does not begin, or not at all. -/
theorem infix_append_iff (h : Misses needle front) :
    needle <:+: front ++ text ↔ needle <:+: text := by
  induction front with
  | nil => rw [List.nil_append]
  | cons b front ih =>
    rw [List.cons_append, List.infix_cons_iff, ih h.tail]
    exact or_iff_right h.not_isPrefix

/-! ## Replacements -/

theorem replaceFrom_skip (front : List α) :
    replaceFrom needle other front.length (front ++ text) = replace needle other text := by
  induction front with
  | nil => rfl
  | cons b front ih => exact ih

theorem replace_here (h : needle ≠ []) :
    replace needle other (needle ++ text) = other ++ replace needle other text := by
  obtain ⟨b, rest, rfl⟩ := List.exists_cons_of_ne_nil h
  rw [List.cons_append, replace, replaceFrom, if_pos ⟨text, rfl⟩]
  exact congrArg (other ++ ·) (replaceFrom_skip rest)

theorem replace_misses (h : Misses needle piece) :
    replace needle other (piece ++ text) = piece ++ replace needle other text := by
  induction piece with
  | nil => rfl
  | cons b piece ih =>
    rw [List.cons_append, replace, replaceFrom, if_neg h.not_isPrefix]
    exact congrArg (b :: ·) (ih h.tail)

/-- In a text of units, each of which is the needle or is passed over, the needles are replaced. -/
theorem replace_flatMap {β : Type} {units : β → List α} {bs : List β} (hneedle : needle ≠ [])
    (h : ∀ b ∈ bs, units b = needle ∨ Misses needle (units b)) :
    replace needle other (bs.flatMap units) =
      bs.flatMap fun b => if units b = needle then other else units b := by
  induction bs with
  | nil => rfl
  | cons b bs ih =>
    have hrest := ih fun c hc => h c (List.mem_cons_of_mem b hc)
    rw [List.flatMap_cons, List.flatMap_cons]
    by_cases hunit : units b = needle
    · rw [if_pos hunit, hunit, replace_here hneedle, hrest]
    · rw [if_neg hunit, replace_misses ((h b List.mem_cons_self).resolve_left hunit), hrest]

/-- Replacing adds no element that is not in the replacement. -/
theorem count_replace_le {b : α} (h : b ∉ other) (text : List α) :
    (replace needle other text).count b ≤ text.count b := by
  have hfrom : ∀ skip, (replaceFrom needle other skip text).count b ≤ text.count b := by
    induction text with
    | nil => simp [replaceFrom]
    | cons c text ih =>
      intro skip
      have hle : text.count b ≤ (c :: text).count b := List.count_le_count_cons
      cases skip with
      | zero =>
        rw [replaceFrom]
        split
        · rw [List.count_append, List.count_eq_zero_of_not_mem h, Nat.zero_add]
          exact Nat.le_trans (ih _) hle
        · rw [List.count_cons, List.count_cons]
          exact Nat.add_le_add_right (ih 0) _
      | succ skip => exact Nat.le_trans (ih skip) hle
  exact hfrom 0

end Misses

/-! ## Replacing in texts that are mapped or joined -/

section Replace

theorem replace_cons {needle other : List α} (a : α) (text : List α) :
    replace needle other (a :: text) =
      if needle <+: a :: text then other ++ replaceFrom needle other (needle.length - 1) text
      else a :: replace needle other text := rfl

/-- Reading a text off its elements and replacing can change places, if what reads like the needle is
    the needle. -/
theorem replace_map {β : Type} [DecidableEq β] {f : β → α} {needle other text : List β}
    (h : ∀ suffix, suffix <:+ text → needle.map f <+: suffix.map f → needle <+: suffix) :
    replace (needle.map f) (other.map f) (text.map f) = (replace needle other text).map f := by
  -- Over the text, also in the middle of a needle that was found.
  have hfrom : ∀ (text : List β) (skip : Nat),
      (∀ suffix, suffix <:+ text → needle.map f <+: suffix.map f → needle <+: suffix) →
        replaceFrom (needle.map f) (other.map f) skip (text.map f) =
          (replaceFrom needle other skip text).map f := by
    intro text
    induction text with
    | nil => intros; simp [replaceFrom]
    | cons a text ih =>
      intro skip h
      have hrest : ∀ suffix, suffix <:+ text → needle.map f <+: suffix.map f → needle <+: suffix :=
        fun suffix hsuffix => h suffix (hsuffix.trans (List.suffix_cons a text))
      cases skip with
      | succ skip =>
        rw [List.map_cons, replaceFrom, replaceFrom]
        exact ih skip hrest
      | zero =>
        rw [List.map_cons, replaceFrom, replaceFrom, List.length_map]
        -- By hypothesis the needle begins here if it seems to.
        by_cases hpre : needle <+: a :: text
        · have hmap : needle.map f <+: f a :: text.map f := hpre.map f
          rw [if_pos hpre, if_pos hmap, List.map_append, ih _ hrest]
        · have hmap : ¬ needle.map f <+: f a :: text.map f := mt (h _ (List.suffix_refl _)) hpre
          rw [if_neg hpre, if_neg hmap, List.map_cons, ih _ hrest]
  exact hfrom text 0 h

/-- In lines that are joined, what is in no secret ends every place where it could begin. -/
theorem replace_intercalate {needle other : List α} {separator : α} (hne : needle ≠ [])
    (h : separator ∉ needle) (lines : List (List α)) :
    replace needle other ([separator].intercalate lines) =
      [separator].intercalate (lines.map (replace needle other)) := by
  have hjoin : ∀ front back : List α, replace needle other (front ++ separator :: back) =
      replace needle other front ++ separator :: replace needle other back := by
    intro front back
    have hfrom : ∀ (front : List α) (skip : Nat), skip ≤ front.length →
        replaceFrom needle other skip (front ++ separator :: back) =
          replaceFrom needle other skip front ++ separator :: replace needle other back := by
      intro front
      induction front with
      | nil =>
        intro skip hskip
        obtain rfl := Nat.le_zero.mp hskip
        obtain ⟨a, rest, rfl⟩ := List.exists_cons_of_ne_nil hne
        have hpre : ¬ a :: rest <+: separator :: back := fun hpre =>
          h ((List.cons_prefix_cons.mp hpre).1 ▸ List.mem_cons_self)
        rw [List.nil_append, ← replace, replace_cons, if_neg hpre]
        rfl
      | cons a front ih =>
        intro skip hskip
        cases skip with
        | succ skip => exact ih skip (Nat.le_of_succ_le_succ hskip)
        | zero =>
          -- What begins in front of the separator ends there.
          have hwithin : needle <+: a :: (front ++ separator :: back) ↔ needle <+: a :: front := by
            refine ⟨fun hpre => ?_, fun hpre => hpre.trans (List.prefix_append (a :: front) _)⟩
            rcases List.prefix_or_prefix_of_prefix hpre
              (List.prefix_append (a :: front) (separator :: back)) with hshort | hlong
            · exact hshort
            · obtain ⟨tail, rfl⟩ := hlong
              cases tail with
              | nil => rw [List.append_nil]
              | cons b tail =>
                have hmem := List.prefix_append_right_inj (a :: front) |>.mp hpre
                obtain rfl := (List.cons_prefix_cons.mp hmem).1
                exact absurd (List.mem_append_right (a :: front) List.mem_cons_self) h
          rw [List.cons_append, replaceFrom, replaceFrom]
          by_cases hpre : needle <+: a :: front
          · have hlength : needle.length - 1 ≤ front.length := by
              have hle := hpre.length_le
              rw [List.length_cons] at hle
              omega
            rw [if_pos hpre, if_pos (hwithin.mpr hpre), ih _ hlength, List.append_assoc]
          · rw [if_neg hpre, if_neg (mt hwithin.mp hpre), ih 0 (Nat.zero_le _), List.cons_append]
    exact hfrom front 0 (Nat.zero_le _)
  induction lines with
  | nil => rfl
  | cons line lines ih =>
    cases lines with
    | nil => simp
    | cons next lines =>
      rw [List.intercalate_cons_cons, List.append_assoc, List.singleton_append, hjoin, ih,
        List.map_cons, List.map_cons, List.map_cons, List.intercalate_cons_cons,
        List.append_assoc, List.singleton_append]

end Replace

end Lsw.Lib
