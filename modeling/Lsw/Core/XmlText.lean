import Lsw.Lib.Search
import Lsw.Lib.Xml

/-!
# Text in XML

`xml_escape` (`install_seed/unattend.rs`) and `xml_unescape` (`windows_media.rs`) go over a text five
times, once for each of the characters that have an entity.  The ampersand goes first when escaping and
last when unescaping.  In between, a text consists of units, each of them a character or an entity, and
every pass changes the units of one character.
-/

namespace Lsw.Core

open Lsw.Lib

/-- `str::replace`, of a character. -/
def replaceChar (c : Char) (other : String) (value : Str) : Str :=
  value.flatMap fun d => if d = c then other.toList else [d]

/-- `xml_escape`. -/
def xmlEscape (value : Str) : Str :=
  replaceChar '\'' "&apos;" (replaceChar '"' "&quot;" (replaceChar '>' "&gt;"
    (replaceChar '<' "&lt;" (replaceChar '&' "&amp;" value))))

/-- `xml_unescape`. -/
def xmlUnescape (value : Str) : Str :=
  replace "&amp;".toList ['&'] (replace "&apos;".toList ['\''] (replace "&quot;".toList ['"']
    (replace "&gt;".toList ['>'] (replace "&lt;".toList ['<'] value))))

/-! ## Units -/

/-- The characters that have an entity. -/
def specials : List Char := ['&', '<', '>', '"', '\'']

/-- The entity of a character, or the character. -/
def unit (c : Char) : Str :=
  if c = '&' then "&amp;".toList
  else if c = '<' then "&lt;".toList
  else if c = '>' then "&gt;".toList
  else if c = '"' then "&quot;".toList
  else if c = '\'' then "&apos;".toList
  else [c]

theorem unit_of_not_mem {c : Char} (h : c ∉ specials) : unit c = [c] := by
  simp only [specials, List.mem_cons, List.not_mem_nil, or_false, not_or] at h
  obtain ⟨hamp, hlt, hgt, hquot, hapos⟩ := h
  rw [unit, if_neg hamp, if_neg hlt, if_neg hgt, if_neg hquot, if_neg hapos]

/-- The five passes of `xml_escape` are one. -/
theorem xmlEscape_eq (value : Str) : xmlEscape value = value.flatMap unit := by
  simp only [xmlEscape, replaceChar, List.flatMap_assoc]
  refine List.flatMap_congr fun c _ => ?_
  by_cases hspecial : c ∈ specials
  · simp only [specials, List.mem_cons, List.not_mem_nil, or_false] at hspecial
    rcases hspecial with rfl | rfl | rfl | rfl | rfl <;> rfl
  · -- A character without an entity is passed over five times.
    rw [unit_of_not_mem hspecial]
    simp only [specials, List.mem_cons, List.not_mem_nil, or_false, not_or] at hspecial
    obtain ⟨hamp, hlt, hgt, hquot, hapos⟩ := hspecial
    simp only [if_neg hamp, if_neg hlt, if_neg hgt, if_neg hquot, if_neg hapos,
      List.flatMap_singleton]

/-- A character is passed over when it is no ampersand. -/
theorem misses_single {c d : Char} (hd : d ∈ specials) (hc : c ≠ '&') : Misses (unit d) [c] := by
  have hstart : ∃ rest, unit d = '&' :: rest := by
    simp only [specials, List.mem_cons, List.not_mem_nil, or_false] at hd
    rcases hd with rfl | rfl | rfl | rfl | rfl <;> exact ⟨_, rfl⟩
  obtain ⟨rest, hrest⟩ := hstart
  rw [hrest]
  exact misses_of_not_mem fun hmem => hc (List.mem_singleton.mp hmem).symm

/-- No entity begins within another one. -/
theorem misses_unit {c d : Char} (hd : d ∈ specials) (hne : c ≠ d) : Misses (unit d) (unit c) := by
  by_cases hspecial : c ∈ specials
  · have hall : (specials.all fun d => specials.all fun c =>
        decide (c ≠ d → Misses (unit d) (unit c))) = true := by decide
    exact of_decide_eq_true (List.all_eq_true.mp (List.all_eq_true.mp hall d hd) c hspecial) hne
  · rw [unit_of_not_mem hspecial]
    exact misses_single hd fun hamp => hspecial (by rw [hamp]; decide)

/-- The units of a text when the entities of some characters have been replaced already. -/
def unitAfter (done : List Char) (c : Char) : Str := if c ∈ done then [c] else unit c

/-- A pass replaces the entity of one character; that of the ampersand is still there. -/
theorem replace_unit {done : List Char} {d : Char} (hamp : '&' ∉ done) (hd : d ∈ specials)
    (hnew : d ∉ done) (value : Str) :
    replace (unit d) [d] (value.flatMap (unitAfter done)) =
      value.flatMap (unitAfter (d :: done)) := by
  have hneedle : ∀ d ∈ specials, unit d ≠ [] := forall_mem_of_all (by decide)
  have hself : unitAfter done d = unit d := by rw [unitAfter, if_neg hnew]
  -- The entity begins in no other unit.
  have hapart : ∀ c, c ≠ d → Misses (unit d) (unitAfter done c) := by
    intro c hne
    rw [unitAfter]
    by_cases hdone : c ∈ done
    · rw [if_pos hdone]
      exact misses_single hd fun h => hamp (h ▸ hdone)
    · rw [if_neg hdone]
      exact misses_unit hd hne
  -- So the pass replaces unit by unit.
  rw [replace_flatMap (hneedle d hd)]
  · refine List.flatMap_congr fun c _ => ?_
    by_cases heq : c = d
    · rw [heq, if_pos hself, unitAfter, if_pos List.mem_cons_self]
    · have hother : unitAfter done c ≠ unit d := (hapart c heq).ne (hneedle d hd)
      rw [if_neg hother, unitAfter, unitAfter]
      simp [heq]
  · intro c _
    by_cases heq : c = d
    · exact Or.inl (heq ▸ hself)
    · exact Or.inr (hapart c heq)

/-- Unescaping gives every text back. -/
theorem xmlUnescape_xmlEscape (value : Str) : xmlUnescape (xmlEscape value) = value := by
  have hpass : ∀ done : List Char, ∀ d ∈ specials, '&' ∉ done → d ∉ done →
      replace (unit d) [d] (value.flatMap (unitAfter done)) =
        value.flatMap (unitAfter (d :: done)) :=
    fun done d hd hamp hnew => replace_unit hamp hd hnew value
  have hlt := hpass [] '<' (by decide) (by decide) (by decide)
  have hgt := hpass ['<'] '>' (by decide) (by decide) (by decide)
  have hquot := hpass ['>', '<'] '"' (by decide) (by decide) (by decide)
  have hapos := hpass ['"', '>', '<'] '\'' (by decide) (by decide) (by decide)
  have hamp := hpass ['\'', '"', '>', '<'] '&' (by decide) (by decide) (by decide)
  have hnone : value.flatMap unit = value.flatMap (unitAfter []) := rfl
  have hunescape : xmlUnescape (value.flatMap unit) =
      replace (unit '&') ['&'] (replace (unit '\'') ['\''] (replace (unit '"') ['"']
        (replace (unit '>') ['>'] (replace (unit '<') ['<'] (value.flatMap unit))))) := rfl
  -- With all entities replaced, every unit is its character.
  have hall : ∀ c, unitAfter ['&', '\'', '"', '>', '<'] c = [c] := by
    intro c
    have hspecials : ∀ d ∈ specials, d ∈ ['&', '\'', '"', '>', '<'] :=
      forall_mem_of_all (by decide)
    rw [unitAfter]
    by_cases hdone : c ∈ ['&', '\'', '"', '>', '<']
    · exact if_pos hdone
    · rw [if_neg hdone]
      exact unit_of_not_mem fun h => hdone (hspecials c h)
  rw [xmlEscape_eq, hunescape, hnone, hlt, hgt, hquot, hapos, hamp, funext hall]
  exact List.flatMap_singleton' value

/-- Escaped text is read as the characters of the text, and has no tag. -/
theorem reads_xmlEscape (value : Str) : Xml.Reads (xmlEscape value) (value.map .char) := by
  rw [xmlEscape_eq]
  induction value with
  | nil => exact Xml.reads_nil
  | cons c value ih =>
    have hunit : Xml.Reads (unit c) [.char c] := by
      by_cases hspecial : c ∈ specials
      · simp only [specials, List.mem_cons, List.not_mem_nil, or_false] at hspecial
        rcases hspecial with rfl | rfl | rfl | rfl | rfl <;> exact fun _ => rfl
      · rw [unit_of_not_mem hspecial]
        refine Xml.reads_plain fun d hd => ?_
        rw [List.mem_singleton.mp hd]
        exact ⟨fun h => hspecial (by rw [h]; decide), fun h => hspecial (by rw [h]; decide)⟩
    exact hunit.append ih

/-! ## What escaping leaves alone -/

/-- Escaped text has no bracket. -/
theorem not_mem_xmlEscape {c : Char} (hc : c = '<' ∨ c = '>') (value : Str) :
    c ∉ xmlEscape value := by
  rw [xmlEscape_eq, List.mem_flatMap]
  rintro ⟨d, -, hmem⟩
  by_cases hspecial : d ∈ specials
  · have hall : ∀ d ∈ specials, '<' ∉ unit d ∧ '>' ∉ unit d := forall_mem_of_all (by decide)
    rcases hc with rfl | rfl
    · exact (hall d hspecial).1 hmem
    · exact (hall d hspecial).2 hmem
  · rw [unit_of_not_mem hspecial] at hmem
    have heq := List.mem_singleton.mp hmem
    rcases hc with rfl | rfl <;> exact hspecial (by rw [← heq]; decide)

/-- Where a text has no white space in front, neither has one made of units that have none. -/
theorem dropWhile_flatMap {units : Char → Str} {value : Str}
    (hunits : ∀ c, isWhitespace c = false → ∃ d rest, units c = d :: rest ∧ isWhitespace d = false)
    (h : value.dropWhile isWhitespace = value) :
    (value.flatMap units).dropWhile isWhitespace = value.flatMap units := by
  cases value with
  | nil => rfl
  | cons c value =>
    have hc : isWhitespace c = false := by
      by_contra hwhite
      rw [Bool.not_eq_false] at hwhite
      rw [List.dropWhile_cons_of_pos hwhite] at h
      have hlength := (List.dropWhile_suffix isWhitespace (l := value)).length_le
      rw [h, List.length_cons] at hlength
      omega
    obtain ⟨d, rest, hunit, hd⟩ := hunits c hc
    rw [List.flatMap_cons, hunit, List.cons_append]
    exact List.dropWhile_cons_of_neg (by rw [hd]; exact Bool.false_ne_true)

/-- A trimmed text is trimmed when escaped. -/
theorem trim_xmlEscape {value : Str} (h : trim value = value) :
    trim (xmlEscape value) = xmlEscape value := by
  have hends : ∀ d ∈ specials, (unit d).head? = some '&' ∧ (unit d).reverse.head? = some ';' :=
    forall_mem_of_all (by decide)
  obtain ⟨hfront, hback⟩ := trim_eq_self_iff.mp h
  rw [xmlEscape_eq, trim_eq_self_iff]
  constructor
  · refine dropWhile_flatMap (fun c hc => ?_) hfront
    by_cases hspecial : c ∈ specials
    · obtain ⟨rest, hrest⟩ := List.head?_eq_some_iff.mp (hends c hspecial).1
      exact ⟨'&', rest, hrest, by decide⟩
    · exact ⟨c, [], unit_of_not_mem hspecial, hc⟩
  · rw [List.reverse_flatMap]
    refine dropWhile_flatMap (fun c hc => ?_) hback
    by_cases hspecial : c ∈ specials
    · obtain ⟨rest, hrest⟩ := List.head?_eq_some_iff.mp (hends c hspecial).2
      exact ⟨';', rest, hrest, by decide⟩
    · exact ⟨c, [], by rw [Function.comp_apply, unit_of_not_mem hspecial]; rfl, hc⟩

end Lsw.Core
