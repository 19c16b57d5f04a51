import Lsw.Core.Store
import Lsw.Lib.Pieces
import Lsw.Lib.Secret

/-!
# The Diagnostic of the File Server

`summarize_samba_log` (`shares.rs`) shows the end of a log in which the credential of an instance
may stand, with the credential replaced.  It cuts the log and its lines before it replaces anything.

A log is given by its parts (`Slot`): bytes of its own, and places where the credential stands.  Up to
the replacement the program does the same for every credential, and `shownLines` is what it then has,
digit by digit.  The summary does not depend on the credential if and only if the digits that are
shown are those of whole credentials, and no credential begins in front of one (`RedactsWhole`).

That the condition is needed is shown by two credentials, whose first digits are their only ones of a
kind and which have no digit in common; there are more of them than a log has bytes.
-/

namespace Lsw.Cli

open Lsw.Lib Lsw.Core

/-! ## The program -/

namespace SambaLog

/-- `MAX_LOG_BYTES`. -/
def maxLogBytes : Nat := 16 * 1024

/-- `MAX_LINES`. -/
def maxLines : Nat := 20

/-- `MAX_LINE_CHARS`. -/
def maxLineChars : Nat := 600

/-- A character that a summary may contain. -/
def isPrinted (c : Char) : Bool := !isControl c || c == '\t'

/-- What is shown of a line. -/
def sanitize (line : Str) : Option Str :=
  let sanitized := (line.filter isPrinted).take maxLineChars
  if isBlank sanitized then none else some sanitized

/-- What stands in the place of the credential. -/
def redacted : Str := "<redacted>".toList

/-- The end of a list: `lines.drain(..lines.len() - MAX_LINES)`, where there are more. -/
def lastLines {α : Type} (shown : List α) : List α := shown.drop (shown.length - maxLines)

/-- `summarize_samba_log`. -/
def summarizeSambaLog (log : Bytes) (credential : Option Str) : Option Str :=
  let start := log.length - maxLogBytes
  let text := lossy (log.drop start)
  let shown := lastLines ((lines text).filterMap sanitize)
  if shown = [] then none
  else
    let summary := ['\n'].intercalate shown
    some (credential.elim summary (replace · redacted summary))

/-- The length of a credential. -/
abbrev credentialLength : Nat := 64

/-- A digit of a credential. -/
def isDigit (c : Char) : Bool := ('0' ≤ c && c ≤ '9') || ('a' ≤ c && c ≤ 'f')

/-- 64 lowercase hexadecimal digits. -/
structure Credential where
  digits : Fin credentialLength → Char
  valid : ∀ i, isDigit (digits i) = true

/-- The credential as a text. -/
def Credential.text (credential : Credential) : Str := List.ofFn credential.digits

/-! ## Logs with a credential -/

section Template

variable (template : List (Slot UInt8))

/-- The log, with the credential at its places. -/
def logOf (credential : Credential) : Bytes := fillAll (bytes credential.text) template

/-- The credential occurs in none of the log's own texts. -/
def Admissible (credential : Credential) : Prop :=
  ¬ (bytes credential.text).map Slot.own <:+: template

instance (credential : Credential) : Decidable (Admissible template credential) :=
  inferInstanceAs (Decidable (¬ _))

/-- What is shown of a line. -/
def showMarks (line : List (Mark credentialLength Char)) :
    Option (List (Mark credentialLength Char)) :=
  let sanitized := (line.filter (Mark.keeps isPrinted)).take maxLineChars
  if sanitized.all (Mark.isOwn isWhitespace) = true then none else some sanitized

/-- The lines that are shown, with the digits of the credential in them. -/
def shownLines : List (List (Mark credentialLength Char)) :=
  let log := expand credentialLength template
  let text := decodeMarks [] (log.drop (log.length - maxLogBytes))
  lastLines ((markLines text).filterMap showMarks)

/-- The credential is replaced wherever it is shown: the lines have no digits but those of whole
    credentials, and in front of these begins no credential that the log's own texts do not
    contain. -/
def RedactsWhole : Prop :=
  ∀ line ∈ shownLines template, ∃ parts, line = expand credentialLength parts ∧
    ∀ credential, Admissible template credential → Aligned credential.text parts

end Template

/-! ## Credentials -/

theorem toNat_lt_of_isDigit {c : Char} (h : isDigit c = true) :
    48 ≤ c.toNat ∧ c.toNat ≤ 57 ∨ 97 ≤ c.toNat ∧ c.toNat ≤ 102 := by
  simpa [isDigit, Char.le_def, UInt32.le_iff_toNat_le] using h

/-- A digit is an ASCII character that is printed and is no white space. -/
theorem plain_of_isDigit {c : Char} (h : isDigit c = true) :
    c.toNat < 128 ∧ isPrinted c = true ∧ isWhitespace c = false := by
  have hbounds := toNat_lt_of_isDigit h
  refine ⟨by omega, ?_, ?_⟩
  · have hcontrol : isControl c = false := by
      simp only [isControl, Bool.or_eq_false_iff, Bool.and_eq_false_iff, decide_eq_false_iff_not]
      omega
    simp [isPrinted, hcontrol]
  · rw [Bool.eq_false_iff]
    intro hwhite
    have hmem := toNat_mem_whitespaceNumbers hwhite
    simp only [whitespaceNumbers, List.mem_cons, List.not_mem_nil, or_false] at hmem
    omega

namespace Credential

variable (credential : Credential)

theorem text_ne_nil : credential.text ≠ [] := by
  rw [text, Ne, List.ofFn_eq_nil_iff]
  decide

theorem isDigit_of_mem {c : Char} (h : c ∈ credential.text) : isDigit c = true := by
  obtain ⟨i, rfl⟩ := List.mem_ofFn.mp h
  exact credential.valid i

theorem not_mem {c : Char} (hc : isDigit c = false) : c ∉ credential.text := fun hmem => by
  rw [credential.isDigit_of_mem hmem] at hc
  cases hc

theorem ascii (i : Fin credentialLength) : (credential.digits i).toNat < 128 :=
  (plain_of_isDigit (credential.valid i)).1

theorem digits_ne {c : Char} (hc : isDigit c = false) (i : Fin credentialLength) :
    credential.digits i ≠ c := by
  rintro rfl
  rw [credential.valid i] at hc
  cases hc

theorem bytes_text : bytes credential.text =
    List.ofFn fun i => UInt8.ofNat (credential.digits i).toNat := by
  have hascii : ∀ c ∈ credential.text, c.toNat < 128 := fun c hc =>
    (plain_of_isDigit (credential.isDigit_of_mem hc)).1
  rw [bytes_of_ascii hascii, text, List.map_ofFn]
  rfl

/-- A log is read off its elements. -/
theorem logOf_eq (template : List (Slot UInt8)) : logOf template credential =
    (expand credentialLength template).map
      (Mark.read fun i => UInt8.ofNat (credential.digits i).toNat) := by
  rw [logOf, bytes_text, map_read_expand]

end Credential

/-! ## The lines that are shown -/

section Lines

variable (credential : Credential)

theorem isPrinted_read (mark : Mark credentialLength Char) :
    isPrinted (mark.read credential.digits) = mark.keeps isPrinted := by
  cases mark with
  | own c => rfl
  | digit i => exact (plain_of_isDigit (credential.valid i)).2.1

theorem isWhitespace_read (mark : Mark credentialLength Char) :
    isWhitespace (mark.read credential.digits) = mark.isOwn isWhitespace := by
  cases mark with
  | own c => rfl
  | digit i => exact (plain_of_isDigit (credential.valid i)).2.2

theorem sanitize_map_read (line : List (Mark credentialLength Char)) :
    sanitize (line.map (Mark.read credential.digits)) =
      (showMarks line).map (List.map (Mark.read credential.digits)) := by
  have hkeeps : isPrinted ∘ Mark.read credential.digits = Mark.keeps isPrinted :=
    funext (isPrinted_read credential)
  have hwhite : isWhitespace ∘ Mark.read credential.digits = Mark.isOwn isWhitespace :=
    funext (isWhitespace_read credential)
  rw [sanitize, showMarks, List.filter_map, hkeeps, ← List.map_take, isBlank, List.all_map, hwhite]
  split <;> rfl

theorem filterMap_sanitize (lines : List (List (Mark credentialLength Char))) :
    (lines.map (List.map (Mark.read credential.digits))).filterMap sanitize =
      (lines.filterMap showMarks).map (List.map (Mark.read credential.digits)) := by
  rw [List.filterMap_map, List.map_filterMap]
  exact List.filterMap_congr fun line _ => sanitize_map_read credential line

theorem lastLines_map {α β : Type} (f : α → β) (shown : List α) :
    lastLines (shown.map f) = (lastLines shown).map f := by
  rw [lastLines, lastLines, List.length_map, List.map_drop]

variable (template : List (Slot UInt8))

/-- Up to the replacement, the program does the same for every credential. -/
theorem shownLines_eq :
    let log := logOf template credential
    lastLines ((lines (lossy (log.drop (log.length - maxLogBytes)))).filterMap sanitize) =
      (shownLines template).map (List.map (Mark.read credential.digits)) := by
  intro log
  have hlossy := lossy_map_read credential.ascii []
    ((expand credentialLength template).drop
      ((expand credentialLength template).length - maxLogBytes))
  rw [List.nil_append, List.map_drop] at hlossy
  rw [show log = _ from credential.logOf_eq template, List.length_map, hlossy,
    lines_map_read (credential.digits_ne (by decide)) (credential.digits_ne (by decide)),
    filterMap_sanitize, lastLines_map]
  rfl

/-- What is shown is read off the lines, with the credential replaced in each. -/
theorem summarizeSambaLog_logOf :
    summarizeSambaLog (logOf template credential) (some credential.text) =
      if shownLines template = [] then none
      else some (['\n'].intercalate ((shownLines template).map fun line =>
        replace credential.text redacted (line.map (Mark.read credential.digits)))) := by
  have hshown := shownLines_eq credential template
  dsimp only at hshown
  rw [summarizeSambaLog]
  dsimp only
  rw [hshown, Option.elim_some,
    replace_intercalate credential.text_ne_nil (credential.not_mem (by decide)), List.map_map]
  simp only [List.map_eq_nil_iff]
  rfl

variable {template}

theorem exists_of_mem_shownLines {line : List (Mark credentialLength Char)}
    (h : line ∈ shownLines template) : ∃ source : List (Mark credentialLength Char),
      Unbroken source ∧ line = (source.filter (Mark.keeps isPrinted)).take maxLineChars := by
  obtain ⟨source, hsource, hshow⟩ := List.mem_filterMap.mp (List.mem_of_mem_drop h)
  have hlog : Unbroken ((expand credentialLength template).drop
      ((expand credentialLength template).length - maxLogBytes)) :=
    List.IsChain.drop (unbroken_expand _ template) _
  have htext := @unbroken_decodeMarks _ _ [] (by rw [List.map_nil, List.nil_append]; exact hlog)
  refine ⟨source, unbroken_markLines htext hsource, ?_⟩
  rw [showMarks] at hshow
  split at hshow
  · cases hshow
  · exact (Option.some.inj hshow).symm

theorem unbroken_shownLines {line : List (Mark credentialLength Char)}
    (h : line ∈ shownLines template) : Unbroken line := by
  obtain ⟨source, hsource, rfl⟩ := exists_of_mem_shownLines h
  exact List.IsChain.take hsource.filter _

theorem length_shownLine_le {line : List (Mark credentialLength Char)}
    (h : line ∈ shownLines template) : line.length ≤ maxLineChars := by
  obtain ⟨source, -, rfl⟩ := exists_of_mem_shownLines h
  exact List.length_take_le _ _

/-- A line that is shown stays one line. -/
theorem newline_not_mem_shownLine {line : List (Mark credentialLength Char)}
    (h : line ∈ shownLines template) :
    '\n' ∉ replace credential.text redacted (line.map (Mark.read credential.digits)) := by
  obtain ⟨source, -, hline⟩ := exists_of_mem_shownLines h
  have hmem : '\n' ∉ line.map (Mark.read credential.digits) := by
    intro hmem
    obtain ⟨mark, hmark, hread⟩ := List.mem_map.mp hmem
    rw [hline] at hmark
    have hkept := (List.mem_filter.mp (List.mem_of_mem_take hmark)).2
    rw [← isPrinted_read credential, hread] at hkept
    exact absurd hkept (by decide)
  rw [← List.count_eq_zero] at hmem ⊢
  have hcount := @count_replace_le _ _ credential.text redacted _ (by decide : '\n' ∉ redacted)
    (line.map (Mark.read credential.digits))
  omega

end Lines

/-! ## The number of lines -/

section Count

theorem length_lastLines_le {α : Type} (shown : List α) :
    (lastLines shown).length ≤ maxLines := by
  rw [lastLines, List.length_drop]
  omega

theorem mem_of_mem_lastLines {α : Type} {shown : List α} {line : α} (h : line ∈ lastLines shown) :
    line ∈ shown := List.mem_of_mem_drop h

/-- Joining lines adds no others. -/
theorem count_intercalate {lines : List Str} (h : ∀ line ∈ lines, '\n' ∉ line) (hne : lines ≠ []) :
    (['\n'].intercalate lines).count '\n' + 1 = lines.length := by
  induction lines with
  | nil => exact absurd rfl hne
  | cons line lines ih =>
    obtain ⟨hline, hrest⟩ := List.forall_mem_cons.mp h
    cases lines with
    | nil => simpa using List.count_eq_zero_of_not_mem hline
    | cons next lines =>
      have hcount := ih hrest (List.cons_ne_nil _ _)
      rw [List.intercalate_cons_cons, List.count_append, List.count_append,
        List.count_eq_zero_of_not_mem hline, List.length_cons, ← hcount]
      simp
      omega

theorem newline_not_mem_sanitize {line shown : Str} (h : sanitize line = some shown) :
    '\n' ∉ shown := by
  intro hmem
  rw [sanitize] at h
  split at h
  · cases h
  · obtain rfl := Option.some.inj h
    have hprinted := (List.mem_filter.mp (List.mem_of_mem_take hmem)).2
    exact absurd hprinted (by decide)

/-- Every summary has at most twenty lines. -/
theorem count_summarizeSambaLog {log : Bytes} {credential : Option Str} {summary : Str}
    (h : summarizeSambaLog log credential = some summary) : summary.count '\n' < maxLines := by
  rw [summarizeSambaLog] at h
  simp only at h
  split at h
  · cases h
  · rename_i hne
    obtain rfl := Option.some.inj h
    have hcount := count_intercalate (fun line hline => by
      obtain ⟨source, -, hsource⟩ := List.mem_filterMap.mp (mem_of_mem_lastLines hline)
      exact newline_not_mem_sanitize hsource) hne
    have hlength := length_lastLines_le
      ((lines (lossy (log.drop (log.length - maxLogBytes)))).filterMap sanitize)
    cases credential with
    | none =>
      rw [Option.elim_none]
      omega
    | some credential =>
      have hreplace := @count_replace_le _ _ credential redacted _ (by decide : '\n' ∉ redacted)
        (['\n'].intercalate (lastLines ((lines (lossy (log.drop (log.length -
          maxLogBytes)))).filterMap sanitize)))
      rw [Option.elim_some]
      omega

end Count

/-! ## The condition -/

section Condition

variable {template : List (Slot UInt8)}

/-- Two summaries are the same if and only if every line is. -/
theorem summaries_eq_iff {left right : Credential} :
    summarizeSambaLog (logOf template left) (some left.text) =
        summarizeSambaLog (logOf template right) (some right.text) ↔
      ∀ line ∈ shownLines template, replace left.text redacted (line.map (Mark.read left.digits)) =
        replace right.text redacted (line.map (Mark.read right.digits)) := by
  rw [summarizeSambaLog_logOf, summarizeSambaLog_logOf, ← List.map_inj_left]
  by_cases hnone : shownLines template = []
  · simp [hnone]
  · rw [if_neg hnone, if_neg hnone, Option.some.injEq]
    have hsplit : ∀ credential : Credential, (['\n'].intercalate ((shownLines template).map
        fun line => replace credential.text redacted
          (line.map (Mark.read credential.digits)))).splitOnP (· == '\n') =
        (shownLines template).map fun line => replace credential.text redacted
          (line.map (Mark.read credential.digits)) := by
      intro credential
      refine splitOnP_intercalate rfl (by simpa using hnone) ?_
      rintro piece hpiece c hc
      obtain ⟨line, hline, rfl⟩ := List.mem_map.mp hpiece
      exact beq_eq_false_iff_ne.mpr fun heq =>
        newline_not_mem_shownLine credential hline (heq ▸ hc)
    refine ⟨fun h => ?_, fun h => by rw [h]⟩
    rw [← hsplit left, h, hsplit right]

/-- A line of whole credentials is shown with each replaced. -/
theorem replace_line {credential : Credential} {parts : List (Slot Char)}
    (h : Aligned credential.text parts) :
    replace credential.text redacted
        ((expand credentialLength parts).map (Mark.read credential.digits)) =
      fillAll redacted parts := by
  rw [map_read_expand]
  exact replace_fillAll credential.text_ne_nil h

/-- A credential whose first digit is no other of it, and stands only at its places. -/
structure Fresh (template : List (Slot UInt8)) (credential : Credential) : Prop where
  admissible : Admissible template credential
  first : ∀ i : Fin 63, credential.digits i.succ ≠ credential.digits 0
  absent : ∀ line ∈ shownLines template, ¬ credential.text.map Mark.own <:+: line

/-- For such a credential, the places that are replaced are its own. -/
theorem Fresh.replace_eq {credential : Credential} (h : Fresh template credential)
    {line : List (Mark credentialLength Char)} (hline : line ∈ shownLines template) :
    replace credential.text redacted (line.map (Mark.read credential.digits)) =
      (replace (wholeSecret credentialLength Char) (redacted.map .own) line).map
        (Mark.read credential.digits) := by
  rw [← replace_map, map_read_wholeSecret, map_read_own]
  · rfl
  · intro suffix hsuffix hpre
    rw [map_read_wholeSecret] at hpre
    refine prefix_of_map_read h.first (List.IsChain.suffix (unbroken_shownLines hline) hsuffix)
      (fun hown => ?_) hpre
    exact h.absent line hline (hown.isInfix.trans hsuffix.isInfix)

/-- Where no digit is left once the whole credentials are replaced, there were no others. -/
theorem exists_parts_of_replace {line : List (Mark credentialLength Char)}
    (h : ∀ mark ∈ replace (wholeSecret credentialLength Char) (redacted.map .own) line,
      ∃ c, mark = .own c) : ∃ parts, line = expand credentialLength parts := by
  have hne : wholeSecret credentialLength Char ≠ [] := by
    rw [wholeSecret, Ne, List.ofFn_eq_nil_iff]
    decide
  -- By the length, since a whole credential is replaced at once.
  induction hlength : line.length using Nat.strongRecOn generalizing line with
  | _ length ih =>
    cases line with
    | nil => exact ⟨[], rfl⟩
    | cons mark line =>
      by_cases hpre : wholeSecret credentialLength Char <+: mark :: line
      -- A whole credential: the rest is shorter.
      · obtain ⟨rest, hrest⟩ := hpre
        rw [← hrest, replace_here hne] at h
        have hshorter : rest.length < length := by
          rw [← hlength, ← hrest, List.length_append]
          have hpos := List.length_pos_iff.mpr hne
          omega
        obtain ⟨parts, rfl⟩ := ih rest.length hshorter
          (fun mark hmark => h mark (List.mem_append_right _ hmark)) rfl
        exact ⟨.secret :: parts, hrest.symm⟩
      -- Any other mark stays, so it is no digit.
      · rw [replace_cons, if_neg hpre] at h
        obtain ⟨c, rfl⟩ := h mark List.mem_cons_self
        have hshorter : line.length < length := by
          rw [← hlength, List.length_cons]
          omega
        obtain ⟨parts, rfl⟩ := ih line.length hshorter
          (fun mark hmark => h mark (List.mem_cons_of_mem _ hmark)) rfl
        exact ⟨.own c :: parts, rfl⟩

/-! ## Credentials that stand nowhere else -/

/-- A credential of one first digit and other letters. -/
def spelled (first : Char) (letters : Fin 7 → Char) (hfirst : isDigit first = true)
    (hletters : ∀ l, isDigit (letters l) = true) (word : Fin 63 → Fin 7) : Credential where
  digits := Fin.cons first fun i => letters (word i)
  valid := Fin.cases hfirst fun i => hletters (word i)

theorem length_flatten_le {α : Type} {lines : List (List α)} {limit : Nat}
    (h : ∀ line ∈ lines, line.length ≤ limit) : lines.flatten.length ≤ lines.length * limit := by
  induction lines with
  | nil => exact Nat.zero_le _
  | cons line lines ih =>
    obtain ⟨hline, hrest⟩ := List.forall_mem_cons.mp h
    rw [List.flatten_cons, List.length_append, List.length_cons, Nat.add_mul, Nat.one_mul,
      Nat.add_comm]
    exact Nat.add_le_add (ih hrest) hline

/-- A log and what is shown of it are too short for all credentials of a spelling. -/
theorem exists_fresh {first : Char} {letters : Fin 7 → Char} (hfirst : isDigit first = true)
    (hletters : ∀ l, isDigit (letters l) = true) (hinj : Function.Injective letters)
    (hne : ∀ l, letters l ≠ first) (h : template.length < 2 ^ 63) :
    ∃ word, Fresh template (spelled first letters hfirst hletters word) := by
  have hwords : Function.Injective fun word : Fin 63 → Fin 7 =>
      (spelled first letters hfirst hletters word).text.map some := by
    intro left right heq
    have htext := List.map_injective_iff.mpr (Option.some_injective Char) heq
    have hdigits := List.ofFn_injective htext
    exact funext fun i => hinj (congrFun hdigits i.succ)
  -- The log and the lines, as texts of the same kind.
  let own : Slot UInt8 → Option Char := fun
    | .own b => some (Char.ofNat b.toNat)
    | .secret => none
  let shown : Mark credentialLength Char → Option Char := fun
    | .own c => some c
    | .digit _ => none
  have hlines : (shownLines template).flatten.length ≤ maxLines * maxLineChars :=
    Nat.le_trans (length_flatten_le fun _ => length_shownLine_le)
      (Nat.mul_le_mul_right _ (length_lastLines_le _))
  have hroom : (template.map own ++ (shownLines template).flatten.map shown).length <
      Fintype.card (Fin 63 → Fin 7) := by
    rw [Fintype.card_fun, Fintype.card_fin, Fintype.card_fin, List.length_append, List.length_map,
      List.length_map]
    have hmax : maxLines * maxLineChars = 12000 := rfl
    have hpower : 2 ^ 63 + 12000 ≤ 7 ^ 63 := by decide
    omega
  obtain ⟨word, hword⟩ := exists_not_infix hwords (fun word => by
    rw [List.length_map, Credential.text, List.length_ofFn]) (by decide) hroom
  refine ⟨word, ?_, fun i => hne (word i), fun line hline hinside => hword ?_⟩
  · intro hinside
    refine hword (List.IsInfix.trans ?_ (List.prefix_append _ _).isInfix)
    have hmap := hinside.map own
    rw [List.map_map, Credential.bytes_text, List.map_ofFn] at hmap
    rw [Credential.text, List.map_ofFn]
    convert hmap using 2
    funext i
    exact congrArg some (ofNat_toNat_of_ascii (Credential.ascii _ i)).symm
  · refine List.IsInfix.trans ?_ (List.suffix_append _ _).isInfix
    have hmap := (hinside.trans (List.infix_of_mem_flatten hline)).map shown
    rw [List.map_map] at hmap
    exact hmap

/-! ## The summary and the credential -/

/-- The lower digits, and the higher ones. -/
def lowLetter (l : Fin 7) : Char := Char.ofNat (49 + l.val)
def highLetter (l : Fin 7) : Char := if l = 0 then '9' else Char.ofNat (96 + l.val)

/-- Two credentials that stand nowhere else and have no digit in common at any place. -/
theorem exists_apart (h : template.length < 2 ^ 63) : ∃ left right : Credential,
    Fresh template left ∧ Fresh template right ∧ ∀ i, left.digits i ≠ right.digits i := by
  obtain ⟨low, hlow⟩ := @exists_fresh template '0' lowLetter (by decide) (by decide) (by decide)
    (by decide) h
  obtain ⟨high, hhigh⟩ := @exists_fresh template '8' highLetter (by decide) (by decide) (by decide)
    (by decide) h
  have hapart : ∀ l m, lowLetter l ≠ highLetter m := by decide
  exact ⟨_, _, hlow, hhigh, Fin.cases (by decide : '0' ≠ '8') fun i => hapart (low i) (high i)⟩

/-- Where the lines are the same for these two, they are made of own characters and whole
    credentials. -/
theorem exists_parts_of_same {left right : Credential} (hleft : Fresh template left)
    (hright : Fresh template right) (hapart : ∀ i, left.digits i ≠ right.digits i)
    {line : List (Mark credentialLength Char)} (hline : line ∈ shownLines template)
    (hsame : replace left.text redacted (line.map (Mark.read left.digits)) =
      replace right.text redacted (line.map (Mark.read right.digits))) :
    ∃ parts, line = expand credentialLength parts := by
  rw [hleft.replace_eq hline, hright.replace_eq hline, List.map_inj_left] at hsame
  refine exists_parts_of_replace fun mark hmark => ?_
  cases mark with
  | own c => exact ⟨c, rfl⟩
  | digit i => exact absurd (hsame (.digit i) hmark) (hapart i)

/-- A credential that stands nowhere else begins in front of no place. -/
theorem Fresh.replace_line {credential : Credential} (h : Fresh template credential)
    {parts : List (Slot Char)} (hline : expand credentialLength parts ∈ shownLines template) :
    replace credential.text redacted
        ((expand credentialLength parts).map (Mark.read credential.digits)) =
      fillAll redacted parts := by
  -- A credential that begins only where its digits do is aligned.
  have haligned : ∀ parts : List (Slot Char), (∀ suffix, suffix <:+ expand credentialLength parts →
      credential.text <+: suffix.map (Mark.read credential.digits) →
        wholeSecret credentialLength Char <+: suffix) → Aligned credential.text parts := by
    intro parts
    induction parts with
    | nil => exact fun _ => trivial
    | cons part parts ih =>
      intro hall
      cases part with
      | own c =>
        refine ⟨fun hpre => ?_, ih fun suffix hsuffix =>
          hall suffix (hsuffix.trans (List.suffix_cons _ _))⟩
        have hmarks := hall (.own c :: expand credentialLength parts) (List.suffix_refl _) (by
          rw [List.map_cons, map_read_expand]
          exact hpre)
        rw [wholeSecret, List.ofFn_succ, List.cons_prefix_cons] at hmarks
        cases hmarks.1
      | secret => exact ih fun suffix hsuffix => hall suffix (hsuffix.trans (List.suffix_append _ _))
  -- What reads like the credential is the credential, or would be text of the log itself.
  refine SambaLog.replace_line (haligned parts fun suffix hsuffix hpre => ?_)
  refine prefix_of_map_read h.first (List.IsChain.suffix (unbroken_shownLines hline) hsuffix)
    (fun hown => ?_) hpre
  exact h.absent _ hline (hown.isInfix.trans hsuffix.isInfix)

theorem summaries_eq_of_redactsWhole (h : RedactsWhole template) {left right : Credential}
    (hleft : Admissible template left) (hright : Admissible template right) :
    summarizeSambaLog (logOf template left) (some left.text) =
      summarizeSambaLog (logOf template right) (some right.text) := by
  rw [summaries_eq_iff]
  intro line hline
  obtain ⟨parts, rfl, haligned⟩ := h line hline
  rw [replace_line (haligned left hleft), replace_line (haligned right hright)]

/-- Summaries that tell no two credentials apart redact every occurrence as a whole. -/
theorem redactsWhole_of_summaries_eq (hlength : template.length < 2 ^ 63)
    (h : ∀ left right, Admissible template left → Admissible template right →
      summarizeSambaLog (logOf template left) (some left.text) =
        summarizeSambaLog (logOf template right) (some right.text)) : RedactsWhole template := by
  obtain ⟨left, right, hleft, hright, hapart⟩ := exists_apart hlength
  intro line hline
  have hboth := summaries_eq_iff.mp (h left right hleft.admissible hright.admissible)
  obtain ⟨parts, rfl⟩ := exists_parts_of_same hleft hright hapart hline (hboth _ hline)
  refine ⟨parts, rfl, fun credential hcredential => ?_⟩
  -- With the first of the two, only whole credentials are replaced; so they are with any other.
  have hsame := summaries_eq_iff.mp (h credential left hcredential hleft.admissible) _ hline
  rw [hleft.replace_line hline, map_read_expand] at hsame
  have hother : '<' ∉ credential.text := credential.not_mem (by decide)
  exact aligned_of_replace credential.text_ne_nil hother hsame

end Condition

/-- A summary has at most twenty lines.  It is the same for every credential that the log's own texts
    do not contain if and only if the credential is replaced wherever it is shown.  A log is a slice,
    which has fewer than 2^63 bytes. -/
theorem summaries_hide_the_credential (log : Bytes) (credential : Option Str)
    (template : List (Slot UInt8)) (hlength : template.length < 2 ^ 63) :
    (∀ summary, credential ≠ some [] →
      summarizeSambaLog log credential = some summary → summary.count '\n' < maxLines) ∧
    ((∀ left right, Admissible template left → Admissible template right →
      summarizeSambaLog (logOf template left) (some left.text) =
        summarizeSambaLog (logOf template right) (some right.text)) ↔ RedactsWhole template) :=
  ⟨fun _ _ => count_summarizeSambaLog, redactsWhole_of_summaries_eq hlength,
    fun h _ _ => summaries_eq_of_redactsWhole h⟩

/-! ## Two logs -/

/-- A credential of one digit over and over. -/
def sameDigits (c : Char) (h : isDigit c = true) : Credential where
  digits _ := c
  valid _ := h

def zeros : Credential := sameDigits '0' rfl

def ones : Credential := sameDigits '1' rfl

/-- Two lines and the credential at three places. -/
def tokenLog : List (Slot UInt8) :=
  (bytes "login: ".toList).map .own ++ [.secret] ++
    (bytes "\r\n \nslot ".toList).map .own ++ [.secret] ++
      (bytes [',', 'é', ' ']).map .own ++ [.secret, .own 10]

/-- What of it is shown. -/
def tokenLines : List (List (Slot Char)) :=
  ["login: ".toList.map .own ++ [.secret],
    "slot ".toList.map .own ++ [.secret] ++ [',', 'é', ' '].map .own ++ [.secret]]

/-- An own character is no digit. -/
def hasNoDigit : Slot Char → Bool
  | .own c => !isDigit c
  | .secret => true

/-- A credential begins at no character that is no digit. -/
theorem aligned_of_hasNoDigit (credential : Credential) {parts : List (Slot Char)}
    (h : ∀ part ∈ parts, hasNoDigit part = true) : Aligned credential.text parts := by
  induction parts with
  | nil => trivial
  | cons part parts ih =>
    obtain ⟨hpart, hparts⟩ := List.forall_mem_cons.mp h
    cases part with
    | secret => exact ih hparts
    | own c =>
      refine ⟨fun hpre => ?_, ih hparts⟩
      obtain ⟨d, digits, htext⟩ := List.exists_cons_of_ne_nil credential.text_ne_nil
      have hfirst : d ∈ credential.text := htext ▸ List.mem_cons_self
      rw [htext] at hpre
      obtain rfl := (List.cons_prefix_cons.mp hpre).1
      rw [hasNoDigit, credential.isDigit_of_mem hfirst] at hpart
      cases hpart

theorem redactsWhole_tokenLog : RedactsWhole tokenLog := by
  have hshown : shownLines tokenLog = tokenLines.map (expand credentialLength) := by
    decide +kernel
  have hdigits : ∀ parts ∈ tokenLines, ∀ part ∈ parts, hasNoDigit part = true := by
    decide +kernel
  intro line hline
  rw [hshown] at hline
  obtain ⟨parts, hparts, rfl⟩ := List.mem_map.mp hline
  exact ⟨parts, rfl, fun credential _ => aligned_of_hasNoDigit credential (hdigits parts hparts)⟩

/-- The token of a log is hidden, whichever it is. -/
theorem token_is_hidden :
    summarizeSambaLog (logOf tokenLog zeros) (some zeros.text) =
      summarizeSambaLog (logOf tokenLog ones) (some ones.text) :=
  (summaries_hide_the_credential (logOf tokenLog zeros) (some zeros.text) tokenLog
    (by decide +kernel)).2.mpr redactsWhole_tokenLog zeros ones
    (by decide +kernel) (by decide +kernel)

/-- A hexadecimal character, of either case. -/
def isHexadecimal (b : UInt8) : Bool :=
  (48 ≤ b && b ≤ 57) || (65 ≤ b && b ≤ 70) || (97 ≤ b && b ≤ 102)

/-- At least one of two neighbours is not hexadecimal, when one is the credential. -/
def areApart : Slot UInt8 → Slot UInt8 → Bool
  | .own _, .own _ => true
  | .own b, .secret => !isHexadecimal b
  | .secret, .own b => !isHexadecimal b
  | .secret, .secret => false

/-- The places of the credential are next to characters that are not hexadecimal. -/
def Separated (template : List (Slot UInt8)) : Prop :=
  template.IsChain fun before after => areApart before after = true

instance (template : List (Slot UInt8)) : Decidable (Separated template) :=
  inferInstanceAs (Decidable (template.IsChain _))

/-- A long line that ends in the credential. -/
def longLine : List (Slot UInt8) := List.replicate 599 (.own 120) ++ [.secret]

/-- The line is cut behind the first digit of the credential, which is shown. -/
theorem cut_credential_is_shown :
    (Separated longLine ∧ Admissible longLine zeros ∧ Admissible longLine ones) ∧
    summarizeSambaLog (logOf longLine zeros) (some zeros.text) ≠
      summarizeSambaLog (logOf longLine ones) (some ones.text) := by
  refine ⟨⟨?_, ?_, ?_⟩, ?_⟩
  · decide +kernel
  · decide +kernel
  · decide +kernel
  · decide +kernel

end SambaLog

end Lsw.Cli
