import Lsw.Lib.Exec

/-!
# Text

Strings as lists of Unicode scalar values, with the operations line-based formats are read
and written with: splitting into lines and at a separator, decimal numbers of a bounded
type, and the UTF-8 and UTF-16 sizes that limits are stated in.

`lines` of a sequence of terminated lines gives the lines back, `splitOnce` undoes a
key-separator-value line, and a number is read back from its decimal digits.
-/

namespace Lsw.Lib

/-- A string: its characters, each a Unicode scalar value. -/
abbrev Str := List Char

instance : LawfulBEq Str := inferInstanceAs (LawfulBEq (List Char))

/-- What is so of all elements of a list is found out one after the other. -/
theorem forall_mem_of_all {α : Type} {p : α → Prop} [DecidablePred p] {l : List α}
    (h : (l.all fun a => decide (p a)) = true) : ∀ a ∈ l, p a := fun a ha =>
  of_decide_eq_true (List.all_eq_true.mp h a ha)

/-! ## Bytes and code units -/

/-- The UTF-8 bytes of a string. -/
def bytes (s : Str) : List UInt8 := s.flatMap String.utf8EncodeChar

/-- `String::from_utf8`. -/
def fromUtf8 (contents : List UInt8) : Option Str :=
  (ByteArray.utf8Decode? contents.toByteArray).map Array.toList

/-- The number of UTF-16 code units of a string. -/
def utf16Units (s : Str) : Nat := (s.map fun c => if c.toNat < 0x10000 then 1 else 2).sum

theorem mem_bytes_of_mem {s : Str} {c : Char} {b : UInt8} (hc : c ∈ s)
    (hb : String.utf8EncodeChar c = [b]) : b ∈ bytes s :=
  List.mem_flatMap.mpr ⟨c, hc, by simp [hb]⟩

@[simp] theorem bytes_nil : bytes [] = [] := rfl

theorem fromUtf8_bytes (s : Str) : fromUtf8 (bytes s) = some s := by
  have hencode : (bytes s).toByteArray = s.utf8Encode := rfl
  rw [fromUtf8, hencode, List.utf8Decode?_utf8Encode]
  simp

@[simp] theorem bytes_append (s t : Str) : bytes (s ++ t) = bytes s ++ bytes t :=
  List.flatMap_append

theorem bytes_cons (c : Char) (s : Str) : bytes (c :: s) = String.utf8EncodeChar c ++ bytes s := rfl

/-- An ASCII byte is no part of another character. -/
theorem utf8EncodeChar_of_ascii {c : Char} {b : UInt8} (hb : b ∈ String.utf8EncodeChar c)
    (hascii : b.toNat < 128) : String.utf8EncodeChar c = [b] ∧ c.toNat = b.toNat := by
  unfold String.utf8EncodeChar at hb ⊢
  by_cases h : c.val.toNat ≤ 0x7f
  · simp only [if_pos h, List.mem_singleton] at hb ⊢
    subst hb
    refine ⟨rfl, ?_⟩
    rw [UInt8.toNat_ofNat', Nat.mod_eq_of_lt (by omega)]
    rfl
  · -- Every byte of a longer encoding has its top bit set.
    simp only [if_neg h] at hb
    have hlarge : ∀ n m k : Nat, n % m + k < 256 → 128 ≤ k →
        128 ≤ (UInt8.ofNat (n % m + k)).toNat := by
      intro n m k hlt hk
      rw [UInt8.toNat_ofNat', Nat.mod_eq_of_lt hlt]
      omega
    have hbad : 128 ≤ b.toNat := by
      split at hb
      · simp only [List.mem_cons, List.not_mem_nil, or_false] at hb
        rcases hb with rfl | rfl <;> exact hlarge _ _ _ (by omega) (by omega)
      · split at hb
        · simp only [List.mem_cons, List.not_mem_nil, or_false] at hb
          rcases hb with rfl | rfl | rfl <;> exact hlarge _ _ _ (by omega) (by omega)
        · simp only [List.mem_cons, List.not_mem_nil, or_false] at hb
          rcases hb with rfl | rfl | rfl | rfl <;> exact hlarge _ _ _ (by omega) (by omega)
    omega

/-- A text that starts with an ASCII byte starts with that character. -/
theorem eq_cons_of_ascii {s : Str} {b : UInt8} (hb : (bytes s)[0]? = some b)
    (hascii : b.toNat < 128) :
    ∃ rest, s = Char.ofNat b.toNat :: rest ∧ bytes s = b :: bytes rest := by
  cases s with
  | nil => simp at hb
  | cons c rest =>
    obtain ⟨first, others, hencode⟩ := List.exists_cons_of_ne_nil (@String.utf8EncodeChar_ne_nil c)
    rw [bytes_cons, hencode] at hb
    obtain rfl : first = b := by simpa using hb
    obtain ⟨hsingle, hchar⟩ := utf8EncodeChar_of_ascii (hencode ▸ List.mem_cons_self) hascii
    refine ⟨rest, ?_, by rw [bytes_cons, hsingle, List.singleton_append]⟩
    rw [← hchar, Char.ofNat_toNat]

theorem bytes_eq_nil {s : Str} (h : bytes s = []) : s = [] := by
  cases s with
  | nil => rfl
  | cons c s => simp [bytes_cons, String.utf8EncodeChar_ne_nil] at h

theorem bytes_cons_of_ascii {c : Char} (h : c.toNat < 128) (s : Str) :
    bytes (c :: s) = UInt8.ofNat c.toNat :: bytes s := by
  have hle : c.val.toNat ≤ 0x7f := Nat.le_of_lt_succ h
  rw [bytes_cons, String.utf8EncodeChar, if_pos hle]
  rfl

theorem ofNat_toNat_of_ascii {c : Char} (h : c.toNat < 128) :
    Char.ofNat (UInt8.ofNat c.toNat).toNat = c := by
  rw [UInt8.toNat_ofNat', Nat.mod_eq_of_lt (by omega), Char.ofNat_toNat]

/-! ## Character classes -/

/-- `char::is_whitespace`: the Unicode property `White_Space`. -/
def isWhitespace (c : Char) : Bool :=
  let n := c.toNat
  (0x09 ≤ n && n ≤ 0x0d) || n == 0x20 || n == 0x85 || n == 0xa0 || n == 0x1680 ||
    (0x2000 ≤ n && n ≤ 0x200a) || n == 0x2028 || n == 0x2029 || n == 0x202f || n == 0x205f ||
    n == 0x3000

/-- `char::is_control`: the Unicode general category `Cc`. -/
def isControl (c : Char) : Bool :=
  let n := c.toNat
  n ≤ 0x1f || (0x7f ≤ n && n ≤ 0x9f)

/-- The tables of the Unicode database that case mapping and debug output consult for characters
    beyond ASCII. -/
structure UnicodeTables where
  /-- `char::to_uppercase`, which may give several characters. -/
  uppercase : Char → List Char
  /-- Whether debug output shows the character itself. -/
  printable : Char → Bool

/-- `str::to_uppercase`: character by character, ASCII by its own rule. -/
def toUppercase (unicode : UnicodeTables) (s : Str) : Str :=
  s.flatMap fun c => if c.toNat < 128 then [c.toUpper] else unicode.uppercase c

/-- `char::escape_debug` inside a string. -/
def escapeDebug (unicode : UnicodeTables) (c : Char) : Str :=
  if c = Char.ofNat 0 then ['\\', '0']
  else if c = '\t' then ['\\', 't']
  else if c = '\r' then ['\\', 'r']
  else if c = '\n' then ['\\', 'n']
  else if c = '"' ∨ c = '\\' then ['\\', c]
  else if (0x20 ≤ c.toNat ∧ c.toNat ≤ 0x7e) ∨ (128 ≤ c.toNat ∧ unicode.printable c) then [c]
  else "\\u\x7b".toList ++ Nat.toDigits 16 c.toNat ++ "\x7d".toList

/-- `{s:?}`. -/
def debugText (unicode : UnicodeTables) (s : String) : String :=
  String.ofList ('"' :: s.toList.flatMap (escapeDebug unicode) ++ ['"'])

/-- `str::trim`. -/
def trim (s : Str) : Str :=
  ((s.dropWhile isWhitespace).reverse.dropWhile isWhitespace).reverse

/-- `u8::is_ascii_alphabetic`. -/
def isAsciiAlphabetic (b : UInt8) : Bool := (65 ≤ b && b ≤ 90) || (97 ≤ b && b ≤ 122)

theorem toNat_lt_of_alphabetic {b : UInt8} (h : isAsciiAlphabetic b = true) : b.toNat < 128 := by
  simp only [isAsciiAlphabetic, Bool.or_eq_true, Bool.and_eq_true, decide_eq_true_eq,
    UInt8.le_iff_toNat_le] at h
  have h90 : (90 : UInt8).toNat = 90 := rfl
  have h122 : (122 : UInt8).toNat = 122 := rfl
  omega

/-- `u8::is_ascii_graphic`. -/
def isAsciiGraphic (b : UInt8) : Bool := 33 ≤ b && b ≤ 126

/-- The characters of white space, by number. -/
def whitespaceNumbers : List Nat :=
  [0x09, 0x0a, 0x0b, 0x0c, 0x0d, 0x20, 0x85, 0xa0, 0x1680, 0x2000, 0x2001, 0x2002, 0x2003, 0x2004,
    0x2005, 0x2006, 0x2007, 0x2008, 0x2009, 0x200a, 0x2028, 0x2029, 0x202f, 0x205f, 0x3000]

theorem toNat_mem_whitespaceNumbers {c : Char} (h : isWhitespace c = true) :
    c.toNat ∈ whitespaceNumbers := by
  simp only [isWhitespace, Bool.or_eq_true, Bool.and_eq_true, decide_eq_true_eq, beq_iff_eq] at h
  simp only [whitespaceNumbers, List.mem_cons, List.not_mem_nil, or_false]
  omega

/-- A character of white space is not written in graphic bytes alone. -/
theorem exists_not_isAsciiGraphic {c : Char} (h : isWhitespace c = true) :
    ∃ b ∈ String.utf8EncodeChar c, isAsciiGraphic b = false := by
  have hall : ∀ n ∈ whitespaceNumbers,
      ∃ b ∈ String.utf8EncodeChar (Char.ofNat n), isAsciiGraphic b = false := by decide
  have hchar := hall c.toNat (toNat_mem_whitespaceNumbers h)
  rwa [Char.ofNat_toNat] at hchar

theorem not_isWhitespace_of_graphic {s : Str} (h : (bytes s).all isAsciiGraphic = true) {c : Char}
    (hc : c ∈ s) : ¬ isWhitespace c = true := by
  intro hwhite
  obtain ⟨b, hb, hbad⟩ := exists_not_isAsciiGraphic hwhite
  have hgraphic := List.all_eq_true.mp h b (List.mem_flatMap.mpr ⟨c, hc, hb⟩)
  rw [hbad] at hgraphic
  cases hgraphic

theorem dropWhile_isWhitespace {s : Str} (h : ∀ c ∈ s, ¬ isWhitespace c = true) :
    s.dropWhile isWhitespace = s := by
  cases s with
  | nil => rfl
  | cons c s => exact List.dropWhile_cons_of_neg (h c List.mem_cons_self)

/-- A line of graphic bytes is what trimming leaves of it. -/
theorem trim_append_newline {s : Str} (h : (bytes s).all isAsciiGraphic = true) :
    trim (s ++ ['\n']) = s := by
  have hplain : ∀ c ∈ s, ¬ isWhitespace c = true := fun c hc => not_isWhitespace_of_graphic h hc
  have hnewline : isWhitespace '\n' = true := by decide
  cases s with
  | nil => decide
  | cons c rest =>
    rw [trim, List.cons_append, List.dropWhile_cons_of_neg (hplain c List.mem_cons_self),
      ← List.cons_append, List.reverse_append, List.reverse_singleton, List.singleton_append,
      List.dropWhile_cons_of_pos hnewline,
      dropWhile_isWhitespace fun d hd => hplain d (List.mem_reverse.mp hd), List.reverse_reverse]

/-- Trimming changes nothing where there is nothing to trim at either end. -/
theorem trim_eq_self_iff {s : Str} : trim s = s ↔
    s.dropWhile isWhitespace = s ∧ s.reverse.dropWhile isWhitespace = s.reverse := by
  constructor
  · intro h
    -- Neither end can have lost anything, since the whole has not.
    have hlength := congrArg List.length h
    rw [trim, List.length_reverse] at hlength
    have hfront : s.dropWhile isWhitespace <:+ s := List.dropWhile_suffix isWhitespace
    have hback : (s.dropWhile isWhitespace).reverse.dropWhile isWhitespace <:+
        (s.dropWhile isWhitespace).reverse := List.dropWhile_suffix isWhitespace
    have hle := hback.length_le
    rw [List.length_reverse] at hle
    have hsame : s.dropWhile isWhitespace = s :=
      hfront.eq_of_length (Nat.le_antisymm hfront.length_le (by omega))
    refine ⟨hsame, ?_⟩
    rw [trim, hsame] at h
    exact List.reverse_eq_iff.mp h
  · rintro ⟨hfront, hback⟩
    rw [trim, hfront, hback, List.reverse_reverse]

/-- `line.trim().is_empty()`. -/
def isBlank (s : Str) : Bool := s.all isWhitespace

theorem isBlank_eq_false {s : Str} {c : Char} (hc : c ∈ s) (h : isWhitespace c = false) :
    isBlank s = false := by
  rw [isBlank, List.all_eq_false]
  exact ⟨c, hc, by simp [h]⟩

/-! ## Lines -/

/-- Remove a carriage return at the end of a line. -/
def stripCarriageReturn (line : Str) : Str :=
  if line.getLast? = some '\r' then line.dropLast else line

/-- `str::lines`: lines end in `\n` or `\r\n`; the last line need not be terminated, and a
    final terminator starts no further line. -/
def lines (s : Str) : List Str :=
  let pieces := s.splitOn '\n'
  pieces.dropLast.map stripCarriageReturn ++
    (if pieces.getLast? = some [] then [] else pieces.getLast?.toList)

theorem stripCarriageReturn_of_not_mem {line : Str} (h : '\r' ∉ line) :
    stripCarriageReturn line = line := by
  rw [stripCarriageReturn, if_neg]
  intro hlast
  exact h (List.mem_of_getLast? hlast)

/-- Splitting terminated pieces gives the pieces, and nothing after the last terminator. -/
theorem splitOn_flatMap_terminated {α : Type} [BEq α] [LawfulBEq α] {sep : α}
    {pieces : List (List α)} (h : ∀ piece ∈ pieces, sep ∉ piece) :
    (pieces.flatMap (· ++ [sep])).splitOn sep = pieces ++ [[]] := by
  induction pieces with
  | nil => simp
  | cons piece pieces ih =>
    rw [List.flatMap_cons, List.append_assoc, List.singleton_append,
      List.splitOn_append_cons_self_of_not_mem (h piece List.mem_cons_self),
      ih fun other hother => h other (List.mem_cons_of_mem piece hother), List.cons_append]

/-- `lines` recovers terminated lines that do not end in a carriage return. -/
theorem lines_flatMap_of_last {ls : List Str}
    (h : ∀ l ∈ ls, '\n' ∉ l ∧ stripCarriageReturn l = l) :
    lines (ls.flatMap (· ++ ['\n'])) = ls := by
  have hsplit : (ls.flatMap (· ++ ['\n'])).splitOn '\n' = ls ++ [[]] :=
    splitOn_flatMap_terminated fun l hl => (h l hl).1
  have hstrip : ls.map stripCarriageReturn = ls := by
    conv_rhs => rw [← List.map_id ls]
    exact List.map_congr_left fun l hl => (h l hl).2
  simp [lines, hsplit, hstrip]

/-- `lines` recovers terminated lines. -/
theorem lines_flatMap {ls : List Str} (h : ∀ l ∈ ls, '\n' ∉ l ∧ '\r' ∉ l) :
    lines (ls.flatMap (· ++ ['\n'])) = ls :=
  lines_flatMap_of_last fun l hl => ⟨(h l hl).1, stripCarriageReturn_of_not_mem (h l hl).2⟩

/-! ## Splitting once -/

/-- `str::split_once`. -/
def splitOnce (sep : Char) : Str → Option (Str × Str)
  | [] => none
  | c :: s =>
    if c = sep then some ([], s)
    else (splitOnce sep s).map fun (before, after) => (c :: before, after)

theorem splitOnce_append {sep : Char} {before : Str} (h : sep ∉ before) (after : Str) :
    splitOnce sep (before ++ sep :: after) = some (before, after) := by
  induction before with
  | nil => simp [splitOnce]
  | cons c before ih =>
    simp only [List.mem_cons, not_or] at h
    rw [List.cons_append, splitOnce, if_neg (Ne.symm h.1), ih h.2]
    rfl

theorem eq_append_of_splitOnce {sep : Char} {s before after : Str}
    (h : splitOnce sep s = some (before, after)) : s = before ++ sep :: after := by
  induction s generalizing before with
  | nil => simp [splitOnce] at h
  | cons c s ih =>
    rw [splitOnce] at h
    split at h
    · rename_i hc
      simp only [Option.some.injEq, Prod.mk.injEq] at h
      simp [hc, ← h.1, ← h.2]
    · obtain ⟨⟨before', after'⟩, hrest, heq⟩ := Option.map_eq_some_iff.mp h
      simp only [Prod.mk.injEq] at heq
      rw [ih (heq.2 ▸ hrest), ← heq.1, List.cons_append]

/-- Every character that is no separator is in one of the pieces. -/
theorem exists_mem_splitOnP {p : Char → Bool} {s : Str} {c : Char} (hc : c ∈ s)
    (hp : p c = false) : ∃ piece ∈ s.splitOnP p, c ∈ piece := by
  induction s with
  | nil => simp at hc
  | cons d s ih =>
    rw [List.splitOnP_cons_eq_if_modifyHead]
    obtain ⟨first, rest, hpieces⟩ := List.exists_cons_of_ne_nil (List.splitOnP_ne_nil p s)
    rcases List.mem_cons.mp hc with rfl | hmem
    · simp [hp, hpieces]
    · obtain ⟨piece, hpiece, hin⟩ := ih hmem
      split
      · exact ⟨piece, List.mem_cons_of_mem _ hpiece, hin⟩
      · rw [hpieces] at hpiece ⊢
        rcases List.mem_cons.mp hpiece with rfl | hrest
        · exact ⟨d :: piece, by simp, List.mem_cons_of_mem d hin⟩
        · exact ⟨piece, by simp [hrest], hin⟩

/-- Splitting a mapped string: the pieces are mapped. -/
theorem splitOnP_map {α β : Type} {f : α → β} {p : β → Bool} (s : List α) :
    (s.map f).splitOnP p = (s.splitOnP (p ∘ f)).map (List.map f) := by
  induction s with
  | nil => simp
  | cons c s ih =>
    obtain ⟨first, rest, hpieces⟩ :=
      List.exists_cons_of_ne_nil (List.splitOnP_ne_nil (p ∘ f) s)
    rw [List.map_cons, List.splitOnP_cons_eq_if_modifyHead, List.splitOnP_cons_eq_if_modifyHead,
      ih, hpieces]
    by_cases hc : p (f c)
    · simp [hc]
    · simp [hc]

/-- No piece holds a separator. -/
theorem of_mem_splitOnP {α : Type} {p : α → Bool} {s piece : List α} (h : piece ∈ s.splitOnP p)
    {c : α} (hc : c ∈ piece) : p c = false := by
  induction s generalizing piece with
  | nil => simp_all
  | cons d s ih =>
    rw [List.splitOnP_cons_eq_if_modifyHead] at h
    obtain ⟨first, rest, hpieces⟩ := List.exists_cons_of_ne_nil (List.splitOnP_ne_nil p s)
    split at h
    · rcases List.mem_cons.mp h with rfl | hmem
      · simp at hc
      · exact ih hmem hc
    · rename_i hd
      rw [hpieces, List.modifyHead_cons] at h
      rcases List.mem_cons.mp h with rfl | hmem
      · rcases List.mem_cons.mp hc with rfl | hin
        · simpa using hd
        · exact ih (by simp [hpieces]) hin
      · exact ih (by simp [hpieces, hmem]) hc

theorem intercalate_append_of_ne_nil {α : Type} {sep : α} {xs ys : List (List α)} (hx : xs ≠ [])
    (hy : ys ≠ []) : [sep].intercalate (xs ++ ys) =
      [sep].intercalate xs ++ sep :: [sep].intercalate ys := by
  induction xs with
  | nil => exact absurd rfl hx
  | cons x xs ih =>
    cases xs with
    | nil => simp [List.intercalate_cons_of_ne_nil hy]
    | cons x' xs =>
      have hrest := ih (by simp)
      rw [List.cons_append] at hrest ⊢
      rw [List.cons_append, List.intercalate_cons_cons, hrest, List.intercalate_cons_cons]
      simp

/-- The pieces of one string start with those of another exactly when the string is the
    other one, or the other one followed by a separator. -/
theorem splitOn_prefix_iff {sep : Char} {s t : Str} :
    t.splitOn sep <+: s.splitOn sep ↔ s = t ∨ ∃ rest, s = t ++ sep :: rest := by
  constructor
  · rintro ⟨rest, hrest⟩
    have hs : s = [sep].intercalate (t.splitOn sep ++ rest) := by
      rw [hrest, List.intercalate_splitOn]
    by_cases hnil : rest = []
    · left
      rw [hs, hnil, List.append_nil, List.intercalate_splitOn]
    · right
      refine ⟨[sep].intercalate rest, ?_⟩
      rw [hs, intercalate_append_of_ne_nil (List.splitOn_ne_nil sep t) hnil,
        List.intercalate_splitOn]
  · rintro (rfl | ⟨rest, rfl⟩)
    · exact List.prefix_refl _
    · rw [List.splitOn_append_cons_self]
      exact List.prefix_append _ _

/-- `s.get(start..)`: nothing where the offset is past the end or inside a character. -/
def getFrom : Nat → Str → Option Str
  | 0, s => some s
  | _ + 1, [] => none
  | start + 1, c :: s =>
    if c.utf8Size ≤ start + 1 then getFrom (start + 1 - c.utf8Size) s else none

/-- An offset past an ASCII character. -/
theorem getFrom_cons {c : Char} (h : c.toNat < 128) (start : Nat) (s : Str) :
    getFrom (start + 1) (c :: s) = getFrom start s := by
  have hsize : c.utf8Size = 1 := by
    rw [Char.utf8Size_eq_one_iff, UInt32.le_iff_toNat_le]
    exact Nat.le_of_lt_succ h
  rw [getFrom, hsize, if_pos (by omega), Nat.add_sub_cancel]

/-- `str::strip_prefix`. -/
def stripPrefix : Str → Str → Option Str
  | [], s => some s
  | _ :: _, [] => none
  | c :: start, d :: s => if c = d then stripPrefix start s else none

theorem eq_append_of_stripPrefix {start s rest : Str} (h : stripPrefix start s = some rest) :
    s = start ++ rest := by
  induction start generalizing s with
  | nil => simpa [stripPrefix] using h
  | cons c start ih =>
    cases s with
    | nil => simp [stripPrefix] at h
    | cons d s =>
      rw [stripPrefix] at h
      split at h
      · rename_i heq
        rw [ih h, heq, List.cons_append]
      · cases h

theorem stripPrefix_append (start rest : Str) : stripPrefix start (start ++ rest) = some rest := by
  induction start with
  | nil => simp [stripPrefix]
  | cons c start ih => simpa [stripPrefix] using ih

/-- Of a line `key=value`, what follows `name=` is the value when the names are the same. -/
theorem stripPrefix_terminated {sep : Char} {name key : Str} (hname : sep ∉ name) (hkey : sep ∉ key)
    (value : Str) :
    stripPrefix (name ++ [sep]) (key ++ sep :: value) = if key = name then some value else none := by
  induction name generalizing key with
  | nil =>
    cases key with
    | nil => simp [stripPrefix]
    | cons d key =>
      have hne : sep ≠ d := fun h => hkey (h ▸ List.mem_cons_self)
      simp [stripPrefix, hne]
  | cons c name ih =>
    simp only [List.mem_cons, not_or] at hname
    cases key with
    | nil => simp [stripPrefix, Ne.symm hname.1]
    | cons d key =>
      simp only [List.mem_cons, not_or] at hkey
      by_cases heq : c = d
      · simp [stripPrefix, heq, ih hname.2 hkey.2]
      · simp [stripPrefix, heq, Ne.symm heq]

/-! ## Decimal numbers -/

/-- `str::strip_suffix`. -/
def stripSuffix (suffix s : Str) : Option Str :=
  if suffix.isSuffixOf s then some (s.take (s.length - suffix.length)) else none

/-- The decimal digits of a number. -/
def decimal (n : Nat) : Str := Nat.toDigits 10 n

/-- `ParseIntError`, for unsigned types. -/
inductive ParseIntError where
  | empty
  | invalidDigit
  | posOverflow
  deriving DecidableEq, Repr

/-- The text of a `ParseIntError`. -/
def ParseIntError.text : ParseIntError → String
  | .empty => "cannot parse integer from empty string"
  | .invalidDigit => "invalid digit found in string"
  | .posOverflow => "number too large to fit in target type"

/-- The digit loop of `from_str_radix` for a type of `size` values. -/
def parseDigits (size : Nat) (acc : Nat) : Str → Except ParseIntError Nat
  | [] => .ok acc
  | c :: s =>
    if c.isDigit then
      let value := acc * 10 + (c.toNat - '0'.toNat)
      if value < size then parseDigits size value s else .error .posOverflow
    else .error .invalidDigit

/-- `from_str` of an unsigned integer type of `size` values: digits, after at most one plus
    sign. -/
def parseUnsigned (size : Nat) : Str → Except ParseIntError Nat
  | [] => .error .empty
  | '+' :: s => if s = [] then .error .invalidDigit else parseDigits size 0 s
  | s => parseDigits size 0 s

theorem isDigit_of_mem_decimal {n : Nat} {c : Char} (h : c ∈ decimal n) : c.isDigit :=
  Nat.isDigit_of_mem_toDigits (by decide) (by decide) h

theorem not_mem_decimal {n : Nat} {c : Char} (h : c.isDigit = false) : c ∉ decimal n := fun hc => by
  simp [isDigit_of_mem_decimal hc] at h

theorem decimal_ne_nil (n : Nat) : decimal n ≠ [] := Nat.toDigits_ne_nil

theorem decimal_injective {m n : Nat} (h : decimal m = decimal n) : m = n := by
  have := congrArg (fun digits => Nat.ofDigitChars 10 digits 0) h
  simpa [decimal, Nat.ofDigitChars_ten_toDigits] using this

/-- Reading digits only makes the number larger, so the last value bounds all. -/
theorem le_ofDigitChars (digits : Str) (acc : Nat) : acc ≤ Nat.ofDigitChars 10 digits acc := by
  induction digits generalizing acc with
  | nil => simp
  | cons c digits ih =>
    rw [Nat.ofDigitChars_cons]
    have := ih (10 * acc + (c.toNat - '0'.toNat))
    omega

theorem parseDigits_eq_ok {size : Nat} {digits : Str} (hdigits : ∀ c ∈ digits, c.isDigit)
    {acc : Nat} (hsize : Nat.ofDigitChars 10 digits acc < size) :
    parseDigits size acc digits = .ok (Nat.ofDigitChars 10 digits acc) := by
  induction digits generalizing acc with
  | nil => simp [parseDigits]
  | cons c digits ih =>
    rw [Nat.ofDigitChars_cons] at hsize ⊢
    have hle := le_ofDigitChars digits (10 * acc + (c.toNat - '0'.toNat))
    rw [parseDigits, if_pos (hdigits c List.mem_cons_self)]
    simp only [Nat.mul_comm acc 10]
    rw [if_pos (by omega)]
    exact ih (fun c' hc' => hdigits c' (List.mem_cons_of_mem c hc')) hsize

theorem parseDigits_value {size acc n : Nat} {digits : Str}
    (h : parseDigits size acc digits = .ok n) : n = Nat.ofDigitChars 10 digits acc := by
  induction digits generalizing acc with
  | nil => simpa [parseDigits, eq_comm] using h
  | cons c digits ih =>
    rw [parseDigits] at h
    split at h
    · dsimp only at h
      split at h
      · rw [ih h, Nat.ofDigitChars_cons, Nat.mul_comm acc 10]
      · simp at h
    · simp at h

/-- Decimal digits have no sign. -/
theorem parseUnsigned_eq_parseDigits (size n : Nat) :
    parseUnsigned size (decimal n) = parseDigits size 0 (decimal n) := by
  have hplus : '+' ∉ decimal n := not_mem_decimal (by decide)
  cases hdigits : decimal n with
  | nil => exact absurd hdigits (decimal_ne_nil n)
  | cons c digits =>
    have hc : c ≠ '+' := fun heq => hplus (by simp [hdigits, heq])
    unfold parseUnsigned
    split
    · simp_all
    · simp_all
    · rfl

/-- Whatever type they are read at, decimal digits give no other number. -/
theorem parseUnsigned_decimal_value {size n value : Nat}
    (h : parseUnsigned size (decimal n) = .ok value) : value = n := by
  rw [parseUnsigned_eq_parseDigits] at h
  rw [parseDigits_value h]
  exact Nat.ofDigitChars_ten_toDigits

/-- A number of the type is read back from its decimal digits. -/
theorem parseUnsigned_decimal {size n : Nat} (h : n < size) :
    parseUnsigned size (decimal n) = .ok n := by
  have hvalue : Nat.ofDigitChars 10 (decimal n) 0 = n := Nat.ofDigitChars_ten_toDigits
  rw [parseUnsigned_eq_parseDigits,
    parseDigits_eq_ok (fun c hc => isDigit_of_mem_decimal hc) (by omega), hvalue]

/-- `bool::from_str`. -/
def parseBool (s : Str) : Option Bool :=
  if s = "true".toList then some true
  else if s = "false".toList then some false
  else none

/-- `bool`'s `Display`. -/
def boolText (b : Bool) : Str := if b then "true".toList else "false".toList

theorem parseBool_boolText (b : Bool) : parseBool (boolText b) = some b := by
  cases b <;> decide

end Lsw.Lib
