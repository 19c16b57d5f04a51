import Mathlib.Data.Fintype.BigOperators
import Mathlib.Data.List.Chain
import Lsw.Lib.Lossy
import Lsw.Lib.Search

/-!
# Texts with a Secret

A text in which a secret stands at some places, given by its parts (`Slot`).  Element by element
(`Mark`), what stands there is the text's own or a digit of the secret, and everything that looks at
own elements only, such as cutting, splitting, filtering and decoding, does the same for every secret.

Replacing the secret by another text looks at the secret.  Where it begins at no own element
(`Aligned`), exactly its places are replaced; `aligned_of_replace` is the converse.  `exists_not_infix`
counts: a text has room for few of many possible secrets.
-/

namespace Lsw.Lib

/-- A part of a text with a secret. -/
inductive Slot (α : Type) where
  | own (a : α)
  | secret
  deriving DecidableEq

/-- An element of such a text, for secrets of a length. -/
inductive Mark (n : Nat) (α : Type) where
  | own (a : α)
  | digit (i : Fin n)
  deriving DecidableEq

namespace Mark

variable {n : Nat} {α : Type}

/-- What stands there, for one secret. -/
def read (secret : Fin n → α) : Mark n α → α
  | own a => a
  | digit i => secret i

/-- The element is the text's own, and has the property. -/
def isOwn (p : α → Bool) : Mark n α → Bool
  | own a => p a
  | digit _ => false

/-- The element is of the secret, or has the property. -/
def keeps (p : α → Bool) : Mark n α → Bool
  | own a => p a
  | digit _ => true

end Mark

variable {n : Nat} {α : Type}

/-- The secret, digit by digit. -/
def wholeSecret (n : Nat) (α : Type) : List (Mark n α) := List.ofFn Mark.digit

/-- A text, element by element. -/
def expand (n : Nat) : List (Slot α) → List (Mark n α)
  | [] => []
  | .own a :: parts => .own a :: expand n parts
  | .secret :: parts => wholeSecret n α ++ expand n parts

/-- The text with the secret filled in. -/
def fillAll (secret : List α) : List (Slot α) → List α
  | [] => []
  | .own a :: parts => a :: fillAll secret parts
  | .secret :: parts => secret ++ fillAll secret parts

/-- The secret begins at no own element. -/
def Aligned (secret : List α) : List (Slot α) → Prop
  | [] => True
  | .own a :: parts => ¬ secret <+: a :: fillAll secret parts ∧ Aligned secret parts
  | .secret :: parts => Aligned secret parts

theorem map_read_wholeSecret (secret : Fin n → α) :
    (wholeSecret n α).map (Mark.read secret) = List.ofFn secret := by
  rw [wholeSecret, List.map_ofFn]
  rfl

theorem map_read_own (secret : Fin n → α) (run : List α) :
    (run.map Mark.own).map (Mark.read secret) = run := by
  rw [List.map_map]
  exact List.map_id run

/-- A text with the secret filled in is read off its elements. -/
theorem map_read_expand (secret : Fin n → α) (parts : List (Slot α)) :
    (expand n parts).map (Mark.read secret) = fillAll (List.ofFn secret) parts := by
  induction parts with
  | nil => rfl
  | cons part parts ih =>
    cases part with
    | own a => rw [expand, List.map_cons, ih, Mark.read, fillAll]
    | secret => rw [expand, List.map_append, map_read_wholeSecret, ih, fillAll]

/-! ## Splitting and decoding -/

/-- What a split leaves is in one piece. -/
theorem infix_of_mem_splitOnP {p : α → Bool} {text piece : List α} (h : piece ∈ text.splitOnP p) :
    piece <:+: text := by
  -- The first piece is a beginning, so that an element that is put in front of it leaves it in one.
  have hall : ∀ text : List α, ∃ first rest, text.splitOnP p = first :: rest ∧ first <+: text ∧
      ∀ piece ∈ rest, piece <:+: text := by
    intro text
    induction text with
    | nil => exact ⟨[], [], List.splitOnP_nil, List.prefix_refl _, by simp⟩
    | cons a text ih =>
      obtain ⟨first, rest, hpieces, hfirst, hrest⟩ := ih
      have hlater : ∀ piece, piece <:+: text → piece <:+: a :: text := fun piece hpiece =>
        hpiece.trans (List.suffix_cons a text).isInfix
      rw [List.splitOnP_cons_eq_if_modifyHead, hpieces]
      by_cases ha : p a = true
      · rw [if_pos ha]
        refine ⟨[], first :: rest, rfl, List.nil_prefix, fun piece hmem => hlater piece ?_⟩
        rcases List.mem_cons.mp hmem with rfl | hmem
        · exact hfirst.isInfix
        · exact hrest piece hmem
      · rw [if_neg ha]
        exact ⟨a :: first, rest, rfl, List.cons_prefix_cons.mpr ⟨rfl, hfirst⟩, fun piece hmem =>
          hlater piece (hrest piece hmem)⟩
  obtain ⟨first, rest, hpieces, hfirst, hrest⟩ := hall text
  rw [hpieces] at h
  rcases List.mem_cons.mp h with rfl | hmem
  · exact hfirst.isInfix
  · exact hrest piece hmem

/-- A carriage return at the end of a line is removed. -/
def stripReturn (line : List (Mark n Char)) : List (Mark n Char) :=
  if line.getLast? = some (.own '\r') then line.dropLast else line

/-- The lines of a text with a secret. -/
def markLines (text : List (Mark n Char)) : List (List (Mark n Char)) :=
  let pieces := text.splitOnP (Mark.isOwn (· == '\n'))
  pieces.dropLast.map stripReturn ++
    (if pieces.getLast? = some [] then [] else pieces.getLast?.toList)

/-- The bytes of a text's own are read together as far as no digit comes between them. -/
def decodeMarks : Bytes → List (Mark n UInt8) → List (Mark n Char)
  | pending, [] => (lossy pending).map .own
  | pending, .own b :: text => decodeMarks (pending ++ [b]) text
  | pending, .digit i :: text => (lossy pending).map .own ++ .digit i :: decodeMarks [] text

section Text

variable {secret : Fin n → Char}

theorem stripCarriageReturn_map_read (hreturn : ∀ i, secret i ≠ '\r') (line : List (Mark n Char)) :
    stripCarriageReturn (line.map (Mark.read secret)) =
      (stripReturn line).map (Mark.read secret) := by
  have hlast : ∀ mark : Mark n Char, mark.read secret = '\r' ↔ mark = .own '\r' := by
    intro mark
    cases mark with
    | own c => simp [Mark.read]
    | digit i => simp [Mark.read, hreturn i]
  rw [stripCarriageReturn, stripReturn, List.getLast?_map]
  simp only [Option.map_eq_some_iff, hlast, exists_eq_right]
  split
  · exact List.map_dropLast.symm
  · rfl

/-- The lines of a text are those of its elements: the secret has no end of a line. -/
theorem lines_map_read (hnewline : ∀ i, secret i ≠ '\n') (hreturn : ∀ i, secret i ≠ '\r')
    (text : List (Mark n Char)) :
    lines (text.map (Mark.read secret)) = (markLines text).map (List.map (Mark.read secret)) := by
  have hown : ∀ mark : Mark n Char, (mark.read secret == '\n') = mark.isOwn (· == '\n') := by
    intro mark
    cases mark with
    | own c => rfl
    | digit i => exact beq_eq_false_iff_ne.mpr (hnewline i)
  have hsplit : (text.map (Mark.read secret)).splitOn '\n' =
      (text.splitOnP (Mark.isOwn (· == '\n'))).map (List.map (Mark.read secret)) := by
    rw [← funext hown]
    exact splitOnP_map text
  have hstrip : stripCarriageReturn ∘ List.map (Mark.read secret) =
      List.map (Mark.read secret) ∘ stripReturn :=
    funext (stripCarriageReturn_map_read hreturn)
  simp only [lines, markLines, hsplit, List.map_append, ← List.map_dropLast, List.map_map, hstrip,
    List.getLast?_map]
  congr 1
  cases (text.splitOnP (Mark.isOwn (· == '\n'))).getLast? with
  | none => rfl
  | some line => cases line <;> simp

/-- A text is decoded around the digits of the secret. -/
theorem lossy_map_read (hascii : ∀ i, (secret i).toNat < 128) (pending : Bytes)
    (text : List (Mark n UInt8)) :
    lossy (pending ++ text.map (Mark.read fun i => UInt8.ofNat (secret i).toNat)) =
      (decodeMarks pending text).map (Mark.read secret) := by
  induction text generalizing pending with
  | nil => rw [List.map_nil, List.append_nil, decodeMarks, map_read_own]
  | cons mark text ih =>
    cases mark with
    | own b =>
      rw [decodeMarks, ← ih, List.map_cons, Mark.read, List.append_assoc, List.singleton_append]
    | digit i =>
      have hone : ∀ c ∈ [secret i], c.toNat < 128 := by simpa using hascii i
      have hrest := ih []
      have hsplit := lossy_append_ascii (List.cons_ne_nil _ _) hone pending
        (text.map (Mark.read fun i => UInt8.ofNat (secret i).toNat))
      rw [bytes_of_ascii hone] at hsplit
      rw [List.nil_append] at hrest
      rw [decodeMarks, List.map_append, map_read_own, List.map_cons, List.map_cons, ← hrest]
      exact hsplit

end Text

/-! ## Runs of digits -/

/-- Which digit an element is. -/
def Mark.number : Mark n α → Option (Fin n)
  | .own _ => none
  | .digit i => some i

/-- What may stand behind one another: the next digit behind each but the last one, and no digit but
    the first one behind anything else. -/
def Follows (before after : Option (Fin n)) : Prop :=
  (∀ i : Fin n, after = some i → i.val ≠ 0 → ∃ j : Fin n, before = some j ∧ j.val + 1 = i.val) ∧
    ∀ i : Fin n, before = some i → i.val + 1 < n → ∃ j : Fin n, after = some j ∧ j.val = i.val + 1

/-- No occurrence of the secret begins or ends within the text but at its ends. -/
def Unbroken (text : List (Mark n α)) : Prop :=
  text.IsChain fun before after => Follows before.number after.number

theorem follows_none : Follows (none : Option (Fin n)) none := by
  simp [Follows]

/-- An own element between two others can be left out. -/
theorem Follows.skip {before after : Option (Fin n)} (h : Follows before none)
    (h' : Follows none after) : Follows before after := by
  constructor
  · intro i hi hne
    obtain ⟨j, hj, -⟩ := h'.1 i hi hne
    cases hj
  · intro i hi hlt
    obtain ⟨j, hj, -⟩ := h.2 i hi hlt
    cases hj

theorem unbroken_own (run : List α) : Unbroken (run.map (Mark.own : α → Mark n α)) := by
  induction run with
  | nil => exact .nil
  | cons a run ih =>
    cases run with
    | nil => exact List.isChain_singleton _
    | cons b run => exact List.isChain_cons_cons.mpr ⟨follows_none, ih⟩

theorem unbroken_wholeSecret (n : Nat) (α : Type) : Unbroken (wholeSecret n α) := by
  rw [Unbroken, List.isChain_iff_getElem]
  intro i hi
  simp only [wholeSecret, List.length_ofFn, List.getElem_ofFn, Mark.number] at hi ⊢
  constructor
  · rintro j hj -
    obtain rfl := Option.some.inj hj
    exact ⟨_, rfl, rfl⟩
  · rintro j hj -
    obtain rfl := Option.some.inj hj
    exact ⟨_, rfl, rfl⟩

/-- A text begins with the first digit of the secret, or with an own element. -/
theorem number_of_mem_head? {parts : List (Slot α)} {mark : Mark n α} {i : Fin n}
    (h : mark ∈ (expand n parts).head?) (hnumber : mark.number = some i) : i.val = 0 := by
  induction parts with
  | nil => cases h
  | cons part parts ih =>
    cases part with
    | own a =>
      obtain rfl := Option.some.inj h
      cases hnumber
    | secret =>
      cases n with
      | zero => exact i.elim0
      | succ n =>
        rw [expand, wholeSecret, List.ofFn_succ, List.cons_append, List.head?_cons] at h
        obtain rfl := Option.some.inj h
        obtain rfl := Option.some.inj hnumber
        rfl

/-- A text with whole credentials is unbroken. -/
theorem unbroken_expand (n : Nat) (parts : List (Slot α)) : Unbroken (expand n parts) := by
  -- What begins a part follows anything that is no digit, or the last one.
  have hstart : ∀ (before : Option (Fin n)) (parts : List (Slot α)),
      (∀ i : Fin n, before = some i → ¬ i.val + 1 < n) →
        ∀ after ∈ (expand n parts).head?, Follows before after.number := by
    intro before parts hbefore after hafter
    constructor
    · intro i hi hne
      exact absurd (number_of_mem_head? hafter hi) hne
    · intro i hi hlt
      exact absurd hlt (hbefore i hi)
  -- Over the parts.
  induction parts with
  | nil => exact .nil
  | cons part parts ih =>
    cases part with
    | own a =>
      rw [expand, Unbroken, List.isChain_cons]
      exact ⟨hstart none parts (by simp), ih⟩
    -- A whole credential is unbroken, and ends with its last digit.
    | secret =>
      rw [expand, Unbroken, List.isChain_append]
      refine ⟨unbroken_wholeSecret n α, ih, fun before hbefore => hstart before.number parts ?_⟩
      intro i hi hlt
      obtain rfl : before = .digit i := by
        cases before with
        | own a => cases hi
        | digit j => exact congrArg Mark.digit (Option.some.inj hi)
      rw [wholeSecret, List.getLast?_eq_getElem?, Option.mem_def, List.getElem?_ofFn] at hbefore
      split at hbefore
      · obtain rfl := Mark.digit.inj (Option.some.inj hbefore)
        simp only [List.length_ofFn] at hlt
        omega
      · cases hbefore

/-- Leaving out own elements leaves the digits behind one another. -/
theorem Unbroken.filter {p : α → Bool} {text : List (Mark n α)} (h : Unbroken text) :
    Unbroken (text.filter (Mark.keeps p)) := by
  -- Behind a mark that is kept.
  have hcons : ∀ (text : List (Mark n α)) (before : Mark n α), Unbroken (before :: text) →
      Unbroken (before :: text.filter (Mark.keeps p)) := by
    intro text
    induction text with
    | nil => exact fun before h => h
    | cons mark text ih =>
      intro before h
      obtain ⟨hfirst, hrest⟩ := List.isChain_cons_cons.mp h
      by_cases hkeep : mark.keeps p = true
      · rw [List.filter_cons_of_pos hkeep]
        exact List.isChain_cons_cons.mpr ⟨hfirst, ih mark hrest⟩
      -- Only own elements are left out, and then the next mark takes their place.
      · rw [List.filter_cons_of_neg hkeep]
        cases mark with
        | digit i => exact absurd rfl hkeep
        | own a =>
          apply ih
          rw [Unbroken, List.isChain_cons] at *
          exact ⟨fun after hafter => hfirst.skip (hrest.1 after hafter), hrest.2⟩
  cases text with
  | nil => exact .nil
  | cons mark text =>
    have hall := hcons text mark h
    rw [List.filter_cons]
    split
    · exact hall
    · exact List.IsChain.tail hall

theorem lossy_ne_nil {contents : Bytes} (h : contents ≠ []) : lossy contents ≠ [] := by
  obtain ⟨b, rest, rfl⟩ := List.exists_cons_of_ne_nil h
  rw [lossy_cons]
  split
  · exact List.cons_ne_nil _ _
  · split
    · exact List.cons_ne_nil _ _
    · dsimp only
      split <;> exact List.cons_ne_nil _ _

/-- What is decoded begins with a digit only where the text does. -/
theorem number_head?_decodeMarks (pending : Bytes) (text : List (Mark n UInt8)) :
    (decodeMarks pending text).head?.map Mark.number =
      (pending.map Mark.own ++ text).head?.map Mark.number := by
  -- Bytes that wait to be decoded give characters, and no digit.
  have hown : ∀ pending : Bytes, pending ≠ [] → ∀ rest : List (Mark n Char),
      ((lossy pending).map Mark.own ++ rest).head?.map Mark.number = some none := by
    intro pending hne rest
    obtain ⟨c, chars, hchars⟩ := List.exists_cons_of_ne_nil (lossy_ne_nil hne)
    rw [hchars]
    rfl
  have hfirst : ∀ pending : Bytes, pending ≠ [] → ∀ rest : List (Mark n UInt8),
      (pending.map Mark.own ++ rest).head?.map Mark.number = some none := by
    intro pending hne rest
    obtain ⟨b, others, rfl⟩ := List.exists_cons_of_ne_nil hne
    rfl
  -- Over the text; the bytes in front of it wait to be decoded together.
  induction text generalizing pending with
  | nil =>
    by_cases hne : pending = []
    · subst hne
      rfl
    · have hall := hown pending hne []
      rw [List.append_nil] at hall
      rw [decodeMarks, hall, hfirst pending hne]
  | cons mark text ih =>
    cases mark with
    -- A byte waits with the others.
    | own b =>
      rw [decodeMarks, ih, List.map_append, List.append_assoc]
      rfl
    -- A digit is passed on, behind what has been waiting.
    | digit i =>
      by_cases hne : pending = []
      · subst hne
        rfl
      · rw [decodeMarks, hown pending hne, hfirst pending hne]

/-- Decoding leaves the digits behind one another, too. -/
theorem unbroken_decodeMarks {text : List (Mark n UInt8)} {pending : Bytes}
    (h : Unbroken (pending.map Mark.own ++ text)) : Unbroken (decodeMarks pending text) := by
  -- Over the text, with what waits in front of it.
  induction text generalizing pending with
  | nil => exact unbroken_own _
  | cons mark text ih =>
    cases mark with
    | own b =>
      rw [decodeMarks]
      apply ih
      rw [List.map_append, List.append_assoc]
      exact h
    | digit i =>
      -- A digit stands behind a character that was behind a byte of the same kind.
      obtain ⟨-, hdigit, hlink⟩ := List.isChain_append.mp h
      obtain ⟨hnext, hrest⟩ := List.isChain_cons.mp hdigit
      rw [decodeMarks, Unbroken, List.isChain_append, List.isChain_cons]
      refine ⟨unbroken_own _, ⟨fun after hafter => ?_, ih hrest⟩, fun before hbefore after hafter => ?_⟩
      · -- What is behind the digit is of the kind of what was behind it.
        have hnumber := number_head?_decodeMarks [] text
        rw [Option.mem_def.mp hafter, List.map_nil, List.nil_append, Option.map_some] at hnumber
        obtain ⟨mark, hmark, hkind⟩ := Option.map_eq_some_iff.mp hnumber.symm
        rw [← hkind]
        exact hnext mark hmark
      · obtain rfl : .digit i = after := Option.some.inj hafter
        obtain ⟨c, -, rfl⟩ := List.mem_map.mp (List.mem_of_getLast? hbefore)
        have hne : pending ≠ [] := by
          rintro rfl
          cases hbefore
        obtain ⟨b, hb⟩ := List.getLast?_isSome.mpr hne |> Option.isSome_iff_exists.mp
        exact hlink (.own b) (by rw [List.getLast?_map, hb]; rfl) (.digit i) rfl

/-- So are its lines. -/
theorem unbroken_markLines {text line : List (Mark n Char)} (h : Unbroken text)
    (hline : line ∈ markLines text) : Unbroken line := by
  have hpieces : ∀ piece ∈ text.splitOnP (Mark.isOwn (· == '\n')), Unbroken piece :=
    fun piece hpiece => List.IsChain.infix h (infix_of_mem_splitOnP hpiece)
  rcases List.mem_append.mp hline with hmem | hlast
  · obtain ⟨piece, hpiece, rfl⟩ := List.mem_map.mp hmem
    have hwhole := hpieces piece (List.mem_of_mem_dropLast hpiece)
    rw [stripReturn]
    split
    · exact List.IsChain.dropLast hwhole
    · exact hwhole
  · split at hlast
    · cases hlast
    · exact hpieces line (List.mem_of_getLast? (Option.mem_toList.mp hlast))

/-! ## Replacing the secret -/

section Replace

variable [DecidableEq α]

/-- Where the secret begins at no own element, its places, and only these, are replaced. -/
theorem replace_fillAll {secret other : List α} (hne : secret ≠ []) {parts : List (Slot α)}
    (h : Aligned secret parts) :
    replace secret other (fillAll secret parts) = fillAll other parts := by
  induction parts with
  | nil => rfl
  | cons part parts ih =>
    cases part with
    | own a =>
      rw [fillAll, replace_cons, if_neg h.1, ih h.2, fillAll]
    | secret => rw [fillAll, replace_here hne, ih h, fillAll]

/-- Only there, when the other text begins with what is in no secret. -/
theorem aligned_of_replace {secret rest : List α} {b : α} (hne : secret ≠ []) (hb : b ∉ secret)
    {parts : List (Slot α)}
    (h : replace secret (b :: rest) (fillAll secret parts) = fillAll (b :: rest) parts) :
    Aligned secret parts := by
  induction parts with
  | nil => trivial
  | cons part parts ih =>
    cases part with
    | own a =>
      rw [fillAll, replace_cons] at h
      by_cases hpre : secret <+: a :: fillAll secret parts
      · -- The element would be replaced by one that it is not.
        rw [if_pos hpre] at h
        obtain ⟨c, others, rfl⟩ := List.exists_cons_of_ne_nil hne
        obtain rfl : c = a := (List.cons_prefix_cons.mp hpre).1
        obtain rfl : b = c := (List.cons.inj h).1
        exact absurd List.mem_cons_self hb
      · rw [if_neg hpre] at h
        exact ⟨hpre, ih (List.cons.inj h).2⟩
    | secret =>
      rw [fillAll, replace_here hne, fillAll] at h
      exact ih (List.append_cancel_left h)

end Replace

/-! ## Secrets whose first digit is no other -/

section Fresh

variable {n : Nat} {secret : Fin (n + 1) → α}

/-- Where such a secret stands in a text without broken occurrences, it is meant, or stands among the
    text's own elements. -/
theorem prefix_of_map_read {text : List (Mark (n + 1) α)}
    (hfresh : ∀ i : Fin n, secret i.succ ≠ secret 0) (htext : Unbroken text)
    (hown : ¬ (List.ofFn secret).map Mark.own <+: text)
    (h : List.ofFn secret <+: text.map (Mark.read secret)) : wholeSecret (n + 1) α <+: text := by
  have hread : ∀ i : Fin (n + 1), ∃ mark, text[i.val]? = some mark ∧ mark.read secret = secret i := by
    intro i
    have hlength : i.val < (List.ofFn secret).length := by
      rw [List.length_ofFn]
      exact i.isLt
    have hi := List.prefix_iff_getElem?.mp h i.val hlength
    rw [List.getElem?_map, List.getElem_ofFn] at hi
    exact Option.map_eq_some_iff.mp hi
  have hlink : ∀ (k : Nat) (before after : Mark (n + 1) α), text[k]? = some before →
      text[k + 1]? = some after → Follows before.number after.number := by
    intro k before after hbefore hafter
    obtain ⟨hk, rfl⟩ := List.getElem?_eq_some_iff.mp hafter
    obtain ⟨-, rfl⟩ := List.getElem?_eq_some_iff.mp hbefore
    exact List.isChain_iff_getElem.mp htext k hk
  obtain ⟨first, hfirst, hzero⟩ := hread 0
  cases first with
  | digit i =>
    -- It is the first digit, and the others stand behind it.
    obtain rfl : i = 0 := by
      refine Fin.cases (motive := fun i => secret i = secret 0 → i = 0) (fun _ => rfl)
        (fun j hj => absurd hj (hfresh j)) i hzero
    have hdigits : ∀ k (hk : k < n + 1), text[k]? = some (.digit ⟨k, hk⟩) := by
      intro k
      induction k with
      | zero => exact fun _ => hfirst
      | succ k ih =>
        intro hk
        obtain ⟨after, hafter, -⟩ := hread ⟨k + 1, hk⟩
        obtain ⟨j, hj, hval⟩ := (hlink k _ after (ih (by omega)) hafter).2 _ rfl hk
        cases after with
        | own a => cases hj
        | digit i =>
          obtain rfl := Option.some.inj hj
          rw [hafter]
          exact congrArg (fun i => some (Mark.digit i)) (Fin.ext hval)
    refine List.prefix_iff_getElem?.mpr fun k hk => ?_
    rw [hdigits k (by simpa [wholeSecret] using hk)]
    simp only [wholeSecret, List.getElem_ofFn]
  | own a =>
    -- No digit can be behind it: only the first one does not follow another.
    refine absurd (List.prefix_iff_getElem?.mpr fun k hk => ?_) hown
    have howns : ∀ k (hk : k < n + 1), text[k]? = some (.own (secret ⟨k, hk⟩)) := by
      intro k
      induction k with
      | zero =>
        exact fun _ => hfirst.trans (congrArg (fun a => some (Mark.own a)) hzero)
      | succ k ih =>
        intro hk
        obtain ⟨after, hafter, hvalue⟩ := hread ⟨k + 1, hk⟩
        have hfollows := hlink k _ after (ih (by omega)) hafter
        cases after with
        | own b =>
          rw [hafter]
          exact congrArg (fun a => some (Mark.own a)) hvalue
        | digit i =>
          by_cases hi : i = 0
          · subst hi
            exact absurd hvalue.symm (hfresh ⟨k, by omega⟩)
          · obtain ⟨j, hj, -⟩ := hfollows.1 i rfl (fun hval => hi (Fin.ext hval))
            cases hj
    rw [List.getElem_map, List.getElem_ofFn]
    exact howns k (by simpa using hk)

end Fresh

/-! ## Counting -/

/-- A text cannot contain more words of a length than it has places. -/
theorem exists_not_infix {ι β : Type} [Fintype ι] {words : ι → List β} {length : Nat}
    (hinj : Function.Injective words) (hlength : ∀ i, (words i).length = length) (hpos : 0 < length)
    {text : List β} (h : text.length < Fintype.card ι) : ∃ i, ¬ words i <:+: text := by
  by_contra hall
  simp only [not_exists, not_not] at hall
  choose front back hparts using hall
  have hplace : ∀ i, (front i).length < text.length := by
    intro i
    have htext := congrArg List.length (hparts i)
    simp only [List.length_append, hlength] at htext
    omega
  have hread : ∀ i, words i = (text.drop (front i).length).take length := by
    intro i
    rw [← hparts i, List.append_assoc, List.drop_left, ← hlength i, List.take_left]
  have hplaces : Function.Injective fun i => (⟨(front i).length, hplace i⟩ : Fin text.length) := by
    intro i j hij
    apply hinj
    rw [hread i, hread j, Fin.mk.inj hij]
  have hcard := Fintype.card_le_of_injective _ hplaces
  rw [Fintype.card_fin] at hcard
  omega

end Lsw.Lib
