import Lsw.Lib.Text

/-!
# Reading XML

A document as a reader takes it apart: tags, with everything that stands between their brackets, and
characters, where a reference to one of the five predefined entities is a character too.  A reference to
anything else, and a tag or a reference that does not end, is no document.

The reader goes from character to character, so two texts that are read one after the other are read
like one.
-/

namespace Lsw.Lib.Xml

/-- A part of a document. -/
inductive Token where
  | tag (content : Str)
  | char (c : Char)
  deriving DecidableEq

/-- Where the reader is. -/
inductive Mode where
  | text
  | tag (content : Str)
  | reference (name : Str)
  | failed
  deriving DecidableEq

/-- The predefined entities. -/
def entity (name : Str) : Option Char :=
  if name = "lt".toList then some '<'
  else if name = "gt".toList then some '>'
  else if name = "amp".toList then some '&'
  else if name = "quot".toList then some '"'
  else if name = "apos".toList then some '\''
  else none

/-- The reader, with what it has read. -/
abbrev State := Mode × List Token

/-- One character. -/
def step : State → Char → State
  | (.text, tokens), c =>
    if c = '<' then (.tag [], tokens)
    else if c = '&' then (.reference [], tokens)
    else (.text, tokens ++ [.char c])
  | (.tag content, tokens), c =>
    if c = '>' then (.text, tokens ++ [.tag content]) else (.tag (content ++ [c]), tokens)
  | (.reference name, tokens), c =>
    if c = ';' then
      match entity name with
      | some other => (.text, tokens ++ [.char other])
      | none => (.failed, tokens)
    else (.reference (name ++ [c]), tokens)
  | (.failed, tokens), _ => (.failed, tokens)

/-- Read on. -/
def scan (state : State) (text : Str) : State := text.foldl step state

/-- The parts of a document. -/
def read (text : Str) : Option (List Token) :=
  match scan (.text, []) text with
  | (.text, tokens) => some tokens
  | _ => none

@[simp] theorem scan_nil (state : State) : scan state [] = state := rfl

@[simp] theorem scan_cons (state : State) (c : Char) (text : Str) :
    scan state (c :: text) = scan (step state c) text := rfl

theorem scan_append (state : State) (front back : Str) :
    scan state (front ++ back) = scan (scan state front) back := List.foldl_append

/-! ## Complete texts -/

/-- Read from outside any tag, the text gives these parts, and nothing is open behind it. -/
def Reads (text : Str) (tokens : List Token) : Prop :=
  ∀ before, scan (.text, before) text = (.text, before ++ tokens)

theorem reads_nil : Reads [] [] := fun before => by rw [scan_nil, List.append_nil]

theorem Reads.append {front back : Str} {fronts backs : List Token} (hfront : Reads front fronts)
    (hback : Reads back backs) : Reads (front ++ back) (fronts ++ backs) := fun before => by
  rw [scan_append, hfront, hback, List.append_assoc]

theorem Reads.read_eq {text : Str} {tokens : List Token} (h : Reads text tokens) :
    read text = some tokens := by
  rw [read, h []]
  rfl

/-- Text without brackets and references is read as its characters. -/
theorem reads_plain {text : Str} (h : ∀ c ∈ text, c ≠ '<' ∧ c ≠ '&') :
    Reads text (text.map .char) := by
  induction text with
  | nil => exact reads_nil
  | cons c text ih =>
    obtain ⟨⟨hopen, hreference⟩, hrest⟩ := List.forall_mem_cons.mp h
    intro before
    rw [scan_cons, step, if_neg hopen, if_neg hreference, ih hrest, List.append_assoc]
    rfl

/-- No tag is left open, and there is no reference; `inside` a tag to begin with. -/
def balanced : Bool → Str → Bool
  | inside, [] => !inside
  | false, c :: text => c != '&' && balanced (c == '<') text
  | true, c :: text => c != '&' && balanced (c != '>') text

theorem not_mem_of_balanced {inside : Bool} {text : Str} (h : balanced inside text = true) :
    '&' ∉ text := by
  induction text generalizing inside with
  | nil => exact List.not_mem_nil
  | cons c text ih =>
    cases inside <;> rw [balanced, Bool.and_eq_true, bne_iff_ne] at h <;>
      exact List.not_mem_cons_of_ne_of_not_mem (Ne.symm h.1) (ih h.2)

/-- The parts that a text has been read as. -/
def parts (text : Str) : List Token := (scan (.text, []) text).2

theorem Reads.parts_eq {text : Str} {tokens : List Token} (h : Reads text tokens) :
    parts text = tokens := by
  rw [parts, h]
  rfl

/-- Where every tag ends, the parts are those of the text alone. -/
theorem reads_of_balanced {text : Str} (h : balanced false text = true) :
    Reads text (parts text) := by
  -- Inside a tag its content so far matters as well, so both cases go together.
  have hboth : ∀ text : Str,
      (balanced false text = true → ∃ tokens, Reads text tokens) ∧
      ∀ content, balanced true text = true → ∃ tokens, ∀ before,
        scan (.tag content, before) text = (.text, before ++ tokens) := by
    intro text
    induction text with
    | nil => exact ⟨fun _ => ⟨[], reads_nil⟩, fun _ h => by cases h⟩
    | cons c text ih =>
      refine ⟨fun h => ?_, fun content h => ?_⟩
      · rw [balanced, Bool.and_eq_true, bne_iff_ne] at h
        obtain ⟨hreference, hrest⟩ := h
        by_cases hopen : c = '<'
        · rw [beq_iff_eq.mpr hopen] at hrest
          obtain ⟨tokens, htokens⟩ := ih.2 [] hrest
          exact ⟨tokens, fun before => by rw [scan_cons, step, if_pos hopen, htokens]⟩
        · rw [beq_eq_false_iff_ne.mpr hopen] at hrest
          obtain ⟨tokens, htokens⟩ := ih.1 hrest
          exact ⟨.char c :: tokens, fun before => by
            rw [scan_cons, step, if_neg hopen, if_neg hreference, htokens, List.append_assoc]
            rfl⟩
      · rw [balanced, Bool.and_eq_true] at h
        obtain ⟨-, h⟩ := h
        by_cases hclose : c = '>'
        · rw [bne_eq_false_iff_eq.mpr hclose] at h
          obtain ⟨tokens, htokens⟩ := ih.1 h
          exact ⟨.tag content :: tokens, fun before => by
            rw [scan_cons, step, if_pos hclose, htokens, List.append_assoc]
            rfl⟩
        · rw [bne_iff_ne.mpr hclose] at h
          obtain ⟨tokens, htokens⟩ := ih.2 (content ++ [c]) h
          exact ⟨tokens, fun before => by rw [scan_cons, step, if_neg hclose, htokens]⟩
  obtain ⟨tokens, htokens⟩ := (hboth text).1 h
  rwa [htokens.parts_eq]

/-! ## Templates -/

/-- What the tags of a document contain: the names of elements, with their attributes. -/
def tags (tokens : List Token) : List Str := tokens.filterMap fun
  | .tag content => some content
  | .char _ => none

@[simp] theorem tags_append (front back : List Token) :
    tags (front ++ back) = tags front ++ tags back := List.filterMap_append

@[simp] theorem tags_chars (text : Str) : tags (text.map .char) = [] := by
  induction text with
  | nil => rfl
  | cons c text ih => exact ih

/-- A part of a template: text of its own, or a place for a value. -/
inductive Piece (Hole : Type) where
  | own (text : String)
  | hole (name : Hole)

variable {Hole : Type}

/-- What stands at a part when the values are filled in. -/
def Piece.text (values : Hole → Str) : Piece Hole → Str
  | .own text => text.toList
  | .hole name => values name

/-- `format!`: the template with the values filled in. -/
def fill (values : Hole → Str) (template : List (Piece Hole)) : Str :=
  template.flatMap (Piece.text values)

/-- The tags of a template's own text. -/
def ownTags (template : List (Piece Hole)) : List Str := template.flatMap fun
  | .own text => tags (parts text.toList)
  | .hole _ => []

@[simp] theorem fill_nil (values : Hole → Str) : fill values [] = [] := rfl

@[simp] theorem fill_own (values : Hole → Str) (text : String) (template : List (Piece Hole)) :
    fill values (.own text :: template) = text.toList ++ fill values template := rfl

@[simp] theorem fill_hole (values : Hole → Str) (name : Hole) (template : List (Piece Hole)) :
    fill values (.hole name :: template) = values name ++ fill values template := rfl

@[simp] theorem ownTags_hole (name : Hole) (template : List (Piece Hole)) :
    ownTags (.hole name :: template) = ownTags template := rfl

theorem fill_append (values : Hole → Str) (front back : List (Piece Hole)) :
    fill values (front ++ back) = fill values front ++ fill values back := List.flatMap_append

theorem ownTags_append (front back : List (Piece Hole)) :
    ownTags (front ++ back) = ownTags front ++ ownTags back := List.flatMap_append

/-- Every tag of a template ends in the part that it begins in. -/
inductive IsComplete : List (Piece Hole) → Prop where
  | nil : IsComplete []
  | own {text : String} {template : List (Piece Hole)} (htext : balanced false text.toList = true)
      (h : IsComplete template) : IsComplete (.own text :: template)
  | hole {name : Hole} {template : List (Piece Hole)} (h : IsComplete template) :
      IsComplete (.hole name :: template)

/-- The text of a literal is given by its characters, which are what the check goes over. -/
theorem balanced_literal {chars : Str} (h : balanced false chars = true) :
    balanced false (String.ofList chars).toList = true := by
  rw [String.toList_ofList]
  exact h

theorem IsComplete.append {front back : List (Piece Hole)} (hfront : IsComplete front)
    (hback : IsComplete back) : IsComplete (front ++ back) := by
  induction hfront with
  | nil => exact hback
  | own htext _ ih => exact .own htext ih
  | hole _ ih => exact .hole ih

/-- References are in the values alone. -/
theorem not_mem_fill {values : Hole → Str} {template : List (Piece Hole)}
    (h : IsComplete template) (hvalues : ∀ name, .hole name ∈ template → '&' ∉ values name) :
    '&' ∉ fill values template := by
  induction h with
  | nil => exact List.not_mem_nil
  | own htext _ ih =>
    exact List.not_mem_append (not_mem_of_balanced htext)
      (ih fun name hname => hvalues name (List.mem_cons_of_mem _ hname))
  | hole _ ih =>
    exact List.not_mem_append (hvalues _ List.mem_cons_self)
      (ih fun name hname => hvalues name (List.mem_cons_of_mem _ hname))

/-- Values that are read as characters add no tag to a template. -/
theorem reads_fill {values content : Hole → Str} {template : List (Piece Hole)}
    (h : IsComplete template)
    (hvalues : ∀ name, Reads (values name) ((content name).map .char)) :
    ∃ tokens, Reads (fill values template) tokens ∧ tags tokens = ownTags template := by
  induction h with
  | nil => exact ⟨[], reads_nil, rfl⟩
  | @own text _ htext _ ih =>
    obtain ⟨tokens, hreads, htags⟩ := ih
    refine ⟨parts text.toList ++ tokens, (reads_of_balanced htext).append hreads, ?_⟩
    rw [tags_append, htags]
    rfl
  | @hole name _ _ ih =>
    obtain ⟨tokens, hreads, htags⟩ := ih
    refine ⟨(content name).map Token.char ++ tokens, (hvalues name).append hreads, ?_⟩
    rw [tags_append, tags_chars, htags]
    rfl

end Lsw.Lib.Xml
