import Lsw.Core.Manifest
import Lsw.Core.XmlText

/-!
# The Editions of a Windows Image

`windows_media.rs` takes the editions out of the XML of an install image by searching: for the
beginning of an image, the end of its header, the end of the image, and within these for an attribute
and for elements.  A file of editions that is written with escaped text gives the editions back, since
escaped text has no bracket and no quotation mark, so that no search ends within it.
-/

namespace Lsw.Core

open Lsw.Lib

/-! ## The parser -/

/-- `WindowsEdition`. -/
structure WindowsEdition where
  index : UInt32
  name : Str
  editionId : Option Str
  deriving DecidableEq

/-- `xml_attribute`. -/
def xmlAttribute (element name : Str) : Option Str := do
  let (_, value) ← splitAtText (name ++ "=\"".toList) element
  let (value, _) ← splitAtText ['"'] value
  return value

/-- `xml_element`. -/
def xmlElement (block element : Str) : Option Str := do
  let (_, value) ← splitAtText ("<".toList ++ element ++ ">".toList) block
  let (value, _) ← splitAtText ("</".toList ++ element ++ ">".toList) value
  return value

/-- One round of the loop of `parse_editions`; an image without a name is left out. -/
def parseEdition (header block : Str) : Result (Option WindowsEdition) :=
  match (xmlAttribute header "INDEX".toList).bind fun value =>
      (parseUnsigned (2 ^ 32) value).toOption with
  | none =>
    .error (.invalidValue "Windows installation media"
      [.text "an install image has no valid INDEX attribute"])
  | some index =>
    .ok ((xmlElement block "NAME".toList).map fun name =>
      { index := UInt32.ofNat index
        name := xmlUnescape (trim name)
        editionId := ((xmlElement block "EDITIONID".toList).map fun value =>
          xmlUnescape (trim value)).filter fun value => !value.isEmpty })

/-- `parse_editions`. -/
def parseEditions (xml : Str) : Result (List WindowsEdition) :=
  match _hstart : find "<IMAGE".toList xml with
  | none => .ok []
  | some (_, remaining) =>
    match find ['>'] remaining with
    | none => .ok []
    | some (header, _) =>
      match _hend : find "</IMAGE>".toList remaining with
      | none => .ok []
      | some (block, rest) => do
        let edition ← parseEdition (header ++ ['>']) block
        let editions ← parseEditions (rest.drop "</IMAGE>".length)
        return edition.toList ++ editions
termination_by xml.length
decreasing_by
  have hrest := length_le_of_find _hend
  have hremaining := length_le_of_find _hstart
  have hclose := (eq_append_of_find _hend).2.length_le
  have hlength : "</IMAGE>".toList.length = 8 := rfl
  have hlength' : "</IMAGE>".length = 8 := rfl
  rw [List.length_drop]
  omega

/-! ## Editions as XML -/

/-- The header of an image. -/
def renderHeader (edition : WindowsEdition) : Str :=
  ["<IMAGE ".toList, "INDEX=\"".toList, decimal edition.index.toNat, ['"'], ['>']].flatten

/-- The edition id of an image that has one. -/
def renderEditionId : Option Str → Str
  | none => []
  | some editionId => ["<EDITIONID>".toList, xmlEscape editionId, "</EDITIONID>".toList].flatten

/-- What stands between the header of an image and its end. -/
def renderContent (edition : WindowsEdition) : Str :=
  ["<NAME>".toList, xmlEscape edition.name, "</NAME>".toList, "<WINDOWS>".toList,
    renderEditionId edition.editionId, "</WINDOWS>".toList].flatten

/-- An image. -/
def renderEdition (edition : WindowsEdition) : Str :=
  renderHeader edition ++ renderContent edition ++ "</IMAGE>".toList

/-- The XML of a file of editions. -/
def renderWim (editions : List WindowsEdition) : Str :=
  "<WIM>".toList ++ (editions.flatMap renderEdition ++ "</WIM>".toList)

/-- What can be read back: nothing is trimmed, and there is no edition id that is empty. -/
def WindowsEdition.IsTrimmed (edition : WindowsEdition) : Prop :=
  trim edition.name = edition.name ∧
    ∀ editionId ∈ edition.editionId, trim editionId = editionId ∧ editionId ≠ []

instance (edition : WindowsEdition) : Decidable edition.IsTrimmed :=
  inferInstanceAs (Decidable (_ ∧ _))

/-! ## What searches pass over -/

theorem misses_flatten {needle : Str} {pieces : List Str} (h : ∀ piece ∈ pieces, Misses needle piece) :
    Misses needle pieces.flatten := by
  induction pieces with
  | nil => exact misses_nil
  | cons piece pieces ih =>
    obtain ⟨hpiece, hrest⟩ := List.forall_mem_cons.mp h
    exact hpiece.append (ih hrest)

theorem misses_xmlEscape {needle : Str} (value : Str) : Misses ('<' :: needle) (xmlEscape value) :=
  misses_of_not_mem (not_mem_xmlEscape (Or.inl rfl) value)

theorem misses_decimal {c : Char} {needle : Str} (hc : c.isDigit = false) (n : Nat) :
    Misses (c :: needle) (decimal n) := misses_of_not_mem (not_mem_decimal hc)

/-- The tags that are searched for from the beginning of an image. -/
def searched : List Str := ["</IMAGE>".toList, "<NAME>".toList, "<EDITIONID>".toList]

theorem searched_start {needle : Str} (h : needle ∈ searched) :
    ∃ rest, needle = '<' :: rest := by
  simp only [searched, List.mem_cons, List.not_mem_nil, or_false] at h
  rcases h with rfl | rfl | rfl <;> exact ⟨_, rfl⟩

/-- None of them is in the header. -/
theorem misses_renderHeader {needle : Str} (h : needle ∈ searched) (edition : WindowsEdition) :
    Misses needle (renderHeader edition) := by
  have hfixed : ∀ needle ∈ searched,
      ∀ piece ∈ ["<IMAGE ".toList, "INDEX=\"".toList, ['"'], ['>']], Misses needle piece := by decide
  have hpieces := hfixed needle h
  obtain ⟨rest, rfl⟩ := searched_start h
  have hdigits : Misses ('<' :: rest) (decimal edition.index.toNat) :=
    misses_decimal (by decide) edition.index.toNat
  refine misses_flatten fun piece hpiece => ?_
  simp only [List.mem_cons, List.not_mem_nil, or_false] at hpiece hpieces
  rcases hpiece with rfl | rfl | rfl | rfl | rfl
  · exact hpieces _ (Or.inl rfl)
  · exact hpieces _ (Or.inr (Or.inl rfl))
  · exact hdigits
  · exact hpieces _ (Or.inr (Or.inr (Or.inl rfl)))
  · exact hpieces _ (Or.inr (Or.inr (Or.inr rfl)))

/-- The end of an image is not within it. -/
theorem misses_renderContent (edition : WindowsEdition) :
    Misses "</IMAGE>".toList (renderContent edition) := by
  have hid : Misses "</IMAGE>".toList (renderEditionId edition.editionId) := by
    cases edition.editionId with
    | none => exact misses_nil
    | some editionId =>
      have hopen : Misses "</IMAGE>".toList "<EDITIONID>".toList := by decide
      have hclose : Misses "</IMAGE>".toList "</EDITIONID>".toList := by decide
      exact hopen.append ((misses_xmlEscape editionId).append (hclose.append misses_nil))
  have hname : Misses "</IMAGE>".toList "<NAME>".toList := by decide
  have hclose : Misses "</IMAGE>".toList "</NAME>".toList := by decide
  have hwindows : Misses "</IMAGE>".toList "<WINDOWS>".toList := by decide
  have hend : Misses "</IMAGE>".toList "</WINDOWS>".toList := by decide
  exact hname.append ((misses_xmlEscape edition.name).append (hclose.append (hwindows.append
    (hid.append (hend.append misses_nil)))))

/-! ## What the parser reads of an image -/

/-- The number of an image is read back. -/
theorem index_of_renderHeader (edition : WindowsEdition) :
    xmlAttribute (renderHeader edition) "INDEX".toList = some (decimal edition.index.toNat) := by
  have hfront : Misses "INDEX=\"".toList "<IMAGE ".toList := by decide
  have hdigits : Misses ['"'] (decimal edition.index.toNat) :=
    misses_decimal (by decide) edition.index.toNat
  have hvalue : splitAtText "INDEX=\"".toList (renderHeader edition) =
      some ("<IMAGE ".toList, [decimal edition.index.toNat, ['"'], ['>']].flatten) :=
    splitAtText_behind hfront (List.cons_ne_nil _ _)
  have hquote : splitAtText ['"'] [decimal edition.index.toNat, ['"'], ['>']].flatten =
      some (decimal edition.index.toNat, [['>']].flatten) :=
    splitAtText_behind hdigits (List.cons_ne_nil _ _)
  have hneedle : "INDEX".toList ++ "=\"".toList = "INDEX=\"".toList := rfl
  rw [xmlAttribute, hneedle, hvalue]
  simp only [Option.bind_eq_bind, Option.bind_some]
  rw [hquote]
  rfl

/-- An element behind what does not have it. -/
theorem xmlElement_behind {name front value : Str}
    (hfront : Misses ("<".toList ++ name ++ ">".toList) front)
    (hvalue : Misses ("</".toList ++ name ++ ">".toList) value) (rest : Str) :
    xmlElement (front ++ (("<".toList ++ name ++ ">".toList) ++
      (value ++ (("</".toList ++ name ++ ">".toList) ++ rest)))) name = some value := by
  have hopen : "<".toList ++ name ++ ">".toList ≠ [] := List.cons_ne_nil _ _
  have hclose : "</".toList ++ name ++ ">".toList ≠ [] := List.cons_ne_nil _ _
  rw [xmlElement, splitAtText_behind hfront hopen]
  simp only [Option.bind_eq_bind, Option.bind_some]
  rw [splitAtText_behind hvalue hclose]
  rfl

/-- No element where its tag is not. -/
theorem xmlElement_nowhere {name block : Str} (h : Misses ("<".toList ++ name ++ ">".toList) block) :
    xmlElement block name = none := by
  have hopen : "<".toList ++ name ++ ">".toList ≠ [] := List.cons_ne_nil _ _
  rw [xmlElement, splitAtText_nowhere h hopen]
  rfl

theorem name_of_image (edition : WindowsEdition) :
    xmlElement (renderHeader edition ++ renderContent edition) "NAME".toList =
      some (xmlEscape edition.name) := by
  have hheader : Misses "<NAME>".toList (renderHeader edition) :=
    misses_renderHeader (by decide) edition
  have hname : Misses "</NAME>".toList (xmlEscape edition.name) := misses_xmlEscape edition.name
  exact xmlElement_behind hheader hname _

/-- What stands in front of an edition id. -/
def beforeEditionId (edition : WindowsEdition) : Str :=
  renderHeader edition ++
    ["<NAME>".toList, xmlEscape edition.name, "</NAME>".toList, "<WINDOWS>".toList].flatten

theorem image_eq (edition : WindowsEdition) :
    renderHeader edition ++ renderContent edition = beforeEditionId edition ++
      (renderEditionId edition.editionId ++ "</WINDOWS>".toList) := by
  have hcontent : renderContent edition =
      (["<NAME>".toList, xmlEscape edition.name, "</NAME>".toList, "<WINDOWS>".toList] ++
        [renderEditionId edition.editionId, "</WINDOWS>".toList]).flatten := rfl
  have hend : [renderEditionId edition.editionId, "</WINDOWS>".toList].flatten =
      renderEditionId edition.editionId ++ "</WINDOWS>".toList :=
    congrArg (renderEditionId edition.editionId ++ ·) (List.append_nil _)
  rw [hcontent, List.flatten_append, hend, beforeEditionId, List.append_assoc]

theorem flatten_three_append (first second third rest : Str) :
    [first, second, third].flatten ++ rest = first ++ (second ++ (third ++ rest)) := by simp

/-- The element with the identifier of an edition is read as it was written. -/
theorem editionId_of_image (edition : WindowsEdition) :
    xmlElement (renderHeader edition ++ renderContent edition) "EDITIONID".toList =
      edition.editionId.map xmlEscape := by
  -- The tag begins nowhere in front of the element.
  have hheader : Misses "<EDITIONID>".toList (renderHeader edition) :=
    misses_renderHeader (by decide) edition
  have hname : Misses "<EDITIONID>".toList "<NAME>".toList := by decide
  have hclose : Misses "<EDITIONID>".toList "</NAME>".toList := by decide
  have hwindows : Misses "<EDITIONID>".toList "<WINDOWS>".toList := by decide
  have hend : Misses "<EDITIONID>".toList "</WINDOWS>".toList := by decide
  have hfront : Misses "<EDITIONID>".toList (beforeEditionId edition) :=
    hheader.append (hname.append ((misses_xmlEscape edition.name).append
      (hclose.append (hwindows.append misses_nil))))
  rw [image_eq]
  cases edition.editionId with
  -- Without the element it begins nowhere at all.
  | none => exact xmlElement_nowhere (hfront.append hend)
  | some editionId =>
    -- The escaped value has no closing tag in it.
    have hid : Misses "</EDITIONID>".toList (xmlEscape editionId) := misses_xmlEscape editionId
    have htext : renderEditionId (some editionId) ++ "</WINDOWS>".toList = "<EDITIONID>".toList ++
        (xmlEscape editionId ++ ("</EDITIONID>".toList ++ "</WINDOWS>".toList)) :=
      flatten_three_append _ _ _ _
    have hread : xmlElement (beforeEditionId edition ++ ("<EDITIONID>".toList ++
        (xmlEscape editionId ++ ("</EDITIONID>".toList ++ "</WINDOWS>".toList))))
        "EDITIONID".toList = some (xmlEscape editionId) :=
      xmlElement_behind hfront hid "</WINDOWS>".toList
    exact (congrArg (fun text => xmlElement (beforeEditionId edition ++ text) "EDITIONID".toList)
      htext).trans hread

/-- What a round of the loop makes of what it finds. -/
theorem parseEdition_found {header block : Str} {index : Nat} {name : Str} {editionId : Option Str}
    (hindex : (xmlAttribute header "INDEX".toList).bind (fun value =>
      (parseUnsigned (2 ^ 32) value).toOption) = some index)
    (hname : xmlElement block "NAME".toList = some name)
    (hid : xmlElement block "EDITIONID".toList = editionId) :
    parseEdition header block = .ok (some
      { index := UInt32.ofNat index
        name := xmlUnescape (trim name)
        editionId := (editionId.map fun value => xmlUnescape (trim value)).filter fun value =>
          !value.isEmpty }) := by
  subst hid
  rw [parseEdition, hindex, hname]
  rfl

/-- An image gives its edition. -/
theorem parseEdition_image {edition : WindowsEdition} (h : edition.IsTrimmed) :
    parseEdition (renderHeader edition) (renderHeader edition ++ renderContent edition) =
      .ok (some edition) := by
  obtain ⟨hname, hid⟩ := h
  have hindex : (parseUnsigned (2 ^ 32) (decimal edition.index.toNat)).toOption =
      some edition.index.toNat := by
    have hparse : parseUnsigned (2 ^ 32) (decimal edition.index.toNat) = .ok edition.index.toNat :=
      parseUnsigned_decimal edition.index.toNat_lt
    rw [hparse]
    rfl
  have hedition : ((edition.editionId.map xmlEscape).map fun value =>
      xmlUnescape (trim value)).filter (fun value => !value.isEmpty) = edition.editionId := by
    cases hsome : edition.editionId with
    | none => rfl
    | some editionId =>
      obtain ⟨htrim, hne⟩ := hid editionId hsome
      rw [Option.map_some, Option.map_some, trim_xmlEscape htrim, xmlUnescape_xmlEscape]
      simp [hne]
  have hread : (xmlAttribute (renderHeader edition) "INDEX".toList).bind (fun value =>
      (parseUnsigned (2 ^ 32) value).toOption) = some edition.index.toNat := by
    rw [index_of_renderHeader, Option.bind_some, hindex]
  rw [parseEdition_found hread (name_of_image edition) (editionId_of_image edition), hedition,
    trim_xmlEscape hname, xmlUnescape_xmlEscape, UInt32.ofNat_toNat]

/-! ## Files of editions -/

/-- Without an image there is no edition. -/
theorem parseEditions_nowhere {xml : Str} (h : find "<IMAGE".toList xml = none) :
    parseEditions xml = .ok [] := by
  unfold parseEditions
  split
  · rfl
  · rename_i heq
    rw [h] at heq
    cases heq

/-- An image, and what is behind it. -/
theorem parseEditions_found {xml front remaining header close block rest : Str}
    (hstart : find "<IMAGE".toList xml = some (front, remaining))
    (hheader : find ['>'] remaining = some (header, close))
    (hblock : find "</IMAGE>".toList remaining = some (block, "</IMAGE>".toList ++ rest))
    {edition : Option WindowsEdition} (hedition : parseEdition (header ++ ['>']) block = .ok edition)
    {editions : List WindowsEdition} (hrest : parseEditions rest = .ok editions) :
    parseEditions xml = .ok (edition.toList ++ editions) := by
  rw [parseEditions]
  split
  · rename_i heq
    rw [hstart] at heq
    cases heq
  · rename_i heq
    obtain ⟨rfl, rfl⟩ := Prod.mk.inj (Option.some.inj (hstart.symm.trans heq))
    simp only [hheader]
    split
    · rename_i heq
      rw [hblock] at heq
      cases heq
    · rename_i heq
      obtain ⟨rfl, rfl⟩ := Prod.mk.inj (Option.some.inj (hblock.symm.trans heq))
      have hdrop : ("</IMAGE>".toList ++ rest).drop "</IMAGE>".length = rest := List.drop_left
      simp only [hdrop, hedition, hrest]
      rfl

/-- A header up to its bracket. -/
def openHeader (edition : WindowsEdition) : Str :=
  ["<IMAGE ".toList, "INDEX=\"".toList, decimal edition.index.toNat, ['"']].flatten

theorem renderHeader_eq (edition : WindowsEdition) :
    renderHeader edition = openHeader edition ++ ['>'] := by
  have hheader : renderHeader edition =
      (["<IMAGE ".toList, "INDEX=\"".toList, decimal edition.index.toNat, ['"']] ++
        [['>']]).flatten := rfl
  rw [hheader, List.flatten_append]
  rfl

/-- Where the header ends. -/
theorem find_header (edition : WindowsEdition) (rest : Str) :
    find ['>'] (renderHeader edition ++ rest) =
      some (openHeader edition, ['>'] ++ rest) := by
  have hstart : Misses ['>'] "<IMAGE ".toList := by decide
  have hindex : Misses ['>'] "INDEX=\"".toList := by decide
  have hdigits : Misses ['>'] (decimal edition.index.toNat) :=
    misses_decimal (by decide) edition.index.toNat
  have hquote : Misses ['>'] ['"'] := by decide
  have hopen : Misses ['>'] (openHeader edition) :=
    hstart.append (hindex.append (hdigits.append (hquote.append misses_nil)))
  rw [renderHeader_eq, List.append_assoc]
  exact find_behind hopen (List.cons_ne_nil _ _)

/-- Where the image begins. -/
theorem find_image {front : Str} (hfront : Misses "<IMAGE".toList front) (edition : WindowsEdition)
    (rest : Str) :
    find "<IMAGE".toList (front ++ (renderHeader edition ++ rest)) =
      some (front, renderHeader edition ++ rest) := by
  have hheader : renderHeader edition = "<IMAGE".toList ++
      [" INDEX=\"".toList, decimal edition.index.toNat, ['"'], ['>']].flatten := rfl
  rw [hheader, List.append_assoc]
  exact find_behind hfront (List.cons_ne_nil _ _)

/-- Behind whatever has no image, the editions of a file are read one after the other. -/
theorem parseEditions_front {editions : List WindowsEdition}
    (h : ∀ edition ∈ editions, edition.IsTrimmed) {front : Str}
    (hfront : Misses "<IMAGE".toList front) :
    parseEditions (front ++ (editions.flatMap renderEdition ++ "</WIM>".toList)) =
      .ok editions := by
  -- Over the editions; what is in front changes from one to the next.
  induction editions generalizing front with
  | nil =>
    have hend : Misses "<IMAGE".toList "</WIM>".toList := by decide
    -- No image begins any more.
    have hnowhere : find "<IMAGE".toList (front ++ "</WIM>".toList) = none :=
      find_nowhere (hfront.append hend) (List.cons_ne_nil _ _)
    exact parseEditions_nowhere hnowhere
  | cons edition editions ih =>
    obtain ⟨hedition, hrest⟩ := List.forall_mem_cons.mp h
    have hassoc : ∀ header content close others last : Str,
        header ++ content ++ close ++ others ++ last =
          header ++ (content ++ (close ++ (others ++ last))) := by simp
    -- The next image: its header, its content and the end of it.
    have hfile : (edition :: editions).flatMap renderEdition ++ "</WIM>".toList =
        renderHeader edition ++ (renderContent edition ++ ("</IMAGE>".toList ++
          (editions.flatMap renderEdition ++ "</WIM>".toList))) := hassoc _ _ _ _ _
    -- The end that is found is its own, since neither part has one in it.
    have hblock : find "</IMAGE>".toList (renderHeader edition ++ (renderContent edition ++
        ("</IMAGE>".toList ++ (editions.flatMap renderEdition ++ "</WIM>".toList)))) =
        some (renderHeader edition ++ renderContent edition,
          "</IMAGE>".toList ++ (editions.flatMap renderEdition ++ "</WIM>".toList)) := by
      rw [← List.append_assoc]
      exact find_behind ((misses_renderHeader (by decide) edition).append
        (misses_renderContent edition)) (List.cons_ne_nil _ _)
    have himage : parseEdition (openHeader edition ++ ['>'])
        (renderHeader edition ++ renderContent edition) = .ok (some edition) := by
      rw [← renderHeader_eq]
      exact parseEdition_image hedition
    rw [hfile]
    exact parseEditions_found (find_image hfront edition _) (find_header edition _) hblock himage
      (ih hrest misses_nil)

/-- A file of editions gives its editions. -/
theorem parseEditions_renderWim {editions : List WindowsEdition}
    (h : ∀ edition ∈ editions, edition.IsTrimmed) :
    parseEditions (renderWim editions) = .ok editions := by
  have hfront : Misses "<IMAGE".toList "<WIM>".toList := by decide
  exact parseEditions_front h hfront

end Lsw.Core
