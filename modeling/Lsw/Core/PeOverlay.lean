import Mathlib.Data.List.Infix
import Lsw.Core.PeReading

/-!
# Data after the End of an Image

Signatures and installers append data to an executable.  The parser compares offsets with the length
of the file and takes the smaller of a declared and a present length, so it is not obvious that such
data changes nothing.  Each function is shown to return on the longer file what it returned on the
shorter one; only the length that `rva_span` reports may grow.
-/

namespace Lsw.Core.Pe

open Lib Protocol

variable {bytes : Bytes} (extra : Bytes)

/-! ## Words and spans -/

section Reads

variable (bytes)

theorem require_extends (offset length : Nat) (what : Message) :
    Extends (require bytes offset length what) (require (bytes ++ extra) offset length what) := by
  intro u h
  unfold require at h ⊢
  cases hstop : checkedAdd offset length with
  | none => rw [hstop] at h; cases h
  | some stop =>
    rw [hstop] at h
    dsimp only at h ⊢
    split at h
    next => cases h
    next hfits => rw [if_neg (by rw [List.length_append]; omega)]

theorem readWord_extends (width offset : Nat) (what : String) :
    Extends (readWord width bytes offset what) (readWord width (bytes ++ extra) offset what) := by
  refine (require_extends bytes extra offset width _).bind fun _ _ => ?_
  refine (Extends.mapM fun i _ => ?_).bind fun word _ => Extends.refl _
  exact (Extends.refl _).bind fun at' _ => Extends.index bytes extra at'

/-- A header field on the longer file. -/
theorem field_extends {β : Type} {width base delta : Nat} {what : String} {f g : Nat → PeResult β}
    (hfg : ∀ value, Extends (f value) (g value)) :
    Extends (addUsize base delta >>= fun offset => readWord width bytes offset what >>= f)
      (addUsize base delta >>= fun offset => readWord width (bytes ++ extra) offset what >>= g) :=
  (Extends.refl _).bind fun offset _ =>
    (readWord_extends bytes extra width offset what).bind fun value _ => hfg value

end Reads

/-- On the longer file a span starts at the same place and may be longer, and it is still addressed
    by machine words. -/
def Widens (x y : PeResult (Nat × Nat)) : Prop :=
  ∀ span, x = .ok span →
    ∃ available, y = .ok (span.1, available) ∧ span.2 ≤ available ∧ span.1 + available < usizeSize

/-- A span that lies in the image lies in the longer one. -/
theorem spanAt_widens {offset declaredEnd declaredStart : Nat} (what : String)
    (hoffset : offset < u32Size) (hdeclared : declaredEnd < u32Size) :
    Widens (spanAt bytes offset declaredEnd declaredStart what)
      (spanAt (bytes ++ extra) offset declaredEnd declaredStart what) := by
  intro span h
  obtain ⟨_, hrequire, h⟩ := bind_eq_ok.mp h
  obtain ⟨declared, hdifference, h⟩ := bind_eq_ok.mp h
  obtain ⟨present, hpresent, h⟩ := bind_eq_ok.mp h
  obtain rfl := Except.ok.inj h
  have hfits := ((require_ends (S := False) bytes offset 1 _).of_ok hrequire).1
  -- The declared length is the same, the length that is present grows by the appended bytes.
  have hle : declared ≤ declaredEnd := by
    unfold subWord at hdifference
    split at hdifference
    next => cases hdifference; omega
    next => cases hdifference
  have hlength : present = bytes.length - offset := by
    rw [subWord, if_pos (by omega)] at hpresent
    exact (Except.ok.inj hpresent).symm
  refine ⟨min declared ((bytes ++ extra).length - offset), ?_, ?_, ?_⟩
  · rw [spanAt, require_extends bytes extra _ _ _ _ hrequire, ok_bind, hdifference, ok_bind, subWord,
      if_pos (by rw [List.length_append]; omega), ok_bind]
    rfl
  · show min declared present ≤ _
    rw [hlength, List.length_append]
    omega
  · show offset + min declared _ < usizeSize
    have hwords : u32Size + u32Size < usizeSize := by decide
    omega

/-- So does one that is looked up in the sections. -/
theorem sectionSpan_widens (rva : Nat) (what : String) {sections : List PeSection}
    (hsections : ∀ pe ∈ sections, pe.rawSize < u32Size) :
    Widens (sectionSpan bytes rva what sections) (sectionSpan (bytes ++ extra) rva what sections) := by
  -- Over the sections, as they are searched.
  induction sections with
  | nil => intro span h; cases h
  | cons pe sections ih =>
    have ih := ih fun other hother => hsections other (List.mem_cons_of_mem _ hother)
    intro span h
    unfold sectionSpan at h ⊢
    dsimp only at h ⊢
    split at h
    -- A section that begins behind the address is passed over.
    next hbelow =>
      rw [if_pos hbelow]
      exact ih span h
    next hbelow =>
      rw [if_neg hbelow]
      split at h
      -- So is one that ends before it.
      next hbeyond =>
        rw [if_pos hbeyond]
        exact ih span h
      next hbeyond =>
        rw [if_neg hbeyond]
        split at h
        next => cases h
        next hraw =>
          rw [if_neg hraw]
          obtain ⟨offset, hoffset, hspan⟩ := bind_eq_ok.mp h
          rw [hoffset, ok_bind]
          -- The address lies in this one; its offset does not depend on what is appended.
          have hword : offset < u32Size := by
            rw [okOr_eq_ok, checkedAddU32] at hoffset
            split at hoffset
            next hlt => exact Option.some.inj hoffset ▸ hlt
            next => cases hoffset
          exact spanAt_widens extra what hword (hsections pe List.mem_cons_self) span hspan

/-! ## Addresses -/

/-- A layout whose lengths are words of 32 bits, as everything read from a header is. -/
structure PeLayout.Words (layout : PeLayout) : Prop where
  headers : layout.sizeOfHeaders < u32Size
  sections : ∀ pe ∈ layout.sections, pe.rawSize < u32Size

/-- The layout over the longer file. -/
def PeLayout.append (layout : PeLayout) : PeLayout :=
  { layout with bytes := layout.bytes ++ extra }

section Layout

variable {layout : PeLayout} (hwords : layout.Words)
include hwords

theorem rvaSpan_widens (rva : Nat) (what : String) :
    Widens (layout.rvaSpan rva what) ((layout.append extra).rvaSpan rva what) := by
  have hheaders := hwords.headers
  intro span h
  unfold PeLayout.rvaSpan at h ⊢
  split at h
  next hheader =>
    rw [if_pos (show rva < (layout.append extra).sizeOfHeaders from hheader)]
    exact spanAt_widens extra what (by omega) hheaders span h
  next hheader =>
    rw [if_neg (show ¬ rva < (layout.append extra).sizeOfHeaders from hheader)]
    exact sectionSpan_widens extra rva what hwords.sections span h

theorem rvaToOffset_extends (rva length : Nat) (what : String) :
    Extends (layout.rvaToOffset rva length what)
      ((layout.append extra).rvaToOffset rva length what) := by
  intro offset h
  obtain ⟨span, hspan, h⟩ := bind_eq_ok.mp h
  obtain ⟨_, hreject, h⟩ := bind_eq_ok.mp h
  obtain ⟨available, hwide, hle, -⟩ := rvaSpan_widens extra hwords rva what span hspan
  have hlength : ¬ length > span.2 := (rejectIf_eq_ok _ _ _).mp hreject
  rw [PeLayout.rvaToOffset, hwide, ok_bind]
  dsimp only
  rw [rejectIf_of_not _ (by omega), ok_bind]
  exact h

/-- A name ends at its terminator, however much more of the span is present. -/
theorem readRvaCString_extends (rva : Nat) (what : String) :
    Extends (readRvaCString layout rva what) (readRvaCString (layout.append extra) rva what) := by
  intro name h
  obtain ⟨span, hspan, h⟩ := bind_eq_ok.mp h
  obtain ⟨stop, hstop, h⟩ := bind_eq_ok.mp h
  obtain ⟨part, hpart, h⟩ := bind_eq_ok.mp h
  obtain ⟨length, hlength, h⟩ := bind_eq_ok.mp h
  obtain ⟨available, hwide, hle, hsize⟩ := rvaSpan_widens extra hwords rva what span hspan
  have hinside : span.1 + available ≤ (layout.bytes ++ extra).length :=
    (rvaSpan_ends (S := False) (layout.append extra) rva what).of_ok hwide
  obtain rfl : span.1 + span.2 = stop := by
    rw [addUsize_eq_ok (by omega)] at hstop
    exact Except.ok.inj hstop
  obtain ⟨rfl, -, hfits⟩ := (Ends.slice (S := False) False.elim).of_ok hpart
  -- The bytes of the shorter span are the first bytes of the longer one.
  have hbeginning : (layout.bytes.take (span.1 + span.2)).drop span.1 <+:
      ((layout.bytes ++ extra).take (span.1 + available)).drop span.1 := by
    rw [List.drop_take, List.drop_take, Nat.add_sub_cancel_left, Nat.add_sub_cancel_left,
      List.drop_append_of_le_length (by omega)]
    refine (List.take_prefix_take_left hle).trans ?_
    rw [List.take_append]
    exact List.prefix_append _ _
  rw [okOr_eq_ok] at hlength
  have hlonger := (hbeginning.take maxImportNameBytes).findIdx?_eq_some hlength
  rw [readRvaCString, hwide, ok_bind]
  dsimp only
  rw [addUsize_eq_ok hsize, ok_bind,
    show (layout.append extra).bytes = layout.bytes ++ extra from rfl,
    slice_eq_ok (Nat.le_add_right _ _) hinside, ok_bind, hlonger, okOr_some, ok_bind]
  obtain ⟨rest, hrest⟩ := hbeginning
  obtain ⟨value, hvalue, h⟩ := bind_eq_ok.mp h
  rw [← hrest, Extends.slice _ rest 0 length value hvalue, ok_bind]
  exact h

/-! ## Imports -/

theorem importSymbol_extends (value ordinalFlag : Nat) (budget : ImportBudget) :
    Extends (importSymbol layout value ordinalFlag budget)
      (importSymbol (layout.append extra) value ordinalFlag budget) := by
  refine (Extends.refl _).bind fun spent _ => ?_
  refine Extends.ite (Extends.refl _) ?_
  refine (Extends.refl _).bind fun _ _ => ?_
  refine (rvaToOffset_extends extra hwords value 2 _).bind fun nameOffset _ => ?_
  refine (readWord_extends layout.bytes extra 2 nameOffset _).bind fun hint _ => ?_
  refine (Extends.refl _).bind fun stringRva _ => ?_
  refine (readRvaCString_extends extra hwords stringRva _).bind fun name _ => ?_
  exact Extends.refl _

/-- The thunks of the longer image are read alike. -/
theorem importThunks_extends (kind : PeKind) (tableRva remaining i : Nat)
    (symbols : List PeImportSymbol) (budget : ImportBudget) :
    Extends (importThunks layout kind tableRva remaining i symbols budget)
      (importThunks (layout.append extra) kind tableRva remaining i symbols budget) := by
  induction remaining generalizing i symbols budget with
  | zero => exact Extends.refl _
  | succ remaining ih =>
    unfold importThunks
    refine (Extends.refl _).bind fun delta _ => ?_
    refine (Extends.refl _).bind fun _ _ => ?_
    refine (Extends.refl _).bind fun rva _ => ?_
    refine (rvaToOffset_extends extra hwords rva _ _).bind fun offset _ => ?_
    refine (readWord_extends layout.bytes extra _ offset _).bind fun value _ => ?_
    refine Extends.ite (Extends.refl _) ?_
    refine (importSymbol_extends extra hwords value _ budget).bind fun result _ => ?_
    exact ih _ _ _

theorem readSymbols_extends (kind : PeKind) (descriptor : Descriptor) (budget : ImportBudget) :
    Extends (readSymbols layout kind descriptor budget)
      (readSymbols (layout.append extra) kind descriptor budget) :=
  Extends.ite (Extends.refl _) (importThunks_extends extra hwords kind _ _ _ _ _)

theorem readImport_extends (kind : PeKind) (descriptor : Descriptor) (budget : ImportBudget) :
    Extends (readImport layout kind descriptor budget)
      (readImport (layout.append extra) kind descriptor budget) := by
  refine (Extends.refl _).bind fun _ _ => ?_
  refine (readRvaCString_extends extra hwords _ _).bind fun dll _ => ?_
  refine (Extends.refl _).bind fun spent _ => ?_
  refine (readSymbols_extends extra hwords kind descriptor spent).bind fun result _ => ?_
  exact Extends.refl _

theorem readDescriptor_extends (directory : DataDirectory) (i : Nat) :
    Extends (readDescriptor layout directory i)
      (readDescriptor (layout.append extra) directory i) := by
  refine (Extends.refl _).bind fun delta _ => ?_
  refine (Extends.refl _).bind fun _ _ => ?_
  refine (Extends.refl _).bind fun rva _ => ?_
  refine (rvaToOffset_extends extra hwords rva _ _).bind fun offset _ => ?_
  refine (readWord_extends layout.bytes extra 4 offset _).bind fun originalFirstThunk _ => ?_
  refine field_extends layout.bytes extra fun timestamp => ?_
  refine field_extends layout.bytes extra fun forwarderChain => ?_
  refine field_extends layout.bytes extra fun nameRva => ?_
  refine field_extends layout.bytes extra fun firstThunk => ?_
  exact Extends.refl _

theorem importDescriptors_extends (kind : PeKind) (directory : DataDirectory)
    (limit remaining i : Nat) (imports : List PeImport) (budget : ImportBudget) :
    Extends (importDescriptors layout kind directory limit remaining i imports budget)
      (importDescriptors (layout.append extra) kind directory limit remaining i imports budget) := by
  induction remaining generalizing i imports budget with
  | zero => exact Extends.refl _
  | succ remaining ih =>
    unfold importDescriptors
    refine (readDescriptor_extends extra hwords directory i).bind fun descriptor _ => ?_
    refine Extends.ite (Extends.refl _) ?_
    refine (readImport_extends extra hwords kind descriptor budget).bind fun result _ => ?_
    exact ih _ _ _

theorem imageImports_extends (kind : PeKind) (directories : List DataDirectory) :
    Extends (imageImports layout kind directories)
      (imageImports (layout.append extra) kind directories) := by
  unfold imageImports
  split
  next directory _ =>
    refine Extends.ite ?_ (Extends.refl _)
    refine (Extends.refl _).bind fun limit _ => ?_
    exact importDescriptors_extends extra hwords kind directory limit limit 0 [] .new
  next => exact Extends.refl _

theorem imageIsManaged_extends (directories : List DataDirectory) :
    Extends (imageIsManaged layout directories)
      (imageIsManaged (layout.append extra) directories) := by
  unfold imageIsManaged
  split
  next directory _ =>
    refine Extends.ite ?_ (Extends.refl _)
    refine (Extends.refl _).bind fun _ _ => ?_
    refine (rvaToOffset_extends extra hwords _ _ _).bind fun _ _ => ?_
    exact Extends.refl _
  next => exact Extends.refl _

end Layout

/-! ## Headers and sections -/

section Headers

variable (bytes)

theorem imageHasCertificateTable_extends (directories : List DataDirectory) :
    Extends (imageHasCertificateTable bytes directories)
      (imageHasCertificateTable (bytes ++ extra) directories) := by
  unfold imageHasCertificateTable
  split
  next directory _ =>
    refine Extends.ite ?_ (Extends.refl _)
    exact (require_extends bytes extra _ _ _).bind fun _ _ => Extends.refl _
  next => exact Extends.refl _

theorem parseDirectories_extends (optional optionalSize directoryOffset count : Nat) :
    Extends (parseDirectories bytes optional optionalSize directoryOffset count)
      (parseDirectories (bytes ++ extra) optional optionalSize directoryOffset count) := by
  refine (Extends.refl _).bind fun _ _ => ?_
  refine (Extends.refl _).bind fun _ _ => ?_
  refine Extends.forEach (fun directories i _ => ?_) []
  refine (Extends.refl _).bind fun _ _ => ?_
  refine (Extends.refl _).bind fun _ _ => ?_
  refine (Extends.refl _).bind fun offset _ => ?_
  refine (readWord_extends bytes extra 4 offset _).bind fun rva _ => ?_
  exact field_extends bytes extra fun size => Extends.refl _

/-- The COFF header of the longer file is the same. -/
theorem parseCoff_extends : Extends (parseCoff bytes) (parseCoff (bytes ++ extra)) := by
  refine (require_extends bytes extra _ _ _).bind fun _ _ => ?_
  refine (Extends.slice bytes extra 0 2).bind fun signature _ => ?_
  refine (Extends.refl _).bind fun _ _ => ?_
  refine (readWord_extends bytes extra 4 _ _).bind fun peOffset _ => ?_
  refine (require_extends bytes extra _ _ _).bind fun _ _ => ?_
  refine (Extends.refl _).bind fun stop _ => ?_
  refine (Extends.slice bytes extra peOffset stop).bind fun signature _ => ?_
  refine (Extends.refl _).bind fun _ _ => ?_
  refine (Extends.refl _).bind fun coff _ => ?_
  refine (readWord_extends bytes extra 2 coff _).bind fun machine _ => ?_
  refine field_extends bytes extra fun numberOfSections => ?_
  refine (Extends.refl _).bind fun _ _ => ?_
  refine field_extends bytes extra fun timestamp => ?_
  refine field_extends bytes extra fun optionalSize => ?_
  refine field_extends bytes extra fun characteristics => ?_
  refine (Extends.refl _).bind fun optional _ => ?_
  refine (require_extends bytes extra _ _ _).bind fun _ _ => ?_
  exact Extends.refl _

theorem parseMagic_extends (coff : CoffHeader) :
    Extends (parseMagic bytes coff) (parseMagic (bytes ++ extra) coff) := by
  refine (readWord_extends bytes extra 2 _ _).bind fun magic _ => ?_
  refine Extends.ite ?_ (Extends.ite ?_ (Extends.refl _))
  · refine (Extends.refl _).bind fun _ _ => ?_
    exact field_extends bytes extra fun imageBase => Extends.refl _
  · refine (Extends.refl _).bind fun _ _ => ?_
    exact field_extends bytes extra fun imageBase => Extends.refl _

theorem parseOptional_extends (coff : CoffHeader) :
    Extends (parseOptional bytes coff) (parseOptional (bytes ++ extra) coff) := by
  refine (parseMagic_extends bytes extra coff).bind fun magic _ => ?_
  refine (Extends.refl _).bind fun _ _ => ?_
  refine field_extends bytes extra fun entryPointRva => ?_
  refine field_extends bytes extra fun sizeOfImage => ?_
  refine field_extends bytes extra fun sizeOfHeaders => ?_
  refine field_extends bytes extra fun subsystem => ?_
  refine field_extends bytes extra fun count => ?_
  refine (parseDirectories_extends bytes extra _ _ _ _).bind fun directories _ => ?_
  exact Extends.refl _

theorem readSection_extends (offset : Nat) :
    Extends (readSection bytes offset) (readSection (bytes ++ extra) offset) := by
  refine (Extends.refl _).bind fun stop _ => ?_
  refine (Extends.slice bytes extra offset stop).bind fun nameField _ => ?_
  refine (Extends.refl _).bind fun nameEnd _ => ?_
  refine (Extends.slice bytes extra offset nameEnd).bind fun name _ => ?_
  refine field_extends bytes extra fun virtualSize => ?_
  refine field_extends bytes extra fun virtualAddress => ?_
  refine field_extends bytes extra fun rawSize => ?_
  refine field_extends bytes extra fun rawOffset => ?_
  refine field_extends bytes extra fun characteristics => ?_
  exact Extends.refl _

theorem parseSections_extends (coff : CoffHeader) :
    Extends (parseSections bytes coff) (parseSections (bytes ++ extra) coff) := by
  refine (Extends.refl _).bind fun sectionsOffset _ => ?_
  refine (Extends.refl _).bind fun tableBytes _ => ?_
  refine (require_extends bytes extra _ _ _).bind fun _ _ => ?_
  refine Extends.forEach (fun sections i _ => ?_) []
  refine (Extends.refl _).bind fun _ _ => ?_
  refine (Extends.refl _).bind fun offset _ => ?_
  refine (readSection_extends bytes extra offset).bind fun one _ => ?_
  exact Extends.refl _

theorem validateSectionRanges_extends (sections : List PeSection) :
    Extends (validateSectionRanges bytes sections)
      (validateSectionRanges (bytes ++ extra) sections) :=
  Extends.forEach
    (fun _ _ _ => Extends.ite (Extends.refl _) (require_extends bytes extra _ _ _)) ()

end Headers

/-! ## The image -/

/-- What is read of an accepted file is read of the longer one. -/
theorem parse_extends (bytes extra : Bytes) : Extends (parse bytes) (parse (bytes ++ extra)) := by
  refine (parseCoff_extends bytes extra).bind fun coff hcoff => ?_
  refine (parseOptional_extends bytes extra coff).bind fun optional hoptional => ?_
  refine (parseSections_extends bytes extra coff).bind fun sections hsections => ?_
  refine (validateSectionRanges_extends bytes extra sections).bind fun _ _ => ?_
  -- Everything in the layout was read from a header, so it is a word of 32 bits.
  have hinside := (parseCoff_ends (S := False) bytes).of_ok hcoff
  have hwords : PeLayout.Words ⟨bytes, optional.sizeOfHeaders, sections⟩ :=
    ⟨(parseOptional_ends (S := False) hinside).of_ok hoptional,
      ((parseSections_ends (S := False) coff).of_ok hsections).2⟩
  refine (imageImports_extends extra hwords _ _).bind fun imports _ => ?_
  refine (imageIsManaged_extends extra hwords _).bind fun isManaged _ => ?_
  refine (imageHasCertificateTable_extends bytes extra _).bind fun hasCertificateTable _ => ?_
  exact Extends.refl _

/-- Data appended to an accepted image changes nothing of what is read. -/
theorem overlay_changes_nothing (bytes extra : Bytes) (image : PeImage)
    (h : parse bytes = .ok image) : parse (bytes ++ extra) = .ok image :=
  parse_extends bytes extra image h

theorem overlay_on_sampleFile :
    parse (sampleFile 0x1000 0x100) =
        .ok (sampleImage 0x100 [⟨"K.dll", [.name 7 "Cr", .ordinal 42]⟩]) ∧
      parse (sampleFile 0x1000 0x100 ++ [1, 2, 3]) =
        .ok (sampleImage 0x100 [⟨"K.dll", [.name 7 "Cr", .ordinal 42]⟩]) :=
  ⟨parse_sampleFile, overlay_changes_nothing _ [1, 2, 3] _ parse_sampleFile⟩

end Lsw.Core.Pe
