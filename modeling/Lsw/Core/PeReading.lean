import Lsw.Core.Pe

/-!
# What a Parsed Image Says about its File

Every function of the parser gets one specification: it does not panic when the file is small
enough, and what it returns is inside the file.  The same pass gives both that `parse` is safe and
that an image it returns is a bounded reading of the bytes: sections whose raw data lies in the
file, an import list that stops at the first null descriptor, names that stand in the file with
their terminator, and totals within the inspection budget however the tables overlap.
-/

namespace Lsw.Core.Pe

open Lib Protocol

variable {S : Prop} {bytes : Bytes}

/-! ## Words and spans -/

theorem require_ends (bytes : Bytes) (offset length : Nat) (what : Message) :
    Ends S (require bytes offset length what) fun _ =>
      offset + length ≤ bytes.length ∧ offset + length < usizeSize := by
  unfold require checkedAdd
  by_cases h : offset + length < usizeSize
  · rw [if_pos h]
    dsimp only
    split
    next => trivial
    next hfits => exact ⟨Nat.le_of_not_gt hfits, h⟩
  · rw [if_neg h]
    trivial

/-- Bytes collected one by one are a part of the file. -/
theorem eq_take_drop_of_forall₂ {offset width : Nat} {part : Bytes}
    (h : List.Forall₂ (fun i b => bytes[offset + i]? = some b) (List.range width) part) :
    part = (bytes.drop offset).take width := by
  have hlength : part.length = width := by
    rw [← h.length_eq, List.length_range]
  apply List.ext_getElem?
  intro i
  by_cases hi : i < width
  · have hpart : i < part.length := by omega
    have hget : bytes[offset + i]? = some part[i] := by
      simpa using h.get (by simpa using hi) hpart
    rw [List.getElem?_eq_getElem hpart, List.getElem?_take_of_lt hi, List.getElem?_drop, hget]
  · rw [List.getElem?_eq_none (by omega),
      List.getElem?_eq_none (by simp only [List.length_take, List.length_drop]; omega)]

theorem word_lt {offset width : Nat} (h : offset + width ≤ bytes.length) :
    word bytes offset width < 256 ^ width := by
  apply ofBeBytes_lt
  rw [List.length_reverse, List.length_take, List.length_drop]
  omega

/-- A word is read inside the file, or refused. -/
theorem readWord_ends (width : Nat) (bytes : Bytes) (offset : Nat) (what : String) :
    Ends S (readWord width bytes offset what) fun value =>
      value = word bytes offset width ∧ offset + width ≤ bytes.length := by
  refine (require_ends bytes offset width _).bind fun _ hfits => ?_
  -- Below the bound that `require` checked, no index and no sum goes wrong.
  have hbyte : ∀ i ∈ List.range width,
      Ends S (do index bytes (← addUsize offset i) : PeResult UInt8) fun b =>
        bytes[offset + i]? = some b := by
    intro i hi
    have hi : i < width := List.mem_range.mp hi
    refine (Ends.addUsize fun _ => by omega).bind ?_
    rintro _ rfl
    exact Ends.index fun _ => by omega
  refine (Ends.mapM hbyte).bind fun part hpart => ?_
  rw [eq_take_drop_of_forall₂ hpart]
  exact ⟨rfl, hfits.1⟩

/-- A field of the headers: an offset computed without a check, and the word there. -/
theorem field_ends {β : Type} {width base delta : Nat} {what : String} {f : Nat → PeResult β}
    {Q : β → Prop} (hsize : S → base + delta < usizeSize)
    (hf : ∀ value, value = word bytes (base + delta) width ∧ value < 256 ^ width →
      Ends S (f value) Q) :
    Ends S (addUsize base delta >>= fun offset => readWord width bytes offset what >>= f) Q := by
  refine (Ends.addUsize hsize).bind ?_
  rintro _ rfl
  refine (readWord_ends width bytes _ what).bind fun value hvalue => ?_
  exact hf value ⟨hvalue.1, hvalue.1 ▸ word_lt hvalue.2⟩

theorem subWord_ends {a b : Nat} (h : b ≤ a) :
    Ends S (subWord a b) fun difference => difference = a - b := by
  rw [subWord, if_pos h]
  exact rfl

theorem spanAt_ends {declaredEnd declaredStart : Nat} (bytes : Bytes) (offset : Nat)
    (what : String) (hdeclared : declaredStart ≤ declaredEnd) :
    Ends S (spanAt bytes offset declaredEnd declaredStart what) fun span =>
      span.1 + span.2 ≤ bytes.length := by
  refine (require_ends bytes offset 1 _).bind fun _ hfits => ?_
  refine (subWord_ends hdeclared).bind ?_
  rintro _ rfl
  refine (subWord_ends (show offset ≤ bytes.length by omega)).bind ?_
  rintro _ rfl
  apply Ends.pure
  show offset + min _ _ ≤ _
  omega

theorem sectionSpan_ends (bytes : Bytes) (rva : Nat) (what : String) (sections : List PeSection) :
    Ends S (sectionSpan bytes rva what sections) fun span => span.1 + span.2 ≤ bytes.length := by
  induction sections with
  | nil => trivial
  | cons pe sections ih =>
    unfold sectionSpan
    refine Ends.ite (fun _ => ih) fun _ => ?_
    refine Ends.ite (fun _ => ih) fun _ => ?_
    refine Ends.ite (fun _ => Ends.fail _ _) fun hraw => ?_
    refine (Ends.okOr _).bind fun offset _ => ?_
    exact spanAt_ends bytes offset what (by omega)

theorem rvaSpan_ends (layout : PeLayout) (rva : Nat) (what : String) :
    Ends S (layout.rvaSpan rva what) fun span => span.1 + span.2 ≤ layout.bytes.length := by
  unfold PeLayout.rvaSpan
  refine Ends.ite (fun hheader => ?_) fun _ => sectionSpan_ends _ _ _ _
  exact spanAt_ends _ _ _ (Nat.le_of_lt hheader)

/-- What an address maps to is in the file, in its whole length. -/
theorem rvaToOffset_ends (layout : PeLayout) (rva length : Nat) (what : String) :
    Ends S (layout.rvaToOffset rva length what) fun offset =>
      offset + length ≤ layout.bytes.length := by
  refine (rvaSpan_ends layout rva what).bind fun span hspan => ?_
  refine (Ends.rejectIf _).bind fun _ hlength => ?_
  apply Ends.pure
  show span.1 + length ≤ _
  omega

/-- The data directories are read inside the optional header. -/
theorem parseDirectories_ends {optional optionalSize : Nat} (directoryOffset count : Nat)
    (hsize : optional + optionalSize < usizeSize) :
    Ends S (parseDirectories bytes optional optionalSize directoryOffset count) fun _ => True := by
  refine (Ends.okOr _).bind fun bytesNeeded hneeded => ?_
  refine (Ends.rejectIf _).bind fun _ hfits => ?_
  -- The table lies within the optional header, or it is refused.
  have hneeded : bytesNeeded = count * 8 := by
    unfold checkedMul at hneeded
    split at hneeded
    · exact (Option.some.inj hneeded).symm
    · cases hneeded
  have htable : directoryOffset + count * 8 ≤ optionalSize := by
    rw [hneeded] at hfits
    unfold checkedAdd at hfits
    split at hfits
    · simpa using hfits
    · simp at hfits
  -- So no offset of an entry overflows.
  refine (Ends.forEach (fun _ _ => True) trivial ?_).mono fun _ _ => trivial
  intro seen i rest directories hrange _
  have hi : i < count := by
    have hmem : i ∈ List.range count := by simp [hrange]
    exact List.mem_range.mp hmem
  refine (Ends.addUsize fun _ => by omega).bind ?_
  rintro _ rfl
  refine (Ends.mulUsize fun _ => by omega).bind ?_
  rintro _ rfl
  refine (Ends.addUsize fun _ => by omega).bind ?_
  rintro _ rfl
  refine (readWord_ends 4 bytes _ _).bind fun rva _ => ?_
  refine field_ends (fun _ => by omega) fun size _ => ?_
  exact Ends.pure trivial

/-! ## Names -/

/-- A name as the image holds it: not empty, free of NUL, short, and standing in the file with its
    terminator. -/
structure IsName (bytes : Bytes) (value : String) : Prop where
  ne_empty : value ≠ ""
  no_nul : 0 ∉ utf8Bytes value
  short : (utf8Bytes value).length < maxImportNameBytes
  inside : ∃ before after, bytes = before ++ (utf8Bytes value ++ 0 :: after)

theorem fromUTF8?_eq_some {part : Bytes} {value : String}
    (h : String.fromUTF8? part.toByteArray = some value) : part = utf8Bytes value := by
  have hok : Decoder.fromUtf8 part = .ok value := by
    rw [Decoder.fromUtf8, h, okOr_some]
  exact fromUtf8_eq_ok.mp hok

theorem utf8ByteSize_eq (value : String) : value.utf8ByteSize = (utf8Bytes value).length := by
  simp [utf8Bytes]

/-- The bytes before the first NUL, and where they stand. -/
theorem cString_of_findIdx? {available : Bytes} {length : Nat}
    (h : (available.take maxImportNameBytes).findIdx? (· == 0) = some length) :
    length < maxImportNameBytes ∧ 0 ∉ available.take length ∧ length < available.length ∧
      available = available.take length ++ 0 :: available.drop (length + 1) := by
  obtain ⟨hlt, hnul, hbefore⟩ := List.findIdx?_eq_some_iff_getElem.mp h
  have hmin : length < maxImportNameBytes ∧ length < available.length := by
    rw [List.length_take] at hlt
    omega
  have hzero : available[length]? = some 0 := by
    rw [List.getElem_take, beq_iff_eq] at hnul
    rw [List.getElem?_eq_getElem hmin.2, hnul]
  refine ⟨hmin.1, ?_, hmin.2, ?_⟩
  · intro hmem
    obtain ⟨i, hi, hget⟩ := List.mem_iff_getElem.mp hmem
    have hi' : i < length := by
      rw [List.length_take] at hi
      omega
    refine hbefore i hi' ?_
    rw [List.getElem_take] at hget ⊢
    simp [hget]
  · conv_lhs => rw [← List.take_append_drop length available]
    rw [List.drop_eq_getElem_cons hmin.2]
    simp [List.getElem?_eq_getElem hmin.2] at hzero
    rw [hzero]

/-- A name that is read stands in the file, up to its terminator. -/
theorem readRvaCString_ends (layout : PeLayout) (rva : Nat) (what : String)
    (hsize : S → layout.bytes.length < usizeSize) :
    Ends S (readRvaCString layout rva what) (IsName layout.bytes) := by
  -- The name is looked for in what the file has from its address on.
  refine (rvaSpan_ends layout rva what).bind fun span hspan => ?_
  refine (Ends.addUsize fun hS => by have := hsize hS; omega).bind ?_
  rintro _ rfl
  refine (Ends.slice fun _ => ⟨Nat.le_add_right _ _, hspan⟩).bind ?_
  rintro available ⟨havailable, -, -⟩
  refine (Ends.okOr _).bind fun length hlength => ?_
  -- Its length is that up to the first zero.
  obtain ⟨hshort, hno, hlt, hsplit⟩ := cString_of_findIdx? hlength
  refine (Ends.slice fun _ => ⟨Nat.zero_le _, Nat.le_of_lt hlt⟩).bind ?_
  rintro part ⟨hpart, -, -⟩
  rw [List.drop_zero] at hpart
  refine (Ends.okOr _).bind fun value hvalue => ?_
  refine (Ends.rejectIf _).bind fun _ hne => ?_
  -- It is UTF-8, and not empty.
  have hbytes : available.take length = utf8Bytes value := hpart ▸ fromUTF8?_eq_some hvalue
  apply Ends.pure
  refine ⟨hne, hbytes ▸ hno, ?_, ?_⟩
  · rw [← hbytes, List.length_take]
    omega
  · -- The span is a part of the file, and the name and its terminator are a part of the span.
    refine ⟨layout.bytes.take span.1,
      available.drop (length + 1) ++ layout.bytes.drop (span.1 + span.2), ?_⟩
    have hfile : layout.bytes =
        layout.bytes.take span.1 ++ (available ++ layout.bytes.drop (span.1 + span.2)) := by
      conv_lhs => rw [← List.take_append_drop (span.1 + span.2) layout.bytes,
        ← List.take_append_drop span.1 (layout.bytes.take (span.1 + span.2)), ← havailable]
      rw [List.take_take, Nat.min_eq_left (Nat.le_add_right _ _), List.append_assoc]
    conv_lhs => rw [hfile, hsplit, hbytes]
    simp

/-! ## Imports -/

/-- The bytes a symbol's name takes. -/
def PeImportSymbol.nameBytes : PeImportSymbol → Nat
  | .name _ value => (utf8Bytes value).length
  | .ordinal _ => 0

/-- The bytes the names of an import take. -/
def PeImport.nameBytes (one : PeImport) : Nat :=
  (utf8Bytes one.dll).length + (one.symbols.map (·.nameBytes)).sum

/-- A named symbol has a name of the file. -/
def PeImportSymbol.Named (bytes : Bytes) : PeImportSymbol → Prop
  | .name _ value => IsName bytes value
  | .ordinal _ => True

/-- All names of an import are names of the file. -/
def PeImport.Named (bytes : Bytes) (one : PeImport) : Prop :=
  IsName bytes one.dll ∧ ∀ symbol ∈ one.symbols, symbol.Named bytes

/-- What was taken from the budget between two points. -/
structure Spends (before after : ImportBudget) (symbols stringBytes : Nat) : Prop where
  symbols : after.symbolsRemaining + symbols = before.symbolsRemaining
  stringBytes : after.stringBytesRemaining + stringBytes = before.stringBytesRemaining

theorem Spends.trans {a b c : ImportBudget} {m n m' n' : Nat} (h : Spends a b m n)
    (h' : Spends b c m' n') : Spends a c (m + m') (n + n') := by
  obtain ⟨hm, hn⟩ := h
  obtain ⟨hm', hn'⟩ := h'
  exact ⟨by omega, by omega⟩

theorem consumeSymbol_ends (budget : ImportBudget) :
    Ends S budget.consumeSymbol fun after => Spends budget after 1 0 := by
  refine (Ends.rejectIf _).bind fun _ h => ?_
  apply Ends.pure
  exact ⟨show budget.symbolsRemaining - 1 + 1 = _ by omega, rfl⟩

theorem consumeString_ends (budget : ImportBudget) (value what : String) :
    Ends S (budget.consumeString value what) fun after =>
      Spends budget after 0 (utf8Bytes value).length := by
  refine (Ends.rejectIf _).bind fun _ h => ?_
  apply Ends.pure
  rw [utf8ByteSize_eq] at h
  refine ⟨rfl, ?_⟩
  show budget.stringBytesRemaining - value.utf8ByteSize + _ = _
  rw [utf8ByteSize_eq]
  omega

section Imports

variable {layout : PeLayout} (hsize : S → layout.bytes.length < usizeSize)
include hsize

/-- A symbol that is read has been paid for. -/
theorem importSymbol_ends (value ordinalFlag : Nat) (budget : ImportBudget) :
    Ends S (importSymbol layout value ordinalFlag budget) fun result =>
      result.1.Named layout.bytes ∧ Spends budget result.2 1 result.1.nameBytes := by
  refine (consumeSymbol_ends budget).bind fun spent hspent => ?_
  refine Ends.ite (fun _ => Ends.pure ⟨trivial, hspent⟩) fun _ => ?_
  refine (Ends.rejectIf _).bind fun _ _ => ?_
  refine (rvaToOffset_ends layout value 2 _).bind fun nameOffset _ => ?_
  refine (readWord_ends 2 layout.bytes nameOffset _).bind fun hint _ => ?_
  refine (Ends.okOr _).bind fun stringRva _ => ?_
  refine (readRvaCString_ends layout stringRva _ hsize).bind fun name hname => ?_
  refine (consumeString_ends spent name _).bind fun after hafter => ?_
  apply Ends.pure
  refine ⟨hname, ?_⟩
  simpa [PeImportSymbol.nameBytes] using hspent.trans hafter

/-- The loop over the thunks: what it adds to the symbols is paid for, symbol by symbol. -/
theorem importThunks_ends (kind : PeKind) (tableRva : Nat) (remaining i : Nat)
    (symbols : List PeImportSymbol) (budget : ImportBudget)
    (hi : i + remaining ≤ maxImportsPerDll) :
    Ends S (importThunks layout kind tableRva remaining i symbols budget) fun result =>
      ∃ added, result.1 = symbols ++ added ∧ (∀ symbol ∈ added, symbol.Named layout.bytes) ∧
        Spends budget result.2 added.length (added.map (·.nameBytes)).sum := by
  -- Over the thunks that may still be read; the symbols and the budget go along.
  induction remaining generalizing i symbols budget with
  | zero => trivial
  | succ remaining ih =>
    have hwidth : kind.thunk.1 ≤ 8 := by cases kind <;> decide
    -- The offset of a thunk cannot overflow.
    have hdelta : i * kind.thunk.1 < usizeSize := by
      have hle : i * kind.thunk.1 ≤ maxImportsPerDll * 8 := Nat.mul_le_mul (by omega) hwidth
      have hlt : maxImportsPerDll * 8 < usizeSize := by decide
      omega
    unfold importThunks
    refine (Ends.mulUsize fun _ => hdelta).bind fun delta _ => ?_
    refine (Ends.rejectIf _).bind fun _ _ => ?_
    refine (Ends.okOr _).bind fun rva _ => ?_
    refine (rvaToOffset_ends layout rva _ _).bind fun offset _ => ?_
    refine (readWord_ends _ layout.bytes offset _).bind fun value _ => ?_
    -- A thunk of zero ends the table.
    refine Ends.ite (fun _ => Ends.pure ⟨[], by simp, by simp, rfl, rfl⟩) fun _ => ?_
    -- Any other one is a symbol that is paid for.
    refine (importSymbol_ends hsize value _ budget).bind ?_
    rintro ⟨symbol, spent⟩ ⟨hnamed, hspent⟩
    refine (ih (i + 1) (symbols ++ [symbol]) spent (by omega)).mono ?_
    rintro result ⟨added, hresult, hall, hrest⟩
    refine ⟨symbol :: added, by rw [hresult]; simp, ?_, ?_⟩
    · intro other hother
      rcases List.mem_cons.mp hother with rfl | hmem
      · exact hnamed
      · exact hall other hmem
    · have htotal := hspent.trans hrest
      rw [Nat.add_comm 1] at htotal
      simpa using htotal

theorem parseImportThunks_ends (kind : PeKind) (tableRva : Nat) (budget : ImportBudget) :
    Ends S (parseImportThunks layout kind tableRva budget) fun result =>
      (∀ symbol ∈ result.1, symbol.Named layout.bytes) ∧
        Spends budget result.2 result.1.length (result.1.map (·.nameBytes)).sum := by
  refine (importThunks_ends hsize kind tableRva maxImportsPerDll 0 [] budget (by omega)).mono ?_
  rintro result ⟨added, hresult, hall, hspent⟩
  rw [List.nil_append] at hresult
  rw [hresult]
  exact ⟨hall, hspent⟩

theorem readSymbols_ends (kind : PeKind) (descriptor : Descriptor) (budget : ImportBudget) :
    Ends S (readSymbols layout kind descriptor budget) fun result =>
      (∀ symbol ∈ result.1, symbol.Named layout.bytes) ∧
        Spends budget result.2 result.1.length (result.1.map (·.nameBytes)).sum := by
  unfold readSymbols
  refine Ends.ite (fun _ => Ends.ok ⟨by simp, rfl, rfl⟩) fun _ => ?_
  exact parseImportThunks_ends hsize kind _ budget

/-- So has an import with all its symbols. -/
theorem readImport_ends (kind : PeKind) (descriptor : Descriptor) (budget : ImportBudget) :
    Ends S (readImport layout kind descriptor budget) fun result =>
      readRvaCString layout descriptor.nameRva "import DLL name" = .ok result.1.dll ∧
        result.1.Named layout.bytes ∧
        Spends budget result.2 result.1.symbols.length result.1.nameBytes := by
  refine (Ends.rejectIf _).bind fun _ _ => ?_
  refine (readRvaCString_ends layout _ _ hsize).self.bind ?_
  rintro dll ⟨hread, hdll⟩
  refine (consumeString_ends budget dll _).bind fun spent hspent => ?_
  refine (readSymbols_ends hsize kind descriptor spent).bind ?_
  rintro ⟨symbols, after⟩ ⟨hnamed, hafter⟩
  apply Ends.pure
  refine ⟨hread, ⟨hdll, hnamed⟩, ?_⟩
  simpa [PeImport.nameBytes] using hspent.trans hafter

end Imports

/-- The five words at an offset. -/
def Descriptor.at (bytes : Bytes) (offset : Nat) : Descriptor where
  originalFirstThunk := word bytes offset 4
  timestamp := word bytes (offset + 4) 4
  forwarderChain := word bytes (offset + 8) 4
  nameRva := word bytes (offset + 12) 4
  firstThunk := word bytes (offset + 16) 4

/-- The place in the file of a descriptor of the import directory. -/
structure DescriptorAt (layout : PeLayout) (directory : DataDirectory) (i offset : Nat) : Prop where
  mapped : layout.rvaToOffset (directory.rva + i * importDescriptorBytes) importDescriptorBytes
    "import descriptor" = .ok offset
  inside : offset + importDescriptorBytes ≤ layout.bytes.length

/-- A descriptor is read where it stands. -/
theorem readDescriptor_ends (layout : PeLayout) (directory : DataDirectory) {i : Nat}
    (hi : i ≤ maxImportDescriptors) (hsize : S → layout.bytes.length < usizeSize) :
    Ends S (readDescriptor layout directory i) fun descriptor =>
      ∃ offset, DescriptorAt layout directory i offset ∧
        descriptor = .at layout.bytes offset := by
  -- The offset in the table cannot overflow, as the number of descriptors is bounded.
  have hdelta : i * importDescriptorBytes < usizeSize := by
    have hle : i * importDescriptorBytes ≤ maxImportDescriptors * importDescriptorBytes :=
      Nat.mul_le_mul_right _ hi
    have hlt : maxImportDescriptors * importDescriptorBytes < usizeSize := by decide
    omega
  refine (Ends.mulUsize fun _ => hdelta).bind ?_
  rintro _ rfl
  refine (Ends.rejectIf _).bind fun _ _ => ?_
  refine (Ends.okOr _).bind fun rva hrva => ?_
  have hrva : directory.rva + i * importDescriptorBytes = rva := by
    unfold checkedAddU32 at hrva
    split at hrva
    · exact Option.some.inj hrva
    · cases hrva
  subst hrva
  -- The descriptor lies in the file as a whole.
  refine (rvaToOffset_ends layout _ _ _).self.bind fun offset hoffset => ?_
  have hinside : offset + 20 ≤ layout.bytes.length := hoffset.2
  -- So do its fields.
  have hfield : ∀ delta ≤ 16, S → offset + delta < usizeSize := by
    intro delta hdelta hS
    have := hsize hS
    omega
  refine (readWord_ends 4 layout.bytes offset _).bind fun originalFirstThunk h₀ => ?_
  refine field_ends (hfield 4 (by decide)) fun timestamp h₄ => ?_
  refine field_ends (hfield 8 (by decide)) fun forwarderChain h₈ => ?_
  refine field_ends (hfield 12 (by decide)) fun nameRva h₁₂ => ?_
  refine field_ends (hfield 16 (by decide)) fun firstThunk h₁₆ => ?_
  apply Ends.pure
  refine ⟨offset, ⟨hoffset.1, hinside⟩, ?_⟩
  rw [h₀.1, h₄.1, h₈.1, h₁₂.1, h₁₆.1, Descriptor.at]

/-- An import is what a descriptor of the directory, which is not null, describes. -/
def ImportAt (layout : PeLayout) (kind : PeKind) (directory : DataDirectory) (i : Nat)
    (one : PeImport) : Prop :=
  ∃ offset before after, DescriptorAt layout directory i offset ∧
    Descriptor.at layout.bytes offset ≠ .null ∧
    readImport layout kind (.at layout.bytes offset) before = .ok (one, after)

/-- A list of imports is the list of the descriptors from an index on, up to the first null one. -/
structure UpToNull (layout : PeLayout) (kind : PeKind) (directory : DataDirectory) (i : Nat)
    (imports : List PeImport) : Prop where
  described : ∀ k one, imports[k]? = some one → ImportAt layout kind directory (i + k) one
  stop : ∃ offset, DescriptorAt layout directory (i + imports.length) offset ∧
    Descriptor.at layout.bytes offset = .null

/-- One more import in front of those up to the null descriptor. -/
theorem UpToNull.cons {layout : PeLayout} {kind : PeKind} {directory : DataDirectory} {i : Nat}
    {one : PeImport} {rest : List PeImport} (hone : ImportAt layout kind directory i one)
    (h : UpToNull layout kind directory (i + 1) rest) :
    UpToNull layout kind directory i (one :: rest) := by
  refine ⟨?_, ?_⟩
  · intro k other hother
    cases k with
    | zero =>
      obtain rfl : one = other := Option.some.inj hother
      exact hone
    | succ k =>
      have hdescribed := h.described k other hother
      rwa [Nat.add_assoc, Nat.add_comm 1] at hdescribed
  · have hstop := h.stop
    rwa [Nat.add_assoc, Nat.add_comm 1] at hstop

/-- The symbols of a list of imports. -/
def symbolTotal (imports : List PeImport) : Nat := (imports.map (·.symbols.length)).sum

/-- The bytes of the names of a list of imports, each counted as often as it is listed. -/
def nameTotal (imports : List PeImport) : Nat := (imports.map (·.nameBytes)).sum

/-- A list of imports that a budget pays for, with names of the file. -/
structure Affordable (bytes : Bytes) (budget : ImportBudget) (imports : List PeImport) : Prop where
  named : ∀ one ∈ imports, one.Named bytes
  symbols : symbolTotal imports ≤ budget.symbolsRemaining
  names : nameTotal imports ≤ budget.stringBytesRemaining

theorem Affordable.nil (bytes : Bytes) (budget : ImportBudget) : Affordable bytes budget [] :=
  ⟨by simp, Nat.zero_le _, Nat.zero_le _⟩

/-- One more import that has been paid for. -/
theorem Affordable.cons {budget after : ImportBudget} {one : PeImport} {rest : List PeImport}
    (hnamed : one.Named bytes) (hspent : Spends budget after one.symbols.length one.nameBytes)
    (h : Affordable bytes after rest) : Affordable bytes budget (one :: rest) := by
  obtain ⟨hall, hsymbols, hnames⟩ := h
  obtain ⟨hspentSymbols, hspentNames⟩ := hspent
  refine ⟨?_, ?_, ?_⟩
  · intro other hother
    rcases List.mem_cons.mp hother with rfl | hmem
    · exact hnamed
    · exact hall other hmem
  · rw [symbolTotal, List.map_cons, List.sum_cons]
    rw [symbolTotal] at hsymbols
    omega
  · rw [nameTotal, List.map_cons, List.sum_cons]
    rw [nameTotal] at hnames
    omega

/-- The loop over the descriptors: it adds the imports from `i` on, and the budget pays for all of
    them, however often their tables and names share their bytes. -/
theorem importDescriptors_ends {layout : PeLayout} (kind : PeKind) (directory : DataDirectory)
    (limit remaining i : Nat) (imports : List PeImport) (budget : ImportBudget)
    (hi : i + remaining ≤ maxImportDescriptors) (hsize : S → layout.bytes.length < usizeSize) :
    Ends S (importDescriptors layout kind directory limit remaining i imports budget) fun result =>
      ∃ added, result = imports ++ added ∧ UpToNull layout kind directory i added ∧
        Affordable layout.bytes budget added := by
  induction remaining generalizing i imports budget with
  | zero => trivial
  | succ remaining ih =>
    unfold importDescriptors
    refine (readDescriptor_ends layout directory (by omega) hsize).bind ?_
    rintro _ ⟨offset, hoffset, rfl⟩
    refine Ends.ite (fun hnull => ?_) fun hnull => ?_
    · -- The first null descriptor: nothing is added.
      apply Ends.pure
      refine ⟨[], (List.append_nil _).symm, ⟨by simp, offset, hoffset, hnull⟩, ?_⟩
      exact Affordable.nil _ _
    · refine (readImport_ends hsize kind _ budget).self.bind ?_
      rintro ⟨one, after⟩ ⟨hread, -, hnamed, hspent⟩
      refine (ih (i + 1) (imports ++ [one]) after (by omega)).mono ?_
      rintro result ⟨added, hresult, hupto, haffordable⟩
      refine ⟨one :: added, by rw [hresult]; simp, ?_, haffordable.cons hnamed hspent⟩
      exact hupto.cons ⟨offset, budget, after, hoffset, hnull, hread⟩

theorem descriptorLimit_ends (directory : DataDirectory) :
    Ends S (descriptorLimit directory) fun limit => limit ≤ maxImportDescriptors := by
  unfold descriptorLimit
  refine Ends.ite (fun _ => Ends.ok (Nat.le_refl _)) fun _ => ?_
  refine (Ends.rejectIf _).bind fun _ _ => ?_
  exact Ends.pure (Nat.min_le_right _ _)

theorem parseImports_ends {layout : PeLayout} (kind : PeKind) (directory : DataDirectory)
    (hsize : S → layout.bytes.length < usizeSize) :
    Ends S (parseImports layout kind directory) fun imports =>
      UpToNull layout kind directory 0 imports ∧ Affordable layout.bytes .new imports := by
  refine (descriptorLimit_ends directory).bind fun limit hlimit => ?_
  refine (importDescriptors_ends kind directory limit limit 0 [] .new (by omega) hsize).mono ?_
  rintro _ ⟨added, rfl, hupto, haffordable⟩
  exact ⟨hupto, haffordable⟩

/-! ## Headers -/

theorem checkedAddOr_ends (left right : Nat) (what : String) :
    Ends S (checkedAddOr left right what) fun sum => sum = left + right ∧ sum < usizeSize := by
  refine (Ends.okOr _).mono fun sum hsum => ?_
  unfold checkedAdd at hsum
  split at hsum
  next hfits => cases hsum; exact ⟨rfl, hfits⟩
  next => cases hsum

/-- An optional header that is in the file, and a section count that was checked. -/
structure CoffHeader.Inside (bytes : Bytes) (coff : CoffHeader) : Prop where
  inside : coff.optional + coff.optionalSize ≤ bytes.length
  representable : coff.optional + coff.optionalSize < usizeSize
  sections : coff.numberOfSections ≤ 96

/-- A COFF header that is read lies inside the file. -/
theorem parseCoff_ends (bytes : Bytes) :
    Ends S (parseCoff bytes) (CoffHeader.Inside bytes) := by
  -- The DOS header is there, and with it the offset of the other one.
  refine (require_ends bytes 0 _ _).bind fun _ hdos => ?_
  have hdos : 64 ≤ bytes.length := by simpa [dosHeaderBytes] using hdos.1
  refine (Ends.slice fun _ => by omega).bind fun signature _ => ?_
  refine (Ends.rejectIf _).bind fun _ _ => ?_
  refine (readWord_ends 4 bytes _ _).bind fun peOffset _ => ?_
  -- So are the signature and the COFF header.
  refine (require_ends bytes peOffset _ _).bind fun _ hpe => ?_
  have hpe : peOffset + 24 ≤ bytes.length ∧ peOffset + 24 < usizeSize := hpe
  refine (Ends.addUsize fun _ => by omega).bind ?_
  rintro _ rfl
  refine (Ends.slice fun _ => by omega).bind fun signature _ => ?_
  refine (Ends.rejectIf _).bind fun _ _ => ?_
  refine (checkedAddOr_ends _ _ _).bind ?_
  rintro coff ⟨rfl, -⟩
  -- Its fields.
  refine (readWord_ends 2 bytes _ _).bind fun machine _ => ?_
  refine field_ends (fun _ => by omega) fun numberOfSections _ => ?_
  refine (Ends.rejectIf _).bind fun _ hsections => ?_
  refine field_ends (fun _ => by omega) fun timestamp _ => ?_
  refine field_ends (fun _ => by omega) fun optionalSize _ => ?_
  refine field_ends (fun _ => by omega) fun characteristics _ => ?_
  refine (checkedAddOr_ends _ _ _).bind ?_
  rintro optional ⟨rfl, -⟩
  -- The optional header lies in the file, too.
  refine (require_ends bytes _ optionalSize _).bind fun _ hoptional => ?_
  apply Ends.pure
  exact ⟨hoptional.1, hoptional.2, Nat.le_of_not_gt hsections⟩

/-- The magic number decides how long the optional header must be at least. -/
theorem parseMagic_ends {coff : CoffHeader} (hcoff : coff.Inside bytes) :
    Ends S (parseMagic bytes coff) fun magic => 96 ≤ coff.optionalSize ∧
      magic.2.2.1 ≤ coff.optionalSize := by
  obtain ⟨-, hsize, -⟩ := hcoff
  refine (readWord_ends 2 bytes _ _).bind fun magic _ => ?_
  refine Ends.ite (fun _ => ?_) fun _ => Ends.ite (fun _ => ?_) fun _ => Ends.fail _ _
  · refine (Ends.rejectIf _).bind fun _ hminimum => ?_
    refine field_ends (fun _ => by omega) fun imageBase _ => ?_
    apply Ends.pure
    show 96 ≤ coff.optionalSize ∧ 92 ≤ coff.optionalSize
    omega
  · refine (Ends.rejectIf _).bind fun _ hminimum => ?_
    refine field_ends (fun _ => by omega) fun imageBase _ => ?_
    apply Ends.pure
    show 96 ≤ coff.optionalSize ∧ 108 ≤ coff.optionalSize
    omega

/-- The optional header is read inside its size, and says the size of the headers with a word. -/
theorem parseOptional_ends {coff : CoffHeader} (hcoff : coff.Inside bytes) :
    Ends S (parseOptional bytes coff) fun optional => optional.sizeOfHeaders < u32Size := by
  have hsize := hcoff.representable
  refine (parseMagic_ends hcoff).bind ?_
  rintro ⟨kind, dataDirectoryOffset, directoryCountOffset, imageBase⟩ ⟨hminimum, hcount⟩
  replace hcount : directoryCountOffset ≤ coff.optionalSize := hcount
  refine (Ends.rejectIf _).bind fun _ _ => ?_
  refine field_ends (fun _ => by omega) fun entryPointRva _ => ?_
  refine field_ends (fun _ => by omega) fun sizeOfImage _ => ?_
  refine field_ends (fun _ => by omega) fun sizeOfHeaders hheaders => ?_
  refine field_ends (fun _ => by omega) fun subsystem _ => ?_
  refine field_ends (fun _ => by omega) fun count _ => ?_
  refine (parseDirectories_ends _ _ hsize).bind fun directories _ => ?_
  exact Ends.pure hheaders.2

/-! ## Sections -/

/-- The raw size of a section is a word. -/
theorem readSection_ends {offset : Nat} (hinside : offset + 40 ≤ bytes.length)
    (hsize : offset + 40 < usizeSize) :
    Ends S (readSection bytes offset) fun one => one.rawSize < u32Size := by
  refine (Ends.addUsize fun _ => by omega).bind ?_
  rintro _ rfl
  refine (Ends.slice fun _ => by omega).bind ?_
  rintro nameField ⟨hfield, -, -⟩
  -- The name takes eight bytes.
  have hlength : nameField.length = 8 := by
    rw [hfield, List.length_drop, List.length_take]
    omega
  -- Its end is found within them.
  have hname : (nameField.findIdx? (· == 0)).getD 8 ≤ 8 := by
    cases hfind : nameField.findIdx? (· == 0) with
    | none => exact Nat.le_refl 8
    | some i =>
      have hi := (List.findIdx?_eq_some_iff_getElem.mp hfind).1
      exact Nat.le_of_lt (hlength ▸ hi)
  refine (Ends.addUsize fun _ => by omega).bind ?_
  rintro _ rfl
  refine (Ends.slice fun _ => by omega).bind fun name _ => ?_
  -- The fields of the section lie in the file, as the section does.
  refine field_ends (fun _ => by omega) fun virtualSize _ => ?_
  refine field_ends (fun _ => by omega) fun virtualAddress _ => ?_
  refine field_ends (fun _ => by omega) fun rawSize hraw => ?_
  refine field_ends (fun _ => by omega) fun rawOffset _ => ?_
  refine field_ends (fun _ => by omega) fun characteristics _ => ?_
  exact Ends.pure hraw.2

/-- There are as many sections as the header says. -/
theorem parseSections_ends (coff : CoffHeader) :
    Ends S (parseSections bytes coff) fun sections =>
      sections.length = coff.numberOfSections ∧ ∀ pe ∈ sections, pe.rawSize < u32Size := by
  refine (checkedAddOr_ends _ _ _).bind ?_
  rintro sectionsOffset ⟨rfl, -⟩
  refine (Ends.okOr _).bind fun tableBytes htable => ?_
  have htable : tableBytes = coff.numberOfSections * 40 := by
    unfold checkedMul at htable
    split at htable
    · exact (Option.some.inj htable).symm
    · cases htable
  refine (require_ends bytes _ _ _).bind fun _ hfits => ?_
  rw [htable] at hfits
  refine (Ends.forEach
    (fun seen sections => sections.length = seen.length ∧ ∀ pe ∈ sections, pe.rawSize < u32Size)
    ⟨rfl, by simp⟩ ?_).mono ?_
  · intro seen i rest sections hrange hsections
    have hi : i < coff.numberOfSections := by
      have hmem : i ∈ List.range coff.numberOfSections := by simp [hrange]
      exact List.mem_range.mp hmem
    -- One header of the table ends where the next one starts, so it is in the file.
    have hnext : i * sectionHeaderBytes + 40 ≤ coff.numberOfSections * 40 := by
      rw [sectionHeaderBytes]
      omega
    refine (Ends.mulUsize fun _ => by omega).bind ?_
    rintro _ rfl
    refine (Ends.addUsize fun _ => by omega).bind ?_
    rintro _ rfl
    refine (readSection_ends (by omega) (by omega)).bind fun one hone => ?_
    apply Ends.pure
    refine ⟨by simp [hsections.1], ?_⟩
    intro pe hpe
    rcases List.mem_append.mp hpe with hmem | hmem
    · exact hsections.2 pe hmem
    · rw [List.mem_singleton.mp hmem]
      exact hone
  · intro sections hsections
    rw [hsections.1, List.length_range]
    exact ⟨rfl, hsections.2⟩

/-- A section whose raw range is not empty has it in the file. -/
def PeSection.Inside (bytes : Bytes) (pe : PeSection) : Prop :=
  pe.rawSize ≠ 0 → pe.rawOffset + pe.rawSize ≤ bytes.length

/-- Sections that are accepted lie inside the file. -/
theorem validateSectionRanges_ends (bytes : Bytes) (sections : List PeSection) :
    Ends S (validateSectionRanges bytes sections) fun _ =>
      ∀ pe ∈ sections, pe.Inside bytes := by
  apply Ends.forEach (fun seen _ => ∀ pe ∈ seen, PeSection.Inside bytes pe) (by simp)
  intro seen pe rest _ _ hseen
  have hstep : Ends S
      (if pe.rawSize = 0 then .ok ()
        else require bytes pe.rawOffset pe.rawSize [.text "section ", .debug pe.name] :
        PeResult Unit) fun _ => pe.Inside bytes := by
    refine Ends.ite (fun hzero => ?_) fun _ => ?_
    · exact Ends.ok fun hne => absurd hzero hne
    · exact (require_ends bytes _ _ _).mono fun _ hfits _ => hfits.1
  refine hstep.mono fun _ hpe other hother => ?_
  rcases List.mem_append.mp hother with hmem | hmem
  · exact hseen other hmem
  · rw [List.mem_singleton.mp hmem]
    exact hpe

/-! ## The image -/

/-- A list of imports is the one of the import directory, if there is one. -/
structure ImportList (layout : PeLayout) (kind : PeKind) (directories : List DataDirectory)
    (imports : List PeImport) : Prop where
  present : ∀ directory, directories[directoryEntryImport]? = some directory →
    directory.rva ≠ 0 → UpToNull layout kind directory 0 imports
  absent : (∀ directory, directories[directoryEntryImport]? = some directory →
    directory.rva = 0) → imports = []

/-- The imports of an image are listed up to the null descriptor, within the budget. -/
theorem imageImports_ends {layout : PeLayout} (kind : PeKind) (directories : List DataDirectory)
    (hsize : S → layout.bytes.length < usizeSize) :
    Ends S (imageImports layout kind directories) fun imports =>
      ImportList layout kind directories imports ∧ Affordable layout.bytes .new imports := by
  unfold imageImports
  split
  next directory hdirectory =>
    refine Ends.ite (fun hrva => ?_) fun hrva => ?_
    · refine (parseImports_ends kind directory hsize).mono ?_
      rintro imports ⟨hupto, haffordable⟩
      refine ⟨⟨?_, fun hnone => absurd (hnone directory hdirectory) hrva⟩, haffordable⟩
      intro other hother _
      obtain rfl : directory = other := Option.some.inj (hdirectory.symm.trans hother)
      exact hupto
    · refine Ends.ok ⟨⟨?_, fun _ => rfl⟩, Affordable.nil _ _⟩
      intro other hother hne
      obtain rfl : directory = other := Option.some.inj (hdirectory.symm.trans hother)
      exact absurd hne hrva
  next hnone =>
    refine Ends.ok ⟨⟨?_, fun _ => rfl⟩, Affordable.nil _ _⟩
    intro other hother
    rw [hnone] at hother
    cases hother

theorem imageIsManaged_ends (layout : PeLayout) (directories : List DataDirectory) :
    Ends S (imageIsManaged layout directories) fun _ => True := by
  unfold imageIsManaged
  split
  next directory _ =>
    refine Ends.ite (fun _ => ?_) fun _ => Ends.ok trivial
    refine (Ends.rejectIf _).bind fun _ _ => ?_
    exact (rvaToOffset_ends layout _ _ _).bind fun _ _ => Ends.pure trivial
  next => exact Ends.ok trivial

theorem imageHasCertificateTable_ends (bytes : Bytes) (directories : List DataDirectory) :
    Ends S (imageHasCertificateTable bytes directories) fun _ => True := by
  unfold imageHasCertificateTable
  split
  next directory _ =>
    refine Ends.ite (fun _ => ?_) fun _ => Ends.ok trivial
    exact (require_ends bytes _ _ _).bind fun _ _ => Ends.pure trivial
  next => exact Ends.ok trivial

/-- An image is a bounded reading of a file. -/
structure BoundedReading (bytes : Bytes) (image : PeImage) : Prop where
  sectionCount : image.sections.length ≤ 96
  sectionRanges : ∀ pe ∈ image.sections, pe.rawSize ≠ 0 →
    pe.rawOffset + pe.rawSize ≤ bytes.length
  imports : ∃ coff optional, parseCoff bytes = .ok coff ∧ parseOptional bytes coff = .ok optional ∧
    optional.kind = image.kind ∧
    ImportList ⟨bytes, optional.sizeOfHeaders, image.sections⟩ image.kind optional.directories
      image.imports
  dllNames : ∀ one ∈ image.imports, IsName bytes one.dll
  symbolNames : ∀ one ∈ image.imports, ∀ hint name, .name hint name ∈ one.symbols →
    IsName bytes name
  symbolTotal : symbolTotal image.imports ≤ maxTotalImportSymbols
  nameTotal : nameTotal image.imports ≤ maxTotalImportStringBytes

/-- Parsing ends, and what is accepted is a bounded reading of the file. -/
theorem parse_ends (bytes : Bytes) (hsize : S → bytes.length < usizeSize) :
    Ends S (parse bytes) (BoundedReading bytes) := by
  refine (parseCoff_ends bytes).self.bind fun coff hcoff => ?_
  refine (parseOptional_ends hcoff.2).self.bind fun optional hoptional => ?_
  refine (parseSections_ends coff).bind fun sections hsections => ?_
  refine (validateSectionRanges_ends bytes sections).bind fun _ hranges => ?_
  refine (imageImports_ends optional.kind _ hsize).bind fun imports himports => ?_
  refine (imageIsManaged_ends _ _).bind fun isManaged _ => ?_
  refine (imageHasCertificateTable_ends bytes _).bind fun hasCertificateTable _ => ?_
  apply Ends.pure
  obtain ⟨hlist, hnamed, hsymbols, hnames⟩ := himports
  exact {
    sectionCount := hsections.1 ▸ hcoff.2.sections
    sectionRanges := hranges
    imports := ⟨coff, optional, hcoff.1, hoptional.1, rfl, hlist⟩
    dllNames := fun one hone => (hnamed one hone).1
    symbolNames := fun one hone hint name hmem => (hnamed one hone).2 (.name hint name) hmem
    symbolTotal := hsymbols
    nameTotal := hnames }

/-- Bytes of the least significant first, and a field padded with zeros. -/
def little (width n : Nat) : Bytes := (beBytes width n).reverse

def field (width : Nat) (value : Bytes) : Bytes :=
  value ++ List.replicate (width - value.length) 0

/-- A PE32+ file of 512 bytes with one section.  Its data, from byte 256 on, is an import table with
    one descriptor, for `Cr` by name and for the ordinal 42 of `K.dll`. -/
def sampleFile (importRva rawSize : Nat) : Bytes :=
  -- the DOS header
  field 60 [0x4d, 0x5a] ++ little 4 64 ++
  -- the signature and the COFF header
  [0x50, 0x45, 0, 0] ++ little 2 0x8664 ++ field 14 (little 2 1) ++ field 4 (little 2 128) ++
  -- the optional header, with two data directories
  field 60 (little 2 0x020b) ++ field 8 (little 4 0x100) ++ field 40 (little 2 3) ++
    field 12 (little 4 2) ++ little 4 importRva ++ little 4 40 ++
  -- the section table
  field 8 [0x2e, 0x72] ++ little 4 0x100 ++ little 4 0x1000 ++ little 4 rawSize ++
    field 20 (little 4 0x100) ++
  -- the descriptors, the thunks, the name of the library and of the symbol with its hint
  field 12 (little 4 0x1040) ++ field 52 (little 4 0x1060) ++
    little 8 0x1080 ++ field 24 (little 8 0x800000000000002a) ++
    field 32 [0x4b, 0x2e, 0x64, 0x6c, 0x6c] ++ field 128 [7, 0, 0x43, 0x72]

theorem length_little (width n : Nat) : (little width n).length = width := by
  rw [little, List.length_reverse, length_beBytes]

theorem length_field (width : Nat) (value : Bytes) :
    (field width value).length = max value.length width := by
  rw [field, List.length_append, List.length_replicate]
  omega

theorem length_sampleFile (importRva rawSize : Nat) :
    (sampleFile importRva rawSize).length = 512 := by
  unfold sampleFile
  repeat rw [List.length_append]
  repeat rw [length_field]
  repeat rw [length_little]
  rfl

/-- What `parse` makes of it. -/
def sampleImage (rawSize : Nat) (imports : List PeImport) : PeImage where
  kind := .pe32Plus
  machine := .x86_64
  subsystem := .windowsConsole
  timestamp := 0
  characteristics := 0
  entryPointRva := 0
  imageBase := 0
  sizeOfImage := 0
  isDll := false
  isManaged := false
  hasCertificateTable := false
  sections := [⟨['.', 'r'], 0x1000, 0x100, 0x100, rawSize, 0⟩]
  imports := imports

theorem parse_sampleFile :
    parse (sampleFile 0x1000 0x100) =
      .ok (sampleImage 0x100 [⟨"K.dll", [.name 7 "Cr", .ordinal 42]⟩]) := by
  decide +kernel

/-- A file of the size that is read at all is parsed or rejected, whatever it holds. -/
theorem parse_never_panics (bytes : Bytes) (hsize : bytes.length ≤ maxPeBytes) :
    (∃ image, parse bytes = .ok image) ∨ ∃ e, parse bytes = .error (.error e) := by
  have hbound : maxPeBytes < usizeSize := by decide
  have hends := parse_ends (S := True) bytes fun _ => Nat.lt_of_le_of_lt hsize hbound
  cases hparse : parse bytes with
  | ok image => exact .inl ⟨image, rfl⟩
  | error fault =>
    cases fault with
    | error e => exact .inr ⟨e, rfl⟩
    | panic => exact absurd hparse (hends.not_panic trivial)

theorem parse_never_panics_on_sampleFile :
    (sampleFile 0x1000 0x100).length ≤ maxPeBytes ∧
      ((∃ image, parse (sampleFile 0x1000 0x100) = .ok image) ∨
        ∃ e, parse (sampleFile 0x1000 0x100) = .error (.error e)) := by
  have hsize : (sampleFile 0x1000 0x100).length ≤ maxPeBytes := by
    rw [length_sampleFile]
    decide
  exact ⟨hsize, parse_never_panics _ hsize⟩

/-- What is accepted is a bounded reading of the file. -/
theorem parse_is_bounded_reading (bytes : Bytes) (image : PeImage)
    (h : parse bytes = .ok image) : BoundedReading bytes image := by
  have hends := parse_ends (S := False) bytes False.elim
  exact hends.of_ok h

theorem sampleImage_is_bounded_reading :
    parse (sampleFile 0x1000 0x100) =
        .ok (sampleImage 0x100 [⟨"K.dll", [.name 7 "Cr", .ordinal 42]⟩]) ∧
      BoundedReading (sampleFile 0x1000 0x100)
        (sampleImage 0x100 [⟨"K.dll", [.name 7 "Cr", .ordinal 42]⟩]) :=
  ⟨parse_sampleFile, parse_is_bounded_reading _ _ parse_sampleFile⟩

/-- A section without raw data is accepted: its raw range is empty. -/
theorem empty_raw_range_is_accepted :
    parse (sampleFile 0 0) = .ok (sampleImage 0 []) ∧
      ¬ ∀ pe ∈ (sampleImage 0 []).sections,
        0 < pe.rawSize ∧ pe.rawOffset + pe.rawSize ≤ (sampleFile 0 0).length := by
  refine ⟨by decide +kernel, ?_⟩
  intro h
  exact Nat.lt_irrefl 0 (h _ List.mem_cons_self).1

end Lsw.Core.Pe
