import Lsw.Core.Manifest
import Lsw.Lib.Lossy
import Lsw.Lib.Outcome
import Lsw.Protocol.Codec

/-!
# Inspecting PE Images

`PeImage::parse` reads the headers, the section table and the import tables of a Windows
executable from a byte slice that nobody vouches for.  Offsets and lengths are natural numbers
here; every addition, multiplication, subtraction and index that the source leaves unchecked is one
that panics when it does not fit, and the checked ones report their error.

Words read from the file are natural numbers below two to the number of their bits.
-/

namespace Lsw.Core.Pe

open Lib Protocol

/-! ## Constants -/

/-- `DOS_HEADER_BYTES`. -/
def dosHeaderBytes : Nat := 64
/-- `COFF_HEADER_BYTES`. -/
def coffHeaderBytes : Nat := 20
/-- `SECTION_HEADER_BYTES`. -/
def sectionHeaderBytes : Nat := 40
/-- `IMPORT_DESCRIPTOR_BYTES`. -/
def importDescriptorBytes : Nat := 20
/-- `COR20_HEADER_BYTES`. -/
def cor20HeaderBytes : Nat := 72
/-- `MAX_PE_BYTES`. -/
def maxPeBytes : Nat := 512 * 1024 * 1024
/-- `MAX_IMPORT_DESCRIPTORS`. -/
def maxImportDescriptors : Nat := 4096
/-- `MAX_IMPORTS_PER_DLL`. -/
def maxImportsPerDll : Nat := 65536
/-- `MAX_IMPORT_NAME_BYTES`. -/
def maxImportNameBytes : Nat := 4096
/-- `MAX_TOTAL_IMPORT_SYMBOLS`. -/
def maxTotalImportSymbols : Nat := 65536
/-- `MAX_TOTAL_IMPORT_STRING_BYTES`. -/
def maxTotalImportStringBytes : Nat := 16 * 1024 * 1024
/-- `IMAGE_FILE_DLL`. -/
def imageFileDll : Nat := 0x2000
/-- `IMAGE_DIRECTORY_ENTRY_IMPORT`. -/
def directoryEntryImport : Nat := 1
/-- `IMAGE_DIRECTORY_ENTRY_SECURITY`. -/
def directoryEntrySecurity : Nat := 4
/-- `IMAGE_DIRECTORY_ENTRY_COM_DESCRIPTOR`. -/
def directoryEntryComDescriptor : Nat := 14

/-! ## What is read -/

/-- `PeKind`. -/
inductive PeKind where
  | pe32
  | pe32Plus
  deriving DecidableEq, Repr

/-- `PeKind`'s `Display`. -/
def PeKind.text : PeKind → String
  | .pe32 => "PE32"
  | .pe32Plus => "PE32+"

/-- `PeMachine`. -/
inductive PeMachine where
  | x86
  | x86_64
  | arm
  | thumb
  | armNt
  | arm64
  | unknown (value : Nat)
  deriving DecidableEq, Repr

/-- `PeMachine::from_raw`. -/
def PeMachine.fromRaw (value : Nat) : PeMachine :=
  if value = 0x014c then .x86
  else if value = 0x8664 then .x86_64
  else if value = 0x01c0 then .arm
  else if value = 0x01c2 then .thumb
  else if value = 0x01c4 then .armNt
  else if value = 0xaa64 then .arm64
  else .unknown value

/-- `PeSubsystem`. -/
inductive PeSubsystem where
  | unknown
  | native
  | windowsGui
  | windowsConsole
  | posixConsole
  | efiApplication
  | efiBootServiceDriver
  | efiRuntimeDriver
  | xbox
  | windowsBootApplication
  | other (value : Nat)
  deriving DecidableEq, Repr

/-- `PeSubsystem::from_raw`. -/
def PeSubsystem.fromRaw (value : Nat) : PeSubsystem :=
  if value = 0 then .unknown
  else if value = 1 then .native
  else if value = 2 then .windowsGui
  else if value = 3 then .windowsConsole
  else if value = 7 then .posixConsole
  else if value = 10 then .efiApplication
  else if value = 11 then .efiBootServiceDriver
  else if value = 12 then .efiRuntimeDriver
  else if value = 14 then .xbox
  else if value = 16 then .windowsBootApplication
  else .other value

/-- `PeSection`. -/
structure PeSection where
  name : Str
  virtualAddress : Nat
  virtualSize : Nat
  rawOffset : Nat
  rawSize : Nat
  characteristics : Nat
  deriving DecidableEq, Repr

/-- `PeImportSymbol`. -/
inductive PeImportSymbol where
  | name (hint : Nat) (name : String)
  | ordinal (value : Nat)
  deriving DecidableEq, Repr

/-- `PeImport`. -/
structure PeImport where
  dll : String
  symbols : List PeImportSymbol
  deriving DecidableEq, Repr

/-- `PeImage`. -/
structure PeImage where
  kind : PeKind
  machine : PeMachine
  subsystem : PeSubsystem
  timestamp : Nat
  characteristics : Nat
  entryPointRva : Nat
  imageBase : Nat
  sizeOfImage : Nat
  isDll : Bool
  isManaged : Bool
  hasCertificateTable : Bool
  sections : List PeSection
  imports : List PeImport
  deriving DecidableEq, Repr

/-! ## Errors and numbers in their texts -/

/-- The outcome of a call of the parser. -/
abbrev PeResult (α : Type) := Exec LswError α

/-- `invalid`. -/
def invalid (reason : Message) : Fault LswError := .error (.invalidValue "PE image" reason)

/-- The hexadecimal digits of a number, at least `width` of them. -/
def hex (width n : Nat) : Str :=
  let digits := Nat.toDigits 16 n
  List.replicate (width - digits.length) '0' ++ digits

/-- `PeMachine`'s `Display`. -/
def PeMachine.text : PeMachine → Str
  | .x86 => "x86".toList
  | .x86_64 => "x86_64".toList
  | .arm => "Arm".toList
  | .thumb => "Thumb".toList
  | .armNt => "Arm NT".toList
  | .arm64 => "Arm64".toList
  | .unknown value => "unknown (0x".toList ++ hex 4 value ++ ")".toList

/-! ## Bytes -/

/-- The word of `width` bytes at an offset, least significant byte first. -/
def word (bytes : Bytes) (offset width : Nat) : Nat :=
  ofBeBytes ((bytes.drop offset).take width).reverse

/-- `require`. -/
def require (bytes : Bytes) (offset length : Nat) (what : Message) : PeResult Unit :=
  match checkedAdd offset length with
  | some stop =>
    if stop > bytes.length then .error (invalid (.text "truncated " :: what)) else .ok ()
  | none => .error (invalid (.text "truncated " :: what))

/-- `require_optional`. -/
def requireOptional (actual minimum : Nat) (what : String) : PeResult Unit :=
  rejectIf (actual < minimum) (invalid [.text what, .text " is ", .shown (decimal actual),
    .text " bytes; at least ", .shown (decimal minimum), .text " are required"])

/-- `checked_add`. -/
def checkedAddOr (left right : Nat) (what : String) : PeResult Nat :=
  okOr (checkedAdd left right) (invalid [.text what, .text " overflow"])

/-- `read_u16`, `read_u32` and `read_u64`: the bytes of a word, one by one. -/
def readWord (width : Nat) (bytes : Bytes) (offset : Nat) (what : String) : PeResult Nat := do
  require bytes offset width [.text what]
  let word ← (List.range width).mapM fun i => do index bytes (← addUsize offset i)
  return ofBeBytes word.reverse

/-- `read_u16`. -/
def readU16 : Bytes → Nat → String → PeResult Nat := readWord 2
/-- `read_u32`. -/
def readU32 : Bytes → Nat → String → PeResult Nat := readWord 4
/-- `read_u64`. -/
def readU64 : Bytes → Nat → String → PeResult Nat := readWord 8

/-! ## Addresses -/

/-- `DataDirectory`. -/
structure DataDirectory where
  rva : Nat
  size : Nat
  deriving DecidableEq, Repr

/-- `PeLayout`. -/
structure PeLayout where
  bytes : Bytes
  sizeOfHeaders : Nat
  sections : List PeSection

/-- A subtraction, panicking when it goes below zero. -/
def subWord (a b : Nat) : PeResult Nat := if b ≤ a then .ok (a - b) else .error .panic

/-- `u32::checked_add`. -/
def checkedAddU32 (a b : Nat) : Option Nat := if a + b < u32Size then some (a + b) else none

/-- The end of both branches of `rva_span`: an offset inside the file, and the bytes from there that
    are declared and present. -/
def spanAt (bytes : Bytes) (offset declaredEnd declaredStart : Nat) (what : String) :
    PeResult (Nat × Nat) := do
  require bytes offset 1 [.text what]
  let declared ← subWord declaredEnd declaredStart
  let present ← subWord bytes.length offset
  return (offset, min declared present)

/-- The search of `rva_span` through the sections. -/
def sectionSpan (bytes : Bytes) (rva : Nat) (what : String) :
    List PeSection → PeResult (Nat × Nat)
  | [] => .error (invalid [.text what, .text " RVA 0x", .shown (hex 8 rva),
      .text " does not map to a section"])
  | pe :: sections =>
    let span := max pe.virtualSize pe.rawSize
    -- `rva.checked_sub(section.virtual_address)`
    if rva < pe.virtualAddress then
      sectionSpan bytes rva what sections
    else
      let relative := rva - pe.virtualAddress
      if relative ≥ span then
        sectionSpan bytes rva what sections
      else if relative ≥ pe.rawSize then
        .error (invalid [.text what, .text " RVA 0x", .shown (hex 8 rva),
          .text " points into non-file-backed section data"])
      else do
        let offset ← okOr (checkedAddU32 pe.rawOffset relative)
          (invalid [.text what, .text " file offset overflow"])
        spanAt bytes offset pe.rawSize relative what

/-- `PeLayout::rva_span`. -/
def PeLayout.rvaSpan (layout : PeLayout) (rva : Nat) (what : String) : PeResult (Nat × Nat) :=
  if rva < layout.sizeOfHeaders then
    spanAt layout.bytes rva layout.sizeOfHeaders rva what
  else
    sectionSpan layout.bytes rva what layout.sections

/-- `PeLayout::rva_to_offset`. -/
def PeLayout.rvaToOffset (layout : PeLayout) (rva length : Nat) (what : String) :
    PeResult Nat := do
  let (offset, available) ← layout.rvaSpan rva what
  rejectIf (length > available) (invalid [.text "truncated ", .text what])
  return offset

/-- `parse_directories`. -/
def parseDirectories (bytes : Bytes) (optional optionalSize directoryOffset count : Nat) :
    PeResult (List DataDirectory) := do
  let bytesNeeded ← okOr (checkedMul count 8) (invalid [.text "data-directory table size overflow"])
  rejectIf ((checkedAdd directoryOffset bytesNeeded).all (· > optionalSize) = true)
    (invalid [.text "data-directory table exceeds optional header"])
  forEach (List.range count)
    (fun directories i => do
      let offset ← addUsize (← addUsize optional directoryOffset) (← mulUsize i 8)
      let rva ← readU32 bytes offset "data-directory RVA"
      let size ← readU32 bytes (← addUsize offset 4) "data-directory size"
      return directories ++ [⟨rva, size⟩])
    []

/-! ## Imports -/

/-- `ImportBudget`. -/
structure ImportBudget where
  symbolsRemaining : Nat
  stringBytesRemaining : Nat
  deriving DecidableEq, Repr

namespace ImportBudget

/-- `ImportBudget::new`. -/
def new : ImportBudget :=
  { symbolsRemaining := maxTotalImportSymbols
    stringBytesRemaining := maxTotalImportStringBytes }

/-- `ImportBudget::consume_symbol`. -/
def consumeSymbol (budget : ImportBudget) : PeResult ImportBudget := do
  rejectIf (budget.symbolsRemaining < 1)
    (invalid [.text "import table exceeds the ", .shown (decimal maxTotalImportSymbols),
      .text " symbol inspection limit"])
  return { budget with symbolsRemaining := budget.symbolsRemaining - 1 }

/-- `ImportBudget::consume_string`. -/
def consumeString (budget : ImportBudget) (value : String) (what : String) :
    PeResult ImportBudget := do
  rejectIf (budget.stringBytesRemaining < value.utf8ByteSize)
    (invalid [.text what, .text " exceed the ", .shown (decimal maxTotalImportStringBytes),
      .text " byte inspection limit"])
  return { budget with stringBytesRemaining := budget.stringBytesRemaining - value.utf8ByteSize }

end ImportBudget

/-- `read_rva_c_string`. -/
def readRvaCString (layout : PeLayout) (rva : Nat) (what : String) : PeResult String := do
  let (offset, availableLength) ← layout.rvaSpan rva what
  let available ← slice layout.bytes offset (← addUsize offset availableLength)
  let length ← okOr ((available.take maxImportNameBytes).findIdx? (· == 0))
    (invalid [.text what, .text " is not NUL-terminated"])
  let value ← slice available 0 length
  let value ← okOr (String.fromUTF8? value.toByteArray)
    (invalid [.text what, .text " is not UTF-8/ASCII"])
  rejectIf (value = "") (invalid [.text what, .text " is empty"])
  return value

/-- The width of a thunk and its ordinal flag. -/
def PeKind.thunk : PeKind → Nat × Nat
  | .pe32 => (4, 0x80000000)
  | .pe32Plus => (8, 0x8000000000000000)

/-- The symbol of a thunk that is not zero, in `parse_import_thunks`. -/
def importSymbol (layout : PeLayout) (value ordinalFlag : Nat) (budget : ImportBudget) :
    PeResult (PeImportSymbol × ImportBudget) := do
  let budget ← budget.consumeSymbol
  if value &&& ordinalFlag ≠ 0 then
    return (.ordinal (value &&& 0xffff), budget)
  else
    rejectIf (value ≥ u32Size) (invalid [.text "import-by-name RVA exceeds 32 bits"])
    let nameOffset ← layout.rvaToOffset value 2 "import-by-name hint"
    let hint ← readU16 layout.bytes nameOffset "import hint"
    let stringRva ← okOr (checkedAddU32 value 2) (invalid [.text "import name RVA overflow"])
    let name ← readRvaCString layout stringRva "import symbol name"
    let budget ← budget.consumeString name "import symbol names"
    return (.name hint name, budget)

/-- The loop of `parse_import_thunks`: `remaining` thunks may follow the ones before `i`. -/
def importThunks (layout : PeLayout) (kind : PeKind) (tableRva : Nat) :
    (remaining i : Nat) → List PeImportSymbol → ImportBudget →
      PeResult (List PeImportSymbol × ImportBudget)
  | 0, _, _, _ => .error (invalid [.text "import thunk table exceeds ",
      .shown (decimal maxImportsPerDll), .text " entries"])
  | remaining + 1, i, symbols, budget => do
    let (width, ordinalFlag) := kind.thunk
    let delta ← mulUsize i width
    rejectIf (delta ≥ u32Size) (invalid [.text "import thunk RVA overflow"])
    let rva ← okOr (checkedAddU32 tableRva delta) (invalid [.text "import thunk RVA overflow"])
    let offset ← layout.rvaToOffset rva width "import thunk"
    let value ← readWord width layout.bytes offset "import thunk"
    if value = 0 then
      return (symbols, budget)
    else
      let (symbol, budget) ← importSymbol layout value ordinalFlag budget
      importThunks layout kind tableRva remaining (i + 1) (symbols ++ [symbol]) budget

/-- `parse_import_thunks`. -/
def parseImportThunks (layout : PeLayout) (kind : PeKind) (tableRva : Nat)
    (budget : ImportBudget) : PeResult (List PeImportSymbol × ImportBudget) :=
  importThunks layout kind tableRva maxImportsPerDll 0 [] budget

/-- The five words of an import descriptor. -/
structure Descriptor where
  originalFirstThunk : Nat
  timestamp : Nat
  forwarderChain : Nat
  nameRva : Nat
  firstThunk : Nat
  deriving DecidableEq, Repr

/-- The all-zero descriptor that ends an import table. -/
def Descriptor.null : Descriptor := ⟨0, 0, 0, 0, 0⟩

/-- The descriptor at an index of the import directory. -/
def readDescriptor (layout : PeLayout) (directory : DataDirectory) (i : Nat) :
    PeResult Descriptor := do
  let delta ← mulUsize i importDescriptorBytes
  rejectIf (delta ≥ u32Size) (invalid [.text "import descriptor RVA overflow"])
  let descriptorRva ← okOr (checkedAddU32 directory.rva delta)
    (invalid [.text "import descriptor RVA overflow"])
  let offset ← layout.rvaToOffset descriptorRva importDescriptorBytes "import descriptor"
  let originalFirstThunk ← readU32 layout.bytes offset "original first thunk"
  let timestamp ← readU32 layout.bytes (← addUsize offset 4) "import timestamp"
  let forwarderChain ← readU32 layout.bytes (← addUsize offset 8) "forwarder chain"
  let nameRva ← readU32 layout.bytes (← addUsize offset 12) "import DLL name"
  let firstThunk ← readU32 layout.bytes (← addUsize offset 16) "first thunk"
  return { originalFirstThunk, timestamp, forwarderChain, nameRva, firstThunk }

/-- The symbols of a descriptor, in `parse_imports`. -/
def readSymbols (layout : PeLayout) (kind : PeKind) (descriptor : Descriptor)
    (budget : ImportBudget) : PeResult (List PeImportSymbol × ImportBudget) :=
  let thunkRva :=
    if descriptor.originalFirstThunk ≠ 0 then descriptor.originalFirstThunk
    else descriptor.firstThunk
  if thunkRva = 0 then .ok ([], budget) else parseImportThunks layout kind thunkRva budget

/-- The import of a descriptor that is not null, in `parse_imports`. -/
def readImport (layout : PeLayout) (kind : PeKind) (descriptor : Descriptor)
    (budget : ImportBudget) : PeResult (PeImport × ImportBudget) := do
  rejectIf (descriptor.nameRva = 0) (invalid [.text "import descriptor has no DLL name"])
  let dll ← readRvaCString layout descriptor.nameRva "import DLL name"
  let budget ← budget.consumeString dll "import DLL names"
  let (symbols, budget) ← readSymbols layout kind descriptor budget
  return ({ dll, symbols }, budget)

/-- `descriptor_limit` of `parse_imports`. -/
def descriptorLimit (directory : DataDirectory) : PeResult Nat :=
  if directory.size = 0 then
    .ok maxImportDescriptors
  else do
    rejectIf (directory.size < importDescriptorBytes)
      (invalid [.text "import directory is smaller than one descriptor"])
    return min (directory.size / importDescriptorBytes) maxImportDescriptors

/-- The loop of `parse_imports`: `remaining` descriptors may follow the ones before `i`. -/
def importDescriptors (layout : PeLayout) (kind : PeKind) (directory : DataDirectory)
    (limit : Nat) : (remaining i : Nat) → List PeImport → ImportBudget → PeResult (List PeImport)
  | 0, _, _, _ => .error (invalid [.text "import table has no terminator within ",
      .shown (decimal limit), .text " descriptors"])
  | remaining + 1, i, imports, budget => do
    let descriptor ← readDescriptor layout directory i
    if descriptor = .null then
      return imports
    else
      let (one, budget) ← readImport layout kind descriptor budget
      importDescriptors layout kind directory limit remaining (i + 1) (imports ++ [one]) budget

/-- `parse_imports`. -/
def parseImports (layout : PeLayout) (kind : PeKind) (directory : DataDirectory) :
    PeResult (List PeImport) := do
  let limit ← descriptorLimit directory
  importDescriptors layout kind directory limit limit 0 [] .new

/-! ## The image -/

/-- What `parse` reads from the DOS and COFF headers. -/
structure CoffHeader where
  machine : PeMachine
  numberOfSections : Nat
  timestamp : Nat
  optionalSize : Nat
  characteristics : Nat
  optional : Nat

/-- The first part of `parse`: the DOS and the COFF header. -/
def parseCoff (bytes : Bytes) : PeResult CoffHeader := do
  require bytes 0 dosHeaderBytes [.text "DOS header"]
  let signature ← slice bytes 0 2
  rejectIf (signature ≠ [0x4d, 0x5a]) (invalid [.text "missing DOS MZ signature"])
  let peOffset ← readU32 bytes 0x3c "PE header offset"
  require bytes peOffset (4 + coffHeaderBytes) [.text "PE/COFF header"]
  let signature ← slice bytes peOffset (← addUsize peOffset 4)
  rejectIf (signature ≠ [0x50, 0x45, 0, 0]) (invalid [.text "missing PE signature"])
  let coff ← checkedAddOr peOffset 4 "COFF header offset"
  let machine := PeMachine.fromRaw (← readU16 bytes coff "COFF machine")
  let numberOfSections ← readU16 bytes (← addUsize coff 2) "section count"
  rejectIf (numberOfSections > 96)
    (invalid [.text "unreasonable section count ", .shown (decimal numberOfSections)])
  let timestamp ← readU32 bytes (← addUsize coff 4) "COFF timestamp"
  let optionalSize ← readU16 bytes (← addUsize coff 16) "optional header size"
  let characteristics ← readU16 bytes (← addUsize coff 18) "COFF characteristics"
  let optional ← checkedAddOr coff coffHeaderBytes "optional header offset"
  require bytes optional optionalSize [.text "optional header"]
  return { machine, numberOfSections, timestamp, optionalSize, characteristics, optional }

/-- Whether a machine and a kind of image do not go together. -/
def inconsistent (machine : PeMachine) (kind : PeKind) : Bool :=
  match machine, kind with
  | .x86, .pe32Plus | .arm, .pe32Plus | .thumb, .pe32Plus | .armNt, .pe32Plus => true
  | .x86_64, .pe32 | .arm64, .pe32 => true
  | _, _ => false

/-- What `parse` reads from the optional header. -/
structure OptionalHeader where
  kind : PeKind
  imageBase : Nat
  entryPointRva : Nat
  sizeOfImage : Nat
  sizeOfHeaders : Nat
  subsystem : PeSubsystem
  directories : List DataDirectory

/-- The kind of image, the places of the directories and of their count, and the image base. -/
def parseMagic (bytes : Bytes) (coff : CoffHeader) : PeResult (PeKind × Nat × Nat × Nat) := do
  let magic ← readU16 bytes coff.optional "optional header magic"
  if magic = 0x010b then
    requireOptional coff.optionalSize 96 "PE32 optional header"
    let imageBase ← readU32 bytes (← addUsize coff.optional 28) "PE32 image base"
    return (.pe32, 96, 92, imageBase)
  else if magic = 0x020b then
    requireOptional coff.optionalSize 112 "PE32+ optional header"
    let imageBase ← readU64 bytes (← addUsize coff.optional 24) "PE32+ image base"
    return (.pe32Plus, 112, 108, imageBase)
  else
    .error (invalid [.text "unsupported optional-header magic 0x", .shown (hex 4 magic)])

/-- The second part of `parse`: the optional header. -/
def parseOptional (bytes : Bytes) (coff : CoffHeader) : PeResult OptionalHeader := do
  let (kind, dataDirectoryOffset, directoryCountOffset, imageBase) ← parseMagic bytes coff
  rejectIf (inconsistent coff.machine kind = true)
    (invalid [.text "machine ", .shown coff.machine.text, .text " is inconsistent with ",
      .text kind.text])
  let entryPointRva ← readU32 bytes (← addUsize coff.optional 16) "entry point"
  let sizeOfImage ← readU32 bytes (← addUsize coff.optional 56) "image size"
  let sizeOfHeaders ← readU32 bytes (← addUsize coff.optional 60) "header size"
  let subsystem := PeSubsystem.fromRaw
    (← readU16 bytes (← addUsize coff.optional 68) "subsystem")
  let count ← readU32 bytes (← addUsize coff.optional directoryCountOffset) "data-directory count"
  let directories ← parseDirectories bytes coff.optional coff.optionalSize dataDirectoryOffset
    (min count 16)
  return { kind, imageBase, entryPointRva, sizeOfImage, sizeOfHeaders, subsystem, directories }

/-- One header of the section table. -/
def readSection (bytes : Bytes) (offset : Nat) : PeResult PeSection := do
  let nameField ← slice bytes offset (← addUsize offset 8)
  let nameEnd := (nameField.findIdx? (· == 0)).getD 8
  let name ← slice bytes offset (← addUsize offset nameEnd)
  let virtualSize ← readU32 bytes (← addUsize offset 8) "section virtual size"
  let virtualAddress ← readU32 bytes (← addUsize offset 12) "section virtual address"
  let rawSize ← readU32 bytes (← addUsize offset 16) "section raw size"
  let rawOffset ← readU32 bytes (← addUsize offset 20) "section raw offset"
  let characteristics ← readU32 bytes (← addUsize offset 36) "section characteristics"
  return { name := fromUtf8Lossy name.length name, virtualAddress, virtualSize, rawOffset, rawSize,
           characteristics }

/-- The third part of `parse`: the section table. -/
def parseSections (bytes : Bytes) (coff : CoffHeader) : PeResult (List PeSection) := do
  let sectionsOffset ← checkedAddOr coff.optional coff.optionalSize "section table offset"
  let sectionTableBytes ← okOr (checkedMul coff.numberOfSections sectionHeaderBytes)
    (invalid [.text "section table size overflow"])
  require bytes sectionsOffset sectionTableBytes [.text "section table"]
  forEach (List.range coff.numberOfSections)
    (fun sections i => do
      let offset ← addUsize sectionsOffset (← mulUsize i sectionHeaderBytes)
      let one ← readSection bytes offset
      return sections ++ [one])
    []

/-- `validate_section_ranges`. -/
def validateSectionRanges (bytes : Bytes) (sections : List PeSection) : PeResult Unit :=
  forEach sections
    (fun _ pe =>
      if pe.rawSize = 0 then .ok ()
      else require bytes pe.rawOffset pe.rawSize [.text "section ", .debug pe.name])
    ()

/-- The imports of `parse`. -/
def imageImports (layout : PeLayout) (kind : PeKind) (directories : List DataDirectory) :
    PeResult (List PeImport) :=
  match directories[directoryEntryImport]? with
  | some directory =>
    if directory.rva ≠ 0 then parseImports layout kind directory else .ok []
  | none => .ok []

/-- `is_managed` of `parse`. -/
def imageIsManaged (layout : PeLayout) (directories : List DataDirectory) : PeResult Bool :=
  match directories[directoryEntryComDescriptor]? with
  | some directory =>
    if directory.rva ≠ 0 ∧ directory.size ≠ 0 then do
      rejectIf (directory.size < cor20HeaderBytes)
        (invalid [.text "CLR header is ", .shown (decimal directory.size),
          .text " bytes; at least ", .shown (decimal cor20HeaderBytes), .text " are required"])
      let _ ← layout.rvaToOffset directory.rva directory.size "CLR header"
      return true
    else .ok false
  | none => .ok false

/-- `has_certificate_table` of `parse`. -/
def imageHasCertificateTable (bytes : Bytes) (directories : List DataDirectory) : PeResult Bool :=
  match directories[directoryEntrySecurity]? with
  | some directory =>
    if directory.rva ≠ 0 ∧ directory.size ≠ 0 then do
      require bytes directory.rva directory.size [.text "certificate table"]
      return true
    else .ok false
  | none => .ok false

/-- `PeImage::parse`. -/
def parse (bytes : Bytes) : PeResult PeImage := do
  let coff ← parseCoff bytes
  let optional ← parseOptional bytes coff
  let sections ← parseSections bytes coff
  validateSectionRanges bytes sections
  let layout : PeLayout := { bytes, sizeOfHeaders := optional.sizeOfHeaders, sections }
  let imports ← imageImports layout optional.kind optional.directories
  let isManaged ← imageIsManaged layout optional.directories
  let hasCertificateTable ← imageHasCertificateTable bytes optional.directories
  return {
    kind := optional.kind
    machine := coff.machine
    subsystem := optional.subsystem
    timestamp := coff.timestamp
    characteristics := coff.characteristics
    entryPointRva := optional.entryPointRva
    imageBase := optional.imageBase
    sizeOfImage := optional.sizeOfImage
    isDll := coff.characteristics &&& imageFileDll ≠ 0
    isManaged
    hasCertificateTable
    sections
    imports }

end Lsw.Core.Pe
