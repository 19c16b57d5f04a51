import Lsw.Core.Manifest
import Lsw.Lib.Outcome
import Lsw.Lib.Pieces

/-!
# Path Translation

`lsw path` rewrites `/mnt/<drive>/…` as a Windows drive path and back
(`path_translation.rs`), on the text alone.  Both directions read a drive and a list of
components and write them in the other spelling; `Location` is what they have in common, and
`toWindows_eq_ok` and `toUnix_eq_ok` say which texts spell which location.

Offsets are byte offsets, and indexing a byte slice panics past its end, as in the source.
-/

namespace Lsw.Cli.PathTranslation

open Lsw.Lib Lsw.Core

/-! ## The program -/

/-- `"<>:\"|?*".contains(character)`. -/
def isReservedCharacter (c : Char) : Bool := "<>:\"|?*".toList.contains c

/-- The condition under which `validated_components` refuses a component. -/
def isAmbiguous (component : Str) : Bool :=
  component == ['.'] || component == ['.', '.'] ||
    (component.getLast? == some ' ' || component.getLast? == some '.') ||
    component.any fun c => c.toNat ≤ 0x1f || isReservedCharacter c

/-- One component in the loop of `validated_components`. -/
def validateComponent (validated : List Str) (component : Str) : Exec Message (List Str) := do
  rejectIf (isAmbiguous component = true)
    (.error [.text "ambiguous or invalid path component ", .debug component])
  return validated ++ [component]

/-- `validated_components`. -/
def validatedComponents (components : List Str) : Exec Message (List Str) :=
  forEach (components.filter fun component => !component.isEmpty) validateComponent []

/-- `to_windows`. -/
def toWindows (value : Str) : Exec Message Str := do
  let outside : Fault Message := .error [.text "Unix path must begin with /mnt/<drive>/"]
  let remainder ← okOr (stripPrefix "/mnt/".toList (forwardSlashes value)) outside
  let components := remainder.splitOn '/'
  let drive := components.head?.getD []
  rejectIf ((bytes drive).length ≠ 1) outside
  let letter ← index (bytes drive) 0
  rejectIf (isAsciiAlphabetic letter = false) outside
  let components ← validatedComponents components.tail
  return drive.map toAsciiUppercase ++ ":\\".toList ++ ['\\'].intercalate components

/-- `to_unix`. -/
def toUnix (value : Str) : Exec Message Str := do
  let bytes := bytes value
  let relative : Fault Message :=
    .error [.text "Windows path must begin with an absolute drive path such as C:\\"]
  rejectIf (bytes.length < 3) relative
  let letter ← index bytes 0
  rejectIf (isAsciiAlphabetic letter = false) relative
  let colon ← index bytes 1
  rejectIf (colon ≠ 58) relative
  let slash ← index bytes 2
  rejectIf (bytes.length > 2 ∧ slash ≠ 92 ∧ slash ≠ 47)
    (.error [.text "drive-relative Windows paths are not supported"])
  let drive := toAsciiLowercase (Char.ofNat letter.toNat)
  let remainder := ((getFrom 2 value).getD []).dropWhile isSeparator
  let components ← validatedComponents (remainder.splitOnP isSeparator)
  if components.isEmpty then
    return "/mnt/".toList ++ [drive]
  else
    return "/mnt/".toList ++ [drive] ++ '/' :: ['/'].intercalate components

/-! ## Locations -/

/-- A component both systems can name. -/
structure Component where
  name : Str
  isPiece : IsPiece isSeparator name
  plain : isAmbiguous name = false

/-- A drive, by its lower case letter, and the components below its root. -/
structure Location where
  drive : Char
  isDrive : 'a' ≤ drive ∧ drive ≤ 'z'
  components : List Component

namespace Location

/-- The names below the root. -/
def names (location : Location) : List Str := location.components.map (·.name)

/-- The spelling `to_windows` writes. -/
def windows (location : Location) : Str :=
  toAsciiUppercase location.drive :: ":\\".toList ++ ['\\'].intercalate location.names

/-- The spelling `to_unix` writes. -/
def unix (location : Location) : Str :=
  "/mnt/".toList ++ location.drive ::
    (if location.names = [] then [] else '/' :: ['/'].intercalate location.names)

theorem unix_eq (location : Location) : location.unix = "/mnt/".toList ++ location.drive ::
    (if location.names = [] then [] else '/' :: ['/'].intercalate location.names) := rfl

/-- A text spells the location with a Windows drive. -/
def WindowsSpelling (location : Location) (value : Str) : Prop :=
  ∃ letter slash rest, value = letter :: ':' :: slash :: rest ∧
    toAsciiLowercase letter = location.drive ∧ isSeparator slash = true ∧
    namedPieces isSeparator rest = location.names

/-- A text spells the location below `/mnt`, with either separator. -/
def UnixSpelling (location : Location) (value : Str) : Prop :=
  ∃ letter rest, forwardSlashes value = "/mnt/".toList ++ letter :: rest ∧
    toAsciiLowercase letter = location.drive ∧ (∀ c ∈ rest.head?, c = '/') ∧
    namedPieces isSeparator rest = location.names

end Location

/-! ## What the functions accept -/

theorem validateComponent_eq_ok {validated names : List Str} {component : Str} :
    validateComponent validated component = .ok names ↔
      isAmbiguous component = false ∧ validated ++ [component] = names := by
  simp only [validateComponent, bind_eq_ok, rejectIf_eq_ok, pure_eq_ok_iff, exists_const,
    Bool.not_eq_true]

/-- The loop keeps the components it is given, when none of them is ambiguous. -/
theorem forEach_validateComponent {components validated names : List Str} :
    forEach components validateComponent validated = .ok names ↔
      names = validated ++ components ∧ ∀ name ∈ components, isAmbiguous name = false := by
  induction components generalizing validated with
  | nil => simpa using eq_comm
  | cons component components ih =>
    simp only [forEach_cons, bind_eq_ok, validateComponent_eq_ok, ih, List.forall_mem_cons]
    constructor
    · rintro ⟨_, ⟨hplain, rfl⟩, rfl, hall⟩
      exact ⟨by simp, hplain, hall⟩
    · rintro ⟨rfl, hplain, hall⟩
      exact ⟨_, ⟨hplain, rfl⟩, by simp, hall⟩

/-- Validation keeps the components that are not empty, when none of them is ambiguous. -/
theorem validatedComponents_eq_ok {components names : List Str} :
    validatedComponents components = .ok names ↔
      names = components.filter (fun component => !component.isEmpty) ∧
        ∀ name ∈ components.filter (fun component => !component.isEmpty), isAmbiguous name = false :=
  forEach_validateComponent

theorem validatedComponents_splitOnP {p : Char → Bool} {s : Str} {names : List Str} :
    validatedComponents (s.splitOnP p) = .ok names ↔
      names = namedPieces p s ∧ ∀ name ∈ namedPieces p s, isAmbiguous name = false :=
  validatedComponents_eq_ok

/-- Names that were validated are those of components. -/
theorem exists_components {s : Str} (h : ∀ name ∈ namedPieces isSeparator s, isAmbiguous name = false) :
    ∃ components : List Component, components.map (·.name) = namedPieces isSeparator s := by
  refine ⟨(namedPieces isSeparator s).attach.map fun name =>
    ⟨name.1, isPiece_of_mem name.2, h name.1 name.2⟩, ?_⟩
  rw [List.map_map]
  exact List.attach_map_subtype_val _

set_option maxRecDepth 2000 in
/-- A letter that is in lower case a drive is an ASCII letter. -/
theorem isAsciiAlphabetic_iff (b : UInt8) : isAsciiAlphabetic b = true ↔
    'a' ≤ toAsciiLowercase (Char.ofNat b.toNat) ∧ toAsciiLowercase (Char.ofNat b.toNat) ≤ 'z' := by
  have hall : ∀ n < 256, isAsciiAlphabetic (UInt8.ofNat n) = true ↔
      'a' ≤ toAsciiLowercase (Char.ofNat n) ∧ toAsciiLowercase (Char.ofNat n) ≤ 'z' := by decide
  simpa using hall b.toNat b.toNat_lt

theorem ascii_of_drive {location : Location} {letter : Char}
    (h : toAsciiLowercase letter = location.drive) : letter.toNat < 128 := by
  by_contra hlarge
  rw [toAsciiLowercase_of_not_ascii hlarge] at h
  have hle : letter.toNat ≤ 122 := h ▸ location.isDrive.2
  omega

/-- `to_unix` looks at three bytes, which must be a letter, a colon and a separator. -/
theorem windowsPrefix_of_bytes {value : Str} {letter colon slash : UInt8}
    (hletter : (bytes value)[0]? = some letter) (halpha : isAsciiAlphabetic letter = true)
    (hcolon : (bytes value)[1]? = some colon) (hcolon' : colon = 58)
    (hslash : (bytes value)[2]? = some slash) (hslash' : slash = 92 ∨ slash = 47) :
    ∃ separator rest, value = Char.ofNat letter.toNat :: ':' :: separator :: rest ∧
      isSeparator separator = true ∧ getFrom 2 value = some (separator :: rest) := by
  have hascii := toNat_lt_of_alphabetic halpha
  -- Each of the three bytes is ASCII, so it is a character of its own.
  obtain ⟨rest, rfl, hbytes⟩ := eq_cons_of_ascii hletter hascii
  rw [hbytes] at hcolon hslash
  obtain ⟨rest, rfl, hbytes⟩ := eq_cons_of_ascii (s := rest) (by simpa using hcolon)
    (by rw [hcolon']; decide)
  rw [hbytes] at hslash
  have hslash_ascii : slash.toNat < 128 := by rcases hslash' with rfl | rfl <;> decide
  obtain ⟨rest, rfl, -⟩ := eq_cons_of_ascii (s := rest) (by simpa using hslash) hslash_ascii
  subst hcolon'
  have hall : ∀ n < 128, (Char.ofNat n).toNat < 128 := by decide
  refine ⟨Char.ofNat slash.toNat, rest, rfl, by rcases hslash' with rfl | rfl <;> decide, ?_⟩
  rw [getFrom_cons (hall _ hascii), getFrom_cons (by decide), getFrom]

/-- `to_unix` reads the Windows spelling of a location. -/
theorem toUnix_eq_ok {value unix : Str} :
    toUnix value = .ok unix ↔
      ∃ location : Location, location.WindowsSpelling value ∧ unix = location.unix := by
  simp only [toUnix, bind_eq_ok, rejectIf_eq_ok]
  constructor
  -- The checks of `to_unix` are what makes a text the spelling of a location.
  · rintro ⟨_, hlength, letter, hletter, _, halpha, colon, hcolon, _, hcolon', slash, hslash, _,
      habsolute, names, hnames, h⟩
    rw [Bool.not_eq_false] at halpha
    -- The third byte is a separator, by the check that the path is absolute.
    have hslash' : slash = 92 ∨ slash = 47 := by
      simp only [not_and, not_ne_iff] at habsolute
      by_cases h92 : slash = 92
      · exact .inl h92
      · exact .inr (habsolute (by omega) h92)
    -- So the text is a letter, a colon, a separator and the rest.
    obtain ⟨separator, rest, rfl, hseparator, hget⟩ := windowsPrefix_of_bytes
      (getElem?_of_index hletter) halpha (getElem?_of_index hcolon) (not_ne_iff.mp hcolon')
      (getElem?_of_index hslash) hslash'
    rw [hget, Option.getD_some, validatedComponents_splitOnP, namedPieces_dropWhile,
      namedPieces_cons hseparator] at hnames
    obtain ⟨rfl, hplain⟩ := hnames
    -- Every name of the rest is a component, since the check accepts it.
    obtain ⟨components, hcomponents⟩ := exists_components hplain
    refine ⟨⟨_, (isAsciiAlphabetic_iff letter).mp halpha, components⟩,
      ⟨_, separator, rest, rfl, rfl, hseparator, hcomponents.symm⟩, ?_⟩
    rw [Location.unix_eq, Location.names, hcomponents]
    split at h
    · simp_all
    · simp_all
  -- Conversely, every check passes on the spelling of a location.
  · rintro ⟨location, ⟨letter, slash, rest, rfl, hdrive, hslash, hnames⟩, rfl⟩
    have hascii := ascii_of_drive hdrive
    have hslash_ascii : slash.toNat < 128 := by
      rcases Bool.or_eq_true _ _ ▸ hslash with h | h <;> rw [beq_iff_eq.mp h] <;> decide
    -- The first three characters are ASCII, one byte each.
    have hbytes : bytes (letter :: ':' :: slash :: rest) =
        UInt8.ofNat letter.toNat :: 58 :: UInt8.ofNat slash.toNat :: bytes rest := by
      rw [bytes_cons_of_ascii hascii, bytes_cons_of_ascii (by decide),
        bytes_cons_of_ascii hslash_ascii]
      rfl
    refine ⟨(), by rw [hbytes]; simp, UInt8.ofNat letter.toNat, index_eq_ok (by rw [hbytes]; rfl),
      (), ?_, 58, index_eq_ok (by rw [hbytes]; rfl), (), by simp, UInt8.ofNat slash.toNat,
      index_eq_ok (by rw [hbytes]; rfl), (), ?_, location.names, ?_, ?_⟩
    · rw [Bool.not_eq_false, isAsciiAlphabetic_iff, ofNat_toNat_of_ascii hascii, hdrive]
      exact location.isDrive
    · rintro ⟨-, h92, h47⟩
      rcases Bool.or_eq_true _ _ ▸ hslash with h | h
      · exact h47 (by rw [beq_iff_eq.mp h]; rfl)
      · exact h92 (by rw [beq_iff_eq.mp h]; rfl)
    · rw [getFrom_cons hascii, getFrom_cons (by decide), getFrom, Option.getD_some,
        validatedComponents_splitOnP, namedPieces_dropWhile, namedPieces_cons hslash, hnames]
      exact ⟨rfl, fun name hname => by
        obtain ⟨component, -, rfl⟩ := List.mem_map.mp hname
        exact component.plain⟩
    · rw [ofNat_toNat_of_ascii hascii, hdrive, Location.unix_eq]
      split <;> simp_all

/-- The pieces of what follows `/mnt/`: the drive, and those of the rest. -/
theorem drive_of_pieces {remainder drive : Str} {tail : List Str}
    (h : remainder.splitOn '/' = drive :: tail) (hbackslash : '\\' ∉ remainder) :
    ∃ rest, remainder = drive ++ rest ∧ (∀ c ∈ rest.head?, c = '/') ∧
      namedPieces isSeparator rest = tail.filter fun piece => !piece.isEmpty := by
  rw [splitOn_slash hbackslash] at h
  rcases eq_of_splitOnP_eq_cons h with ⟨rfl, rfl⟩ | ⟨c, rest, hc, rfl, rfl⟩
  · exact ⟨[], by simp⟩
  · have hslash : c = '/' := by
      rcases Bool.or_eq_true _ _ ▸ hc with hc | hc
      · exact beq_iff_eq.mp hc
      · exact absurd (beq_iff_eq.mp hc ▸ by simp) hbackslash
    refine ⟨c :: rest, rfl, by simp [hslash], ?_⟩
    rw [namedPieces_cons hc, namedPieces]

theorem toAsciiUppercase_toAsciiLowercase (c : Char) :
    toAsciiUppercase (toAsciiLowercase c) = toAsciiUppercase c := by
  by_cases hc : c.toNat < 128
  · exact forall_ascii
      (P := fun c => toAsciiUppercase (toAsciiLowercase c) = toAsciiUppercase c) (by decide) hc
  · rw [toAsciiLowercase_of_not_ascii hc]

/-- `to_windows` reads the Unix spelling of a location. -/
theorem toWindows_eq_ok {value windows : Str} :
    toWindows value = .ok windows ↔
      ∃ location : Location, location.UnixSpelling value ∧ windows = location.windows := by
  simp only [toWindows, bind_eq_ok, rejectIf_eq_ok, okOr_eq_ok, not_ne_iff]
  constructor
  · rintro ⟨remainder, hremainder, _, hlength, letter, hletter, _, halpha, names, hnames, h⟩
    have hvalue := eq_append_of_stripPrefix hremainder
    have hbackslash : '\\' ∉ remainder := fun hmem =>
      backslash_not_mem_forwardSlashes value (hvalue ▸ List.mem_append_right _ hmem)
    obtain ⟨drive, tail, hpieces⟩ := List.exists_cons_of_ne_nil (List.splitOn_ne_nil '/' remainder)
    simp only [hpieces, List.head?_cons, Option.getD_some, List.tail_cons] at hlength hletter hnames h
    rw [Bool.not_eq_false] at halpha
    -- The first piece is one byte long, and the byte is a letter.
    obtain ⟨more, rfl, hbytes⟩ := eq_cons_of_ascii (getElem?_of_index hletter)
      (toNat_lt_of_alphabetic halpha)
    obtain rfl : more = [] := bytes_eq_nil (by simpa [hbytes] using hlength)
    obtain ⟨rest, rfl, hhead, hrest⟩ := drive_of_pieces hpieces hbackslash
    rw [validatedComponents_eq_ok, ← hrest] at hnames
    obtain ⟨rfl, hplain⟩ := hnames
    obtain ⟨components, hcomponents⟩ := exists_components hplain
    refine ⟨⟨_, (isAsciiAlphabetic_iff letter).mp halpha, components⟩,
      ⟨_, rest, hvalue, rfl, hhead, hcomponents.symm⟩, ?_⟩
    rw [pure_eq_ok_iff] at h
    rw [← h, Location.windows, Location.names, hcomponents]
    simp [toAsciiUppercase_toAsciiLowercase]
  · rintro ⟨location, ⟨letter, rest, hvalue, hdrive, hhead, hnames⟩, rfl⟩
    have hascii := ascii_of_drive hdrive
    have hbackslash : '\\' ∉ letter :: rest := fun hmem =>
      backslash_not_mem_forwardSlashes value (hvalue ▸ List.mem_append_right _ hmem)
    have hpieces : ∃ tail, (letter :: rest).splitOn '/' = [letter] :: tail := by
      have hslash : '/' ∉ [letter] := by
        rintro hmem
        obtain rfl := List.mem_singleton.mp hmem
        exact absurd (hdrive ▸ location.isDrive.1) (by decide)
      cases rest with
      | nil => exact ⟨[], List.splitOn_eq_singleton hslash⟩
      | cons c rest =>
        obtain rfl : c = '/' := hhead c rfl
        exact ⟨_, List.splitOn_append_cons_self_of_not_mem hslash rest⟩
    obtain ⟨tail, hpieces⟩ := hpieces
    obtain ⟨other, hother, -, htail⟩ := drive_of_pieces hpieces hbackslash
    obtain rfl : rest = other := by simpa using hother
    have hbytes : bytes [letter] = [UInt8.ofNat letter.toNat] := bytes_cons_of_ascii hascii []
    refine ⟨letter :: rest, by rw [hvalue, stripPrefix_append], (), ?_,
      UInt8.ofNat letter.toNat, ?_, (), ?_, location.names, ?_, ?_⟩
    · rw [hpieces, List.head?_cons, Option.getD_some, hbytes]
      rfl
    · rw [hpieces, List.head?_cons, Option.getD_some, hbytes]
      rfl
    · rw [Bool.not_eq_false, isAsciiAlphabetic_iff, ofNat_toNat_of_ascii hascii, hdrive]
      exact location.isDrive
    · rw [hpieces, List.tail_cons, validatedComponents_eq_ok, ← htail, hnames]
      exact ⟨rfl, fun name hname => by
        obtain ⟨component, -, rfl⟩ := List.mem_map.mp hname
        exact component.plain⟩
    · rw [hpieces, List.head?_cons, Option.getD_some, Location.windows, ← hdrive,
        toAsciiUppercase_toAsciiLowercase]
      rfl

/-! ## The two directions -/

theorem Location.isPiece_of_mem {location : Location} {name : Str} (h : name ∈ location.names) :
    IsPiece isSeparator name := by
  obtain ⟨component, -, rfl⟩ := List.mem_map.mp h
  exact component.isPiece

theorem lower_drive (location : Location) :
    toAsciiLowercase location.drive = location.drive := by
  rw [toAsciiLowercase, if_neg]
  rintro ⟨-, hle⟩
  exact absurd (Char.le_trans location.isDrive.1 hle) (by decide)

theorem lower_upper_drive (location : Location) :
    toAsciiLowercase (toAsciiUppercase location.drive) = location.drive := by
  have hall : ∀ n < 128, toAsciiLowercase (toAsciiUppercase (Char.ofNat n)) =
      toAsciiLowercase (Char.ofNat n) := by decide
  have hchar := hall location.drive.toNat (ascii_of_drive (lower_drive location))
  rwa [Char.ofNat_toNat, lower_drive] at hchar

/-- What `to_windows` writes spells the location. -/
theorem windowsSpelling_windows (location : Location) :
    location.WindowsSpelling location.windows :=
  ⟨_, '\\', _, rfl, lower_upper_drive location, rfl,
    namedPieces_intercalate rfl fun _ h => Location.isPiece_of_mem h⟩

theorem backslash_not_mem_intercalate {names : List Str}
    (h : ∀ name ∈ names, IsPiece isSeparator name) : '\\' ∉ ['/'].intercalate names := by
  intro hmem
  rcases mem_of_mem_intercalate hmem with hslash | ⟨name, hname, hc⟩
  · cases hslash
  · exact absurd ((h name hname).unseparated _ hc) (by decide)

/-- What `to_unix` writes spells the location. -/
theorem unixSpelling_unix (location : Location) : location.UnixSpelling location.unix := by
  have hpieces : ∀ name ∈ location.names, IsPiece isSeparator name := fun _ h =>
    Location.isPiece_of_mem h
  have hdrive : '\\' ≠ location.drive := fun heq =>
    absurd (heq ▸ location.isDrive.1) (by decide)
  refine ⟨location.drive, _, forwardSlashes_of_not_mem ?_, lower_drive location, ?_, ?_⟩
  · rw [Location.unix_eq]
    split
    · simp [hdrive]
    · simpa [hdrive] using backslash_not_mem_intercalate hpieces
  · split <;> simp
  · split
    · simp_all
    · rw [namedPieces_cons rfl, namedPieces_intercalate rfl hpieces]

/-! ## Reading a path -/

/-- The drive and the components that a Unix path names, whatever separates them. -/
def unixLocation? (value : Str) : Option (Char × List Str) :=
  match namedPieces isSeparator value with
  | mount :: [letter] :: names =>
    if mount = "mnt".toList then some (toAsciiLowercase letter, names) else none
  | _ => none

/-- The components below the root of a Unix path, empty ones included. -/
def unixComponents (path : Str) : List Str := (path.drop 1).splitOnP isSeparator

/-- The components below the drive root of a Windows path, empty ones included. -/
def windowsComponents (path : Str) : List Str :=
  if path.drop 3 = [] then [] else (path.drop 3).splitOnP isSeparator

/-- A component that no system reads as something else. -/
structure IsPlain (component : Str) : Prop where
  ne_nil : component ≠ []
  ne_dot : component ≠ ['.']
  ne_dotDot : component ≠ ['.', '.']
  no_last_dot : component.getLast? ≠ some '.'
  no_last_space : component.getLast? ≠ some ' '

theorem Component.isPlain (component : Component) : IsPlain component.name := by
  have hplain := component.plain
  simp only [isAmbiguous, Bool.or_eq_false_iff, beq_eq_false_iff_ne] at hplain
  exact ⟨component.isPiece.ne_nil, hplain.1.1.1, hplain.1.1.2, hplain.1.2.2, hplain.1.2.1⟩

theorem isSeparator_of_drive {location : Location} {letter : Char}
    (h : toAsciiLowercase letter = location.drive) : isSeparator letter = false := by
  rw [isSeparator, Bool.or_eq_false_iff, beq_eq_false_iff_ne, beq_eq_false_iff_ne]
  constructor
  · rintro rfl
    exact absurd (h ▸ location.isDrive.1) (by decide)
  · rintro rfl
    exact absurd (h ▸ location.isDrive.1) (by decide)

/-- A Unix spelling is read as the location. -/
theorem unixLocation?_eq {location : Location} {value : Str} (h : location.UnixSpelling value) :
    unixLocation? value = some (location.drive, location.names) := by
  obtain ⟨letter, rest, hvalue, hdrive, hhead, hnames⟩ := h
  have hmount : IsPiece isSeparator "mnt".toList :=
    ⟨by decide, forall_mem_of_all (by decide)⟩
  have hletter : IsPiece isSeparator [letter] :=
    ⟨by simp, by simpa using isSeparator_of_drive hdrive⟩
  -- What follows the drive is empty or starts with a separator.
  have hrest : namedPieces isSeparator (letter :: rest) = [letter] :: location.names := by
    cases rest with
    | nil => rw [namedPieces_of_isPiece hletter, ← hnames, namedPieces_nil]
    | cons c rest =>
      obtain rfl : c = '/' := hhead c rfl
      rw [namedPieces_cons rfl] at hnames
      change namedPieces isSeparator ([letter] ++ '/' :: rest) = _
      rw [namedPieces_append rfl, namedPieces_of_isPiece hletter, hnames, List.singleton_append]
  have hpieces : namedPieces isSeparator value = "mnt".toList :: [letter] :: location.names := by
    rw [← namedPieces_forwardSlashes, hvalue]
    change namedPieces isSeparator ('/' :: ("mnt".toList ++ '/' :: letter :: rest)) = _
    rw [namedPieces_cons rfl, namedPieces_append rfl, namedPieces_of_isPiece hmount, hrest,
      List.singleton_append]
  rw [unixLocation?, hpieces]
  simp [hdrive]

theorem Location.isPlain_of_mem {location : Location} {name : Str} (h : name ∈ location.names) :
    IsPlain name := by
  obtain ⟨component, -, rfl⟩ := List.mem_map.mp h
  exact component.isPlain

theorem isPlain_windowsComponents (location : Location) {component : Str}
    (h : component ∈ windowsComponents location.windows) : IsPlain component := by
  have hdrop : location.windows.drop 3 = ['\\'].intercalate location.names := rfl
  rw [windowsComponents, hdrop] at h
  by_cases hnil : location.names = []
  · simp [hnil] at h
  · split at h
    · simp at h
    · rw [splitOnP_intercalate rfl hnil fun _ hname =>
        (Location.isPiece_of_mem hname).unseparated] at h
      exact Location.isPlain_of_mem h

/-- The components of the Unix path of a location are plain. -/
theorem isPlain_unixComponents (location : Location) {component : Str}
    (h : component ∈ unixComponents location.unix) : IsPlain component := by
  have hmount : IsPlain "mnt".toList := by constructor <;> decide
  have hdot : location.drive ≠ '.' := fun heq => absurd (heq ▸ location.isDrive.1) (by decide)
  have hspace : location.drive ≠ ' ' := fun heq => absurd (heq ▸ location.isDrive.1) (by decide)
  -- A drive is a letter, so its component is plain.
  have hdrive : IsPlain [location.drive] := by constructor <;> simp [hdot, hspace]
  have hjoined : location.unix.drop 1 =
      ['/'].intercalate ("mnt".toList :: [location.drive] :: location.names) := by
    rw [Location.unix_eq]
    by_cases hnil : location.names = []
    · simp [hnil]
    · rw [if_neg hnil, List.intercalate_cons_cons, List.intercalate_cons_of_ne_nil hnil]
      simp
  -- The components are those that the location was made of.
  have hpieces : unixComponents location.unix =
      "mnt".toList :: [location.drive] :: location.names := by
    rw [unixComponents, hjoined]
    apply splitOnP_intercalate rfl (by simp)
    intro piece hpiece
    rcases List.mem_cons.mp hpiece with rfl | hpiece
    · exact forall_mem_of_all (by decide)
    · rcases List.mem_cons.mp hpiece with rfl | hname
      · simpa using isSeparator_of_drive (lower_drive location)
      · exact (Location.isPiece_of_mem hname).unseparated
  rw [hpieces] at h
  rcases List.mem_cons.mp h with rfl | h
  · exact hmount
  · rcases List.mem_cons.mp h with rfl | hname
    · exact hdrive
    · exact Location.isPlain_of_mem hname

/-! ## No panics -/

theorem ends_validatedComponents (components : List Str) :
    Ends True (validatedComponents components) fun _ => True :=
  Ends.forEach (fun _ _ => True) trivial fun _ _ _ _ _ _ =>
    (Ends.rejectIf _).bind fun _ _ => .pure trivial

theorem ends_toWindows (value : Str) : Ends True (toWindows value) fun _ => True := by
  refine (Ends.okOr _).bind fun remainder _ => ?_
  refine (Ends.rejectIf _).bind fun _ hlength => ?_
  refine (Ends.index fun _ => by omega).bind fun letter _ => ?_
  refine (Ends.rejectIf _).bind fun _ _ => ?_
  exact (ends_validatedComponents _).bind fun _ _ => .pure trivial

theorem ends_toUnix (value : Str) : Ends True (toUnix value) fun _ => True := by
  refine (Ends.rejectIf _).bind fun _ hlength => ?_
  refine (Ends.index fun _ => by omega).bind fun letter _ => ?_
  refine (Ends.rejectIf _).bind fun _ _ => ?_
  refine (Ends.index fun _ => by omega).bind fun colon _ => ?_
  refine (Ends.rejectIf _).bind fun _ _ => ?_
  refine (Ends.index fun _ => by omega).bind fun slash _ => ?_
  refine (Ends.rejectIf _).bind fun _ _ => ?_
  refine (ends_validatedComponents _).bind fun _ _ => ?_
  exact Ends.ite (fun _ => .pure trivial) fun _ => .pure trivial

/-! ## Round trips -/

/-- Either translation of a path can be undone and made again: from a path below `/mnt` to
    the drive and back it comes to the same drive and components, and what is written in
    either direction has plain components only. -/
theorem path_translation_round_trips (value : Str) :
    (∀ windows, toWindows value = .ok windows →
      ∃ unix, toUnix windows = .ok unix ∧ toWindows unix = .ok windows ∧
        (unixLocation? value).isSome ∧ unixLocation? unix = unixLocation? value ∧
        ∀ component ∈ windowsComponents windows, IsPlain component) ∧
    (∀ unix, toUnix value = .ok unix →
      ∃ windows, toWindows unix = .ok windows ∧ toUnix windows = .ok unix ∧
        ∀ component ∈ unixComponents unix, IsPlain component) ∧
    toWindows value ≠ .error .panic ∧ toUnix value ≠ .error .panic := by
  refine ⟨?_, ?_, (ends_toWindows value).not_panic trivial, (ends_toUnix value).not_panic trivial⟩
  · intro windows h
    obtain ⟨location, hspelling, rfl⟩ := toWindows_eq_ok.mp h
    have hunix := unixSpelling_unix location
    refine ⟨location.unix, toUnix_eq_ok.mpr ⟨location, windowsSpelling_windows location, rfl⟩,
      toWindows_eq_ok.mpr ⟨location, hunix, rfl⟩, ?_, ?_, ?_⟩
    · rw [unixLocation?_eq hspelling]
      rfl
    · rw [unixLocation?_eq hspelling, unixLocation?_eq hunix]
    · intro component hcomponent
      exact isPlain_windowsComponents location hcomponent
  · intro unix h
    obtain ⟨location, hspelling, rfl⟩ := toUnix_eq_ok.mp h
    refine ⟨location.windows, toWindows_eq_ok.mpr ⟨location, unixSpelling_unix location, rfl⟩,
      toUnix_eq_ok.mpr ⟨location, windowsSpelling_windows location, rfl⟩, ?_⟩
    intro component hcomponent
    exact isPlain_unixComponents location hcomponent

/-- A path that mixes separators, in upper case and with a doubled slash. -/
theorem mixed_path_round_trips :
    toWindows "/mnt/c//Users\\me".toList = .ok "C:\\Users\\me".toList ∧
      ∃ unix, toUnix "C:\\Users\\me".toList = .ok unix ∧
        toWindows unix = .ok "C:\\Users\\me".toList := by
  have hwindows : toWindows "/mnt/c//Users\\me".toList = .ok "C:\\Users\\me".toList := by decide
  obtain ⟨unix, hunix, hback, -⟩ :=
    (path_translation_round_trips "/mnt/c//Users\\me".toList).1 _ hwindows
  exact ⟨hwindows, unix, hunix, hback⟩

end Lsw.Cli.PathTranslation
