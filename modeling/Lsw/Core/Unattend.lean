import Lsw.Core.SetupPassword
import Lsw.Core.WindowsMedia
import Mathlib.Data.List.DropRight

/-!
# The Answer File

`autounattend` (`install_seed/unattend.rs`) writes the answers of a Windows installation: two templates
of lines, one of them within the other, with places for values.  The values are a validated locale, a
name of letters, digits and hyphens, a password in Base64, and the escaped name of an edition.  None of
them is read as more than characters, so the tags of an answer file are those of its templates.
-/

namespace Lsw.Core

open Lsw.Lib

/-! ## Values -/

/-- `InstallSeedOptions`, without the agent binary, which is no part of the answer file. -/
structure InstallSeedOptions where
  locale : Str
  unattendedImageIndex : Option UInt32
  unattendedImageName : Option Str
  deriving DecidableEq

/-- `SETUP_ACCOUNT_NAME`. -/
def setupAccountName : Str := "LSWSetup".toList

/-- `validate_locale`. -/
def validateLocale (locale : Str) : Result Unit :=
  let size := (bytes locale).length
  if (2 ≤ size && size ≤ 20) &&
      (bytes locale).all (fun byte =>
        isAsciiAlphanumeric byte || byte == 45) &&
      (bytes locale).any (fun byte => byte == 45) then
    .ok ()
  else
    .error (.invalidValue "locale" [.text "must look like en-US or zh-HK"])

/-- `windows_computer_name`. -/
def windowsComputerName (instanceName : Str) : Str :=
  ((("LSW-".toList ++ instanceName.map Char.toUpper).filter fun c =>
    c.isAlphanum || c == '-').take 15).rdropWhile (· == '-')

/-- The places of the templates. -/
inductive Hole where
  | locale
  | key
  | value
  | computerName
  | setupAccountPasswordValue
  | setupAccountName
  deriving DecidableEq

/-! ## Templates -/

open Xml.Piece

/-- A line of a template. -/
abbrev Line := List (Xml.Piece Hole)

/-- The lines in front of the disk configuration. -/
def templateHead : List Line := [
  [own "<?xml version=\"1.0\" encoding=\"utf-8\"?>"],
  [own "<unattend xmlns=\"urn:schemas-microsoft-com:unattend\">"],
  [own "  <settings pass=\"windowsPE\">"],
  [own "    <component name=\"Microsoft-Windows-International-Core-WinPE\" processorArchitecture=\"amd64\" publicKeyToken=\"31bf3856ad364e35\" language=\"neutral\" versionScope=\"nonSxS\" xmlns:wcm=\"http://schemas.microsoft.com/WMIConfig/2002/State\">"],
  [own "      <SetupUILanguage><UILanguage>", hole .locale, own "</UILanguage></SetupUILanguage>"],
  [own "      <InputLocale>", hole .locale, own "</InputLocale><SystemLocale>", hole .locale,
    own "</SystemLocale><UILanguage>", hole .locale, own "</UILanguage><UserLocale>", hole .locale,
    own "</UserLocale>"],
  [own "    </component>"],
  [own "    <component name=\"Microsoft-Windows-Setup\" processorArchitecture=\"amd64\" publicKeyToken=\"31bf3856ad364e35\" language=\"neutral\" versionScope=\"nonSxS\" xmlns:wcm=\"http://schemas.microsoft.com/WMIConfig/2002/State\">"]]

/-- The disk configuration up to the image, on the line of its key. -/
def diskHead : List Line := [
  [own "      <DiskConfiguration>"],
  [own "        <Disk wcm:action=\"add\">"],
  [own "          <DiskID>0</DiskID>"],
  [own "          <WillWipeDisk>true</WillWipeDisk>"],
  [own "          <CreatePartitions>"],
  [own "            <CreatePartition wcm:action=\"add\"><Order>1</Order><Type>EFI</Type><Size>260</Size></CreatePartition>"],
  [own "            <CreatePartition wcm:action=\"add\"><Order>2</Order><Type>MSR</Type><Size>16</Size></CreatePartition>"],
  [own "            <CreatePartition wcm:action=\"add\"><Order>3</Order><Type>Primary</Type><Extend>true</Extend></CreatePartition>"],
  [own "          </CreatePartitions>"],
  [own "          <ModifyPartitions>"],
  [own "            <ModifyPartition wcm:action=\"add\"><Order>1</Order><PartitionID>1</PartitionID><Label>System</Label><Format>FAT32</Format></ModifyPartition>"],
  [own "            <ModifyPartition wcm:action=\"add\"><Order>2</Order><PartitionID>3</PartitionID><Label>Windows</Label><Letter>C</Letter><Format>NTFS</Format></ModifyPartition>"],
  [own "          </ModifyPartitions>"],
  [own "        </Disk>"],
  [own "        <WillShowUI>OnError</WillShowUI>"],
  [own "      </DiskConfiguration>"],
  [own "      <ImageInstall>"],
  [own "        <OSImage>"]]

/-- The line that selects the image. -/
def diskImage : Line :=
  [own "          <InstallFrom><MetaData wcm:action=\"add\">", own "<Key>", hole .key, own "</Key>",
    own "<Value>", hole .value, own "</Value>", own "</MetaData></InstallFrom>"]

/-- The disk configuration behind the image. -/
def diskTail : List Line := [
  [own "          <InstallTo><DiskID>0</DiskID><PartitionID>3</PartitionID></InstallTo>"],
  [own "          <WillShowUI>OnError</WillShowUI>"],
  [own "        </OSImage>"],
  [own "      </ImageInstall>"]]

/-- The lines behind the disk configuration. -/
def templateTail : List Line := [
  [own "      <UserData><AcceptEula>true</AcceptEula><FullName>LSW User</FullName><Organization>LSW</Organization></UserData>"],
  [own "    </component>"],
  [own "  </settings>"],
  [own "  <settings pass=\"specialize\">"],
  [own "    <component name=\"Microsoft-Windows-Deployment\" processorArchitecture=\"amd64\" publicKeyToken=\"31bf3856ad364e35\" language=\"neutral\" versionScope=\"nonSxS\" xmlns:wcm=\"http://schemas.microsoft.com/WMIConfig/2002/State\">"],
  [own "      <RunSynchronous>"],
  [own "        <RunSynchronousCommand wcm:action=\"add\">"],
  [own "          <Order>1</Order><Description>Install LSW guest services</Description>"],
  [own "          <Path>cmd.exe /d /c for %D in (D E F G H I J K L M N O P Q R S T U V W X Y Z) do @if exist \"%D:\\lsw\\install-agent.ps1\" powershell.exe -NoLogo -NoProfile -ExecutionPolicy Bypass -File \"%D:\\lsw\\install-agent.ps1\"</Path>"],
  [own "        </RunSynchronousCommand>"],
  [own "      </RunSynchronous>"],
  [own "    </component>"],
  [own "    <component name=\"Microsoft-Windows-Shell-Setup\" processorArchitecture=\"amd64\" publicKeyToken=\"31bf3856ad364e35\" language=\"neutral\" versionScope=\"nonSxS\">"],
  [own "      <ComputerName>", hole .computerName, own "</ComputerName>"],
  [own "    </component>"],
  [own "  </settings>"],
  [own "  <settings pass=\"oobeSystem\">"],
  [own "    <component name=\"Microsoft-Windows-International-Core\" processorArchitecture=\"amd64\" publicKeyToken=\"31bf3856ad364e35\" language=\"neutral\" versionScope=\"nonSxS\">"],
  [own "      <InputLocale>", hole .locale, own "</InputLocale><SystemLocale>", hole .locale,
    own "</SystemLocale><UILanguage>", hole .locale, own "</UILanguage><UserLocale>", hole .locale,
    own "</UserLocale>"],
  [own "    </component>"],
  [own "    <component name=\"Microsoft-Windows-Shell-Setup\" processorArchitecture=\"amd64\" publicKeyToken=\"31bf3856ad364e35\" language=\"neutral\" versionScope=\"nonSxS\" xmlns:wcm=\"http://schemas.microsoft.com/WMIConfig/2002/State\">"],
  [own "      <RegisteredOrganization>LSW</RegisteredOrganization>"],
  [own "      <RegisteredOwner>LSW User</RegisteredOwner>"],
  [own "      <TimeZone>UTC</TimeZone>"],
  [own "      <OOBE>"],
  [own "        <HideEULAPage>true</HideEULAPage>"],
  [own "        <HideOEMRegistrationScreen>true</HideOEMRegistrationScreen>"],
  [own "        <HideOnlineAccountScreens>true</HideOnlineAccountScreens>"],
  [own "        <HideWirelessSetupInOOBE>true</HideWirelessSetupInOOBE>"],
  [own "        <ProtectYourPC>3</ProtectYourPC>"],
  [own "      </OOBE>"],
  [own "      <UserAccounts>"],
  [own "        <LocalAccounts>"],
  [own "          <LocalAccount wcm:action=\"add\">"],
  [own "            <Password><Value>", hole .setupAccountPasswordValue,
    own "</Value><PlainText>false</PlainText></Password>"],
  [own "            <Description>Temporary account removed when unattended setup completes</Description>"],
  [own "            <DisplayName>LSW Setup</DisplayName><Group>Users</Group><Name>",
    hole .setupAccountName, own "</Name>"],
  [own "          </LocalAccount>"],
  [own "        </LocalAccounts>"],
  [own "      </UserAccounts>"],
  [own "    </component>"],
  [own "  </settings>"],
  [own "</unattend>"]]

/-- The parts of lines, each of which ends in a line feed. -/
def pieces (lines : List Line) : List (Xml.Piece Hole) := lines.flatMap (· ++ [own "\n"])

/-- The image that is selected: what it is looked for by, and the value; the name comes first. -/
def selection (options : InstallSeedOptions) : Option (Str × Str) :=
  (options.unattendedImageName.map fun name => ("/IMAGE/NAME".toList, xmlEscape name)).or
    (options.unattendedImageIndex.map fun index =>
      ("/IMAGE/INDEX".toList, decimal index.toNat))

/-- The template of an answer file, in front of the line of the image and behind it. -/
def template (disk : Bool) : List (Xml.Piece Hole) :=
  pieces (templateHead ++ (if disk then diskHead ++ diskImage :: diskTail else []) ++ templateTail)

/-- What is filled in. -/
def holeValue (instanceName : Str) (options : InstallSeedOptions) (setupAccountPasswordValue : Str) :
    Hole → Str
  | .locale => options.locale
  | .key => ((selection options).map Prod.fst).getD []
  | .value => ((selection options).map Prod.snd).getD []
  | .computerName => windowsComputerName instanceName
  | .setupAccountPasswordValue => setupAccountPasswordValue
  | .setupAccountName => setupAccountName

/-- `autounattend`. -/
def autounattend (instanceName : Str) (options : InstallSeedOptions)
    (setupAccountPasswordValue : Str) : Str :=
  Xml.fill (holeValue instanceName options setupAccountPasswordValue)
    (template (selection options).isSome)

/-! ## The tags of an answer file -/

section Balanced

-- The characters of the longest lines are nested that deep.
set_option maxRecDepth 10000

/-- Every line ends the tags that it begins. -/
theorem complete_lines : ∀ lines ∈ [templateHead, diskHead, [diskImage], diskTail, templateTail],
    ∀ line ∈ lines, Xml.IsComplete line := by
  unfold templateHead diskHead diskImage diskTail templateTail
  repeat' first
    | exact List.forall_mem_nil _
    | refine List.forall_mem_cons.mpr ⟨?_, ?_⟩
    | refine .own (Xml.balanced_literal (by decide +kernel)) ?_
    | refine .hole ?_
    | exact .nil

end Balanced

theorem complete_pieces {lines : List Line} (h : ∀ line ∈ lines, Xml.IsComplete line) :
    Xml.IsComplete (pieces lines) := by
  induction lines with
  | nil => exact .nil
  | cons line lines ih =>
    obtain ⟨hline, hrest⟩ := List.forall_mem_cons.mp h
    have hend : Xml.IsComplete (line ++ [own "\n"]) :=
      hline.append (.own (Xml.balanced_literal (by decide)) .nil)
    exact hend.append (ih hrest)

/-- The parts in front of the key. -/
def beforeKey : List (Xml.Piece Hole) :=
  pieces (templateHead ++ diskHead) ++ [own "          <InstallFrom><MetaData wcm:action=\"add\">"]

/-- The key, and the tag in front of the value. -/
def keyPart : List (Xml.Piece Hole) := [own "<Key>", hole .key, own "</Key>", own "<Value>"]

/-- The parts behind the tag that ends the value. -/
def afterValue : List (Xml.Piece Hole) :=
  [own "</MetaData></InstallFrom>", own "\n"] ++ pieces (diskTail ++ templateTail)

theorem template_true : template true =
    (beforeKey ++ keyPart) ++ (hole .value :: (own "</Value>" :: afterValue)) := by
  have himage : diskImage ++ [own "\n"] =
      [own "          <InstallFrom><MetaData wcm:action=\"add\">"] ++ (keyPart ++
        (hole .value :: own "</Value>" :: [own "</MetaData></InstallFrom>", own "\n"])) := rfl
  simp only [template, beforeKey, afterValue, pieces, if_true, List.flatMap_append,
    List.flatMap_cons, himage, List.append_assoc, List.cons_append]

theorem complete_beforeKey : Xml.IsComplete beforeKey := by
  have hhead := complete_lines templateHead (by simp)
  have hdisk := complete_lines diskHead (by simp)
  refine (complete_pieces fun line hline => ?_).append
    (.own (Xml.balanced_literal (by decide +kernel)) .nil)
  exact (List.mem_append.mp hline).elim (hhead line) (hdisk line)

theorem complete_keyPart : Xml.IsComplete keyPart :=
  .own (by decide) (.hole (.own (by decide) (.own (by decide) .nil)))

theorem complete_afterValue : Xml.IsComplete afterValue := by
  have hdisk := complete_lines diskTail (by simp)
  have htail := complete_lines templateTail (by simp)
  refine Xml.IsComplete.append (.own (by decide) (.own (by decide) .nil))
    (complete_pieces fun line hline => ?_)
  exact (List.mem_append.mp hline).elim (hdisk line) (htail line)

/-! ## The values -/

/-- Text that is read as its characters. -/
def IsPlain (text : Str) : Prop := ∀ c ∈ text, c ≠ '<' ∧ c ≠ '&'

/-- A locale that is accepted needs no escaping. -/
theorem isPlain_locale {locale : Str} (h : validateLocale locale = .ok ()) : IsPlain locale := by
  have hbytes : ∀ byte ∈ bytes locale, (isAsciiAlphanumeric byte || byte == 45) = true := by
    unfold validateLocale at h
    dsimp only at h
    split at h
    · rename_i hvalid
      simp only [Bool.and_eq_true] at hvalid
      exact List.all_eq_true.mp hvalid.1.2
    · cases h
  -- A bracket or an ampersand is a single byte, which is neither alphanumeric nor a hyphen.
  intro c hc
  constructor
  · rintro rfl
    exact absurd (hbytes 60 (mem_bytes_of_mem hc (by decide))) (by decide)
  · rintro rfl
    exact absurd (hbytes 38 (mem_bytes_of_mem hc (by decide))) (by decide)

theorem isPlain_windowsComputerName (instanceName : Str) :
    IsPlain (windowsComputerName instanceName) := by
  intro c hc
  have htake := List.mem_of_mem_take ((List.rdropWhile_prefix _ _).subset hc)
  have hkept := (List.mem_filter.mp htake).2
  constructor <;> (rintro rfl; revert hkept; decide)

theorem isPlain_unattendPasswordValue (password : Str) :
    IsPlain (unattendPasswordValue password) := by
  obtain ⟨body, htext, hbody, -⟩ := isPadded_base64Encode
    (Utf16.toLeBytes (Utf16.encode password ++ Utf16.encode "Password".toList))
  have halphabet : ∀ c ∈ Base64.alphabet, c ≠ '<' ∧ c ≠ '&' := forall_mem_of_all (by decide)
  intro c hc
  rw [unattendPasswordValue, htext] at hc
  rcases List.mem_append.mp hc with hdigit | hpadding
  · exact halphabet c (hbody c hdigit)
  · rw [List.eq_of_mem_replicate hpadding]
    decide

theorem IsPlain.reads {text : Str} (h : IsPlain text) : Xml.Reads text (text.map .char) :=
  Xml.reads_plain h

theorem IsPlain.not_mem {text : Str} (h : IsPlain text) : '&' ∉ text := fun hmem =>
  (h '&' hmem).2 rfl

/-- Where an edition is selected by its name, the values other than the name are plain. -/
theorem isPlain_holeValue {options : InstallSeedOptions} {name : Str}
    (hlocale : validateLocale options.locale = .ok ())
    (hname : options.unattendedImageName = some name) (instanceName password : Str) {hole : Hole}
    (hhole : hole ≠ .value) :
    IsPlain (holeValue instanceName options (unattendPasswordValue password) hole) := by
  have hselection : selection options = some ("/IMAGE/NAME".toList, xmlEscape name) := by
    rw [selection, hname]
    rfl
  cases hole with
  | locale => exact isPlain_locale hlocale
  | key =>
    have hkey : holeValue instanceName options (unattendPasswordValue password) .key =
        "/IMAGE/NAME".toList := by
      rw [holeValue, hselection]
      rfl
    have hplain : ∀ c ∈ "/IMAGE/NAME".toList, c ≠ '<' ∧ c ≠ '&' := forall_mem_of_all (by decide)
    rw [hkey]
    exact hplain
  | value => exact absurd rfl hhole
  | computerName => exact isPlain_windowsComputerName instanceName
  | setupAccountPasswordValue => exact isPlain_unattendPasswordValue password
  | setupAccountName =>
    have hplain : ∀ c ∈ setupAccountName, c ≠ '<' ∧ c ≠ '&' := forall_mem_of_all (by decide)
    exact hplain

theorem value_not_mem_beforeKey : Xml.Piece.hole Hole.value ∉ beforeKey := by
  simp [beforeKey, pieces, templateHead, diskHead]

theorem value_not_mem_afterValue : Xml.Piece.hole Hole.value ∉ afterValue := by
  simp [afterValue, pieces, diskTail, templateTail]

/-! ## The documents -/

/-- Editions come back from the XML of an image whatever their names are made of, and a name that
    is selected comes back from the answer file, whose tags are those of its template and which has
    no reference but those of the name. -/
theorem edition_names_survive :
    (∀ editions : List WindowsEdition, (∀ edition ∈ editions, edition.IsTrimmed) →
      parseEditions (renderWim editions) = .ok editions) ∧
    ∀ (instanceName password : Str) (options : InstallSeedOptions) (name : Str),
      validateLocale options.locale = .ok () → options.unattendedImageName = some name →
      ∃ front back before after,
        autounattend instanceName options (unattendPasswordValue password) =
          front ++ ("<Key>/IMAGE/NAME</Key><Value>".toList ++ (xmlEscape name ++
            ("</Value>".toList ++ back))) ∧
        xmlUnescape (xmlEscape name) = name ∧
        Xml.read (autounattend instanceName options (unattendPasswordValue password)) =
          some (before ++ name.map .char ++ after) ∧
        Xml.tags (before ++ after) = Xml.ownTags (template true) ∧ '&' ∉ front ∧ '&' ∉ back := by
  refine ⟨fun editions h => parseEditions_renderWim h,
    fun instanceName password options name hlocale hname => ?_⟩
  have hselection : selection options = some ("/IMAGE/NAME".toList, xmlEscape name) := by
    rw [selection, hname]
    rfl
  have hplain : ∀ hole, hole ≠ .value →
      IsPlain (holeValue instanceName options (unattendPasswordValue password) hole) :=
    fun hole => isPlain_holeValue hlocale hname instanceName password
  generalize hvalues : holeValue instanceName options (unattendPasswordValue password) = values
    at hplain
  have hkey : values .key = "/IMAGE/NAME".toList := by
    rw [← hvalues, holeValue, hselection]
    rfl
  have hvalue : values .value = xmlEscape name := by
    rw [← hvalues, holeValue, hselection]
    rfl
  -- Every value is read as characters, the escaped name as those of the name.
  have hreads : ∀ hole, Xml.Reads (values hole)
      ((if hole = .value then name else values hole).map .char) := by
    intro hole
    by_cases hhole : hole = .value
    · rw [if_pos hhole, hhole, hvalue]
      exact reads_xmlEscape name
    · rw [if_neg hhole]
      exact (hplain hole hhole).reads
  have hcomplete : Xml.IsComplete (own "</Value>" :: afterValue) :=
    .own (by decide) complete_afterValue
  obtain ⟨before, hbefore, hbeforeTags⟩ :=
    Xml.reads_fill (complete_beforeKey.append complete_keyPart) hreads
  obtain ⟨after, hafter, hafterTags⟩ := Xml.reads_fill hcomplete hreads
  have hdocument : autounattend instanceName options (unattendPasswordValue password) =
      Xml.fill values (beforeKey ++ keyPart) ++ (xmlEscape name ++
        Xml.fill values (own "</Value>" :: afterValue)) := by
    rw [autounattend, hvalues, hselection, Option.isSome_some, template_true, Xml.fill_append,
      Xml.fill_hole, hvalue]
  refine ⟨Xml.fill values beforeKey, Xml.fill values afterValue, before, after, ?_,
    xmlUnescape_xmlEscape name, ?_, ?_, ?_, ?_⟩
  · have hkeyPart : Xml.fill values keyPart = "<Key>/IMAGE/NAME</Key><Value>".toList := by
      rw [keyPart, Xml.fill_own, Xml.fill_hole, Xml.fill_own, Xml.fill_own, Xml.fill_nil, hkey]
      rfl
    rw [hdocument, Xml.fill_append, hkeyPart, List.append_assoc, Xml.fill_own]
  · rw [hdocument, List.append_assoc]
    have hescaped := hreads .value
    rw [if_pos rfl, hvalue] at hescaped
    exact (hbefore.append (hescaped.append hafter)).read_eq
  · rw [Xml.tags_append, hbeforeTags, hafterTags, template_true,
      Xml.ownTags_append (beforeKey ++ keyPart), Xml.ownTags_hole]
  · exact Xml.not_mem_fill complete_beforeKey fun hole hmem =>
      (hplain hole fun h => value_not_mem_beforeKey (h ▸ hmem)).not_mem
  · exact Xml.not_mem_fill complete_afterValue fun hole hmem =>
      (hplain hole fun h => value_not_mem_afterValue (h ▸ hmem)).not_mem

/-- Names made of markup and of the text of an entity. -/
theorem markup_in_names_survives :
    parseEditions (renderWim [⟨1, "</NAME>&lt;".toList, some "\"N\" & 'Pro'".toList⟩,
      ⟨6, "</IMAGE>".toList, none⟩]) =
        .ok [⟨1, "</NAME>&lt;".toList, some "\"N\" & 'Pro'".toList⟩, ⟨6, "</IMAGE>".toList, none⟩] ∧
      ∃ front back before after,
        autounattend "dev".toList ⟨"en-US".toList, none, some "</Value>&lt;".toList⟩
            (unattendPasswordValue "pw".toList) =
          front ++ ("<Key>/IMAGE/NAME</Key><Value>".toList ++ (xmlEscape "</Value>&lt;".toList ++
            ("</Value>".toList ++ back))) ∧
        xmlUnescape (xmlEscape "</Value>&lt;".toList) = "</Value>&lt;".toList ∧
        Xml.read (autounattend "dev".toList ⟨"en-US".toList, none, some "</Value>&lt;".toList⟩
            (unattendPasswordValue "pw".toList)) =
          some (before ++ "</Value>&lt;".toList.map .char ++ after) ∧
        Xml.tags (before ++ after) = Xml.ownTags (template true) ∧ '&' ∉ front ∧ '&' ∉ back :=
  ⟨edition_names_survive.1 _ (by decide),
    edition_names_survive.2 _ "pw".toList ⟨"en-US".toList, none, some "</Value>&lt;".toList⟩ _
      (by decide) rfl⟩

end Lsw.Core
