import Mathlib.Data.List.Nodup
import Lsw.Core.Customization
import Lsw.Lib.Elements

/-!
# The Application behind an Execution Alias

The manifest of a Windows package names its applications and the command aliases that start them.
`manifest_xml_alias_application` reads it as a stream of events and looks for the application of an
alias (`discovery.rs`).  What it remembers of the elements that are open is how deep the last one is
on the way from the package to an alias; elements at other depths, or of other names, are passed over.

The XML reader and the comparison of Windows are not part of the repository, so they are parameters.
`Stage` is how far the open elements are on the way, and says what the six markers of the program are.
-/

namespace Lsw.Agent.ManifestAlias

open Lsw.Lib Lsw.Core
open Lsw.Core.Customization (eqIgnoreAsciiCase)

/-! ## Elements -/

/-- A name, with the namespace its prefix stands for. -/
structure XmlName where
  nspace : Option Str
  localName : Str
  deriving DecidableEq

structure XmlAttribute where
  name : XmlName
  value : Str
  deriving DecidableEq

/-- The start of an element.  No attribute is there twice. -/
structure XmlElement where
  name : XmlName
  attributes : List XmlAttribute
  unique : (attributes.map (·.name)).Nodup
  deriving DecidableEq

abbrev XmlEvent := TreeEvent XmlElement

/-- What the reader makes of a document: its events, and whether it has a document type. -/
structure XmlReading where
  events : List (Except String XmlEvent)
  doctype : Bool

/-- `FOUNDATION_MANIFEST_NAMESPACE`, and the others. -/
def foundationNamespace : Str :=
  "http://schemas.microsoft.com/appx/manifest/foundation/windows10".toList

def uap3Namespace : Str := "http://schemas.microsoft.com/appx/manifest/uap/windows10/3".toList

def uap5Namespace : Str := "http://schemas.microsoft.com/appx/manifest/uap/windows10/5".toList

def uap8Namespace : Str := "http://schemas.microsoft.com/appx/manifest/uap/windows10/8".toList

def desktopNamespace : Str := "http://schemas.microsoft.com/appx/manifest/desktop/windows10".toList

namespace XmlElement

variable (element : XmlElement)

/-- `name.local_name == … && name.namespace.as_deref() == Some(…)`. -/
def isNamed (nspace : Str) (localName : String) : Bool :=
  element.name.localName == localName.toList && element.name.nspace == some nspace

/-- The attributes of a name without a namespace. -/
def plainAttribute (localName : String) (attr : XmlAttribute) : Bool :=
  attr.name.localName == localName.toList && attr.name.nspace == none

/-- The `Id` of an application, unless it is empty. -/
def applicationId : Option Str :=
  ((element.attributes.find? (plainAttribute "Id")).map (·.value)).filter (· ≠ [])

/-- Whether an extension is of the category of execution aliases. -/
def hasAliasCategory : Bool :=
  element.attributes.any fun attr => plainAttribute "Category" attr &&
    eqIgnoreAsciiCase attr.value "windows.appExecutionAlias".toList

end XmlElement

/-- `AliasExtensionSchema`. -/
inductive AliasExtensionSchema where
  | uap3
  | uap5
  deriving DecidableEq, Repr

namespace AliasExtensionSchema

/-- `AliasExtensionSchema::extension_namespace`. -/
def extensionNamespace : AliasExtensionSchema → Str
  | uap3 => uap3Namespace
  | uap5 => uap5Namespace

/-- `AliasExtensionSchema::execution_namespace_allowed`. -/
def executionNamespaceAllowed : AliasExtensionSchema → Option Str → Bool
  | uap3, nspace => nspace == some desktopNamespace || nspace == some uap8Namespace
  | uap5, nspace => nspace == some uap5Namespace || nspace == some uap8Namespace

end AliasExtensionSchema

/-- `alias_extension_schema`. -/
def aliasExtensionSchema (nspace : Option Str) : Option AliasExtensionSchema :=
  if nspace = some uap3Namespace then some .uap3
  else if nspace = some uap5Namespace then some .uap5
  else none

/-- `name.local_name == "Extension"`, of a schema and a category for execution aliases. -/
def XmlElement.isAliasExtension (element : XmlElement) : Bool :=
  element.name.localName == "Extension".toList &&
    (aliasExtensionSchema element.name.nspace).isSome && element.hasAliasCategory

/-! ## The program -/

/-- What the search fails with: a message, or an error of the XML reader. -/
inductive ManifestError where
  | text (message : Message)
  | xml (error : String)
  deriving DecidableEq

/-- `MAX_PACKAGE_MANIFEST_BYTES`, `MAX_PACKAGE_MANIFEST_EVENTS` and `MAX_PACKAGE_MANIFEST_DEPTH`. -/
def maxPackageManifestBytes : Nat := 4 * 1024 * 1024

def maxPackageManifestEvents : Nat := 100000

def maxPackageManifestDepth : Nat := 256

/-- The variables of the loop; `matching` is a set. -/
structure AliasScan where
  depth : Nat := 0
  packageRoot : Option Nat := none
  applications : Option Nat := none
  application : Option (Nat × Str) := none
  applicationExtensions : Option Nat := none
  aliasExtension : Option (Nat × Str × AliasExtensionSchema) := none
  aliasContainer : Option (Nat × Str × AliasExtensionSchema) := none
  matching : List Str := []
  deriving DecidableEq

namespace AliasScan

variable (scan : AliasScan)

/-- `marker.is_some_and(|marker_depth| depth == marker_depth + 1)`. -/
def isChild (marker : Option Nat) : Bool := marker.any (scan.depth == · + 1)

/-- The branches for an element that starts. -/
def openElement (element : XmlElement) : AliasScan :=
  let depth := scan.depth
  if depth = 1 ∧ element.isNamed foundationNamespace "Package" = true then
    { scan with packageRoot := some depth }
  else if scan.applications = none ∧ scan.isChild scan.packageRoot = true ∧
      element.isNamed foundationNamespace "Applications" = true then
    { scan with applications := some depth }
  else if scan.application = none ∧ scan.isChild scan.applications = true ∧
      element.isNamed foundationNamespace "Application" = true then
    match element.applicationId with
    | some applicationId => { scan with application := some (depth, applicationId) }
    | none => scan
  else if scan.applicationExtensions = none ∧
      scan.isChild (scan.application.map (·.1)) = true ∧
      element.isNamed foundationNamespace "Extensions" = true then
    { scan with applicationExtensions := some depth }
  else if scan.aliasExtension = none ∧ scan.isChild scan.applicationExtensions = true ∧
      element.isAliasExtension = true then
    match scan.application, aliasExtensionSchema element.name.nspace with
    | some (_, applicationId), some schema =>
      { scan with aliasExtension := some (depth, applicationId, schema) }
    | _, _ => scan
  else
    match scan.aliasExtension with
    | some (extensionDepth, applicationId, schema) =>
      if scan.aliasContainer = none ∧ depth = extensionDepth + 1 ∧
          element.isNamed schema.extensionNamespace "AppExecutionAlias" = true then
        { scan with aliasContainer := some (depth, applicationId, schema) }
      else scan
    | none => scan

/-- A marker that is not of the element that ends. -/
def keep {β : Type} (markerDepth : β → Nat) (marker : Option β) : Option β :=
  marker.filter fun value => markerDepth value ≠ scan.depth

/-- An element that ends. -/
def endElement : Except ManifestError AliasScan := do
  let depth ← okOr (if scan.depth = 0 then none else some (scan.depth - 1))
    (.text [.text "package manifest ended outside its root element"])
  return { depth
           packageRoot := scan.keep id scan.packageRoot
           applications := scan.keep id scan.applications
           application := scan.keep (·.1) scan.application
           applicationExtensions := scan.keep id scan.applicationExtensions
           aliasExtension := scan.keep (·.1) scan.aliasExtension
           aliasContainer := scan.keep (·.1) scan.aliasContainer
           matching := scan.matching }

end AliasScan

section Model

-- `ordinalEq` is `windows_ordinal_eq_ignore_case`, the comparison of Windows.
variable (ordinalEq : Str → Str → Bool) (expectedAlias : Str)

/-- Whether an element has the alias. -/
def XmlElement.hasAlias (element : XmlElement) : Bool :=
  element.attributes.any fun attr => XmlElement.plainAttribute "Alias" attr &&
    ordinalEq attr.value expectedAlias

/-- `name.local_name == "ExecutionAlias"`, in a namespace of the schema and with the alias. -/
def XmlElement.isExecutionAlias (element : XmlElement) (schema : AliasExtensionSchema) : Bool :=
  element.name.localName == "ExecutionAlias".toList &&
    schema.executionNamespaceAllowed element.name.nspace &&
    element.hasAlias ordinalEq expectedAlias

/-- The check for the alias itself, after the branches. -/
def AliasScan.noteAlias (scan : AliasScan) (element : XmlElement) : AliasScan :=
  match scan.aliasContainer with
  | some (containerDepth, applicationId, schema) =>
    if scan.depth = containerDepth + 1 ∧
        element.isExecutionAlias ordinalEq expectedAlias schema = true then
      { scan with matching := scan.matching.insert applicationId }
    else scan
  | none => scan

/-- An element that starts. -/
def AliasScan.startElement (scan : AliasScan) (element : XmlElement) :
    Except ManifestError AliasScan := do
  let depth ← okOr (checkedAdd scan.depth 1) (.text [.text "package manifest depth overflowed"])
  rejectIf (depth > maxPackageManifestDepth)
    (.text [.text "package manifest exceeds the XML depth limit"])
  let scan := { scan with depth }
  return (scan.openElement element).noteAlias ordinalEq expectedAlias element

/-- One event. -/
def AliasScan.event (scan : AliasScan) : XmlEvent → Except ManifestError AliasScan
  | .start element => scan.startElement ordinalEq expectedAlias element
  | .finish => scan.endElement
  | _ => .ok scan

/-- The loop over the events. -/
def readEvents : List (Except String XmlEvent) → Nat → AliasScan → Except ManifestError AliasScan
  | [], _, _ => .error (.xml "no more events")
  | next :: events, eventIndex, scan => do
    rejectIf (eventIndex ≥ maxPackageManifestEvents)
      (.text [.text "package manifest exceeds the XML event limit"])
    let event ← next.mapError .xml
    let scan ← scan.event ordinalEq expectedAlias event
    if event = .endDocument then return scan
    readEvents events (eventIndex + 1) scan

/-- `manifest_xml_alias_application`; `reader` is the XML reader. -/
def manifestXmlAliasApplication (reader : List UInt8 → XmlReading) (manifest : List UInt8) :
    Except ManifestError (Option Str) := do
  rejectIf (manifest.length > maxPackageManifestBytes)
    (.text [.text "package manifest exceeds the correlation parser limit"])
  let reading := reader manifest
  let scan ← readEvents ordinalEq expectedAlias reading.events 0 {}
  rejectIf (reading.doctype = true)
    (.text [.text "package manifest DOCTYPE is not accepted for GUI correlation"])
  match scan.matching with
  | [] => return none
  | [applicationId] => return some applicationId
  | applications => .error (.text [.text "package manifest declares ", .shown expectedAlias,
      .text " for ", .shown (Nat.toDigits 10 applications.length), .text " applications"])

end Model

/-! ## What the search should find -/

/-- An attribute without a namespace. -/
def XmlElement.HasAttribute (element : XmlElement) (localName : String) (value : Str) : Prop :=
  ⟨⟨none, localName.toList⟩, value⟩ ∈ element.attributes

/-- An application that declares the alias, on the way from the package by direct children. -/
def DeclaresAlias (ordinalEq : Str → Str → Bool) (expectedAlias : Str)
    (document : Document XmlElement) (applicationId : Str) : Prop :=
  document.root.name = ⟨some foundationNamespace, "Package".toList⟩ ∧
  ∃ applications ∈ document.content.children,
    applications.1.name = ⟨some foundationNamespace, "Applications".toList⟩ ∧
  ∃ application ∈ applications.2.children,
    application.1.name = ⟨some foundationNamespace, "Application".toList⟩ ∧
    application.1.HasAttribute "Id" applicationId ∧ applicationId ≠ [] ∧
  ∃ extensions ∈ application.2.children,
    extensions.1.name = ⟨some foundationNamespace, "Extensions".toList⟩ ∧
  ∃ extension ∈ extensions.2.children, ∃ schema : AliasExtensionSchema,
    extension.1.name = ⟨some schema.extensionNamespace, "Extension".toList⟩ ∧
    (∃ category, extension.1.HasAttribute "Category" category ∧
      eqIgnoreAsciiCase category "windows.appExecutionAlias".toList = true) ∧
  ∃ container ∈ extension.2.children,
    container.1.name = ⟨some schema.extensionNamespace, "AppExecutionAlias".toList⟩ ∧
  ∃ execution ∈ container.2.children,
    execution.1.name.localName = "ExecutionAlias".toList ∧
    schema.executionNamespaceAllowed execution.1.name.nspace = true ∧
    ∃ value, execution.1.HasAttribute "Alias" value ∧ ordinalEq value expectedAlias = true

/-! ## How far the open elements are on the way -/

/-- The last of the open elements that is on the way from the package to an alias. -/
inductive Stage where
  | outside
  | package
  | applications
  | application (applicationId : Str)
  | extensions (applicationId : Str)
  | extension (applicationId : Str) (schema : AliasExtensionSchema)
  | container (applicationId : Str) (schema : AliasExtensionSchema)
  deriving DecidableEq

namespace Stage

/-- How deep the element is. -/
def depth : Stage → Nat
  | outside => 0
  | package => 1
  | applications => 2
  | application _ => 3
  | extensions _ => 4
  | extension _ _ => 5
  | container _ _ => 6

/-- The variables of the loop. -/
def scan : Stage → Nat → List Str → AliasScan
  | outside, depth, matching => { depth, matching }
  | package, depth, matching => { depth, matching, packageRoot := some 1 }
  | applications, depth, matching =>
    { depth, matching, packageRoot := some 1, applications := some 2 }
  | application applicationId, depth, matching =>
    { depth, matching, packageRoot := some 1, applications := some 2,
      application := some (3, applicationId) }
  | extensions applicationId, depth, matching =>
    { depth, matching, packageRoot := some 1, applications := some 2,
      application := some (3, applicationId), applicationExtensions := some 4 }
  | extension applicationId schema, depth, matching =>
    { depth, matching, packageRoot := some 1, applications := some 2,
      application := some (3, applicationId), applicationExtensions := some 4,
      aliasExtension := some (5, applicationId, schema) }
  | container applicationId schema, depth, matching =>
    { depth, matching, packageRoot := some 1, applications := some 2,
      application := some (3, applicationId), applicationExtensions := some 4,
      aliasExtension := some (5, applicationId, schema),
      aliasContainer := some (6, applicationId, schema) }

/-- An element directly in the last one, if it is the next on the way. -/
def enter? : Stage → XmlElement → Option Stage
  | outside, element =>
    if element.isNamed foundationNamespace "Package" then some package else none
  | package, element =>
    if element.isNamed foundationNamespace "Applications" then some applications else none
  | applications, element =>
    if element.isNamed foundationNamespace "Application" then
      element.applicationId.map application
    else none
  | application applicationId, element =>
    if element.isNamed foundationNamespace "Extensions" then some (extensions applicationId)
    else none
  | extensions applicationId, element =>
    if element.isAliasExtension then
      (aliasExtensionSchema element.name.nspace).map (extension applicationId)
    else none
  | extension applicationId schema, element =>
    if element.isNamed schema.extensionNamespace "AppExecutionAlias" then
      some (container applicationId schema)
    else none
  | container _ _, _ => none

/-- The stage before. -/
def leave : Stage → Stage
  | outside => outside
  | package => outside
  | applications => package
  | application _ => applications
  | extensions applicationId => application applicationId
  | extension applicationId _ => extensions applicationId
  | container applicationId schema => extension applicationId schema

variable {stage next : Stage} {element : XmlElement} {depth : Nat} {matching : List Str}

/-- The next stage is one deeper, and this one comes before it. -/
theorem of_enter? (h : stage.enter? element = some next) :
    next.depth = stage.depth + 1 ∧ next.leave = stage := by
  cases stage with
  | outside =>
    obtain ⟨-, rfl⟩ : _ ∧ package = next := by simpa [enter?] using h
    exact ⟨rfl, rfl⟩
  | package =>
    obtain ⟨-, rfl⟩ : _ ∧ applications = next := by simpa [enter?] using h
    exact ⟨rfl, rfl⟩
  | applications =>
    obtain ⟨-, applicationId, -, rfl⟩ : _ ∧ ∃ applicationId, _ ∧ application applicationId = next := by
      simpa [enter?] using h
    exact ⟨rfl, rfl⟩
  | application applicationId =>
    obtain ⟨-, rfl⟩ : _ ∧ extensions applicationId = next := by simpa [enter?] using h
    exact ⟨rfl, rfl⟩
  | extensions applicationId =>
    obtain ⟨-, schema, -, rfl⟩ : _ ∧ ∃ schema, _ ∧ extension applicationId schema = next := by
      simpa [enter?] using h
    exact ⟨rfl, rfl⟩
  | extension applicationId schema =>
    obtain ⟨-, rfl⟩ : _ ∧ container applicationId schema = next := by simpa [enter?] using h
    exact ⟨rfl, rfl⟩
  | container applicationId schema => cases h

/-- An element that starts directly in the last one on the way. -/
theorem openElement_next (stage : Stage) (element : XmlElement) (matching : List Str) :
    (stage.scan (stage.depth + 1) matching).openElement element =
      ((stage.enter? element).getD stage).scan (stage.depth + 1) matching := by
  -- At each stage one element leads on, and any other one is passed over.
  cases stage with
  | outside =>
    by_cases h : element.isNamed foundationNamespace "Package" = true
    · simp [AliasScan.openElement, enter?, Stage.scan, Stage.depth, h]
    · simp [AliasScan.openElement, AliasScan.isChild, enter?, Stage.scan, Stage.depth, h]
  | package =>
    by_cases h : element.isNamed foundationNamespace "Applications" = true
    · simp [AliasScan.openElement, AliasScan.isChild, enter?, Stage.scan, Stage.depth, h]
    · simp [AliasScan.openElement, AliasScan.isChild, enter?, Stage.scan, Stage.depth, h]
  | applications =>
    by_cases h : element.isNamed foundationNamespace "Application" = true
    -- An application without an identifier leads nowhere.
    · cases hid : element.applicationId <;>
        simp [AliasScan.openElement, AliasScan.isChild, enter?, Stage.scan, Stage.depth, h, hid]
    · simp [AliasScan.openElement, AliasScan.isChild, enter?, Stage.scan, Stage.depth, h]
  | application applicationId =>
    by_cases h : element.isNamed foundationNamespace "Extensions" = true
    · simp [AliasScan.openElement, AliasScan.isChild, enter?, Stage.scan, Stage.depth, h]
    · simp [AliasScan.openElement, AliasScan.isChild, enter?, Stage.scan, Stage.depth, h]
  | extensions applicationId =>
    by_cases h : element.isAliasExtension = true
    -- Neither does an extension of an unknown schema.
    · cases hschema : aliasExtensionSchema element.name.nspace <;>
        simp [AliasScan.openElement, AliasScan.isChild, enter?, Stage.scan, Stage.depth, h, hschema]
    · simp [AliasScan.openElement, AliasScan.isChild, enter?, Stage.scan, Stage.depth, h]
  | extension applicationId schema =>
    by_cases h : element.isNamed schema.extensionNamespace "AppExecutionAlias" = true
    · simp [AliasScan.openElement, AliasScan.isChild, enter?, Stage.scan, Stage.depth, h]
    · simp [AliasScan.openElement, AliasScan.isChild, enter?, Stage.scan, Stage.depth, h]
  | container applicationId schema =>
    simp [AliasScan.openElement, AliasScan.isChild, enter?, Stage.scan, Stage.depth]

/-- One that starts deeper is passed over. -/
theorem openElement_deeper (element : XmlElement) (h : stage.depth < depth)
    (matching : List Str) : (stage.scan (depth + 1) matching).openElement element =
      stage.scan (depth + 1) matching := by
  have hroot : depth ≠ 0 := by omega
  have hne : depth ≠ stage.depth := by omega
  cases stage with
  | outside => simp [AliasScan.openElement, AliasScan.isChild, Stage.scan, hroot]
  | package =>
    simp only [Stage.depth] at hne
    simp [AliasScan.openElement, AliasScan.isChild, Stage.scan, hroot, hne]
  | applications =>
    simp only [Stage.depth] at hne
    simp [AliasScan.openElement, AliasScan.isChild, Stage.scan, hroot, hne]
  | application applicationId =>
    simp only [Stage.depth] at hne
    simp [AliasScan.openElement, AliasScan.isChild, Stage.scan, hroot, hne]
  | extensions applicationId =>
    simp only [Stage.depth] at hne
    simp [AliasScan.openElement, AliasScan.isChild, Stage.scan, hroot, hne]
  | extension applicationId schema =>
    simp only [Stage.depth] at hne
    simp [AliasScan.openElement, AliasScan.isChild, Stage.scan, hroot, hne]
  | container applicationId schema =>
    simp [AliasScan.openElement, AliasScan.isChild, Stage.scan, hroot]

theorem scan_depth (stage : Stage) (depth next : Nat) (matching : List Str) :
    { stage.scan depth matching with depth := next } = stage.scan next matching := by
  cases stage <;> rfl

/-- The markers of the elements on the way. -/
theorem markers_le (stage : Stage) (depth : Nat) (matching : List Str) :
    (∀ marker ∈ (stage.scan depth matching).packageRoot, marker ≤ stage.depth) ∧
    (∀ marker ∈ (stage.scan depth matching).applications, marker ≤ stage.depth) ∧
    (∀ marker ∈ (stage.scan depth matching).application, marker.1 ≤ stage.depth) ∧
    (∀ marker ∈ (stage.scan depth matching).applicationExtensions, marker ≤ stage.depth) ∧
    (∀ marker ∈ (stage.scan depth matching).aliasExtension, marker.1 ≤ stage.depth) ∧
    ∀ marker ∈ (stage.scan depth matching).aliasContainer, marker.1 ≤ stage.depth := by
  cases stage <;> simp [Stage.scan, Stage.depth]

/-- A marker of another element than the one that ends is kept. -/
theorem keep_of_lt {β : Type} {scan : AliasScan} {markerDepth : β → Nat} {marker : Option β}
    {limit : Nat} (hmarker : ∀ value ∈ marker, markerDepth value ≤ limit)
    (h : limit < scan.depth) : scan.keep markerDepth marker = marker := by
  cases marker with
  | none => rfl
  | some value =>
    have hne : markerDepth value ≠ scan.depth := by
      have hvalue := hmarker value rfl
      omega
    simp [AliasScan.keep, hne]

/-- An element that ends below the last one on the way. -/
theorem endElement_deeper (h : stage.depth < depth) (matching : List Str) :
    (stage.scan depth matching).endElement = .ok (stage.scan (depth - 1) matching) := by
  obtain ⟨hroot, happlications, happlication, hextensions, hextension, hcontainer⟩ :=
    stage.markers_le depth matching
  have hdepth : (stage.scan depth matching).depth = depth := by cases stage <;> rfl
  have hlimit : stage.depth < (stage.scan depth matching).depth := by
    rw [hdepth]
    exact h
  rw [AliasScan.endElement, @keep_of_lt _ _ id _ _ hroot hlimit,
    @keep_of_lt _ _ id _ _ happlications hlimit, keep_of_lt happlication hlimit,
    @keep_of_lt _ _ id _ _ hextensions hlimit, keep_of_lt hextension hlimit,
    keep_of_lt hcontainer hlimit, hdepth, if_neg (by omega), okOr_some, ok_bind]
  exact congrArg Except.ok (stage.scan_depth depth (depth - 1) matching)

/-- The last one on the way ends. -/
theorem endElement_last (h : 0 < stage.depth) (matching : List Str) :
    (stage.scan stage.depth matching).endElement =
      .ok (stage.leave.scan (stage.depth - 1) matching) := by
  cases stage with
  | outside => exact absurd h (by decide)
  | _ => rfl

end Stage

/-! ## The run over a tree -/

section Run

variable {ordinalEq : Str → Str → Bool} {expectedAlias : Str}

/-- The application of an alias directly in the last element on the way. -/
def Stage.alias? (ordinalEq : Str → Str → Bool) (expectedAlias : Str) :
    Stage → XmlElement → Option Str
  | .container applicationId schema, element =>
    if element.isExecutionAlias ordinalEq expectedAlias schema then some applicationId else none
  | _, _ => none

/-- A set with one element more, if there is one. -/
def including (found : Option Str) (matching : List Str) : List Str :=
  match found with
  | some applicationId => matching.insert applicationId
  | none => matching

/-- An execution alias is noted if its element is the next one on the way. -/
theorem noteAlias_next (stage : Stage) (element : XmlElement) (matching : List Str) :
    (((stage.enter? element).getD stage).scan (stage.depth + 1) matching).noteAlias
        ordinalEq expectedAlias element =
      ((stage.enter? element).getD stage).scan (stage.depth + 1)
        (including (stage.alias? ordinalEq expectedAlias element) matching) := by
  cases henter : stage.enter? element with
  | none =>
    cases stage with
    | container applicationId schema =>
      by_cases h : element.isExecutionAlias ordinalEq expectedAlias schema = true
      · simp [AliasScan.noteAlias, Stage.scan, Stage.alias?, Stage.depth, including, h]
      · simp [AliasScan.noteAlias, Stage.scan, Stage.alias?, Stage.depth, including, h]
    | _ => rfl
  | some next =>
    -- The element itself is on the way, so that it is not an alias.
    have hdepth := (Stage.of_enter? henter).1
    have hnone : stage.alias? ordinalEq expectedAlias element = none := by
      cases stage with
      | container applicationId schema => cases henter
      | _ => rfl
    rw [hnone, Option.getD_some, including, ← hdepth]
    cases next with
    | container applicationId schema => simp [AliasScan.noteAlias, Stage.scan, Stage.depth]
    | _ => rfl

theorem noteAlias_deeper {stage : Stage} {depth : Nat} (h : stage.depth < depth)
    (element : XmlElement) (matching : List Str) :
    (stage.scan (depth + 1) matching).noteAlias ordinalEq expectedAlias element =
      stage.scan (depth + 1) matching := by
  cases stage with
  | container applicationId schema =>
    have hne : depth ≠ 6 := Nat.ne_of_gt h
    simp [AliasScan.noteAlias, Stage.scan, hne]
  | _ => rfl

/-- Within the limits, an element that starts is looked at. -/
theorem startElement_eq {stage : Stage} {depth : Nat} (h : depth + 1 ≤ maxPackageManifestDepth)
    (element : XmlElement) (matching : List Str) :
    (stage.scan depth matching).startElement ordinalEq expectedAlias element =
      .ok (((stage.scan (depth + 1) matching).openElement element).noteAlias
        ordinalEq expectedAlias element) := by
  have hsmall : depth + 1 < usizeSize := Nat.lt_of_le_of_lt h (by decide)
  have hdepth : (stage.scan depth matching).depth = depth := by cases stage <;> rfl
  rw [AliasScan.startElement, hdepth, checkedAdd_eq_some hsmall, okOr_some, ok_bind,
    rejectIf_of_not _ (by omega), ok_bind, Stage.scan_depth]
  rfl

/-- The applications whose alias is below the last element on the way. -/
def Finds (ordinalEq : Str → Str → Bool) (expectedAlias : Str) :
    Content XmlElement → Stage → Str → Prop
  | .nil, _, _ => False
  | .other rest, stage, applicationId => Finds ordinalEq expectedAlias rest stage applicationId
  | .element element inner rest, stage, applicationId =>
    stage.alias? ordinalEq expectedAlias element = some applicationId ∨
      (∃ next, stage.enter? element = some next ∧
        Finds ordinalEq expectedAlias inner next applicationId) ∨
      Finds ordinalEq expectedAlias rest stage applicationId

theorem mem_including {found : Option Str} {matching : List Str} {applicationId : Str} :
    applicationId ∈ including found matching ↔
      found = some applicationId ∨ applicationId ∈ matching := by
  cases found with
  | none => simp [including]
  | some other => simp [including, List.mem_insert_iff, eq_comm]

theorem nodup_including {found : Option Str} {matching : List Str} (h : matching.Nodup) :
    (including found matching).Nodup := by
  cases found with
  | none => exact h
  | some other => exact List.Nodup.insert h

/-- The run over content leaves the markers as they were.  It finds what is below the last element
    on the way, if the content is directly in it, and nothing otherwise. -/
theorem run_content (content : Content XmlElement) {stage : Stage} {depth : Nat}
    {matching : List Str} (hstage : stage.depth ≤ depth)
    (hdepth : depth + content.depth ≤ maxPackageManifestDepth) (hnodup : matching.Nodup) :
    ∃ found, forEach content.events (AliasScan.event ordinalEq expectedAlias)
        (stage.scan depth matching) = .ok (stage.scan depth found) ∧ found.Nodup ∧
      ∀ applicationId, applicationId ∈ found ↔ applicationId ∈ matching ∨
        depth = stage.depth ∧ Finds ordinalEq expectedAlias content stage applicationId := by
  -- Over the content; the run over what is in an element is one over its own content.
  induction content generalizing stage depth matching with
  | nil => exact ⟨matching, rfl, hnodup, by simp [Finds]⟩
  | other rest ih => exact ih hstage hdepth hnodup
  | element element inner rest ihinner ihrest =>
    simp only [Content.depth] at hdepth
    have hinner : depth + 1 + inner.depth ≤ maxPackageManifestDepth := by omega
    have hrest : depth + rest.depth ≤ maxPackageManifestDepth := by omega
    -- Opening an element changes the depth, and at most one marker.
    have hstart := @startElement_eq ordinalEq expectedAlias stage depth (by omega) element matching
    rw [forEach_element]
    by_cases hnext : depth = stage.depth
    · -- The element is directly in the last one on the way: it may be the next one.
      subst hnext
      rw [Stage.openElement_next, noteAlias_next] at hstart
      generalize hmatching : including (stage.alias? ordinalEq expectedAlias element) matching =
        noted at hstart
      have hnoted : noted.Nodup := hmatching ▸ nodup_including hnodup
      have hmem : ∀ applicationId, applicationId ∈ noted ↔
          stage.alias? ordinalEq expectedAlias element = some applicationId ∨
            applicationId ∈ matching := fun _ => hmatching ▸ mem_including
      -- Only a named element of the right name is entered.
      cases henter : stage.enter? element with
      | none =>
        rw [henter, Option.getD_none] at hstart
        obtain ⟨found, hrun, hfound, hall⟩ :=
          @ihinner stage (stage.depth + 1) noted (by omega) hinner hnoted
        obtain ⟨last, hlast, hnodup', hall'⟩ := @ihrest stage stage.depth found (Nat.le_refl _) hrest hfound
        refine ⟨last, ?_, hnodup', fun applicationId => ?_⟩
        · have hend := Stage.endElement_deeper (Nat.lt_succ_self stage.depth) found
          simp only [AliasScan.event, hstart, hrun, hend, ok_bind, Nat.succ_eq_add_one,
            Nat.add_sub_cancel]
          exact hlast
        · rw [hall', hall, hmem, Finds, henter]
          simp only [Nat.succ_ne_self, false_and, or_false, true_and, reduceCtorEq, exists_false,
            false_or]
          tauto
      | some next =>
        -- It is entered, so that what is found in it counts.
        obtain ⟨hdeeper, hleave⟩ := Stage.of_enter? henter
        rw [henter, Option.getD_some, ← hdeeper] at hstart
        obtain ⟨found, hrun, hfound, hall⟩ :=
          @ihinner next next.depth noted (Nat.le_refl _) (by omega) hnoted
        obtain ⟨last, hlast, hnodup', hall'⟩ := @ihrest stage stage.depth found (Nat.le_refl _) hrest hfound
        refine ⟨last, ?_, hnodup', fun applicationId => ?_⟩
        · have hend : (next.scan next.depth found).endElement =
              .ok (next.leave.scan (next.depth - 1) found) := Stage.endElement_last (by omega) found
          rw [hleave, hdeeper, Nat.add_sub_cancel] at hend
          rw [hdeeper] at hstart hrun
          simp only [AliasScan.event, hstart, hrun, hend, ok_bind]
          exact hlast
        · rw [hall', hall, hmem, Finds, henter]
          simp only [true_and, Option.some.injEq, exists_eq_left']
          tauto
    · -- It is deeper: nothing in it is on the way.
      have hlt : stage.depth < depth := by omega
      rw [Stage.openElement_deeper element hlt, noteAlias_deeper hlt] at hstart
      obtain ⟨found, hrun, hfound, hall⟩ :=
        @ihinner stage (depth + 1) matching (by omega) hinner hnodup
      obtain ⟨last, hlast, hnodup', hall'⟩ := @ihrest stage depth found hstage hrest hfound
      refine ⟨last, ?_, hnodup', fun applicationId => ?_⟩
      · have hend := Stage.endElement_deeper (Nat.lt_succ_of_lt hlt) found
        simp only [AliasScan.event, hstart, hrun, hend, ok_bind, Nat.succ_eq_add_one,
          Nat.add_sub_cancel]
        exact hlast
      · have hne : depth + 1 ≠ stage.depth := by omega
        rw [hall', hall]
        simp [hnext, hne]

/-! ## The way from the package to an alias -/

theorem isNamed_iff {element : XmlElement} {nspace : Str} {localName : String} :
    element.isNamed nspace localName = true ↔ element.name = ⟨some nspace, localName.toList⟩ := by
  obtain ⟨⟨elementSpace, elementName⟩, attributes, unique⟩ := element
  simp [XmlElement.isNamed, and_comm]

theorem plainAttribute_iff {attr : XmlAttribute} {localName : String} :
    XmlElement.plainAttribute localName attr = true ↔ attr.name = ⟨none, localName.toList⟩ := by
  obtain ⟨⟨nspace, name⟩, value⟩ := attr
  simp [XmlElement.plainAttribute, and_comm]

/-- An attribute whose value passes a test. -/
theorem any_plainAttribute_iff {element : XmlElement} {localName : String} {p : Str → Bool} :
    (element.attributes.any fun attr =>
      XmlElement.plainAttribute localName attr && p attr.value) = true ↔
      ∃ value, element.HasAttribute localName value ∧ p value = true := by
  simp only [List.any_eq_true, Bool.and_eq_true, plainAttribute_iff]
  constructor
  · rintro ⟨⟨name, value⟩, hmem, rfl, hvalue⟩
    exact ⟨value, hmem, hvalue⟩
  · rintro ⟨value, hmem, hvalue⟩
    exact ⟨_, hmem, rfl, hvalue⟩

/-- No name has two values. -/
theorem HasAttribute.eq {element : XmlElement} {localName : String} {left right : Str}
    (hleft : element.HasAttribute localName left) (hright : element.HasAttribute localName right) :
    left = right := by
  have heq := List.inj_on_of_nodup_map element.unique hleft hright rfl
  exact congrArg XmlAttribute.value heq

/-- The identifier of an application is its attribute, unless that is empty. -/
theorem applicationId_eq_some {element : XmlElement} {applicationId : Str} :
    element.applicationId = some applicationId ↔
      element.HasAttribute "Id" applicationId ∧ applicationId ≠ [] := by
  simp only [XmlElement.applicationId, Option.filter_eq_some_iff, Option.map_eq_some_iff,
    decide_eq_true_eq]
  refine and_congr_left fun _ => ⟨?_, fun hattr => ?_⟩
  · rintro ⟨attr, hfind, rfl⟩
    have hname := plainAttribute_iff.mp (List.find?_some hfind)
    have hmem := List.mem_of_find?_eq_some hfind
    obtain ⟨name, value⟩ := attr
    obtain rfl : name = _ := hname
    exact hmem
  · -- The first attribute of the name is the only one.
    obtain ⟨attr, hfind⟩ := Option.isSome_iff_exists.mp
      (List.find?_isSome.mpr ⟨_, hattr, plainAttribute_iff.mpr rfl⟩ :
        (element.attributes.find? (XmlElement.plainAttribute "Id")).isSome = true)
    refine ⟨attr, hfind, ?_⟩
    have hname := plainAttribute_iff.mp (List.find?_some hfind)
    have hmem := List.mem_of_find?_eq_some hfind
    obtain ⟨name, value⟩ := attr
    obtain rfl : name = _ := hname
    exact HasAttribute.eq hmem hattr

theorem aliasExtensionSchema_eq_some {nspace : Option Str} {schema : AliasExtensionSchema} :
    aliasExtensionSchema nspace = some schema ↔ nspace = some schema.extensionNamespace := by
  have hne : uap5Namespace ≠ uap3Namespace := by decide
  unfold aliasExtensionSchema
  cases schema with
  | uap3 =>
    by_cases h : nspace = some uap3Namespace
    · simp [h, AliasExtensionSchema.extensionNamespace]
    · simp [h, AliasExtensionSchema.extensionNamespace]
  | uap5 =>
    by_cases h : nspace = some uap3Namespace
    · simp [h, AliasExtensionSchema.extensionNamespace, hne.symm]
    · simp [h, AliasExtensionSchema.extensionNamespace]

/-- What is found is found through a child. -/
theorem finds_iff {content : Content XmlElement} {stage : Stage} {applicationId : Str} :
    Finds ordinalEq expectedAlias content stage applicationId ↔ ∃ child ∈ content.children,
      stage.alias? ordinalEq expectedAlias child.1 = some applicationId ∨
        ∃ next, stage.enter? child.1 = some next ∧
          Finds ordinalEq expectedAlias child.2 next applicationId := by
  induction content with
  | nil => simp [Finds, Content.children]
  | other rest ih => simpa [Finds, Content.children] using ih
  | element element inner rest _ ih =>
    rw [Finds, ih, Content.children, List.exists_mem_cons_iff, or_assoc]

section Way

variable {content : Content XmlElement} {found applicationId : Str} {schema : AliasExtensionSchema}

/-- The container of an extension holds the element with the alias. -/
theorem finds_container :
    Finds ordinalEq expectedAlias content (.container applicationId schema) found ↔
      found = applicationId ∧ ∃ execution ∈ content.children,
        execution.1.name.localName = "ExecutionAlias".toList ∧
        schema.executionNamespaceAllowed execution.1.name.nspace = true ∧
        ∃ value, execution.1.HasAttribute "Alias" value ∧ ordinalEq value expectedAlias = true := by
  have hhit : ∀ element : XmlElement, element.isExecutionAlias ordinalEq expectedAlias schema = true ↔
      element.name.localName = "ExecutionAlias".toList ∧
      schema.executionNamespaceAllowed element.name.nspace = true ∧
      ∃ value, element.HasAttribute "Alias" value ∧ ordinalEq value expectedAlias = true := by
    intro element
    rw [XmlElement.isExecutionAlias, Bool.and_eq_true, Bool.and_eq_true, beq_iff_eq, and_assoc]
    exact and_congr_right fun _ => and_congr_right fun _ =>
      @any_plainAttribute_iff element "Alias" fun value => ordinalEq value expectedAlias
  rw [finds_iff]
  simp only [Stage.alias?, Stage.enter?, Option.ite_none_right_eq_some, reduceCtorEq, false_and,
    exists_false, or_false, hhit, Option.some.injEq]
  constructor
  · rintro ⟨execution, hmem, hexecution, rfl⟩
    exact ⟨rfl, execution, hmem, hexecution⟩
  · rintro ⟨rfl, execution, hmem, hexecution⟩
    exact ⟨execution, hmem, hexecution, rfl⟩

theorem finds_extension :
    Finds ordinalEq expectedAlias content (.extension applicationId schema) found ↔
      ∃ container ∈ content.children,
        container.1.name = ⟨some schema.extensionNamespace, "AppExecutionAlias".toList⟩ ∧
        Finds ordinalEq expectedAlias container.2 (.container applicationId schema) found := by
  rw [finds_iff]
  simp only [Stage.alias?, Stage.enter?, Option.ite_none_right_eq_some, reduceCtorEq, false_or,
    isNamed_iff, Option.some.injEq, and_assoc, exists_and_left, exists_eq_left']

/-- Among the extensions of an application those of the right category and schema count. -/
theorem finds_extensions :
    Finds ordinalEq expectedAlias content (.extensions applicationId) found ↔
      ∃ extension ∈ content.children, ∃ schema : AliasExtensionSchema,
        extension.1.name = ⟨some schema.extensionNamespace, "Extension".toList⟩ ∧
        (∃ category, extension.1.HasAttribute "Category" category ∧
          eqIgnoreAsciiCase category "windows.appExecutionAlias".toList = true) ∧
        Finds ordinalEq expectedAlias extension.2 (.extension applicationId schema) found := by
  -- The checks of an `Extension` element: its name, the namespace of the schema and the category.
  have hname : ∀ (element : XmlElement) (schema : AliasExtensionSchema),
      element.isAliasExtension = true ∧ aliasExtensionSchema element.name.nspace = some schema ↔
        element.name = ⟨some schema.extensionNamespace, "Extension".toList⟩ ∧
        ∃ category, element.HasAttribute "Category" category ∧
          eqIgnoreAsciiCase category "windows.appExecutionAlias".toList = true := by
    intro element schema
    -- The category is one of its attributes, in any case of letters.
    have hcategory : element.hasAliasCategory = true ↔ ∃ category,
        element.HasAttribute "Category" category ∧
          eqIgnoreAsciiCase category "windows.appExecutionAlias".toList = true :=
      @any_plainAttribute_iff element "Category" fun value =>
        eqIgnoreAsciiCase value "windows.appExecutionAlias".toList
    rw [← hcategory, XmlElement.isAliasExtension, Bool.and_eq_true, Bool.and_eq_true, beq_iff_eq]
    obtain ⟨⟨nspace, localName⟩, attributes, unique⟩ := element
    simp only [XmlName.mk.injEq]
    constructor
    · rintro ⟨⟨⟨hlocal, -⟩, hcategory⟩, hschema⟩
      exact ⟨⟨aliasExtensionSchema_eq_some.mp hschema, hlocal⟩, hcategory⟩
    · rintro ⟨⟨hspace, hlocal⟩, hcategory⟩
      have hschema := aliasExtensionSchema_eq_some.mpr hspace
      exact ⟨⟨⟨hlocal, by simp [hschema]⟩, hcategory⟩, hschema⟩
  -- Under the stage of extensions only such an element is entered.
  rw [finds_iff]
  simp only [Stage.alias?, Stage.enter?, Option.ite_none_right_eq_some, reduceCtorEq, false_or,
    Option.map_eq_some_iff]
  refine exists_congr fun extension => and_congr_right fun _ => ?_
  constructor
  · rintro ⟨_, ⟨hextension, schema, hschema, rfl⟩, hfinds⟩
    obtain ⟨hnamed, hcategory⟩ := (hname _ schema).mp ⟨hextension, hschema⟩
    exact ⟨schema, hnamed, hcategory, hfinds⟩
  · rintro ⟨schema, hnamed, hcategory, hfinds⟩
    obtain ⟨hextension, hschema⟩ := (hname _ schema).mpr ⟨hnamed, hcategory⟩
    exact ⟨_, ⟨hextension, schema, hschema, rfl⟩, hfinds⟩

theorem finds_application :
    Finds ordinalEq expectedAlias content (.application applicationId) found ↔
      ∃ extensions ∈ content.children,
        extensions.1.name = ⟨some foundationNamespace, "Extensions".toList⟩ ∧
        Finds ordinalEq expectedAlias extensions.2 (.extensions applicationId) found := by
  rw [finds_iff]
  simp only [Stage.alias?, Stage.enter?, Option.ite_none_right_eq_some, reduceCtorEq, false_or,
    isNamed_iff, Option.some.injEq, and_assoc, exists_and_left, exists_eq_left']

/-- Every application with an identifier is looked at. -/
theorem finds_applications :
    Finds ordinalEq expectedAlias content .applications found ↔
      ∃ application ∈ content.children,
        application.1.name = ⟨some foundationNamespace, "Application".toList⟩ ∧
        ∃ applicationId, application.1.HasAttribute "Id" applicationId ∧ applicationId ≠ [] ∧
          Finds ordinalEq expectedAlias application.2 (.application applicationId) found := by
  rw [finds_iff]
  simp only [Stage.alias?, Stage.enter?, Option.ite_none_right_eq_some, reduceCtorEq, false_or,
    isNamed_iff, Option.map_eq_some_iff, applicationId_eq_some]
  refine exists_congr fun application => and_congr_right fun _ => ?_
  constructor
  · rintro ⟨_, ⟨hnamed, applicationId, ⟨hid, hne⟩, rfl⟩, hfinds⟩
    exact ⟨hnamed, applicationId, hid, hne, hfinds⟩
  · rintro ⟨hnamed, applicationId, hid, hne, hfinds⟩
    exact ⟨_, ⟨hnamed, applicationId, ⟨hid, hne⟩, rfl⟩, hfinds⟩

theorem finds_package :
    Finds ordinalEq expectedAlias content .package found ↔
      ∃ applications ∈ content.children,
        applications.1.name = ⟨some foundationNamespace, "Applications".toList⟩ ∧
        Finds ordinalEq expectedAlias applications.2 .applications found := by
  rw [finds_iff]
  simp only [Stage.alias?, Stage.enter?, Option.ite_none_right_eq_some, reduceCtorEq, false_or,
    isNamed_iff, Option.some.injEq, and_assoc, exists_and_left, exists_eq_left']

end Way

/-- What is found in a document is what declares the alias. -/
theorem finds_body_iff {document : Document XmlElement} {applicationId : Str} :
    Finds ordinalEq expectedAlias document.body .outside applicationId ↔
      DeclaresAlias ordinalEq expectedAlias document applicationId := by
  -- Directly in a document there is its root only.
  have hbody : Finds ordinalEq expectedAlias document.body .outside applicationId ↔
      document.root.name = ⟨some foundationNamespace, "Package".toList⟩ ∧
        Finds ordinalEq expectedAlias document.content .package applicationId := by
    rw [finds_iff, Document.children_body]
    simp only [List.mem_singleton, exists_eq_left, Stage.alias?, Stage.enter?,
      Option.ite_none_right_eq_some, reduceCtorEq, false_or, isNamed_iff, Option.some.injEq,
      and_assoc, exists_and_left, exists_eq_left']
  rw [hbody]
  -- Stage by stage the two sides ask for the same elements.
  simp only [finds_package, finds_applications, finds_application, finds_extensions,
    finds_extension, finds_container]
  constructor
  · rintro ⟨hroot, applications, hmem₁, hname₁, application, hmem₂, hname₂, _, hid, hne,
      extensions, hmem₃, hname₃, extension, hmem₄, schema, hname₄, hcategory,
      container, hmem₅, hname₅, rfl, hexecution⟩
    exact ⟨hroot, applications, hmem₁, hname₁, application, hmem₂, hname₂, hid, hne,
      extensions, hmem₃, hname₃, extension, hmem₄, schema, hname₄, hcategory,
      container, hmem₅, hname₅, hexecution⟩
  · rintro ⟨hroot, applications, hmem₁, hname₁, application, hmem₂, hname₂, hid, hne,
      extensions, hmem₃, hname₃, extension, hmem₄, schema, hname₄, hcategory,
      container, hmem₅, hname₅, hexecution⟩
    exact ⟨hroot, applications, hmem₁, hname₁, application, hmem₂, hname₂, _, hid, hne,
      extensions, hmem₃, hname₃, extension, hmem₄, schema, hname₄, hcategory,
      container, hmem₅, hname₅, rfl, hexecution⟩

/-! ## The whole document -/

theorem endDocument_not_mem_events (content : Content XmlElement) :
    TreeEvent.endDocument ∉ content.events := by
  induction content with
  | nil => simp [Content.events]
  | other rest ih => simpa [Content.events] using ih
  | element element inner rest ihinner ihrest => simp [Content.events, ihinner, ihrest]

/-- Within the limit of events, the loop is the run over the events before the end. -/
theorem readEvents_append {events : List XmlEvent} (hend : .endDocument ∉ events) {eventIndex : Nat}
    (rest : List (Except String XmlEvent)) (scan : AliasScan)
    (hlimit : eventIndex + events.length ≤ maxPackageManifestEvents) :
    readEvents ordinalEq expectedAlias (events.map .ok ++ rest) eventIndex scan =
      forEach events (AliasScan.event ordinalEq expectedAlias) scan >>=
        readEvents ordinalEq expectedAlias rest (eventIndex + events.length) := by
  induction events generalizing eventIndex scan with
  | nil => rfl
  | cons event events ih =>
    obtain ⟨hne, hrest⟩ := not_or.mp (mt List.mem_cons.mpr hend)
    rw [List.length_cons] at hlimit
    rw [List.map_cons, List.cons_append, readEvents, rejectIf_of_not _ (by omega), ok_bind,
      forEach_cons]
    have hshift : eventIndex + (event :: events).length = eventIndex + 1 + events.length := by
      rw [List.length_cons]
      omega
    cases hevent : scan.event ordinalEq expectedAlias event with
    | error error => simp [Except.mapError, hevent]
    | ok next =>
      have hloop := @ih hrest (eventIndex + 1) next (by omega)
      simp only [Except.mapError, ok_bind, hevent, if_neg (Ne.symm hne), hshift]
      exact hloop

/-- The run over a document within the limits. -/
theorem readEvents_document {document : Document XmlElement}
    (hevents : document.events.length ≤ maxPackageManifestEvents)
    (hdepth : document.content.depth + 1 ≤ maxPackageManifestDepth) :
    ∃ found, readEvents ordinalEq expectedAlias (document.events.map .ok) 0 {} =
        .ok (Stage.outside.scan 0 found) ∧ found.Nodup ∧
      ∀ applicationId, applicationId ∈ found ↔
        DeclaresAlias ordinalEq expectedAlias document applicationId := by
  have hbody : 0 + document.body.depth ≤ maxPackageManifestDepth := by
    rw [Document.depth_body]
    omega
  -- The run over what stands between the two events of the document.
  obtain ⟨found, hrun, hnodup, hall⟩ :=
    @run_content ordinalEq expectedAlias document.body .outside 0 [] (Nat.le_refl 0) hbody .nil
  refine ⟨found, ?_, hnodup, fun applicationId => ?_⟩
  · have hlength : document.events.length = document.body.events.length + 2 := by
      rw [Document.events, List.length_cons, List.length_append, List.length_singleton]
    -- The end of the document is its last event, and no earlier one.
    have hfront : TreeEvent.endDocument ∉ .startDocument :: document.body.events := by
      simp [endDocument_not_mem_events]
    have hsplit : document.events.map (Except.ok : XmlEvent → Except String XmlEvent) =
        (.startDocument :: document.body.events).map .ok ++ [.ok .endDocument] := by
      simp [Document.events]
    -- All events are within the limit.
    have hfits : 0 + (TreeEvent.startDocument :: document.body.events).length ≤
        maxPackageManifestEvents := by
      rw [List.length_cons]
      omega
    have hstart : AliasScan.event ordinalEq expectedAlias {} .startDocument =
        .ok (Stage.outside.scan 0 []) := rfl
    rw [hsplit, readEvents_append hfront _ _ hfits, forEach_cons, hstart, ok_bind, hrun, ok_bind,
      readEvents, rejectIf_of_not _ (by rw [List.length_cons]; omega)]
    simp [Except.mapError, AliasScan.event]
  · rw [hall, ← finds_body_iff]
    simp [Stage.depth]

end Run

/-- The search returns the application of an alias if there is one, nothing if there is none, and an
    error if there are several. -/
theorem alias_application_is_the_declared_one (ordinalEq : Str → Str → Bool)
    (reader : List UInt8 → XmlReading) (manifest : List UInt8) (expectedAlias : Str)
    (document : Document XmlElement)
    (hreader : reader manifest = ⟨document.events.map .ok, false⟩)
    (hbytes : manifest.length ≤ maxPackageManifestBytes)
    (hevents : document.events.length ≤ maxPackageManifestEvents)
    (hdepth : document.content.depth + 1 ≤ maxPackageManifestDepth) :
    (∀ applicationId,
      manifestXmlAliasApplication ordinalEq expectedAlias reader manifest =
          .ok (some applicationId) ↔
        DeclaresAlias ordinalEq expectedAlias document applicationId ∧
        ∀ other, DeclaresAlias ordinalEq expectedAlias document other → other = applicationId) ∧
    (manifestXmlAliasApplication ordinalEq expectedAlias reader manifest = .ok none ↔
      ∀ applicationId, ¬ DeclaresAlias ordinalEq expectedAlias document applicationId) ∧
    ((∃ error, manifestXmlAliasApplication ordinalEq expectedAlias reader manifest = .error error) ↔
      ∃ first second, DeclaresAlias ordinalEq expectedAlias document first ∧
        DeclaresAlias ordinalEq expectedAlias document second ∧ first ≠ second) := by
  -- The events of the document put every declared application in the set once.
  obtain ⟨found, hloop, hnodup, hall⟩ :=
    @readEvents_document ordinalEq expectedAlias document hevents hdepth
  have hfalse : ¬ false = true := Bool.false_ne_true
  rw [manifestXmlAliasApplication, rejectIf_of_not _ (by omega), ok_bind, hreader]
  simp only [hloop, ok_bind, rejectIf_of_not _ hfalse, Stage.scan, ← hall]
  -- So the size of the set tells the three cases apart.
  cases found with
  | nil => simp [pure, Except.pure]
  | cons applicationId others =>
    cases others with
    | nil => simp [pure, Except.pure, eq_comm]
    | cons other others =>
      -- Two of them are two different ones.
      have hne : applicationId ≠ other := fun heq => by simp [heq] at hnodup
      refine ⟨fun found => ?_, ?_, ?_⟩
      · constructor
        · exact fun h => by cases h
        · rintro ⟨-, hsame⟩
          exact absurd ((hsame _ (by simp)).trans (hsame other (by simp)).symm) hne
      · constructor
        · exact fun h => by cases h
        · exact fun hnone => absurd List.mem_cons_self (hnone applicationId)
      · exact ⟨fun _ => ⟨applicationId, other, by simp, by simp, hne⟩, fun _ => ⟨_, rfl⟩⟩

/-! ## A manifest -/

/-- A document with one application, which has an alias. -/
def codeDocument : Document XmlElement where
  prolog := 0
  root := ⟨⟨some foundationNamespace, "Package".toList⟩, [], .nil⟩
  content := .element ⟨⟨some foundationNamespace, "Applications".toList⟩, [], .nil⟩
    (.element ⟨⟨some foundationNamespace, "Application".toList⟩,
        [⟨⟨none, "Id".toList⟩, "App".toList⟩], by decide⟩
      (.element ⟨⟨some foundationNamespace, "Extensions".toList⟩, [], .nil⟩
        (.element ⟨⟨some uap3Namespace, "Extension".toList⟩,
            [⟨⟨none, "Category".toList⟩, "windows.appExecutionAlias".toList⟩], by decide⟩
          (.element ⟨⟨some uap3Namespace, "AppExecutionAlias".toList⟩, [], .nil⟩
            (.element ⟨⟨some desktopNamespace, "ExecutionAlias".toList⟩,
                [⟨⟨none, "Alias".toList⟩, "code.exe".toList⟩], by decide⟩ .nil .nil) .nil) .nil)
        .nil) .nil) .nil
  epilog := 0

/-- The application is the only one that declares the alias. -/
theorem codeDocument_declares :
    DeclaresAlias eqIgnoreAsciiCase "CODE.exe".toList codeDocument "App".toList ∧
    ∀ other, DeclaresAlias eqIgnoreAsciiCase "CODE.exe".toList codeDocument other →
      other = "App".toList := by
  obtain ⟨found, hloop, -, hall⟩ :=
    @readEvents_document eqIgnoreAsciiCase "CODE.exe".toList codeDocument (by decide) (by decide)
  have hrun : readEvents eqIgnoreAsciiCase "CODE.exe".toList (codeDocument.events.map .ok) 0 {} =
      .ok (Stage.outside.scan 0 ["App".toList]) := by rfl
  obtain rfl : ["App".toList] = found :=
    congrArg AliasScan.matching (Except.ok.inj (hrun.symm.trans hloop))
  simp only [← hall]
  simp

/-- Its manifest, up to the bracket that closes it. -/
def codeManifest : Str :=
  "<Package xmlns=\"http://schemas.microsoft.com/appx/manifest/foundation/windows10\" ".toList ++
  "xmlns:uap3=\"http://schemas.microsoft.com/appx/manifest/uap/windows10/3\" ".toList ++
  "xmlns:desktop=\"http://schemas.microsoft.com/appx/manifest/desktop/windows10\">".toList ++
  "<Applications><Application Id=\"App\"><Extensions>".toList ++
  "<uap3:Extension Category=\"windows.appExecutionAlias\"><uap3:AppExecutionAlias>".toList ++
  "<desktop:ExecutionAlias Alias=\"code.exe\" />".toList ++
  "</uap3:AppExecutionAlias></uap3:Extension>".toList ++
  "</Extensions></Application></Applications></Package".toList

/-- The manifest with blanks in its last tag. -/
def paddedManifest (blanks : Nat) : List UInt8 :=
  bytes codeManifest ++ List.replicate blanks 32 ++ [62]

theorem length_paddedManifest (blanks : Nat) :
    (paddedManifest blanks).length = (bytes codeManifest).length + 1 + blanks := by
  simp only [paddedManifest, List.length_append, List.length_replicate, List.length_singleton]
  omega

/-- A reader of these manifests. -/
def paddedReader (manifest : List UInt8) : XmlReading :=
  if manifest = paddedManifest (manifest.length - ((bytes codeManifest).length + 1)) then
    ⟨codeDocument.events.map .ok, false⟩
  else ⟨[.error "Unexpected token"], false⟩

theorem paddedReader_eq (blanks : Nat) :
    paddedReader (paddedManifest blanks) = ⟨codeDocument.events.map .ok, false⟩ := by
  rw [paddedReader, length_paddedManifest, Nat.add_sub_cancel_left, if_pos rfl]

/-- The alias is found in the manifest. -/
theorem declared_alias_is_found :
    manifestXmlAliasApplication eqIgnoreAsciiCase "CODE.exe".toList paddedReader
      (paddedManifest 0) = .ok (some "App".toList) :=
  ((alias_application_is_the_declared_one eqIgnoreAsciiCase paddedReader (paddedManifest 0)
    "CODE.exe".toList codeDocument (paddedReader_eq 0) (by decide +kernel) (by decide)
    (by decide)).1 "App".toList).mpr codeDocument_declares

/-- With four mebibytes of blanks in the last tag, the manifest declares the same application, but
    it is refused for its size. -/
theorem oversized_manifest_is_refused :
    paddedReader (paddedManifest maxPackageManifestBytes) =
      ⟨codeDocument.events.map .ok, false⟩ ∧
    codeDocument.events.length ≤ maxPackageManifestEvents ∧
    codeDocument.content.depth + 1 ≤ maxPackageManifestDepth ∧
    (DeclaresAlias eqIgnoreAsciiCase "CODE.exe".toList codeDocument "App".toList ∧
      ∀ other, DeclaresAlias eqIgnoreAsciiCase "CODE.exe".toList codeDocument other →
        other = "App".toList) ∧
    manifestXmlAliasApplication eqIgnoreAsciiCase "CODE.exe".toList paddedReader
      (paddedManifest maxPackageManifestBytes) ≠ .ok (some "App".toList) := by
  refine ⟨paddedReader_eq _, by decide, by decide, codeDocument_declares, ?_⟩
  have hlarge : (paddedManifest maxPackageManifestBytes).length > maxPackageManifestBytes := by
    rw [length_paddedManifest]
    omega
  rw [manifestXmlAliasApplication, rejectIf_of _ hlarge, error_bind]
  exact fun h => by cases h

end Lsw.Agent.ManifestAlias
