import Lsw.Core.Manifest

/-!
# Declarative Windows Profiles

A profile is a JSON document that says which AppX packages, optional features and products are
removed from a Windows image and which service and registry policies it gets.
`CustomizationPlan::from_json` checks it; the scripts that apply the plan then select the packages to
be removed, online by name or by package family, and offline by the start of the full name.

The JSON parser is not part of the repository, so it is a parameter.
-/

namespace Lsw.Core.Customization

open Lsw.Lib

/-! ## Constants -/

/-- `PROFILE_MANIFEST_VERSION`. -/
def profileManifestVersion : Nat := 2

/-- `MAX_PROFILE_MANIFEST_BYTES`. -/
def maxProfileManifestBytes : Nat := 64 * 1024

/-- `REQUIRED_DEVELOPMENT_COMPONENTS`. -/
def requiredDevelopmentComponents : List String :=
  ["Windows component store (WinSxS)",
    "Windows Update and servicing stack",
    "Windows Installer (MSI) and MSIX/AppX deployment",
    "PowerShell, Windows Terminal, and ConPTY dependencies",
    "Microsoft Store, App Installer (winget), and WebView2 runtime",
    "Windows Management Instrumentation (WMI)",
    ".NET Framework optional-feature support",
    "Microsoft Defender",
    "UAC and secure desktop",
    "hibernation support",
    "Windows Recovery Environment",
    "Windows SDK and Visual Studio Build Tools prerequisites",
    "Explorer, file dialogs, keyboard, IME, accessibility, clipboard, audio, and notifications",
    "Calculator, Notepad, Paint, Snipping Tool, and Photos",
    "Microsoft Edge",
    "SMB client and Windows networking"]

/-- `PROTECTED_APPX_NAMES`. -/
def protectedAppxNames : List Str :=
  ["Microsoft.DesktopAppInstaller",
    "Microsoft.Paint",
    "Microsoft.ScreenSketch",
    "Microsoft.Windows.Photos",
    "Microsoft.WindowsCalculator",
    "Microsoft.WindowsNotepad",
    "Microsoft.WindowsStore",
    "Microsoft.WindowsTerminal"].map String.toList

/-- `PROTECTED_SERVICES`. -/
def protectedServices : List Str :=
  ["AppXSvc", "BITS", "ClipSVC", "DPS", "EventLog", "InstallService", "msiserver", "ProfSvc",
    "Schedule", "StateRepository", "TrustedInstaller", "UsoSvc", "WaaSMedicSvc", "WinDefend",
    "Winmgmt", "wuauserv"].map String.toList

/-! ## Profiles and plans -/

/-- `AppxRemoval`. -/
structure AppxRemoval where
  displayName : Str
  packageFamilyNames : List Str
  deriving DecidableEq

/-- `ProductUninstaller`. -/
inductive ProductUninstaller where
  | oneDrive
  deriving DecidableEq

/-- `ServiceStartup`. -/
inductive ServiceStartup where
  | disabled
  | demand
  deriving DecidableEq

/-- `ServicePolicy`. -/
structure ServicePolicy where
  name : Str
  startup : ServiceStartup
  deriving DecidableEq

/-- `RegistryHive`. -/
inductive RegistryHive where
  | machine
  | defaultUser
  deriving DecidableEq

/-- `RegistryHive`'s `Debug`. -/
def RegistryHive.debug : RegistryHive → Str
  | .machine => "Machine".toList
  | .defaultUser => "DefaultUser".toList

/-- `RegistryPolicy`. -/
structure RegistryPolicy where
  hive : RegistryHive
  path : Str
  name : Str
  value : UInt32
  deriving DecidableEq

/-- `DeclarativeProfile`. -/
structure DeclarativeProfile where
  schemaVersion : UInt32
  revision : Str
  name : Str
  experimental : Bool
  keepsServicing : Bool
  compactOs : Bool
  appxRemovals : List AppxRemoval
  optionalFeatureRemovals : List Str
  productUninstallers : List ProductUninstaller
  servicePolicies : List ServicePolicy
  registryPolicies : List RegistryPolicy
  preserveComponents : List Str
  warnings : List Str

/-- `CustomizationPlan`. -/
structure CustomizationPlan where
  schemaVersion : UInt32
  revision : Str
  profile : WindowsProfile
  experimental : Bool
  appxRemovals : List AppxRemoval
  optionalFeatureRemovals : List Str
  productUninstallers : List ProductUninstaller
  servicePolicies : List ServicePolicy
  registryPolicies : List RegistryPolicy
  preserveComponents : List Str
  compactOs : Bool
  warnings : List Str
  deriving DecidableEq

/-! ## Texts -/

/-- `str::to_ascii_lowercase`. -/
def lower (text : Str) : Str := text.map toAsciiLowercase

/-- `str::eq_ignore_ascii_case`, and `-ieq` on the ASCII texts of package identities. -/
def eqIgnoreAsciiCase (left right : Str) : Bool := lower left == lower right

/-- `invalid_profile`. -/
def invalidProfile (reason : Message) : LswError :=
  .invalidValue "Windows profile manifest" reason

/-- `if !set.insert(key) { return Err(..) }`. -/
def insertUnique {κ : Type} [DecidableEq κ] (seen : List κ) (key : κ) (reason : String) :
    Result (List κ) := do
  rejectIf (key ∈ seen) (invalidProfile [.text reason])
  return seen ++ [key]

/-- `validate_identifier`. -/
def validateIdentifier (value : Str) (field : String) : Result Unit :=
  rejectIf (value = [] ∨ (bytes value).length > 128 ∨
      ¬ (bytes value).all fun byte =>
        isAsciiAlphanumeric byte || byte = 0x2e || byte = 0x2d || byte = 0x5f)
    (invalidProfile [.text field,
      .text " may contain only ASCII letters, digits, dot, dash, or underscore"])

/-- `validate_registry_path`. -/
def validateRegistryPath (value : Str) : Result Unit :=
  rejectIf (value = [] ∨ (bytes value).length > 256 ∨ value.head? = some '\\' ∨
      value.getLast? = some '\\' ∨ ('\\', '\\') ∈ value.zip value.tail ∨
      (bytes value).any fun byte => !(isAsciiAlphanumeric byte || byte = 0x5c || byte = 0x20 ||
        byte = 0x2e || byte = 0x2d || byte = 0x5f))
    (invalidProfile [.text "registry policy path is invalid"])

/-- `validate_registry_value_name`. -/
def validateRegistryValueName (value : Str) : Result Unit :=
  rejectIf (value = [] ∨ (bytes value).length > 128 ∨
      (bytes value).any fun byte => !(isAsciiAlphanumeric byte || byte = 0x20 || byte = 0x2e ||
        byte = 0x2d || byte = 0x5f))
    (invalidProfile [.text "registry policy value name is invalid"])

/-! ## Validation -/

/-- `validate_preservation_contract`. -/
def validatePreservationContract (manifest : DeclarativeProfile) : Result Unit :=
  forEach requiredDevelopmentComponents
    (fun _ required => rejectIf (required.toList ∉ manifest.preserveComponents)
      (invalidProfile [.text "required preservation contract is missing ",
        .debug required.toList]))
    ()

/-- One entry of `validate_appx_removals`; the sets are the display names and the families seen. -/
def validateAppxRemoval (seen : List Str × List Str) (removal : AppxRemoval) :
    Result (List Str × List Str) := do
  validateIdentifier removal.displayName "AppX display name"
  rejectIf (protectedAppxNames.any (eqIgnoreAsciiCase · removal.displayName) = true)
    (invalidProfile [.text "a protected development AppX was targeted"])
  let displayNames ← insertUnique seen.1 (lower removal.displayName)
    "AppX display names must be unique"
  rejectIf (removal.packageFamilyNames = [])
    (invalidProfile [.text "each AppX removal requires an exact package-family identity"])
  let familyNames ← forEach removal.packageFamilyNames
    (fun families family => do
      validateIdentifier family "AppX package family"
      insertUnique families (lower family) "AppX package families must be unique")
    seen.2
  return (displayNames, familyNames)

/-- `validate_appx_removals`. -/
def validateAppxRemovals (removals : List AppxRemoval) : Result Unit := do
  let _ ← forEach removals validateAppxRemoval ([], [])
  return ()

/-- `validate_optional_features`. -/
def validateOptionalFeatures (features : List Str) : Result Unit := do
  let _ ← forEach features
    (fun unique feature => do
      validateIdentifier feature "optional feature"
      rejectIf (feature ≠ "Recall".toList)
        (invalidProfile [.text "only the separately removable Recall feature is approved"])
      insertUnique unique (lower feature) "optional features must be unique")
    []
  return ()

/-- One entry of `validate_services`. -/
def validateService (unique : List Str) (service : ServicePolicy) : Result (List Str) := do
  validateIdentifier service.name "service name"
  rejectIf (protectedServices.any (eqIgnoreAsciiCase · service.name) = true)
    (invalidProfile [.text "a protected development service was targeted"])
  rejectIf (eqIgnoreAsciiCase service.name "DoSvc".toList = true ∧ service.startup ≠ .demand)
    (invalidProfile [.text "Delivery Optimization must remain demand-start capable"])
  insertUnique unique (lower service.name) "service policies must be unique"

/-- `validate_services`. -/
def validateServices (services : List ServicePolicy) : Result Unit := do
  let _ ← forEach services validateService []
  return ()

/-- `identity` of `validate_registry_policies`. -/
def RegistryPolicy.identity (policy : RegistryPolicy) : Str :=
  lower (policy.hive.debug ++ ['\\'] ++ policy.path ++ ['\\'] ++ policy.name)

/-- One entry of `validate_registry_policies`. -/
def validateRegistryPolicy (unique : List Str) (policy : RegistryPolicy) : Result (List Str) := do
  validateRegistryPath policy.path
  validateRegistryValueName policy.name
  insertUnique unique policy.identity "registry policies must be unique"

/-- `validate_registry_policies`. -/
def validateRegistryPolicies (policies : List RegistryPolicy) : Result Unit := do
  let _ ← forEach policies validateRegistryPolicy []
  return ()

/-- `validate_manifest`. -/
def validateManifest (manifest : DeclarativeProfile) (expectedName expectedRevision : Str) :
    Result Unit := do
  rejectIf (manifest.schemaVersion.toNat ≠ profileManifestVersion)
    (invalidProfile [.text "unsupported schema version ",
      .shown (decimal manifest.schemaVersion.toNat), .text "; expected ",
      .shown (decimal profileManifestVersion)])
  rejectIf (manifest.name ≠ expectedName ∨ manifest.revision ≠ expectedRevision)
    (invalidProfile [.text "profile name or revision does not match its selector"])
  rejectIf (manifest.experimental = true)
    (invalidProfile [.text "experimental profiles are not enabled in this release line"])
  rejectIf (manifest.keepsServicing = false)
    (invalidProfile [.text "current profiles must preserve Windows servicing"])
  validatePreservationContract manifest
  validateAppxRemovals manifest.appxRemovals
  validateOptionalFeatures manifest.optionalFeatureRemovals
  validateServices manifest.servicePolicies
  validateRegistryPolicies manifest.registryPolicies
  let _ ← forEach manifest.productUninstallers
    (fun uninstallers uninstaller =>
      insertUnique uninstallers uninstaller "product uninstallers must be unique")
    []
  rejectIf (expectedName = "vanilla".toList ∧
      (manifest.compactOs = true ∨ manifest.appxRemovals ≠ [] ∨
        manifest.optionalFeatureRemovals ≠ [] ∨ manifest.productUninstallers ≠ [] ∨
        manifest.servicePolicies ≠ [] ∨ manifest.registryPolicies ≠ []))
    (invalidProfile [.text "vanilla must not mutate the Windows image"])

/-- `CustomizationPlan::from_json`; `parse` is `serde_json::from_str`. -/
def fromJson (parse : Str → Option DeclarativeProfile) (profile : WindowsProfile)
    (expectedName expectedRevision json : Str) : Result CustomizationPlan := do
  rejectIf ((bytes json).length > maxProfileManifestBytes)
    (invalidProfile [.text "manifest exceeds 64 KiB"])
  let manifest ← okOr (parse json) (invalidProfile [.text "manifest is invalid JSON"])
  validateManifest manifest expectedName expectedRevision
  return {
    schemaVersion := manifest.schemaVersion
    revision := manifest.revision
    profile
    experimental := manifest.experimental
    appxRemovals := manifest.appxRemovals
    optionalFeatureRemovals := manifest.optionalFeatureRemovals
    productUninstallers := manifest.productUninstallers
    servicePolicies := manifest.servicePolicies
    registryPolicies := manifest.registryPolicies
    preserveComponents := manifest.preserveComponents
    compactOs := manifest.compactOs
    warnings := manifest.warnings }

/-! ## Selection -/

/-- An AppX package of an inventory, by the parts of its identity. -/
structure AppxPackage where
  name : Str
  version : Str
  architecture : Str
  publisher : Str
  deriving DecidableEq

/-- The package family name: `Name_Publisher`. -/
def AppxPackage.familyName (package : AppxPackage) : Str :=
  package.name ++ ['_'] ++ package.publisher

/-- The package full name: `Name_Version_Architecture__Publisher`. -/
def AppxPackage.fullName (package : AppxPackage) : Str :=
  package.name ++ ['_'] ++ package.version ++ ['_'] ++ package.architecture ++ ['_', '_'] ++
    package.publisher

/-- The provisioned packages of `Remove-LswAppxTargets`. -/
def provisionedMatch (package : AppxPackage) (target : AppxRemoval) : Bool :=
  eqIgnoreAsciiCase package.name target.displayName

/-- `Test-LswInstalledAppMatch`. -/
def testInstalledAppMatch (package : AppxPackage) (target : AppxRemoval) : Bool :=
  eqIgnoreAsciiCase package.name target.displayName ||
    target.packageFamilyNames.any (eqIgnoreAsciiCase package.familyName)

/-- `:remove_appx_if_present`: `findstr /i /b /l /c:"DISPLAYNAME_"` on the full name. -/
def removeAppxIfPresent (package : AppxPackage) (target : AppxRemoval) : Bool :=
  (lower (target.displayName ++ ['_'])).isPrefixOf (lower package.fullName)

/-- A package is selected for removal by one of the scripts. -/
def CustomizationPlan.selects (plan : CustomizationPlan) (package : AppxPackage) : Bool :=
  plan.appxRemovals.any fun target =>
    provisionedMatch package target || testInstalledAppMatch package target ||
      removeAppxIfPresent package target

end Lsw.Core.Customization
