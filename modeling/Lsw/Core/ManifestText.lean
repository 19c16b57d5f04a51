import Lsw.Core.Manifest

/-!
# The Text of a Manifest

A manifest is stored as `key=value` lines.  `encode` always writes the current version;
`decode` reads every version from 1 on and gives the fields an older version lacks a
conservative value.
-/

namespace Lsw.Core

open Lsw.Lib

/-! ## Writing -/

/-- The fields of a text, in the order of their lines. -/
abbrev Fields := List (Str × Str)

/-- The lines `key=value`, each terminated. -/
def renderFields (fields : Fields) : Str :=
  (fields.map fun field => field.1 ++ '=' :: field.2).flatMap (· ++ ['\n'])

/-- `PortForward`'s `Display`. -/
def PortForward.text (forward : PortForward) : Str :=
  decimal forward.hostPort.toNat ++ ':' :: decimal forward.guestPort.toNat

/-- The key `share.{index}.{field}`. -/
def shareKey (index : Nat) (field : String) : Str :=
  "share.".toList ++ decimal index ++ '.' :: field.toList

/-- The lines of one share. -/
def shareFields (index : Nat) (share : FolderShare) : Fields :=
  [(shareKey index "name", share.name),
    (shareKey index "host", share.hostPath.display),
    (shareKey index "guest", share.guestPath),
    (shareKey index "mode", share.mode.text.toList),
    (shareKey index "transport", share.transport.text.toList)]

/-- The lines before the shares. -/
def headFields (manifest : InstanceManifest) (sourceIso : Str) : Fields :=
  [("version".toList, decimal manifestVersion.toNat),
    ("name".toList, manifest.spec.name),
    ("source_iso".toList, sourceIso),
    ("profile".toList, manifest.spec.profile.text.toList),
    ("cpus".toList, decimal manifest.spec.cpus.toNat),
    ("memory_mib".toList, decimal manifest.spec.memoryMib.toNat),
    ("disk_gib".toList, decimal manifest.spec.diskGib.toNat),
    ("network".toList, manifest.spec.network.text.toList),
    ("port_forwards".toList, [','].intercalate (manifest.spec.portForwards.map PortForward.text)),
    ("license_accepted".toList, boolText manifest.spec.licenseAccepted),
    ("allow_unsupported_requirements".toList,
      boolText manifest.spec.allowUnsupportedRequirements),
    ("state".toList, manifest.state.text.toList),
    ("control_port".toList, decimal manifest.controlPort.toNat),
    ("created_unix_seconds".toList, decimal manifest.createdUnixSeconds.toNat),
    ("idle_timeout_seconds".toList, decimal manifest.idleTimeoutSeconds.toNat),
    ("hibernate_timeout_seconds".toList, decimal manifest.hibernateTimeoutSeconds.toNat),
    ("idle_policy".toList, manifest.idlePolicy.text.toList),
    ("memory_min_mib".toList, decimal manifest.memoryMinMib.toNat),
    ("state_changed_unix_seconds".toList, decimal manifest.stateChangedUnixSeconds.toNat),
    ("base_image_key".toList, manifest.baseImageKey.getD []),
    ("default_user".toList, manifest.defaultUser.getD []),
    ("default_user_role".toList,
      (manifest.defaultUserRole.map fun role => role.text.toList).getD []),
    ("scoped_live_share_credential".toList, boolText manifest.scopedLiveShareCredential),
    ("share_count".toList, decimal manifest.folderShares.length)]

/-- All lines of a manifest. -/
def manifestFields (manifest : InstanceManifest) (sourceIso : Str) : Fields :=
  headFields manifest sourceIso ++
    manifest.folderShares.zipIdx.flatMap fun (share, index) => shareFields index share

/-- `InstanceManifest::encode`. -/
def InstanceManifest.encode (manifest : InstanceManifest) : Result Str := do
  manifest.spec.validate
  validateIdleTimeout manifest.idleTimeoutSeconds
  validateIdleTimeout manifest.hibernateTimeoutSeconds
  validateRuntimeFields manifest
  let sourceIso ← okOr manifest.spec.sourceIso.toStr (.invalidValue "source ISO"
    [.text "path is not valid UTF-8 and cannot be stored portably"])
  return renderFields (manifestFields manifest sourceIso)

/-! ## Reading lines -/

/-- One line of the loop of `decode`, with its number. -/
def parseLine (fields : Fields) (line : Str × Nat) : Result Fields :=
  if isBlank line.1 ∨ line.1.head? = some '#' then return fields
  else
    match splitOnce '=' line.1 with
    | none => .error (.invalidManifest
        [.text "line ", .shown (decimal (line.2 + 1)), .text " does not contain '='"])
    | some (key, value) =>
      if (fields.lookup key).isSome then
        .error (.invalidManifest [.text "field ", .debug key, .text " appears more than once"])
      else return fields ++ [(key, value)]

/-- The line loop of `decode`. -/
def parseFields (contents : Str) : Result Fields :=
  forEach (lines contents).zipIdx parseLine []

/-- `required_field`. -/
def requiredField (fields : Fields) (key : Str) : Result Str :=
  okOr (fields.lookup key) (.invalidManifest [.text "missing field ", .debug key])

/-- `optional_nonempty_field`. -/
def optionalNonemptyField (fields : Fields) (key : Str) : Option Str :=
  (fields.lookup key).filter fun value => !value.isEmpty

/-- `parse_field`, with the parser of the type it is used at. -/
def parseField {α : Type} (parse : Str → Except String α) (fields : Fields) (key : Str) :
    Result α := do
  let value ← requiredField fields key
  match parse value with
  | .ok a => return a
  | .error e => .error (.invalidManifest [.text "could not parse ", .debug key, .text " value ",
      .debug value, .text ": ", .text e])

/-- The parsers `parse_field` is used at. -/
def parseInt {α : Type} (size : Nat) (ofNat : Nat → α) (value : Str) : Except String α :=
  match parseUnsigned size value with
  | .ok n => .ok (ofNat n)
  | .error e => .error e.text

def parseU16 : Str → Except String UInt16 := parseInt (2 ^ 16) UInt16.ofNat

def parseU32 : Str → Except String UInt32 := parseInt (2 ^ 32) UInt32.ofNat

def parseU64 : Str → Except String UInt64 := parseInt (2 ^ 64) UInt64.ofNat

def parseUsize : Str → Except String Nat := parseInt usizeSize id

def parseFlag (value : Str) : Except String Bool :=
  match parseBool value with
  | some b => .ok b
  | none => .error "provided string was not `true` or `false`"

/-! ## Reading fields -/

/-- `parse_published_port`. -/
def parsePublishedPort (value : Str) (side : String) (pair : Str) : Result UInt16 :=
  match parseU16 value with
  | .ok port => .ok port
  | .error e => .error (.invalidValue "published port"
      [.text "invalid ", .text side, .text " port in ", .debug pair, .text ": ", .text e])

/-- `PortForward::from_str`. -/
def PortForward.fromStr (value : Str) : Result PortForward := do
  let malformed : LswError := .invalidValue "published port"
    [.debug value, .text " must use HOST_PORT:GUEST_PORT syntax"]
  let (host, guest) ← okOr (splitOnce ':' value) malformed
  rejectIf (host = [] ∨ guest = [] ∨ ':' ∈ guest) malformed
  let hostPort ← parsePublishedPort host "host" value
  let guestPort ← parsePublishedPort guest "guest" value
  PortForward.new hostPort guestPort

/-- `parse_port_forwards`. -/
def parsePortForwards (value : Str) : Result (List PortForward) :=
  if value = [] then return []
  else (value.splitOn ',').mapM PortForward.fromStr

/-- A field that manifests have from version `first` on, and its value before. -/
def since {α : Type} (version : UInt32) (first : Nat) (read : Result α) (older : α) : Result α :=
  if version.toNat ≥ first then read else .ok older

/-- One share of `parse_folder_shares`. -/
def parseFolderShare (fields : Fields) (version : UInt32) (index : Nat) :
    Result FolderShare := do
  let name ← requiredField fields (shareKey index "name")
  let host ← requiredField fields (shareKey index "host")
  let guestPath ← requiredField fields (shareKey index "guest")
  let mode ← FolderShareMode.fromStr (← requiredField fields (shareKey index "mode"))
  let transport ← since version 7
    (requiredField fields (shareKey index "transport") >>= FolderShareTransport.fromStr) .mirror
  let share : FolderShare := { name, hostPath := .ofStr host, guestPath, mode, transport }
  share.validate
  return share

/-- `parse_folder_shares`. -/
def parseFolderShares (fields : Fields) (version : UInt32) : Result (List FolderShare) := do
  let count ← parseField parseUsize fields "share_count".toList
  rejectIf (count > 64) (.invalidManifest [.text "more than 64 folder shares"])
  (List.range count).mapM (parseFolderShare fields version)

/-- `value.map(str::parse).transpose()`, for a role. -/
def parseRole : Option Str → Result (Option WindowsUserRole)
  | none => return none
  | some value => return some (← WindowsUserRole.fromStr value)

/-- The specification `decode` reads. -/
def decodeSpec (fields : Fields) (version : UInt32) : Result InstanceSpec := do
  let name ← requiredField fields "name".toList
  let sourceIso ← requiredField fields "source_iso".toList
  let profile ← requiredField fields "profile".toList >>= WindowsProfile.parseManifest
  let cpus ← parseField parseU16 fields "cpus".toList
  let memoryMib ← parseField parseU32 fields "memory_mib".toList
  let diskGib ← parseField parseU32 fields "disk_gib".toList
  let network ← since version 2
    (requiredField fields "network".toList >>= NetworkMode.fromStr) .offline
  let portForwards ← since version 3
    (requiredField fields "port_forwards".toList >>= parsePortForwards) []
  let licenseAccepted ← parseField parseFlag fields "license_accepted".toList
  let allowUnsupportedRequirements ←
    parseField parseFlag fields "allow_unsupported_requirements".toList
  return { name, sourceIso := .ofStr sourceIso, profile, cpus, memoryMib, diskGib, network,
           portForwards, licenseAccepted, allowUnsupportedRequirements }

/-- `decode`, once the lines are read. -/
def decodeFields (fields : Fields) : Result InstanceManifest := do
  let version ← parseField parseU32 fields "version".toList
  rejectIf (¬ (1 ≤ version.toNat ∧ version.toNat ≤ manifestVersion.toNat)) (.invalidManifest
    [.text "unsupported manifest version ", .shown (decimal version.toNat)])
  let spec ← decodeSpec fields version
  spec.validate
  let controlPort ← parseField parseU16 fields "control_port".toList
  let expectedControlPort ← controlPortForInstance spec.name
  rejectIf (controlPort ≠ expectedControlPort) (.invalidManifest
    [.text "control port ", .shown (decimal controlPort.toNat),
      .text " does not match the deterministic port ",
      .shown (decimal expectedControlPort.toNat), .text " for ", .debug spec.name])
  let idleTimeoutSeconds ← since version 4
    (parseField parseU64 fields "idle_timeout_seconds".toList) defaultIdleTimeoutSeconds
  validateIdleTimeout idleTimeoutSeconds
  let hibernateTimeoutSeconds ← since version 5
    (parseField parseU64 fields "hibernate_timeout_seconds".toList) 0
  validateIdleTimeout hibernateTimeoutSeconds
  let idlePolicy ← since version 5
    (requiredField fields "idle_policy".toList >>= IdlePolicy.fromStr) .off
  let memoryMinMib ← since version 5
    (parseField parseU32 fields "memory_min_mib".toList) (min spec.memoryMib 2048)
  let createdUnixSeconds ← parseField parseU64 fields "created_unix_seconds".toList
  let stateChangedUnixSeconds ← since version 5
    (parseField parseU64 fields "state_changed_unix_seconds".toList) createdUnixSeconds
  let baseImageKey ← since version 5
    (.ok (optionalNonemptyField fields "base_image_key".toList)) none
  let defaultUser ← since version 5
    (.ok (optionalNonemptyField fields "default_user".toList)) none
  let defaultUserRole ← since version 6
    (parseRole (optionalNonemptyField fields "default_user_role".toList))
    (defaultUser.map fun _ => .standard)
  let scopedLiveShareCredential ← since version 8
    (parseField parseFlag fields "scoped_live_share_credential".toList) false
  let folderShares ← since version 5 (parseFolderShares fields version) []
  let state ← requiredField fields "state".toList >>= InstanceState.fromStr
  let manifest : InstanceManifest :=
    { version := manifestVersion, spec, state, controlPort, createdUnixSeconds,
      idleTimeoutSeconds, hibernateTimeoutSeconds, idlePolicy, memoryMinMib,
      stateChangedUnixSeconds, baseImageKey, defaultUser, defaultUserRole,
      scopedLiveShareCredential, folderShares }
  validateRuntimeFields manifest
  return manifest

/-- `InstanceManifest::decode`. -/
def InstanceManifest.decode (contents : Str) : Result InstanceManifest :=
  parseFields contents >>= decodeFields

end Lsw.Core
