import Lsw.Lib.Path

/-!
# Instance Manifests

The data of an instance (`manifest.rs`): what it runs, its state, its shares, and the checks
every manifest passes before it is written and after it is read.  `LswError` keeps the
fields and texts of the errors; a value printed with `{:?}` stays a part of its own, as the
escaping of that format is of no concern here.

Paths follow Unix rules, the platform the daemon and its store run on.
-/

namespace Lsw.Core

open Lsw.Lib

/-! ## Paths -/

/-- A position of a Unix path: a character, or a byte that is part of no UTF-8 character. -/
inductive OsUnit where
  | char (c : Char)
  | byte (b : UInt8)
  deriving DecidableEq, Repr

/-- `PathBuf`. -/
structure PathBuf where
  units : List OsUnit
  deriving DecidableEq, Repr

namespace PathBuf

/-- `PathBuf::from`, of a string. -/
def ofStr (s : Str) : PathBuf := ⟨s.map .char⟩

/-- The characters of a path without stray bytes. -/
def unitsText : List OsUnit → Option Str
  | [] => some []
  | .char c :: units => (unitsText units).map (c :: ·)
  | .byte _ :: _ => none

/-- `Path::to_str`. -/
def toStr (path : PathBuf) : Option Str := unitsText path.units

/-- `Path::display`: bytes outside UTF-8 are shown as the replacement character. -/
def display (path : PathBuf) : Str :=
  path.units.map fun
    | .char c => c
    | .byte _ => Char.ofNat 0xfffd

/-- `Path::components`. -/
def components (path : PathBuf) : List (Component OsUnit) :=
  Lib.components (.char '/') (.char '.') path.units

/-- `Path::is_absolute`. -/
def isAbsolute (path : PathBuf) : Bool := Lib.isAbsolute (.char '/') path.units

/-- `path.parent().is_none()`. -/
def hasNoParent (path : PathBuf) : Bool :=
  Lib.hasNoParent (.char '/') (.char '.') path.units

/-- `Path::starts_with`. -/
def startsWith (path base : PathBuf) : Bool :=
  Lib.startsWith (.char '/') (.char '.') path.units base.units

@[simp] theorem toStr_ofStr (s : Str) : (ofStr s).toStr = some s := by
  change unitsText (s.map .char) = some s
  induction s with
  | nil => rfl
  | cons c s ih => simp [unitsText, ih]

/-- A path with a text is the path of that text. -/
theorem toStr_eq_some_iff {path : PathBuf} {s : Str} : path.toStr = some s ↔ path = ofStr s := by
  constructor
  · intro h
    obtain ⟨units⟩ := path
    change unitsText units = some s at h
    rw [ofStr, PathBuf.mk.injEq]
    induction units generalizing s with
    | nil => simp_all [unitsText]
    | cons unit units ih =>
      cases unit with
      | byte b => simp [unitsText] at h
      | char c =>
        obtain ⟨rest, hrest, rfl⟩ := Option.map_eq_some_iff.mp h
        rw [ih hrest, List.map_cons]
  · rintro rfl
    exact toStr_ofStr s

@[simp] theorem display_ofStr (s : Str) : (ofStr s).display = s := by
  have hid : ((fun unit => match unit with
      | OsUnit.char c => c
      | OsUnit.byte _ => Char.ofNat 0xfffd) ∘ OsUnit.char) = id := rfl
  rw [display, ofStr, List.map_map, hid, List.map_id]

end PathBuf

/-! ## Errors -/

/-- A part of an error text: literal text, a value as `{}` prints it, or a value that is
    printed with `{:?}`. -/
inductive MessagePart where
  | text (s : String)
  | shown (value : Str)
  | debug (value : Str)
  deriving DecidableEq

/-- An error text. -/
abbrev Message := List MessagePart

/-- `LswError`, as far as manifests, the store, the planner and the image manager report it. -/
inductive LswError where
  | invalidInstanceName (name : Str)
  | invalidValue (field : String) (reason : Message)
  | invalidManifest (reason : Message)
  | protocol (reason : Message)
  | missingCapabilities (capabilities : List String)
  | externalCommandFailed (program : PathBuf) (status : Option Int)
  | instanceAlreadyExists (path : PathBuf)
  | instanceNotFound (name : Str)
  | io
  deriving DecidableEq

/-- `Result<T>` of `lsw-core`. -/
abbrev Result (α : Type) := Except LswError α

/-- A value given by one of a list of words. -/
def parseWord {α : Type} (words : List (String × α)) (value : Str) (otherwise : LswError) :
    Result α :=
  match words.find? (fun word => word.1.toList = value) with
  | some word => .ok word.2
  | none => .error otherwise

/-! ## Enumerations -/

/-- `NetworkMode`. -/
inductive NetworkMode where
  | nat
  | offline
  deriving DecidableEq, Repr

/-- `NetworkMode`'s `Display`. -/
def NetworkMode.text : NetworkMode → String
  | .nat => "nat"
  | .offline => "offline"

/-- `NetworkMode::from_str`. -/
def NetworkMode.fromStr (value : Str) : Result NetworkMode :=
  parseWord [("nat", .nat), ("offline", .offline)] value (.invalidValue "network mode"
    [.text "unknown mode ", .debug value, .text "; expected nat or offline"])

/-- `IdlePolicy`. -/
inductive IdlePolicy where
  | off
  | pauseHibernate
  deriving DecidableEq, Repr

/-- `IdlePolicy`'s `Display`. -/
def IdlePolicy.text : IdlePolicy → String
  | .off => "off"
  | .pauseHibernate => "pause-hibernate"

/-- `IdlePolicy::from_str`. -/
def IdlePolicy.fromStr (value : Str) : Result IdlePolicy :=
  parseWord [("off", .off), ("pause-hibernate", .pauseHibernate)] value
    (.invalidValue "idle policy"
      [.text "unknown policy ", .debug value, .text "; expected off or pause-hibernate"])

/-- `FolderShareMode`. -/
inductive FolderShareMode where
  | readOnly
  | readWrite
  deriving DecidableEq, Repr

/-- `FolderShareMode`'s `Display`. -/
def FolderShareMode.text : FolderShareMode → String
  | .readOnly => "ro"
  | .readWrite => "rw"

/-- `FolderShareMode::from_str`. -/
def FolderShareMode.fromStr (value : Str) : Result FolderShareMode :=
  parseWord [("ro", .readOnly), ("rw", .readWrite)] value (.invalidValue "folder share mode"
    [.text "unknown mode ", .debug value, .text "; expected ro or rw"])

/-- `FolderShareTransport`. -/
inductive FolderShareTransport where
  | mirror
  | liveSmb
  deriving DecidableEq, Repr

/-- `FolderShareTransport`'s `Display`. -/
def FolderShareTransport.text : FolderShareTransport → String
  | .mirror => "mirror"
  | .liveSmb => "live-smb"

/-- `FolderShareTransport::from_str`. -/
def FolderShareTransport.fromStr (value : Str) : Result FolderShareTransport :=
  parseWord [("mirror", .mirror), ("live-smb", .liveSmb)] value
    (.invalidValue "folder share transport"
      [.text "unknown transport ", .debug value, .text "; expected mirror or live-smb"])

/-- `WindowsProfile`. -/
inductive WindowsProfile where
  | vanilla
  | slim
  | ephemeral
  | secure
  deriving DecidableEq, Repr

/-- `WindowsProfile`'s `Display`. -/
def WindowsProfile.text : WindowsProfile → String
  | .vanilla => "vanilla"
  | .slim => "slim"
  | .ephemeral => "ephemeral"
  | .secure => "secure"

/-- `WindowsProfile::from_str`. -/
def WindowsProfile.fromStr (value : Str) : Result WindowsProfile :=
  parseWord [("vanilla", .vanilla), ("slim", .slim)] value (.invalidValue "profile"
    [.text "unknown profile ", .debug value, .text "; LSW supports vanilla or slim"])

/-- `WindowsProfile::parse_manifest`: also the names older manifests used. -/
def WindowsProfile.parseManifest (value : Str) : Result WindowsProfile :=
  if value = "standard".toList then .ok .vanilla
  else if value = "ephemeral".toList then .ok .ephemeral
  else if value = "secure".toList then .ok .secure
  else WindowsProfile.fromStr value

/-- `InstanceState`. -/
inductive InstanceState where
  | configured
  | installing
  | stopped
  | running
  | suspended
  | hibernated
  | failed
  deriving DecidableEq, Repr

/-- `InstanceState`'s `Display`. -/
def InstanceState.text : InstanceState → String
  | .configured => "configured"
  | .installing => "installing"
  | .stopped => "stopped"
  | .running => "running"
  | .suspended => "suspended"
  | .hibernated => "hibernated"
  | .failed => "failed"

/-- `InstanceState::from_str`. -/
def InstanceState.fromStr (value : Str) : Result InstanceState :=
  parseWord [("configured", .configured), ("installing", .installing), ("stopped", .stopped),
    ("running", .running), ("suspended", .suspended), ("hibernated", .hibernated),
    ("failed", .failed)] value
    (.invalidManifest [.text "unknown instance state ", .debug value])

/-- `WindowsUserRole`. -/
inductive WindowsUserRole where
  | standard
  | administrator
  deriving DecidableEq, Repr

/-- `WindowsUserRole`'s `Display`. -/
def WindowsUserRole.text : WindowsUserRole → String
  | .standard => "standard"
  | .administrator => "administrator"

/-- `WindowsUserRole::from_str`. -/
def WindowsUserRole.fromStr (value : Str) : Result WindowsUserRole :=
  parseWord [("standard", .standard), ("administrator", .administrator)] value
    (.protocol [.text "unknown Windows user role ", .debug value,
      .text "; expected standard or administrator"])

/-! ## Data -/

/-- `PortForward`. -/
structure PortForward where
  hostPort : UInt16
  guestPort : UInt16
  deriving DecidableEq, Repr

/-- `FolderShare`. -/
structure FolderShare where
  name : Str
  hostPath : PathBuf
  guestPath : Str
  mode : FolderShareMode
  transport : FolderShareTransport
  deriving DecidableEq

/-- `InstanceSpec`. -/
structure InstanceSpec where
  name : Str
  sourceIso : PathBuf
  profile : WindowsProfile
  cpus : UInt16
  memoryMib : UInt32
  diskGib : UInt32
  network : NetworkMode
  portForwards : List PortForward
  licenseAccepted : Bool
  allowUnsupportedRequirements : Bool
  deriving DecidableEq

/-- `InstanceManifest`. -/
structure InstanceManifest where
  version : UInt32
  spec : InstanceSpec
  state : InstanceState
  controlPort : UInt16
  createdUnixSeconds : UInt64
  idleTimeoutSeconds : UInt64
  hibernateTimeoutSeconds : UInt64
  idlePolicy : IdlePolicy
  memoryMinMib : UInt32
  stateChangedUnixSeconds : UInt64
  baseImageKey : Option Str
  defaultUser : Option Str
  defaultUserRole : Option WindowsUserRole
  scopedLiveShareCredential : Bool
  folderShares : List FolderShare
  deriving DecidableEq

/-- `MANIFEST_VERSION`. -/
def manifestVersion : UInt32 := 8

/-- `DEFAULT_IDLE_TIMEOUT_SECONDS`. -/
def defaultIdleTimeoutSeconds : UInt64 := 10 * 60

/-- `AGENT_CONTROL_PORT_START`. -/
def agentControlPortStart : Nat := 42000

/-- `AGENT_CONTROL_PORT_END_EXCLUSIVE`. -/
def agentControlPortEndExclusive : Nat := 44000

/-! ## Names and paths -/

/-- `byte.is_ascii_lowercase() || byte.is_ascii_digit() || byte == b'-'`. -/
def isNameByte (b : UInt8) : Bool :=
  (97 ≤ b && b ≤ 122) || (48 ≤ b && b ≤ 57) || b == 45

/-- `u8::is_ascii_alphanumeric`. -/
def isAsciiAlphanumeric (b : UInt8) : Bool :=
  (97 ≤ b && b ≤ 122) || (65 ≤ b && b ≤ 90) || (48 ≤ b && b ≤ 57)

/-- `valid_length && valid_characters && valid_edges`, for names of at most `limit` bytes. -/
def isName (limit : Nat) (name : Str) : Bool :=
  let b := bytes name
  (1 ≤ b.length && b.length ≤ limit) && b.all isNameByte &&
    (b.head?.any isAsciiAlphanumeric && b.getLast?.any isAsciiAlphanumeric)

/-- `validate_instance_name`. -/
def validateInstanceName (name : Str) : Result Unit :=
  rejectIf (isName 63 name = false) (.invalidInstanceName name)

/-- `validate_share_name`. -/
def validateShareName (name : Str) : Result Unit :=
  rejectIf (isName 32 name = false) (.invalidValue "folder share name"
    [.text "must use 1-32 lowercase letters, digits, or interior hyphens"])

/-- `validate_serializable_value`. -/
def validateSerializableValue (path : PathBuf) (field : String) : Result Unit := do
  let text ← okOr path.toStr (.invalidValue field [.text "path is not valid UTF-8"])
  rejectIf ('\n' ∈ text ∨ '\r' ∈ text)
    (.invalidValue field [.text "path cannot contain a newline"])

/-- `validate_serializable_path`. -/
def validateSerializablePath (path : PathBuf) : Result Unit :=
  validateSerializableValue path "source ISO"

/-- `str::to_ascii_uppercase`, of a character. -/
def toAsciiUppercase (c : Char) : Char :=
  if 'a' ≤ c ∧ c ≤ 'z' then Char.ofNat (c.toNat - 32) else c

/-- `str::to_ascii_lowercase`, of a character. -/
def toAsciiLowercase (c : Char) : Char :=
  if 'A' ≤ c ∧ c ≤ 'Z' then Char.ofNat (c.toNat + 32) else c

/-- A fact about ASCII characters, checked on their codes. -/
theorem forall_ascii {P : Char → Prop} (h : ∀ n < 128, P (Char.ofNat n)) {c : Char}
    (hc : c.toNat < 128) : P c := by
  rw [← Char.ofNat_toNat c]
  exact h c.toNat hc

theorem toAsciiLowercase_of_not_ascii {c : Char} (h : ¬ c.toNat < 128) :
    toAsciiLowercase c = c := by
  rw [toAsciiLowercase, if_neg]
  rintro ⟨-, hle⟩
  have : c.toNat ≤ 90 := hle
  omega

theorem toAsciiLowercase_idem (c : Char) :
    toAsciiLowercase (toAsciiLowercase c) = toAsciiLowercase c := by
  by_cases hc : c.toNat < 128
  · exact forall_ascii
      (P := fun c => toAsciiLowercase (toAsciiLowercase c) = toAsciiLowercase c) (by decide) hc
  · rw [toAsciiLowercase_of_not_ascii hc, toAsciiLowercase_of_not_ascii hc]

/-- The device names Windows reserves, whatever their extension. -/
def reservedStems : List String :=
  ["CON", "PRN", "AUX", "NUL",
    "COM1", "COM2", "COM3", "COM4", "COM5", "COM6", "COM7", "COM8", "COM9",
    "LPT1", "LPT2", "LPT3", "LPT4", "LPT5", "LPT6", "LPT7", "LPT8", "LPT9"]

/-- `windows_path_component_is_safe`. -/
def windowsPathComponentIsSafe (component : Str) : Bool :=
  if component = [] ∨ component = ['.'] ∨ component = ['.', '.'] ∨
      component.getLast? = some ' ' ∨ component.getLast? = some '.' ∨
      component.any (fun c => c.toNat ≤ 0x1f || "<>:\"/\\|?*".toList.contains c) then false
  else
    let stem := ((splitOnce '.' component).map (·.1)).getD component
    !(reservedStems.any fun reserved => reserved.toList == stem.map toAsciiUppercase)

/-- `validate_windows_absolute_path`. -/
def validateWindowsAbsolutePath (path : Str) : Result Unit :=
  let driveRoot := match path with
    | drive :: ':' :: slash :: _ :: _ => drive.isAlpha && (slash == '\\' || slash == '/')
    | _ => false
  let safeComponents := driveRoot &&
    ((path.drop 3).splitOnP (fun c => c == '\\' || c == '/')).all windowsPathComponentIsSafe
  rejectIf ((driveRoot && safeComponents) = false) (.invalidValue "folder share guest path"
    [.text "must be an absolute Windows drive path without parent traversal"])

/-- `windows_roots_overlap`. -/
def windowsRootsOverlap (left right : Str) : Bool :=
  let left := (left.map fun c => if c = '/' then '\\' else c).map toAsciiLowercase
  let right := (right.map fun c => if c = '/' then '\\' else c).map toAsciiLowercase
  left == right ||
    (right.isPrefixOf left && (left.drop right.length).head? == some '\\') ||
    (left.isPrefixOf right && (right.drop left.length).head? == some '\\')

/-- `validate_windows_user_name`. -/
def validateWindowsUserName (name : Str) : Result Unit :=
  let forbidden := "\"/\\[]:;|=,+*?<>@".toList
  let valid := !name.isEmpty && utf16Units name ≤ 20 && name != ['.'] && name != ['.', '.'] &&
    !(name.getLast? == some ' ' || name.getLast? == some '.') &&
    !(name.any fun c => isControl c || forbidden.contains c)
  rejectIf (valid = false) (.invalidValue "Windows user name"
    [.text "must be 1-20 UTF-16 code units and contain no Windows account-name separators or trailing space/dot"])

/-! ## Control ports -/

/-- `stable_control_port`: the 32-bit FNV-1a hash of the name, folded into the reserved
    range. -/
def stableControlPort (name : Str) : UInt16 :=
  let hash := (bytes name).foldl (fun hash byte => (hash ^^^ byte.toUInt32) * 16777619)
    (2166136261 : UInt32)
  UInt16.ofNat (agentControlPortStart +
    hash.toNat % (agentControlPortEndExclusive - agentControlPortStart))

/-- `control_port_for_instance`. -/
def controlPortForInstance (name : Str) : Result UInt16 := do
  validateInstanceName name
  return stableControlPort name

/-! ## Checks of a specification -/

/-- `PortForward::new`. -/
def PortForward.new (hostPort guestPort : UInt16) : Result PortForward := do
  rejectIf (hostPort = 0) (.invalidValue "published port"
    [.text "host port must be between 1 and 65535"])
  rejectIf (guestPort = 0) (.invalidValue "published port"
    [.text "guest port must be between 1 and 65535"])
  return { hostPort, guestPort }

/-- `(AGENT_CONTROL_PORT_START..AGENT_CONTROL_PORT_END_EXCLUSIVE).contains(&port)`. -/
def isReservedPort (port : UInt16) : Bool :=
  agentControlPortStart ≤ port.toNat && port.toNat < agentControlPortEndExclusive

/-- One published port in the loop of `InstanceSpec::validate`; `hostPorts` are those seen
    before. -/
def validateForward (hostPorts : List UInt16) (forward : PortForward) :
    Result (List UInt16) := do
  let _ ← PortForward.new forward.hostPort forward.guestPort
  rejectIf (isReservedPort forward.hostPort) (.invalidValue "published ports"
    [.text "host port ", .shown (decimal forward.hostPort.toNat),
      .text " is reserved for LSW agent control"])
  rejectIf (forward.hostPort ∈ hostPorts) (.invalidValue "published ports"
    [.text "host port ", .shown (decimal forward.hostPort.toNat),
      .text " appears more than once"])
  return hostPorts ++ [forward.hostPort]

/-- The size checks of `InstanceSpec::validate`. -/
def validateRequirements (spec : InstanceSpec) : Result Unit :=
  if spec.allowUnsupportedRequirements = false then do
    rejectIf (spec.cpus.toNat < 2) (.invalidValue "CPU count"
      [.text "Windows 11 profiles require at least 2 virtual CPUs; pass the explicit unsupported flag to override"])
    rejectIf (spec.memoryMib.toNat < 4096) (.invalidValue "memory"
      [.text "Windows 11 profiles require at least 4096 MiB; pass the explicit unsupported flag to override"])
    rejectIf (spec.diskGib.toNat < 64) (.invalidValue "disk size"
      [.text "Windows 11 profiles require at least 64 GiB; pass the explicit unsupported flag to override"])
  else do
    rejectIf (spec.memoryMib.toNat < 512) (.invalidValue "memory"
      [.text "must be at least 512 MiB even in unsupported mode"])
    rejectIf (spec.diskGib.toNat < 8) (.invalidValue "disk size"
      [.text "must be at least 8 GiB even in unsupported mode"])

/-- `InstanceSpec::validate`. -/
def InstanceSpec.validate (spec : InstanceSpec) : Result Unit := do
  validateInstanceName spec.name
  validateSerializablePath spec.sourceIso
  rejectIf (spec.network = .offline ∧ spec.portForwards ≠ []) (.invalidValue "published ports"
    [.text "port publishing requires --network nat"])
  let _ ← forEach spec.portForwards validateForward []
  rejectIf (¬ (1 ≤ spec.cpus.toNat ∧ spec.cpus.toNat ≤ 256)) (.invalidValue "CPU count"
    [.text "must be between 1 and 256"])
  validateRequirements spec
  rejectIf (spec.licenseAccepted = false) (.invalidValue "license acceptance"
    [.text "the user must explicitly accept the license for their installation media"])

/-! ## Checks of a manifest -/

/-- `validate_idle_timeout`. -/
def validateIdleTimeout (seconds : UInt64) : Result Unit :=
  rejectIf (¬ seconds.toNat ≤ 31536000) (.invalidValue "idle timeout"
    [.text "must be 0 (disabled) or no more than 365 days"])

/-- `FolderShare::validate`. -/
def FolderShare.validate (share : FolderShare) : Result Unit := do
  validateShareName share.name
  validateSerializableValue share.hostPath "folder share host path"
  rejectIf (share.hostPath.isAbsolute = false ∨ share.hostPath.hasNoParent)
    (.invalidValue "folder share host path"
      [.text "must be an absolute directory below the filesystem root"])
  if share.transport = .liveSmb then
    rejectIf (share.mode ≠ .readWrite ∨ share.guestPath ≠ "L:\\".toList)
      (.invalidValue "live folder share" [.text "must be read-write and mounted at L:\\"])
  else validateWindowsAbsolutePath share.guestPath

/-- `byte.is_ascii_hexdigit() && !byte.is_ascii_uppercase()`. -/
def isLowercaseHexByte (b : UInt8) : Bool :=
  (48 ≤ b && b ≤ 57) || (97 ≤ b && b ≤ 102)

/-- The inner loop of `validate_runtime_fields`: a share against one before it. -/
def validateApart (share existing : FolderShare) : Result Unit :=
  rejectIf (share.hostPath.startsWith existing.hostPath ∨
      existing.hostPath.startsWith share.hostPath ∨
      windowsRootsOverlap share.guestPath existing.guestPath)
    (.invalidValue "folder shares" [.text "share roots ", .debug existing.name, .text " and ",
      .debug share.name, .text " overlap"])

/-- The share loop of `validate_runtime_fields`; `earlier` are the shares already checked. -/
def validateShare (earlier : List FolderShare) (share : FolderShare) :
    Result (List FolderShare) := do
  share.validate
  rejectIf (share.transport = .liveSmb ∧ ∃ other ∈ earlier, other.transport = .liveSmb)
    (.invalidValue "live folder shares"
      [.text "only one private QEMU SMB root can be mounted per instance"])
  rejectIf (∃ other ∈ earlier, other.name = share.name) (.invalidValue "folder shares"
    [.text "share name ", .debug share.name, .text " appears more than once"])
  forEach earlier (fun _ existing => validateApart share existing) ()
  return earlier ++ [share]

/-- The check of a base image key in `validate_runtime_fields`. -/
def validateBaseImageKey (key : Str) : Result Unit :=
  rejectIf ((bytes key).length ≠ 64 ∨ (bytes key).all isLowercaseHexByte = false)
    (.invalidValue "base image key"
      [.text "must contain 64 lowercase hexadecimal characters"])

/-- `if let Some(value) = value { check(value)? }`. -/
def checkSome (check : Str → Result Unit) : Option Str → Result Unit
  | none => .ok ()
  | some value => check value

/-- `validate_runtime_fields`. -/
def validateRuntimeFields (manifest : InstanceManifest) : Result Unit := do
  rejectIf (¬ (256 ≤ manifest.memoryMinMib.toNat ∧
      manifest.memoryMinMib.toNat ≤ manifest.spec.memoryMib.toNat))
    (.invalidValue "minimum memory" [.text "must be between 256 MiB and memory.max (",
      .shown (decimal manifest.spec.memoryMib.toNat), .text " MiB)"])
  checkSome validateBaseImageKey manifest.baseImageKey
  checkSome validateWindowsUserName manifest.defaultUser
  rejectIf (manifest.defaultUser.isSome ≠ manifest.defaultUserRole.isSome)
    (.invalidValue "default Windows user role"
      [.text "must be present exactly when a default Windows user is registered"])
  let _ ← forEach manifest.folderShares validateShare []
  return ()

end Lsw.Core
