import Lsw.Core.Store

/-!
# The QEMU Command Line

`QemuPlanner::plan` (`qemu.rs`, with `backend.rs` and `capabilities.rs`): the program, the
arguments, the helper commands and the notes of one launch of an instance.  The arguments are
added one device group at a time, in the order of the source.

What the planner asks of the file system is a parameter.
-/

namespace Lsw.Core

open Lsw.Lib

/-! ## Hosts -/

/-- `HostPlatform`. -/
inductive HostPlatform where
  | linux
  | macOs
  | windows
  | other
  deriving DecidableEq, Repr

/-- `VmAccelerator`. -/
inductive VmAccelerator where
  | kvm
  | hvf
  | whpx
  | tcg
  deriving DecidableEq, Repr

/-- `VmAccelerator`'s `Display`. -/
def VmAccelerator.text : VmAccelerator → String
  | .kvm => "kvm"
  | .hvf => "hvf"
  | .whpx => "whpx"
  | .tcg => "tcg"

/-- `HostPlatform::native_accelerator`. -/
def HostPlatform.nativeAccelerator : HostPlatform → Option VmAccelerator
  | .linux => some .kvm
  | .macOs => some .hvf
  | .windows => some .whpx
  | .other => none

/-- `GuestCpuTuning`. -/
inductive GuestCpuTuning where
  | enlightened
  | baseline
  deriving DecidableEq, Repr

/-- `KVM_ENLIGHTENED_CPU_MODEL`, feature by feature. -/
def kvmEnlightenedCpuModel : Str :=
  [','].intercalate (["host", "migratable=off", "hv-relaxed", "hv-vapic", "hv-spinlocks=0x1fff",
    "hv-vpindex", "hv-runtime", "hv-time", "hv-synic", "hv-stimer", "hv-stimer-direct",
    "hv-reset", "hv-frequencies", "hv-reenlightenment", "hv-tlbflush", "hv-ipi"].map
    String.toList)

/-- `QemuBackend`. -/
structure QemuBackend where
  platform : HostPlatform
  accelerator : VmAccelerator
  deriving DecidableEq, Repr

namespace QemuBackend

/-- `QemuBackend::acceleration_arguments`. -/
def accelerationArguments (backend : QemuBackend) : List String :=
  match backend.accelerator with
  | .kvm => ["-enable-kvm"]
  | .hvf => ["-accel", "hvf"]
  | .whpx => ["-accel", "whpx"]
  | .tcg => ["-accel", "tcg,thread=multi"]

/-- `QemuBackend::cpu_model`. -/
def cpuModel (backend : QemuBackend) (tuning : GuestCpuTuning) : Str :=
  match backend.accelerator, tuning with
  | .kvm, .enlightened => kvmEnlightenedCpuModel
  | .kvm, .baseline | .hvf, _ => "host".toList
  | .whpx, _ | .tcg, _ => "max".toList

/-- `QemuBackend::fallback_note`. -/
def fallbackNote (backend : QemuBackend) : Option Message :=
  if backend.accelerator ≠ .tcg then none
  else
    some (match backend.platform.nativeAccelerator with
    | some .kvm =>
      [.text "KVM is unavailable; QEMU will fall back to TCG and run much more slowly"]
    | some accelerator =>
      [.text accelerator.text,
        .text " is unavailable; QEMU will fall back to TCG and run much more slowly"]
    | none =>
      [.text "no native accelerator is defined for this host; QEMU will use slow TCG"])

end QemuBackend

/-- `SecuritySettings`, as far as the planner reads them. -/
structure SecuritySettings where
  secureBoot : Bool
  vtpm : Bool
  deriving DecidableEq, Repr

/-- `WindowsProfile::security`. -/
def WindowsProfile.security : WindowsProfile → SecuritySettings
  | .secure => { secureBoot := true, vtpm := true }
  | .vanilla | .slim | .ephemeral => { secureBoot := false, vtpm := true }

/-- `AcceleratorCapabilities`. -/
structure AcceleratorCapabilities where
  kvm : Bool := false
  hvf : Bool := false
  whpx : Bool := false
  deriving DecidableEq, Repr

/-- `AcceleratorCapabilities::supports`. -/
def AcceleratorCapabilities.supports (accelerators : AcceleratorCapabilities) :
    VmAccelerator → Bool
  | .kvm => accelerators.kvm
  | .hvf => accelerators.hvf
  | .whpx => accelerators.whpx
  | .tcg => true

/-- `HostCapabilities`, as far as the planner and the supervisor read them. -/
structure HostCapabilities where
  platform : HostPlatform
  accelerators : AcceleratorCapabilities := {}
  qemuSystem : Option PathBuf := none
  qemuImg : Option PathBuf := none
  setsid : Option PathBuf := none
  swtpm : Option PathBuf := none
  smbd : Option PathBuf := none
  ovmfCode : Option PathBuf := none
  ovmfSecureCode : Option PathBuf := none
  deriving DecidableEq, Repr

namespace HostCapabilities

/-- `HostCapabilities::firmware_code`. -/
def firmwareCode (capabilities : HostCapabilities) (profile : WindowsProfile) :
    Option PathBuf :=
  if profile.security.secureBoot then capabilities.ovmfSecureCode else capabilities.ovmfCode

/-- `HostCapabilities::missing_for_profile_launch`. -/
def missingForProfileLaunch (capabilities : HostCapabilities) (profile : WindowsProfile) :
    List String :=
  (if capabilities.qemuSystem.isNone then ["qemu-system-x86_64"] else []) ++
    (if capabilities.swtpm.isNone then ["swtpm"] else []) ++
    (if (capabilities.firmwareCode profile).isNone then
      [if profile.security.secureBoot then "Secure Boot OVMF code firmware"
        else "OVMF code firmware"] else []) ++
    (if capabilities.setsid.isNone then ["setsid (util-linux)"] else [])

end HostCapabilities

/-- `QemuBackend::select`. -/
def QemuBackend.select (capabilities : HostCapabilities) : QemuBackend where
  platform := capabilities.platform
  accelerator :=
    (capabilities.platform.nativeAccelerator.filter capabilities.accelerators.supports).getD .tcg

/-! ## The file system -/

/-- `io::ErrorKind`, as far as it is looked at. -/
inductive IoErrorKind where
  | notFound
  | other
  deriving DecidableEq, Repr

/-- What `symlink_metadata` says a path is. -/
inductive FileKind where
  | file
  | dir
  | symlink
  | other
  deriving DecidableEq, Repr

/-- What the planner asks of the file system. -/
structure HostFs where
  symlinkMetadata : PathBuf → Except IoErrorKind FileKind
  canonicalize : PathBuf → Except IoErrorKind PathBuf
  isFile : PathBuf → Bool
  isDir : PathBuf → Bool

/-- The `?` of an I/O error. -/
def ioResult {α : Type} : Except IoErrorKind α → Result α
  | .ok a => .ok a
  | .error _ => .error .io

/-- A path made of components. -/
def PathBuf.ofComponents (parts : List (Component OsUnit)) : PathBuf :=
  let piece : Component OsUnit → List OsUnit
    | .rootDir => []
    | .curDir => [.char '.']
    | .parentDir => [.char '.', .char '.']
    | .normal name => name
  if parts = [.rootDir] then ⟨[.char '/']⟩
  else ⟨[OsUnit.char '/'].intercalate (parts.map piece)⟩

/-- `Path::ancestors`: the path, its parent, and so on up to the root or the empty path. -/
def PathBuf.ancestors (path : PathBuf) : List PathBuf :=
  let parts := path.components
  let shortest := if parts.head? = some .rootDir then 1 else 0
  path :: ((List.range' shortest (parts.length - shortest)).reverse.map fun n =>
    PathBuf.ofComponents (parts.take n))

/-- `real_directory_exists`. -/
def realDirectoryExists (fs : HostFs) (path : PathBuf) (field : String) : Result Bool :=
  match fs.symlinkMetadata path with
  | .ok .dir => .ok true
  | .ok _ => .error (.invalidValue field
      [.shown path.display, .text " must be a real directory"])
  | .error .notFound => .ok false
  | .error .other => .error .io

/-- One ancestor in the loop of `canonical_live_share_root`. -/
def checkNoSymlink (fs : HostFs) (path ancestor : PathBuf) : Result Unit :=
  match fs.symlinkMetadata ancestor with
  | .ok .symlink => .error (.invalidValue "live folder share root"
      [.shown path.display, .text " crosses a symbolic link"])
  | .ok _ => .ok ()
  | .error _ => .error .io

/-- `canonical_live_share_root`. -/
def canonicalLiveShareRoot (fs : HostFs) (path : PathBuf) : Result PathBuf := do
  forEach path.ancestors (fun _ => checkNoSymlink fs path) ()
  let canonical ← ioResult (fs.canonicalize path)
  let kind ← ioResult (fs.symlinkMetadata canonical)
  rejectIf (kind ≠ .dir) (.invalidValue "live folder share root"
    [.shown path.display, .text " must be a real directory"])
  return canonical

/-- `InstanceSpec::validate_for_create`. -/
def InstanceSpec.validateForCreate (fs : HostFs) (spec : InstanceSpec) : Result Unit := do
  spec.validate
  rejectIf (fs.isFile spec.sourceIso = false) (.invalidValue "source ISO"
    [.shown spec.sourceIso.display, .text " is not a regular file"])

/-! ## Quoting -/

/-- `qemu_option_text`: `,` separates options, so it is doubled. -/
def qemuOptionText (value : Str) : Str :=
  value.flatMap fun c => if c = ',' then [',', ','] else [c]

/-- `qemu_path`. -/
def qemuPath (path : PathBuf) : Str := qemuOptionText path.display

/-- `shell_quote`. -/
def shellQuote (value : Str) : Str :=
  if (bytes value).all fun b => isAsciiAlphanumeric b || (bytes "_+-./:=,@".toList).contains b
  then value
  else
    '\'' :: (value.flatMap fun c => if c = '\'' then "'\\''".toList else [c]) ++ ['\'']

/-- `live_smb_guest_forward_command`. -/
def liveSmbGuestForwardCommand (smbd instanceDir : PathBuf) : Str :=
  let runtime := (instanceDir.join "run".toList).join "live-smb".toList
  let config := runtime.join "smb.conf".toList
  [' '].intercalate
    ([smbd.display, "-l".toList, runtime.display, "-s".toList, config.display].map shellQuote)

/-! ## Launches -/

/-- `LaunchPhase`. -/
inductive LaunchPhase where
  | install
  | run
  deriving DecidableEq, Repr

/-- `CommandInvocation`. -/
structure CommandInvocation where
  program : PathBuf
  arguments : List PathBuf
  deriving DecidableEq

/-- `CommandPlan`. -/
structure CommandPlan where
  backend : QemuBackend
  program : PathBuf
  arguments : List PathBuf
  helperCommands : List CommandInvocation
  notes : List Message
  missingCapabilities : List String
  deriving DecidableEq

/-- `QemuPlanner`. -/
structure QemuPlanner where
  capabilities : HostCapabilities
  backend : QemuBackend
  cpuTuning : GuestCpuTuning := .enlightened
  deriving DecidableEq

/-- `QemuPlanner::new`. -/
def QemuPlanner.new (capabilities : HostCapabilities) : QemuPlanner where
  capabilities := capabilities
  backend := QemuBackend.select capabilities

/-- What a launch is planned from. -/
structure LaunchContext where
  fs : HostFs
  planner : QemuPlanner
  manifest : InstanceManifest
  instanceDir : PathBuf
  phase : LaunchPhase

/-- `LaunchArguments`: what has been collected so far. -/
structure LaunchArguments where
  arguments : List PathBuf := []
  helperCommands : List CommandInvocation := []
  notes : List Message := []

namespace LaunchArguments

/-- Add arguments that are texts. -/
def extend (launch : LaunchArguments) (texts : List Str) : LaunchArguments :=
  { launch with arguments := launch.arguments ++ texts.map PathBuf.ofStr }

/-- `LaunchArguments::push`, of a text. -/
def push (launch : LaunchArguments) (option : String) (value : Str) : LaunchArguments :=
  launch.extend [option.toList, value]

/-- `LaunchArguments::push`, of a path as it is. -/
def pushPath (launch : LaunchArguments) (option : String) (value : PathBuf) : LaunchArguments :=
  { launch with arguments := launch.arguments ++ [.ofStr option.toList, value] }

/-- `LaunchArguments::note`. -/
def note (launch : LaunchArguments) (message : Message) : LaunchArguments :=
  { launch with notes := launch.notes ++ [message] }

end LaunchArguments

namespace LaunchContext

variable (ctx : LaunchContext)

/-- The security settings of the instance. -/
def security : SecuritySettings := ctx.manifest.spec.profile.security

/-- `LaunchArguments::machine_and_cpu`. -/
def machineAndCpu (launch : LaunchArguments) : LaunchArguments :=
  let cpus := decimal ctx.manifest.spec.cpus.toNat
  let launch := launch
    |>.push "-name" ctx.manifest.spec.name
    |>.push "-machine"
      (if ctx.security.secureBoot then "q35,usb=on,smm=on".toList else "q35,usb=on".toList)
    |>.push "-smp" (cpus ++ ",sockets=1,cores=".toList ++ cpus ++ ",threads=1".toList)
    |>.push "-m" (decimal ctx.manifest.spec.memoryMib.toNat ++ ['M'])
    |>.extend (ctx.planner.backend.accelerationArguments.map String.toList)
    |>.push "-cpu" (ctx.planner.backend.cpuModel ctx.planner.cpuTuning)
    |>.push "-rtc" "base=utc,driftfix=slew".toList
  let launch :=
    match ctx.planner.backend.fallbackNote with
    | some message => launch.note message
    | none => launch
  if ctx.planner.backend.accelerator = .kvm then
    launch.note [.text (match ctx.planner.cpuTuning with
      | .enlightened => "guest CPU: host passthrough with Hyper-V enlightenments; set LSW_GUEST_CPU_TUNING=baseline if QEMU rejects an hv-* feature"
      | .baseline => "guest CPU: baseline host passthrough without Hyper-V enlightenments")]
  else launch

/-- `LaunchArguments::firmware`. -/
def firmware (launch : LaunchArguments) : LaunchArguments :=
  let firmwareCode := (ctx.planner.capabilities.firmwareCode ctx.manifest.spec.profile).getD
    (.ofStr "/path/to/OVMF_CODE.fd".toList)
  let firmwareVars := ctx.instanceDir.join "OVMF_VARS.fd".toList
  let launch := launch
    |>.push "-drive"
      ("if=pflash,format=raw,readonly=on,file=".toList ++ qemuPath firmwareCode)
    |>.push "-drive" ("if=pflash,format=raw,file=".toList ++ qemuPath firmwareVars)
  if ctx.security.secureBoot then
    launch.push "-global" "driver=cfi.pflash01,property=secure,value=on".toList
  else launch

/-- `LaunchArguments::system_disk`. -/
def systemDisk (launch : LaunchArguments) : LaunchArguments :=
  let disk :=
    if ctx.phase = .run ∧ ctx.manifest.spec.profile = .ephemeral then
      ctx.instanceDir.join "run/ephemeral.qcow2".toList
    else ctx.instanceDir.join "disk.qcow2".toList
  launch
    |>.push "-drive" ("file=".toList ++ qemuPath disk ++
      ",if=none,id=system,format=qcow2,discard=unmap,detect-zeroes=unmap".toList)
    |>.push "-device" "nvme,drive=system,serial=lsw-system".toList

/-- The live share that a launch attaches. -/
def liveShare? : Option FolderShare :=
  if ctx.phase = .run then
    ctx.manifest.folderShares.find? fun share => share.transport = .liveSmb
  else none

/-- `AGENT_GUEST_PORT`. -/
def agentGuestPort : Nat := 35040

/-- The `hostfwd` of one published port. -/
def hostForward (hostPort guestPort : Nat) : Str :=
  "hostfwd=tcp:127.0.0.1:".toList ++ decimal hostPort ++ "-:".toList ++ decimal guestPort

/-- The part of `network` for a live share: two more forwards and a note. -/
def liveForwards (launch : LaunchArguments) (options : Str) : Result (Str × LaunchArguments) :=
  match ctx.liveShare? with
  | none => .ok (options, launch)
  | some share => do
    let root ← canonicalLiveShareRoot ctx.fs share.hostPath
    let smbd := ctx.planner.capabilities.smbd.getD (.ofStr "smbd".toList)
    let command := liveSmbGuestForwardCommand smbd ctx.instanceDir
    let options := ["139", "445"].foldl (fun options port =>
      options ++ ",guestfwd=tcp:10.0.2.4:".toList ++ port.toList ++ "-cmd:".toList ++
        qemuOptionText command) options
    return (options, launch.note [.text "live folder ", .debug share.name,
      .text ": private authenticated QEMU SMB exports ", .shown root.display,
      .text " read-write at \\\\10.0.2.4\\qemu"])

/-- The note on the network policy. -/
def networkNote : String :=
  match ctx.manifest.spec.network with
  | .nat =>
    if ctx.manifest.spec.portForwards.isEmpty then
      "network policy: user-mode NAT permits guest egress and exposes only the agent port on host loopback"
    else
      "network policy: user-mode NAT permits guest egress; the agent and explicitly published TCP ports bind only to host loopback"
  | .offline =>
    "network policy: offline blocks guest egress while retaining the host-only agent forward"

/-- `LaunchArguments::network`; it also says whether a live share is attached. -/
def network (launch : LaunchArguments) : Result (LaunchArguments × Bool) := do
  let restrict :=
    match ctx.manifest.spec.network with
    | .nat => "off"
    | .offline => "on"
  let options := "user,id=net0,restrict=".toList ++ restrict.toList ++ ',' ::
    hostForward ctx.manifest.controlPort.toNat agentGuestPort
  let options := ctx.manifest.spec.portForwards.foldl (fun options forward =>
    options ++ ',' :: hostForward forward.hostPort.toNat forward.guestPort.toNat) options
  let (options, launch) ← ctx.liveForwards launch options
  let launch := launch
    |>.push "-netdev" options
    |>.push "-device" "e1000e,netdev=net0".toList
    |>.note [.text ctx.networkNote]
  let launch := ctx.manifest.spec.portForwards.foldl (fun launch forward =>
    launch.note [.text "published TCP port: 127.0.0.1:",
      .shown (decimal forward.hostPort.toNat), .text " forwards to guest port ",
      .shown (decimal forward.guestPort.toNat)]) launch
  return (launch, ctx.liveShare?.isSome)

/-- The devices of `input_and_platform_devices`. -/
def platformDevices : List String :=
  ["qemu-xhci", "usb-kbd", "usb-tablet", "virtio-rng-pci", "virtio-balloon-pci,id=balloon0",
    "VGA"]

/-- `LaunchArguments::input_and_platform_devices`. -/
def inputAndPlatformDevices (launch : LaunchArguments) : LaunchArguments :=
  platformDevices.foldl (fun launch device => launch.push "-device" device.toList) launch

/-- `LaunchArguments::boot_media`. -/
def bootMedia (launch : LaunchArguments) : LaunchArguments :=
  match ctx.phase with
  | .install => launch
    |>.push "-drive"
      ("media=cdrom,readonly=on,file=".toList ++ qemuPath ctx.manifest.spec.sourceIso)
    |>.push "-boot" "once=d,menu=on".toList
  | .run => launch.push "-boot" "order=c,menu=on".toList

/-- A directory attached as a read-only FAT volume. -/
def pushVolume (launch : LaunchArguments) (path : PathBuf) (id device message : String) :
    LaunchArguments :=
  launch
    |>.push "-drive" ("file=fat:ro:".toList ++ qemuPath path ++ ",format=raw,if=none,id=".toList ++
      id.toList ++ ",snapshot=on".toList)
    |>.push "-device" device.toList
    |>.note [.text message]

/-- `LaunchArguments::install_seed`. -/
def installSeed (launch : LaunchArguments) : Result LaunchArguments := do
  if ctx.phase ≠ .install then return launch
  let seed := ctx.instanceDir.join "seed".toList
  if ← realDirectoryExists ctx.fs seed "install seed" then
    return pushVolume launch seed "lsw-seed" "usb-storage,drive=lsw-seed,removable=on"
      "the local installation seed is attached read-only as removable media"
  else return launch

/-- `LaunchArguments::identity_seed`. -/
def identitySeed (launch : LaunchArguments) : Result LaunchArguments := do
  let seed := ctx.instanceDir.join "identity-seed".toList
  if ctx.phase ≠ .run then
    match ctx.fs.symlinkMetadata seed with
    | .ok _ | .error .notFound => return launch
    | .error .other => .error .io
  else if ← realDirectoryExists ctx.fs seed "boot identity seed" then
    return pushVolume launch seed "lsw-identity" "ide-hd,drive=lsw-identity"
      "the boot identity uses an inbox IDE path, is attached read-only, and is consumed by the guest agent"
  else return launch

/-- `LaunchArguments::vtpm`. -/
def vtpm (launch : LaunchArguments) : LaunchArguments :=
  if ctx.security.vtpm = false then launch
  else
    let socket := ctx.instanceDir.join "run/swtpm.sock".toList
    let helper : CommandInvocation := {
      program := ctx.planner.capabilities.swtpm.getD (.ofStr "swtpm".toList)
      arguments := ["socket".toList, "--tpm2".toList, "--tpmstate".toList,
        "dir=".toList ++ (ctx.instanceDir.join "swtpm-state".toList).display, "--ctrl".toList,
        "type=unixio,path=".toList ++ socket.display, "--log".toList,
        "file=".toList ++ (ctx.instanceDir.join "swtpm.log".toList).display,
        "--terminate".toList].map PathBuf.ofStr }
    { launch with helperCommands := launch.helperCommands ++ [helper] }
      |>.push "-chardev" ("socket,id=chrtpm,path=".toList ++ qemuPath socket)
      |>.push "-tpmdev" "emulator,id=tpm0,chardev=chrtpm".toList
      |>.push "-device" "tpm-tis,tpmdev=tpm0".toList

/-- `LaunchArguments::control_sockets`. -/
def controlSockets (launch : LaunchArguments) : LaunchArguments :=
  launch
    |>.push "-qmp" ("unix:".toList ++ qemuPath (ctx.instanceDir.join "run/qmp.sock".toList) ++
      ",server=on,wait=off".toList)
    |>.pushPath "-pidfile" (ctx.instanceDir.join "run/qemu.pid".toList)
    |>.extend ["-nodefaults".toList]
    |>.push "-monitor" "none".toList
    |>.push "-display" "none".toList
    |>.push "-serial" "none".toList
    |>.push "-vnc" ("unix:".toList ++
      qemuPath (ctx.instanceDir.join "run/recovery-vnc.sock".toList))

/-- `LaunchArguments::profile_notes`. -/
def profileNotes (launch : LaunchArguments) : LaunchArguments :=
  let launch :=
    if ctx.security.secureBoot then launch
      |>.note [.text "secure profile: prepare an OVMF variable store enrolled with production keys"]
      |>.note [.text "secure profile uses the driverless Windows capture path"]
    else launch
      |>.note [.text "seamless profile: guest Secure Boot is disabled; host Secure Boot is unchanged"]
      |>.note [.text "test-signed guest drivers are optional; the initial capture path remains driverless"]
  let launch := launch
    |>.note [.text "the VNC Unix socket is reserved for installation and recovery; it is not the seamless application transport"]
    |>.note [.text "start each helper command before starting QEMU"]
  if ctx.manifest.spec.profile = .ephemeral then
    launch.note [.text "ephemeral profile preserves the base disk and discards its per-run overlay when the guest stops"]
  else launch

/-- `LaunchArguments::missing_capabilities`. -/
def missingCapabilities (launch : LaunchArguments) (liveShare : Bool) :
    LaunchArguments × List String :=
  let missing :=
    ctx.planner.capabilities.missingForProfileLaunch ctx.manifest.spec.profile ++
    (if liveShare ∧ ctx.planner.capabilities.smbd.isNone then
      ["smbd (Samba user-mode server)"] else []) ++
    (if ctx.fs.isFile (ctx.instanceDir.join "disk.qcow2".toList) then []
      else ["prepared system disk"]) ++
    (if ctx.phase = .run ∧ ctx.manifest.spec.profile = .ephemeral ∧
        ctx.fs.isFile (ctx.instanceDir.join "run/ephemeral.qcow2".toList) = false then
      ["prepared ephemeral overlay"] else []) ++
    (if ctx.fs.isFile (ctx.instanceDir.join "OVMF_VARS.fd".toList) then []
      else ["prepared OVMF variable store"]) ++
    (if ctx.fs.isDir (ctx.instanceDir.join "run".toList) ∧
        ctx.fs.isDir (ctx.instanceDir.join "swtpm-state".toList) then []
      else ["prepared runtime directories"])
  if missing.any fun text => "prepared ".toList.isPrefixOf text.toList then
    (launch.note [.text "run `lsw prepare NAME --execute` before launching the guest"], missing)
  else (launch, missing)

/-- The check that `plan` starts with. -/
def check : Result Unit :=
  match ctx.phase with
  | .install => ctx.manifest.spec.validateForCreate ctx.fs
  | .run => ctx.manifest.spec.validate

/-- The device groups of `plan`, in their order, and the missing capabilities. -/
def collect : Result (LaunchArguments × List String) := do
  let launch := ctx.systemDisk (ctx.firmware (ctx.machineAndCpu {}))
  let (launch, liveShare) ← ctx.network launch
  let launch := ctx.bootMedia (inputAndPlatformDevices launch)
  let launch ← ctx.installSeed launch
  let launch ← ctx.identitySeed launch
  let launch := ctx.profileNotes (ctx.controlSockets (ctx.vtpm launch))
  return ctx.missingCapabilities launch liveShare

end LaunchContext

/-- `QemuPlanner::plan`. -/
def QemuPlanner.plan (planner : QemuPlanner) (fs : HostFs) (manifest : InstanceManifest)
    (instanceDir : PathBuf) (phase : LaunchPhase) : Result CommandPlan := do
  let ctx : LaunchContext := { fs, planner, manifest, instanceDir, phase }
  ctx.check
  let (launch, missing) ← ctx.collect
  return {
    backend := planner.backend
    program := planner.capabilities.qemuSystem.getD (.ofStr "qemu-system-x86_64".toList)
    arguments := launch.arguments
    helperCommands := launch.helperCommands
    notes := launch.notes
    missingCapabilities := missing }

end Lsw.Core
