import Lsw.Core.DisplayCommand
import Lsw.Core.ManifestChecks
import Lsw.Lib.OptionLists
import Mathlib.Data.List.ReduceOption

/-!
# What QEMU and swtpm are Told

QEMU parts most of its values at commas and takes two commas for one that does not part; swtpm parts
its values at commas too, and has no way to write one.  `qemu_path` doubles the commas of a path
(`qemu.rs`), while the values for swtpm hold their paths as they are.

`plannedOptions` is what the options of a launch are meant to be, without any text around the paths
that a reader could take apart.  QEMU reads exactly these, and `FaithfulLaunch` asks the same of
swtpm.
-/

namespace Lsw.Core

open Lsw.Lib

/-! ## Reading -/

/-- The units of a text. -/
def unitsOf (s : Str) : List OsUnit := (PathBuf.ofStr s).units

/-- How QEMU reads its arguments. -/
def qemuGrammar : OptionGrammar OsUnit where
  flags := [unitsOf "-enable-kvm".toList, unitsOf "-nodefaults".toList]
  whole := [unitsOf "-pidfile".toList]
  split := splitDoubled (.char ',') []

/-- How swtpm reads its arguments. -/
def swtpmGrammar : OptionGrammar OsUnit where
  flags := [unitsOf "socket".toList, unitsOf "--tpm2".toList, unitsOf "--terminate".toList]
  whole := []
  split := List.splitOn (.char ',')

/-- A forward from the host to the guest, as QEMU reads it. -/
structure HostForward where
  protocol : List OsUnit
  listenAddress : List OsUnit
  hostPort : List OsUnit
  guestAddress : List OsUnit
  guestPort : List OsUnit
  deriving DecidableEq

/-- What is in front of a separator, and what is behind it. -/
def takeTo (sep : Char) (s : List OsUnit) : Option (List OsUnit × List OsUnit) :=
  if .char sep ∈ s then
    some (s.takeWhile (· ≠ .char sep), (s.dropWhile (· ≠ .char sep)).tail)
  else none

/-- `hostfwd=PROTOCOL:ADDRESS:PORT-ADDRESS:PORT`. -/
def readHostForward (item : List OsUnit) : Option HostForward := do
  let (_, rest) ← takeTo '=' item
  let (protocol, rest) ← takeTo ':' rest
  let (listenAddress, rest) ← takeTo ':' rest
  let (hostPort, rest) ← takeTo '-' rest
  let (guestAddress, guestPort) ← takeTo ':' rest
  return { protocol, listenAddress, hostPort, guestAddress, guestPort }

/-- The items that are forwards from the host, wherever they are. -/
def hostForwards (options : List (OptionRead OsUnit)) : List (List OsUnit) :=
  (options.flatMap (·.2)).filter fun item => (unitsOf "hostfwd=".toList).isPrefixOf item

/-! ## What is planned -/

namespace LaunchContext

/-- An option whose items are texts. -/
def texts (name : String) (items : List Str) : OptionRead OsUnit :=
  (unitsOf name.toList, items.map unitsOf)

/-- An item for a path. -/
def pathItem (key : String) (path : PathBuf) : List OsUnit := unitsOf key.toList ++ path.units

/-- An option with a path, between texts. -/
def withPath (name : String) (front : List String) (key : String) (path : PathBuf)
    (back : List String) : OptionRead OsUnit :=
  (unitsOf name.toList,
    front.map (fun s => unitsOf s.toList) ++
      pathItem key path :: back.map fun s => unitsOf s.toList)

variable (ctx : LaunchContext)

/-- The options for the accelerator. -/
def plannedAcceleration : List (OptionRead OsUnit) :=
  match ctx.planner.backend.accelerator with
  | .kvm => [texts "-enable-kvm" []]
  | .hvf => [texts "-accel" ["hvf".toList]]
  | .whpx => [texts "-accel" ["whpx".toList]]
  | .tcg => [texts "-accel" ["tcg".toList, "thread=multi".toList]]

/-- The items of the CPU model. -/
def plannedCpu : List Str :=
  match ctx.planner.backend.accelerator, ctx.planner.cpuTuning with
  | .kvm, .enlightened =>
    ["host", "migratable=off", "hv-relaxed", "hv-vapic", "hv-spinlocks=0x1fff", "hv-vpindex",
      "hv-runtime", "hv-time", "hv-synic", "hv-stimer", "hv-stimer-direct", "hv-reset",
      "hv-frequencies", "hv-reenlightenment", "hv-tlbflush", "hv-ipi"].map String.toList
  | .kvm, .baseline | .hvf, _ => ["host".toList]
  | .whpx, _ | .tcg, _ => ["max".toList]

def plannedMachine : List (OptionRead OsUnit) :=
  [texts "-name" [ctx.manifest.spec.name],
    texts "-machine" (["q35".toList, "usb=on".toList] ++
      if ctx.security.secureBoot then ["smm=on".toList] else []),
    texts "-smp" [decimal ctx.manifest.spec.cpus.toNat, "sockets=1".toList,
      "cores=".toList ++ decimal ctx.manifest.spec.cpus.toNat, "threads=1".toList],
    texts "-m" [decimal ctx.manifest.spec.memoryMib.toNat ++ ['M']]] ++
  ctx.plannedAcceleration ++
  [texts "-cpu" ctx.plannedCpu,
    texts "-rtc" ["base=utc".toList, "driftfix=slew".toList]]

def plannedFirmware : List (OptionRead OsUnit) :=
  [withPath "-drive" ["if=pflash", "format=raw", "readonly=on"] "file="
      ((ctx.planner.capabilities.firmwareCode ctx.manifest.spec.profile).getD
        (.ofStr "/path/to/OVMF_CODE.fd".toList)) [],
    withPath "-drive" ["if=pflash", "format=raw"] "file="
      (ctx.instanceDir.join "OVMF_VARS.fd".toList) []] ++
  if ctx.security.secureBoot then
    [texts "-global" ["driver=cfi.pflash01".toList, "property=secure".toList, "value=on".toList]]
  else []

def plannedDisk : List (OptionRead OsUnit) :=
  [withPath "-drive" [] "file="
      (if ctx.phase = .run ∧ ctx.manifest.spec.profile = .ephemeral then
        ctx.instanceDir.join "run/ephemeral.qcow2".toList
      else ctx.instanceDir.join "disk.qcow2".toList)
      ["if=none", "id=system", "format=qcow2", "discard=unmap", "detect-zeroes=unmap"],
    texts "-device" ["nvme".toList, "drive=system".toList, "serial=lsw-system".toList]]

/-- The command that serves a live share, as the program of the server and its arguments. -/
def plannedServer : List PathBuf :=
  let runtime := (ctx.instanceDir.join "run".toList).join "live-smb".toList
  [ctx.planner.capabilities.smbd.getD (.ofStr "smbd".toList), .ofStr "-l".toList, runtime,
    .ofStr "-s".toList, runtime.join "smb.conf".toList]

/-- The command for a shell. -/
def serverCommand : Str :=
  liveSmbGuestForwardCommand (ctx.planner.capabilities.smbd.getD (.ofStr "smbd".toList))
    ctx.instanceDir

/-- The ports that are forwarded: the one of the agent, and the published ones. -/
def plannedPorts : List (Nat × Nat) :=
  (ctx.manifest.controlPort.toNat, agentGuestPort) ::
    ctx.manifest.spec.portForwards.map fun forward =>
      (forward.hostPort.toNat, forward.guestPort.toNat)

def plannedNetwork : List (OptionRead OsUnit) :=
  [texts "-netdev" (["user".toList, "id=net0".toList,
      match ctx.manifest.spec.network with
      | .nat => "restrict=off".toList
      | .offline => "restrict=on".toList] ++
      ctx.plannedPorts.map (fun ports => hostForward ports.1 ports.2) ++
      if ctx.liveShare?.isSome then
        ["guestfwd=tcp:10.0.2.4:139-cmd:".toList ++ ctx.serverCommand,
          "guestfwd=tcp:10.0.2.4:445-cmd:".toList ++ ctx.serverCommand]
      else []),
    texts "-device" ["e1000e".toList, "netdev=net0".toList]]

def plannedPlatformDevices : List (OptionRead OsUnit) :=
  [texts "-device" ["qemu-xhci".toList], texts "-device" ["usb-kbd".toList],
    texts "-device" ["usb-tablet".toList], texts "-device" ["virtio-rng-pci".toList],
    texts "-device" ["virtio-balloon-pci".toList, "id=balloon0".toList],
    texts "-device" ["VGA".toList]]

def plannedBootMedia : List (OptionRead OsUnit) :=
  match ctx.phase with
  | .install =>
    [withPath "-drive" ["media=cdrom", "readonly=on"] "file=" ctx.manifest.spec.sourceIso [],
      texts "-boot" ["once=d".toList, "menu=on".toList]]
  | .run => [texts "-boot" ["order=c".toList, "menu=on".toList]]

/-- A volume that is attached when its directory is there, in one phase. -/
def plannedVolume (phase : LaunchPhase) (directory id device : String) (options : List String) :
    List (OptionRead OsUnit) :=
  if ctx.phase = phase ∧ ctx.fs.symlinkMetadata (ctx.instanceDir.join directory.toList) = .ok .dir
  then
    [withPath "-drive" [] "file=fat:ro:" (ctx.instanceDir.join directory.toList)
        ["format=raw", "if=none", id, "snapshot=on"],
      texts "-device" (device.toList :: options.map String.toList)]
  else []

def plannedVtpm : List (OptionRead OsUnit) :=
  if ctx.security.vtpm then
    [withPath "-chardev" ["socket", "id=chrtpm"] "path="
        (ctx.instanceDir.join "run/swtpm.sock".toList) [],
      texts "-tpmdev" ["emulator".toList, "id=tpm0".toList, "chardev=chrtpm".toList],
      texts "-device" ["tpm-tis".toList, "tpmdev=tpm0".toList]]
  else []

def plannedSockets : List (OptionRead OsUnit) :=
  [withPath "-qmp" [] "unix:" (ctx.instanceDir.join "run/qmp.sock".toList)
      ["server=on", "wait=off"],
    withPath "-pidfile" [] "" (ctx.instanceDir.join "run/qemu.pid".toList) [],
    texts "-nodefaults" [], texts "-monitor" ["none".toList], texts "-display" ["none".toList],
    texts "-serial" ["none".toList],
    withPath "-vnc" [] "unix:" (ctx.instanceDir.join "run/recovery-vnc.sock".toList) []]

/-- The options of the launch. -/
def plannedOptions : List (OptionRead OsUnit) :=
  ctx.plannedMachine ++ ctx.plannedFirmware ++ ctx.plannedDisk ++ ctx.plannedNetwork ++
    plannedPlatformDevices ++ ctx.plannedBootMedia ++
    ctx.plannedVolume .install "seed" "id=lsw-seed" "usb-storage"
      ["drive=lsw-seed", "removable=on"] ++
    ctx.plannedVolume .run "identity-seed" "id=lsw-identity" "ide-hd" ["drive=lsw-identity"] ++
    ctx.plannedVtpm ++ ctx.plannedSockets

/-- The options of the TPM emulator. -/
def plannedEmulator : List (OptionRead OsUnit) :=
  [texts "socket" [], texts "--tpm2" [],
    withPath "--tpmstate" [] "dir=" (ctx.instanceDir.join "swtpm-state".toList) [],
    withPath "--ctrl" ["type=unixio"] "path=" (ctx.instanceDir.join "run/swtpm.sock".toList) [],
    withPath "--log" [] "file=" (ctx.instanceDir.join "swtpm.log".toList) [],
    texts "--terminate" []]

end LaunchContext

/-- The programs of a launch are told what is planned. -/
structure FaithfulLaunch (ctx : LaunchContext) (plan : CommandPlan) : Prop where
  options : qemuGrammar.read (plan.arguments.map (·.units)) = some ctx.plannedOptions
  /-- A live share is served by one command. -/
  server : ∃ words, ShellWords.reader.words ctx.serverCommand = some words ∧
    words.map .ofStr = ctx.plannedServer
  forwards : (hostForwards ctx.plannedOptions).map readHostForward =
    ctx.plannedPorts.map fun ports => some {
      protocol := unitsOf "tcp".toList
      listenAddress := unitsOf "127.0.0.1".toList
      hostPort := unitsOf (decimal ports.1)
      guestAddress := []
      guestPort := unitsOf (decimal ports.2) }
  emulator : plan.helperCommands.map
      (fun helper => swtpmGrammar.read (helper.arguments.map (·.units))) =
    if ctx.security.vtpm then [some ctx.plannedEmulator] else []

/-! ## Values -/

theorem unitsOf_append (s t : Str) : unitsOf (s ++ t) = unitsOf s ++ unitsOf t :=
  List.map_append

theorem qemuPath_ofStr (text : Str) : qemuPath (.ofStr text) = doubled ',' text := by
  rw [qemuPath, PathBuf.display_ofStr]
  rfl

/-- QEMU reads the items of a list back. -/
theorem split_joined {items : List Str} (h : separable ',' items = true) :
    qemuGrammar.split (unitsOf (joined ',' items)) = items.map unitsOf := by
  have hcomma : ∀ c : Char, OsUnit.char c = .char ',' ↔ c = ',' := by simp
  have hmap := splitDoubled_map hcomma [] (joined ',' items)
  rw [splitDoubled_joined h] at hmap
  exact hmap

namespace LaunchContext

theorem withPath_ofStr (name : String) (front : List String) (key : String) (text : Str)
    (back : List String) : withPath name front key (.ofStr text) back =
      texts name (front.map String.toList ++ (key.toList ++ text) :: back.map String.toList) := by
  simp [withPath, texts, pathItem, unitsOf, PathBuf.ofStr, Function.comp_def]

end LaunchContext

/-! ## Device groups -/

/-- What a part of the launch adds: options, and helpers. -/
structure Tells (launch next : LaunchArguments) (options : List (OptionRead OsUnit))
    (helpers : List CommandInvocation) : Prop where
  arguments : ∃ added, next.arguments = launch.arguments ++ added ∧
    qemuGrammar.Reads (added.map (·.units)) options
  helpers : next.helperCommands = launch.helperCommands ++ helpers

namespace Tells

variable {launch next last : LaunchArguments} {options others : List (OptionRead OsUnit)}
  {helpers more : List CommandInvocation}

theorem refl (launch : LaunchArguments) : Tells launch launch [] [] where
  arguments := ⟨[], by simp, OptionGrammar.reads_nil⟩
  helpers := by simp

theorem trans (h : Tells launch next options helpers) (hmore : Tells next last others more) :
    Tells launch last (options ++ others) (helpers ++ more) := by
  obtain ⟨added, harguments, hreads⟩ := h.arguments
  obtain ⟨added', harguments', hreads'⟩ := hmore.arguments
  refine ⟨⟨added ++ added', ?_, ?_⟩, ?_⟩
  · rw [harguments', harguments, List.append_assoc]
  · rw [List.map_append]
    exact hreads.append hreads'
  · rw [hmore.helpers, h.helpers, List.append_assoc]

/-- One option, and others after it. -/
theorem cons {option : OptionRead OsUnit} (h : Tells launch next [option] [])
    (hmore : Tells next last options helpers) : Tells launch last (option :: options) helpers :=
  h.trans hmore

theorem note (h : Tells launch next options helpers) (message : Message) :
    Tells launch (next.note message) options helpers :=
  ⟨h.arguments, h.helpers⟩

/-- A flag. -/
theorem flag (launch : LaunchArguments) {name : String}
    (h : unitsOf name.toList ∈ qemuGrammar.flags) :
    Tells launch (launch.extend [name.toList]) [LaunchContext.texts name []] [] where
  arguments := ⟨[.ofStr name.toList], rfl, OptionGrammar.reads_flag h⟩
  helpers := by simp [LaunchArguments.extend]

/-- An option whose value is a list. -/
theorem push (launch : LaunchArguments) {name : String} {value : Str} {items : List Str}
    (hname : unitsOf name.toList ∉ qemuGrammar.flags ++ qemuGrammar.whole)
    (hitems : separable ',' items = true) (hvalue : value = joined ',' items) :
    Tells launch (launch.push name value) [LaunchContext.texts name items] [] where
  arguments := by
    obtain ⟨hflag, hwhole⟩ := not_or.mp (mt List.mem_append.mpr hname)
    refine ⟨[.ofStr name.toList, .ofStr value], rfl, ?_⟩
    have hreads := OptionGrammar.reads_value hflag (unitsOf value)
    rw [OptionGrammar.items, if_neg hwhole, hvalue, split_joined hitems, ← hvalue] at hreads
    exact hreads
  helpers := by simp [LaunchArguments.push, LaunchArguments.extend]

/-- An option whose value is a path and nothing else. -/
theorem file (launch : LaunchArguments) (path : PathBuf) :
    Tells launch (launch.pushPath "-pidfile" path)
      [LaunchContext.withPath "-pidfile" [] "" path []] [] where
  arguments := by
    have hflag : unitsOf "-pidfile".toList ∉ qemuGrammar.flags := by decide
    exact ⟨[.ofStr "-pidfile".toList, path], rfl, OptionGrammar.reads_value hflag path.units⟩
  helpers := by simp [LaunchArguments.pushPath]

/-- An option with a path; the value is written around it. -/
theorem pushPath (launch : LaunchArguments) {name : String} (value : Str → Str)
    {front : List String} {key : String} {path : PathBuf} {back : List String}
    (hpath : ∃ text, path = .ofStr text)
    (hname : unitsOf name.toList ∉ qemuGrammar.flags ++ qemuGrammar.whole)
    (hitems : ∀ text, separable ',' (front.map String.toList ++
      (key.toList ++ text) :: back.map String.toList) = true)
    (hvalue : ∀ text, value (doubled ',' text) = joined ',' (front.map String.toList ++
      (key.toList ++ text) :: back.map String.toList)) :
    Tells launch (launch.push name (value (qemuPath path)))
      [LaunchContext.withPath name front key path back] [] := by
  obtain ⟨text, rfl⟩ := hpath
  rw [LaunchContext.withPath_ofStr, qemuPath_ofStr]
  exact push launch hname (hitems text) (hvalue text)

end Tells

namespace LaunchContext

variable {ctx : LaunchContext} (launch : LaunchArguments)

theorem join_isText {dir : PathBuf} (h : ∃ text, dir = .ofStr text) (name : Str) :
    ∃ text, dir.join name = .ofStr text := by
  obtain ⟨text, rfl⟩ := h
  exact ⟨_, PathBuf.join_ofStr text name⟩

theorem tells_systemDisk (hdir : ∃ text, ctx.instanceDir = .ofStr text) :
    Tells launch (ctx.systemDisk launch) ctx.plannedDisk [] := by
  have hdisk : ∃ text, (if ctx.phase = .run ∧ ctx.manifest.spec.profile = .ephemeral then
      ctx.instanceDir.join "run/ephemeral.qcow2".toList
      else ctx.instanceDir.join "disk.qcow2".toList) = .ofStr text := by
    split
    · exact join_isText hdir _
    · exact join_isText hdir _
  refine .cons (.pushPath launch (fun path => "file=".toList ++ path ++
    ",if=none,id=system,format=qcow2,discard=unmap,detect-zeroes=unmap".toList) hdisk
    (by decide) (fun _ => rfl) (fun _ => rfl)) ?_
  exact .push _ (by decide) rfl rfl

/-- The group of the firmware tells what is planned for it. -/
theorem tells_firmware (hdir : ∃ text, ctx.instanceDir = .ofStr text)
    (hcode : ∀ path ∈ ctx.planner.capabilities.firmwareCode ctx.manifest.spec.profile,
      ∃ text, path = .ofStr text) :
    Tells launch (ctx.firmware launch) ctx.plannedFirmware [] := by
  have hpath : ∃ text, (ctx.planner.capabilities.firmwareCode ctx.manifest.spec.profile).getD
      (.ofStr "/path/to/OVMF_CODE.fd".toList) = .ofStr text := by
    cases hfirmware : ctx.planner.capabilities.firmwareCode ctx.manifest.spec.profile with
    | none => exact ⟨_, rfl⟩
    | some path => exact hcode path hfirmware
  unfold LaunchContext.firmware LaunchContext.plannedFirmware
  dsimp only
  split
  · refine .cons (.pushPath launch (fun path => "if=pflash,format=raw,readonly=on,file=".toList ++
      path) hpath (by decide) (fun _ => rfl) (fun _ => rfl)) ?_
    refine .cons (.pushPath _ (fun path => "if=pflash,format=raw,file=".toList ++ path)
      (join_isText hdir _) (by decide) (fun _ => rfl) (fun _ => rfl)) ?_
    exact .push _ (by decide) rfl rfl
  · refine .cons (.pushPath launch (fun path => "if=pflash,format=raw,readonly=on,file=".toList ++
      path) hpath (by decide) (fun _ => rfl) (fun _ => rfl)) ?_
    exact .pushPath _ (fun path => "if=pflash,format=raw,file=".toList ++ path)
      (join_isText hdir _) (by decide) (fun _ => rfl) (fun _ => rfl)

theorem tells_platformDevices :
    Tells launch (inputAndPlatformDevices launch) plannedPlatformDevices [] := by
  refine .cons (.push launch (by decide) rfl rfl) (.cons (.push _ (by decide) rfl rfl)
    (.cons (.push _ (by decide) rfl rfl) (.cons (.push _ (by decide) rfl rfl)
      (.cons (.push _ (by decide) rfl rfl) ?_))))
  exact .push _ (by decide) rfl rfl

theorem tells_bootMedia (hiso : ∃ text, ctx.manifest.spec.sourceIso = .ofStr text) :
    Tells launch (ctx.bootMedia launch) ctx.plannedBootMedia [] := by
  unfold LaunchContext.bootMedia LaunchContext.plannedBootMedia
  cases ctx.phase with
  | install =>
    refine .cons (.pushPath launch (fun path => "media=cdrom,readonly=on,file=".toList ++ path)
      hiso (by decide) (fun _ => rfl) (fun _ => rfl)) ?_
    exact .push _ (by decide) rfl rfl
  | run => exact .push _ (by decide) rfl rfl

theorem security_vtpm : ctx.security.vtpm = true := by
  rw [security]
  cases ctx.manifest.spec.profile with
  | _ => rfl

omit launch in
/-- swtpm takes a value that holds no comma as one item, and only such a value. -/
theorem splitOn_eq_singleton_iff {value : List OsUnit} :
    value.splitOn (.char ',') = [value] ↔ .char ',' ∉ value := by
  rw [List.splitOn_eq_splitOnP]
  constructor
  · intro hone hmem
    have hself : value ∈ value.splitOnP (· == .char ',') := hone ▸ List.mem_singleton_self value
    exact absurd (of_mem_splitOnP hself hmem) (by simp)
  · intro hnone
    refine List.splitOnP_eq_singleton fun unit hunit => ?_
    exact beq_eq_false_iff_ne.mpr fun heq => hnone (heq ▸ hunit)

omit launch in
/-- A path below the directory holds a comma when the directory does. -/
theorem comma_mem_pathItem {key : String} {name dir : Str} (hdir : ctx.instanceDir = .ofStr dir)
    (hkey : ',' ∉ key.toList) (hname : ',' ∉ name)
    (hinner : isAbsolute '/' name = false) :
    .char ',' ∈ pathItem key (ctx.instanceDir.join name) ↔ ',' ∈ dir := by
  have hunits : ∀ text : Str, OsUnit.char ',' ∈ (PathBuf.ofStr text).units ↔ ',' ∈ text := by
    simp [PathBuf.ofStr]
  have hjoin : ',' ∈ joinPath '/' dir name ↔ ',' ∈ dir ∨ ',' ∈ name :=
    mem_joinPath _ (by decide) hinner
  rw [pathItem, List.mem_append, unitsOf, hunits, hdir, PathBuf.join_ofStr, hunits, hjoin]
  simp [hkey, hname]

/-- The emulator as it is started. -/
def emulator (ctx : LaunchContext) : CommandInvocation where
  program := ctx.planner.capabilities.swtpm.getD (.ofStr "swtpm".toList)
  arguments := ["socket".toList, "--tpm2".toList, "--tpmstate".toList,
    "dir=".toList ++ (ctx.instanceDir.join "swtpm-state".toList).display, "--ctrl".toList,
    "type=unixio,path=".toList ++ (ctx.instanceDir.join "run/swtpm.sock".toList).display,
    "--log".toList, "file=".toList ++ (ctx.instanceDir.join "swtpm.log".toList).display,
    "--terminate".toList].map .ofStr

theorem tells_vtpm (hdir : ∃ text, ctx.instanceDir = .ofStr text) :
    Tells launch (ctx.vtpm launch) ctx.plannedVtpm [ctx.emulator] := by
  have hstart : Tells launch
      { launch with helperCommands := launch.helperCommands ++ [ctx.emulator] } []
      [ctx.emulator] := ⟨(Tells.refl launch).arguments, rfl⟩
  unfold vtpm plannedVtpm
  rw [if_neg (by simp [security_vtpm]), if_pos security_vtpm]
  refine hstart.trans (.cons (.pushPath _ (fun path => "socket,id=chrtpm,path=".toList ++ path)
    (join_isText hdir _) (by decide) (fun _ => rfl) (fun _ => rfl)) ?_)
  refine .cons (.push _ (by decide) rfl rfl) ?_
  exact .push _ (by decide) rfl rfl

omit launch in
theorem read_swtpm (state control log : List OsUnit) :
    swtpmGrammar.read [unitsOf "socket".toList, unitsOf "--tpm2".toList,
        unitsOf "--tpmstate".toList, state, unitsOf "--ctrl".toList, control,
        unitsOf "--log".toList, log, unitsOf "--terminate".toList] =
      some [texts "socket" [], texts "--tpm2" [],
        (unitsOf "--tpmstate".toList, state.splitOn (.char ',')),
        (unitsOf "--ctrl".toList, control.splitOn (.char ',')),
        (unitsOf "--log".toList, log.splitOn (.char ',')), texts "--terminate" []] := rfl

omit launch in
/-- swtpm is told what is planned exactly when no comma is in the directory. -/
theorem read_emulator_iff {dir : Str} (hdir : ctx.instanceDir = .ofStr dir) :
    swtpmGrammar.read (ctx.emulator.arguments.map (·.units)) = some ctx.plannedEmulator ↔
      ',' ∉ dir := by
  have htext (key : String) (name : Str) :
      unitsOf (key.toList ++ (ctx.instanceDir.join name).display) =
        pathItem key (ctx.instanceDir.join name) := by
    rw [hdir, PathBuf.join_ofStr, PathBuf.display_ofStr]
    exact unitsOf_append _ _
  have harguments : ctx.emulator.arguments.map (·.units) =
      [unitsOf "socket".toList, unitsOf "--tpm2".toList, unitsOf "--tpmstate".toList,
        pathItem "dir=" (ctx.instanceDir.join "swtpm-state".toList), unitsOf "--ctrl".toList,
        pathItem "type=unixio,path=" (ctx.instanceDir.join "run/swtpm.sock".toList),
        unitsOf "--log".toList, pathItem "file=" (ctx.instanceDir.join "swtpm.log".toList),
        unitsOf "--terminate".toList] := by
    rw [← htext, ← htext, ← htext]
    rfl
  have hone {key : String} {name : Str} (hkey : ',' ∉ key.toList) (hname : ',' ∉ name)
      (hinner : isAbsolute '/' name = false) :
      (pathItem key (ctx.instanceDir.join name)).splitOn (.char ',') =
        [pathItem key (ctx.instanceDir.join name)] ↔ ',' ∉ dir :=
    splitOn_eq_singleton_iff.trans (not_congr (comma_mem_pathItem hdir hkey hname hinner))
  -- The comma that parts the type from the path is the first one.
  have hcontrol : (pathItem "type=unixio,path="
      (ctx.instanceDir.join "run/swtpm.sock".toList)).splitOn (.char ',') =
      unitsOf "type=unixio".toList ::
        (pathItem "path=" (ctx.instanceDir.join "run/swtpm.sock".toList)).splitOn (.char ',') :=
    List.splitOn_append_cons_self_of_not_mem
      (by decide : OsUnit.char ',' ∉ unitsOf "type=unixio".toList) _
  rw [harguments, read_swtpm, hcontrol, plannedEmulator]
  simp only [withPath, List.map_nil, List.map_cons, List.nil_append, Option.some.injEq,
    List.cons.injEq, Prod.mk.injEq, true_and, and_true, List.singleton_append]
  rw [hone (by decide) (by decide) (by decide), hone (by decide) (by decide) (by decide),
    hone (by decide) (by decide) (by decide), and_self, and_self]

theorem tells_controlSockets (hdir : ∃ text, ctx.instanceDir = .ofStr text) :
    Tells launch (ctx.controlSockets launch) ctx.plannedSockets [] := by
  refine .cons (.pushPath launch (fun path => "unix:".toList ++ path ++
    ",server=on,wait=off".toList) (join_isText hdir _) (by decide) (fun _ => rfl)
    (fun _ => rfl)) ?_
  refine .cons (.file _ _) ?_
  refine .cons (.flag _ (by decide)) ?_
  refine .cons (.push _ (by decide) rfl rfl) ?_
  refine .cons (.push _ (by decide) rfl rfl) ?_
  refine .cons (.push _ (by decide) rfl rfl) ?_
  exact .pushPath _ (fun path => "unix:".toList ++ path) (join_isText hdir _) (by decide)
    (fun _ => rfl) (fun _ => rfl)

theorem tells_acceleration :
    Tells launch (launch.extend (ctx.planner.backend.accelerationArguments.map String.toList))
      ctx.plannedAcceleration [] := by
  unfold QemuBackend.accelerationArguments plannedAcceleration
  cases ctx.planner.backend.accelerator with
  | kvm => exact .flag launch (by decide)
  | hvf | whpx | tcg => exact .push launch (by decide) rfl rfl

omit launch in
theorem cpuModel_eq :
    ctx.planner.backend.cpuModel ctx.planner.cpuTuning = joined ',' ctx.plannedCpu := by
  unfold QemuBackend.cpuModel plannedCpu
  cases ctx.planner.backend.accelerator with
  | kvm => cases ctx.planner.cpuTuning with | _ => rfl
  | _ => rfl

omit launch in
theorem separable_plannedCpu : separable ',' ctx.plannedCpu = true := by
  unfold plannedCpu
  cases ctx.planner.backend.accelerator with
  | kvm => cases ctx.planner.cpuTuning with | _ => rfl
  | _ => rfl

/-- The group of the machine tells what is planned for it. -/
theorem tells_machineAndCpu (hname : ',' ∉ ctx.manifest.spec.name) :
    Tells launch (ctx.machineAndCpu launch) ctx.plannedMachine [] := by
  -- Numbers have no comma, so doubling leaves them alone.
  have hcpus : ',' ∉ decimal ctx.manifest.spec.cpus.toNat := not_mem_decimal (by decide)
  have hmemory : ',' ∉ decimal ctx.manifest.spec.memoryMib.toNat := not_mem_decimal (by decide)
  have hsmp : decimal ctx.manifest.spec.cpus.toNat ++ ",sockets=1,cores=".toList ++
      decimal ctx.manifest.spec.cpus.toNat ++ ",threads=1".toList =
      joined ',' [decimal ctx.manifest.spec.cpus.toNat, "sockets=1".toList,
        "cores=".toList ++ decimal ctx.manifest.spec.cpus.toNat, "threads=1".toList] := by
    have hkey : doubled ',' "cores=".toList = "cores=".toList := rfl
    have hsockets : doubled ',' "sockets=1".toList = "sockets=1".toList := rfl
    have hthreads : doubled ',' "threads=1".toList = "threads=1".toList := rfl
    simp only [joined, doubled_append, doubled_of_not_mem hcpus, hkey, hsockets, hthreads,
      List.append_assoc]
    rfl
  have hm : decimal ctx.manifest.spec.memoryMib.toNat ++ ['M'] =
      joined ',' [decimal ctx.manifest.spec.memoryMib.toNat ++ ['M']] := by
    have hunit : doubled ',' ['M'] = ['M'] := rfl
    rw [joined, doubled_append, doubled_of_not_mem hmemory, hunit]
  -- The machine type depends on secure boot only.
  have hmachine : (if ctx.security.secureBoot then "q35,usb=on,smm=on".toList
      else "q35,usb=on".toList) = joined ',' (["q35".toList, "usb=on".toList] ++
        if ctx.security.secureBoot then ["smm=on".toList] else []) := by
    cases ctx.security.secureBoot with
    | _ => rfl
  have hmachineItems : separable ',' (["q35".toList, "usb=on".toList] ++
      if ctx.security.secureBoot then ["smm=on".toList] else []) = true := by
    cases ctx.security.secureBoot with
    | _ => rfl
  have hrtc : separable ',' ["base=utc".toList, "driftfix=slew".toList] = true := rfl
  -- The name has no comma, by hypothesis.
  have hname' := (joined_singleton hname).symm
  -- One option after the other, in the order of the launch.
  have hoptions := ((Tells.push launch (by decide : unitsOf "-name".toList ∉ _) rfl hname').trans
    (.cons (.push _ (by decide : unitsOf "-machine".toList ∉ _) hmachineItems hmachine)
    (.cons (.push _ (by decide : unitsOf "-smp".toList ∉ _) rfl hsmp)
    (.push _ (by decide : unitsOf "-m".toList ∉ _) rfl hm))))
  have hlaunch := (hoptions.trans (@tells_acceleration ctx _)).trans
    (.cons (.push _ (by decide : unitsOf "-cpu".toList ∉ _) (@separable_plannedCpu ctx) cpuModel_eq)
      (.push _ (by decide : unitsOf "-rtc".toList ∉ _) hrtc rfl))
  unfold LaunchContext.machineAndCpu
  dsimp only
  -- Notes change no argument.
  cases ctx.planner.backend.fallbackNote with
  | none =>
    split
    · exact hlaunch.note _
    · exact hlaunch
  | some message =>
    split
    · exact (hlaunch.note _).note _
    · exact hlaunch.note _

omit launch in
/-- A directory that is looked for is there, or nothing is. -/
theorem realDirectoryExists_eq_ok {fs : HostFs} {path : PathBuf} {field : String} {found : Bool}
    (h : realDirectoryExists fs path field = .ok found) :
    found = true ↔ fs.symlinkMetadata path = .ok .dir := by
  unfold realDirectoryExists at h
  split at h
  · rename_i hdir
    simp [← Except.ok.inj h, hdir]
  · cases h
  · rename_i hmissing
    simp [← Except.ok.inj h, hmissing]
  · cases h

/-- The volume of the installation is told if it is planned. -/
theorem tells_installSeed {next : LaunchArguments} (hdir : ∃ text, ctx.instanceDir = .ofStr text)
    (h : ctx.installSeed launch = .ok next) :
    Tells launch next (ctx.plannedVolume .install "seed" "id=lsw-seed" "usb-storage"
      ["drive=lsw-seed", "removable=on"]) [] := by
  unfold installSeed at h
  -- A seed is given only while the instance is being installed.
  split at h
  · rename_i hphase
    rw [plannedVolume, if_neg fun hboth => hphase hboth.1, ← Except.ok.inj h]
    exact .refl launch
  · rename_i hphase
    -- Then the directory decides.
    obtain ⟨found, hfound, h⟩ := bind_eq_ok.mp h
    have hexists := realDirectoryExists_eq_ok hfound
    split at h
    · rename_i htrue
      rw [plannedVolume, if_pos ⟨not_ne_iff.mp hphase, hexists.mp htrue⟩, ← Except.ok.inj h]
      refine .cons (.pushPath launch (fun path => "file=fat:ro:".toList ++ path ++
        ",format=raw,if=none,id=".toList ++ "lsw-seed".toList ++ ",snapshot=on".toList)
        (join_isText hdir _) (by decide) (fun _ => rfl)
        fun _ => by simp only [List.append_assoc]; rfl) ?_
      have hdevice : unitsOf "-device".toList ∉ qemuGrammar.flags ++ qemuGrammar.whole := by decide
      have hitems : separable ',' ["usb-storage".toList, "drive=lsw-seed".toList,
        "removable=on".toList] = true := rfl
      exact .note (.push _ hdevice hitems rfl) _
    · rename_i hfalse
      rw [plannedVolume, if_neg fun hboth => hfalse (hexists.mpr hboth.2), ← Except.ok.inj h]
      exact .refl launch

/-- So is the volume of the identity. -/
theorem tells_identitySeed {next : LaunchArguments} (hdir : ∃ text, ctx.instanceDir = .ofStr text)
    (h : ctx.identitySeed launch = .ok next) :
    Tells launch next (ctx.plannedVolume .run "identity-seed" "id=lsw-identity" "ide-hd"
      ["drive=lsw-identity"]) [] := by
  unfold identitySeed at h
  dsimp only at h
  -- No seed is given while the instance is being installed.
  split at h
  · rename_i hphase
    rw [plannedVolume, if_neg fun hboth => hphase hboth.1]
    split at h
    · rw [Except.ok.inj h]
      exact .refl next
    · rw [Except.ok.inj h]
      exact .refl next
    · cases h
  · rename_i hphase
    -- Otherwise the directory decides.
    obtain ⟨found, hfound, h⟩ := bind_eq_ok.mp h
    have hexists := realDirectoryExists_eq_ok hfound
    split at h
    · rename_i htrue
      rw [plannedVolume, if_pos ⟨not_ne_iff.mp hphase, hexists.mp htrue⟩, ← Except.ok.inj h]
      -- It is there: a drive, and the device for it.
      refine .cons (.pushPath launch (fun path => "file=fat:ro:".toList ++ path ++
        ",format=raw,if=none,id=".toList ++ "lsw-identity".toList ++ ",snapshot=on".toList)
        (join_isText hdir _) (by decide) (fun _ => rfl)
        fun _ => by simp only [List.append_assoc]; rfl) ?_
      have hdevice : unitsOf "-device".toList ∉ qemuGrammar.flags ++ qemuGrammar.whole := by decide
      have hitems : separable ',' ["ide-hd".toList, "drive=lsw-identity".toList] = true := rfl
      exact .note (.push _ hdevice hitems rfl) _
    -- It is not.
    · rename_i hfalse
      rw [plannedVolume, if_neg fun hboth => hfalse (hexists.mpr hboth.2), ← Except.ok.inj h]
      exact .refl launch

/-- The options that a live share adds. -/
theorem liveForwards_eq_ok {options options' : Str} {next : LaunchArguments}
    (h : ctx.liveForwards launch options = .ok (options', next)) :
    options' = options ++ (if ctx.liveShare?.isSome then
      ",guestfwd=tcp:10.0.2.4:139-cmd:".toList ++ qemuOptionText ctx.serverCommand ++
        ",guestfwd=tcp:10.0.2.4:445-cmd:".toList ++ qemuOptionText ctx.serverCommand else []) ∧
    Tells launch next [] [] := by
  unfold liveForwards at h
  split at h
  · rename_i hshare
    obtain ⟨rfl, rfl⟩ := Prod.mk.inj (Except.ok.inj h)
    simp [hshare, Tells.refl]
  · rename_i share hshare
    obtain ⟨root, -, h⟩ := bind_eq_ok.mp h
    obtain ⟨rfl, rfl⟩ := Prod.mk.inj (Except.ok.inj h)
    refine ⟨?_, (Tells.refl launch).note _⟩
    have hcommand : liveSmbGuestForwardCommand
        (ctx.planner.capabilities.smbd.getD (.ofStr "smbd".toList)) ctx.instanceDir =
        ctx.serverCommand := rfl
    have hfirst : ",guestfwd=tcp:10.0.2.4:139-cmd:".toList =
        ",guestfwd=tcp:10.0.2.4:".toList ++ ("139".toList ++ "-cmd:".toList) := rfl
    have hsecond : ",guestfwd=tcp:10.0.2.4:445-cmd:".toList =
        ",guestfwd=tcp:10.0.2.4:".toList ++ ("445".toList ++ "-cmd:".toList) := rfl
    rw [hshare, Option.isSome_some, if_pos rfl, hcommand, hfirst, hsecond]
    simp only [List.foldl_cons, List.foldl_nil, List.append_assoc]

/-- The forwards of the network, and the server of a live share. -/
def networkItems (ctx : LaunchContext) : List Str :=
  (match ctx.manifest.spec.network with
    | .nat => "restrict=off".toList
    | .offline => "restrict=on".toList) ::
  ctx.plannedPorts.map (fun ports => hostForward ports.1 ports.2) ++
  if ctx.liveShare?.isSome then
    ["guestfwd=tcp:10.0.2.4:139-cmd:".toList ++ ctx.serverCommand,
      "guestfwd=tcp:10.0.2.4:445-cmd:".toList ++ ctx.serverCommand]
  else []

omit launch in
theorem comma_not_mem_hostForward (hostPort guestPort : Nat) :
    ',' ∉ hostForward hostPort guestPort := by
  have hfront : ',' ∉ "hostfwd=tcp:127.0.0.1:".toList := by decide
  have hdash : ',' ∉ "-:".toList := by decide
  have hhost : ',' ∉ decimal hostPort := not_mem_decimal (by decide)
  have hguest : ',' ∉ decimal guestPort := not_mem_decimal (by decide)
  unfold hostForward
  simp only [List.mem_append, not_or]
  exact ⟨⟨⟨hfront, hhost⟩, hdash⟩, hguest⟩

omit launch in
/-- The items of the network can be told apart again. -/
theorem separable_network :
    separable ',' ("user".toList :: "id=net0".toList :: ctx.networkItems) = true := by
  have hid : follows ',' "id=net0".toList = true := rfl
  refine List.all_eq_true.mpr fun item hitem => ?_
  obtain rfl | hitem := List.mem_cons.mp hitem
  · exact hid
  · rw [networkItems, List.cons_append, List.mem_cons, List.mem_append] at hitem
    rcases hitem with rfl | hport | hlive
    · cases ctx.manifest.spec.network with
      | _ => rfl
    · obtain ⟨ports, -, rfl⟩ := List.mem_map.mp hport
      rfl
    · split at hlive
      · simp only [List.mem_cons, List.not_mem_nil, or_false] at hlive
        rcases hlive with rfl | rfl
        · rfl
        · rfl
      · cases hlive

omit launch in
/-- The value for the network, as it is put together. -/
theorem joined_network :
    joined ',' ("user".toList :: "id=net0".toList :: ctx.networkItems) =
      "user,id=net0,restrict=".toList ++ (match ctx.manifest.spec.network with
        | .nat => "off"
        | .offline => "on").toList ++
      (ctx.plannedPorts.flatMap fun ports => ',' :: hostForward ports.1 ports.2) ++
      if ctx.liveShare?.isSome then
        ",guestfwd=tcp:10.0.2.4:139-cmd:".toList ++ qemuOptionText ctx.serverCommand ++
          ",guestfwd=tcp:10.0.2.4:445-cmd:".toList ++ qemuOptionText ctx.serverCommand
      else [] := by
  -- Forwardings have no comma that would be doubled.
  have hports : (ctx.plannedPorts.map fun ports => hostForward ports.1 ports.2).flatMap
      (fun other => ',' :: doubled ',' other) =
      ctx.plannedPorts.flatMap fun ports => ',' :: hostForward ports.1 ports.2 := by
    simp only [List.flatMap_map, doubled_of_not_mem (comma_not_mem_hostForward _ _)]
  -- The commands of the share server may have one.
  have hlive : (if ctx.liveShare?.isSome then
      ["guestfwd=tcp:10.0.2.4:139-cmd:".toList ++ ctx.serverCommand,
        "guestfwd=tcp:10.0.2.4:445-cmd:".toList ++ ctx.serverCommand] else []).flatMap
      (fun other => ',' :: doubled ',' other) =
      if ctx.liveShare?.isSome then
        ",guestfwd=tcp:10.0.2.4:139-cmd:".toList ++ qemuOptionText ctx.serverCommand ++
          ",guestfwd=tcp:10.0.2.4:445-cmd:".toList ++ qemuOptionText ctx.serverCommand
      else [] := by
    split
    · simp only [List.flatMap_cons, List.flatMap_nil, List.append_nil, List.append_assoc]
      rfl
    · rfl
  rw [joined_cons, List.flatMap_cons, networkItems, List.flatMap_append, List.flatMap_cons, hports,
    hlive]
  cases ctx.manifest.spec.network with
  | _ =>
    simp only [List.append_assoc]
    rfl

/-- The network tells what is planned for it. -/
theorem tells_network {next : LaunchArguments} {live : Bool}
    (h : ctx.network launch = .ok (next, live)) :
    Tells launch next ctx.plannedNetwork [] := by
  -- Notes about the forwardings change no argument.
  have hnotes (forwards : List PortForward) {last : LaunchArguments}
      (hlast : Tells launch last ctx.plannedNetwork []) : Tells launch
        (forwards.foldl (fun launch forward =>
          launch.note [.text "published TCP port: 127.0.0.1:",
            .shown (decimal forward.hostPort.toNat), .text " forwards to guest port ",
            .shown (decimal forward.guestPort.toNat)]) last) ctx.plannedNetwork [] := by
    induction forwards generalizing last with
    | nil => exact hlast
    | cons forward forwards ih => exact ih (hlast.note _)
  unfold LaunchContext.network at h
  obtain ⟨⟨options, noted⟩, hlive, h⟩ := bind_eq_ok.mp h
  obtain ⟨hoptions, hnoted⟩ := liveForwards_eq_ok launch hlive
  obtain ⟨rfl, -⟩ := Prod.mk.inj (Except.ok.inj h)
  refine hnotes _ (.note ?_ _)
  -- The value is the one that joins the planned items.
  have hvalue : options = joined ',' ("user".toList :: "id=net0".toList :: ctx.networkItems) := by
    rw [hoptions, joined_network, plannedPorts, List.flatMap_cons, List.flatMap_map,
      List.foldl_append_eq_append]
    simp only [List.append_assoc]
    rfl
  have hdevice : separable ',' ["e1000e".toList, "netdev=net0".toList] = true := rfl
  have hpush := (hnoted.trans (.push noted (by decide : unitsOf "-netdev".toList ∉ _)
    separable_network hvalue)).trans (.push _ (by decide : unitsOf "-device".toList ∉ _) hdevice rfl)
  exact hpush

end LaunchContext

/-- Notes about the profile tell QEMU nothing. -/
theorem Tells.profileNotes {launch next : LaunchArguments}
    {options : List (OptionRead OsUnit)} {helpers : List CommandInvocation}
    (h : Tells launch next options helpers) (ctx : LaunchContext) :
    Tells launch (ctx.profileNotes next) options helpers := by
  have hsecure : Tells launch
      (if ctx.security.secureBoot then next
        |>.note [.text "secure profile: prepare an OVMF variable store enrolled with production keys"]
        |>.note [.text "secure profile uses the driverless Windows capture path"]
      else next
        |>.note [.text "seamless profile: guest Secure Boot is disabled; host Secure Boot is unchanged"]
        |>.note [.text "test-signed guest drivers are optional; the initial capture path remains driverless"])
      options helpers := by
    split
    · exact (h.note _).note _
    · exact (h.note _).note _
  unfold LaunchContext.profileNotes
  dsimp only
  split
  · exact ((hsecure.note _).note _).note _
  · exact (hsecure.note _).note _

theorem Tells.missingCapabilities {launch next : LaunchArguments}
    {options : List (OptionRead OsUnit)} {helpers : List CommandInvocation}
    (h : Tells launch next options helpers) (ctx : LaunchContext) (live : Bool) :
    Tells launch (ctx.missingCapabilities next live).1 options helpers :=
  iteInduction (motive := fun result : LaunchArguments × List String =>
    Tells launch result.1 options helpers) (fun _ => h.note _) (fun _ => h)

namespace LaunchContext

variable {ctx : LaunchContext}

/-- The whole launch says what is planned, and starts the emulator. -/
theorem tells_collect {launch : LaunchArguments} {missing : List String}
    (hname : ',' ∉ ctx.manifest.spec.name) (hdir : ∃ text, ctx.instanceDir = .ofStr text)
    (hiso : ∃ text, ctx.manifest.spec.sourceIso = .ofStr text)
    (hcode : ∀ path ∈ ctx.planner.capabilities.firmwareCode ctx.manifest.spec.profile,
      ∃ text, path = .ofStr text)
    (h : ctx.collect = .ok (launch, missing)) :
    Tells {} launch ctx.plannedOptions [ctx.emulator] := by
  unfold collect at h
  obtain ⟨⟨networked, live⟩, hnetwork, h⟩ := bind_eq_ok.mp h
  obtain ⟨seeded, hseed, h⟩ := bind_eq_ok.mp h
  obtain ⟨identified, hidentity, h⟩ := bind_eq_ok.mp h
  have hfront := (((tells_machineAndCpu {} hname).trans (tells_firmware _ hdir hcode)).trans
    (tells_systemDisk _ hdir)).trans (tells_network _ hnetwork)
  have hdevices := ((hfront.trans (tells_platformDevices _)).trans
    (tells_bootMedia _ hiso)).trans (tells_installSeed _ hdir hseed)
  have hsockets := ((hdevices.trans (tells_identitySeed _ hdir hidentity)).trans
    (tells_vtpm _ hdir)).trans (tells_controlSockets _ hdir)
  have hall := (hsockets.profileNotes ctx).missingCapabilities ctx live
  rw [Except.ok.inj h] at hall
  exact hall

/-! ## Forwards -/

theorem takeTo_append {front : Str} {sep : Char} (h : sep ∉ front) (rest : List OsUnit) :
    takeTo sep (unitsOf front ++ .char sep :: rest) = some (unitsOf front, rest) := by
  have hfront : ∀ unit ∈ unitsOf front, (decide (unit ≠ .char sep)) = true := by
    intro unit hunit
    obtain ⟨c, hc, rfl⟩ := List.mem_map.mp hunit
    simpa using fun heq : c = sep => h (heq ▸ hc)
  rw [takeTo, if_pos (by simp), List.takeWhile_append_of_pos hfront,
    List.dropWhile_append_of_pos hfront]
  simp

/-- A forwarding is read back. -/
theorem readHostForward_hostForward (hostPort guestPort : Nat) :
    readHostForward (unitsOf (hostForward hostPort guestPort)) = some {
      protocol := unitsOf "tcp".toList
      listenAddress := unitsOf "127.0.0.1".toList
      hostPort := unitsOf (decimal hostPort)
      guestAddress := []
      guestPort := unitsOf (decimal guestPort) } := by
  have hdash : '-' ∉ decimal hostPort := not_mem_decimal (by decide)
  have hitem : unitsOf (hostForward hostPort guestPort) =
      unitsOf "hostfwd".toList ++ .char '=' :: (unitsOf "tcp".toList ++ .char ':' ::
        (unitsOf "127.0.0.1".toList ++ .char ':' :: (unitsOf (decimal hostPort) ++ .char '-' ::
          (unitsOf [] ++ .char ':' :: unitsOf (decimal guestPort))))) := by
    unfold hostForward
    rw [unitsOf_append, unitsOf_append, unitsOf_append, List.append_assoc, List.append_assoc]
    rfl
  rw [hitem, readHostForward, takeTo_append (by decide)]
  simp only [Option.bind_eq_bind, Option.bind_some]
  rw [takeTo_append (by decide)]
  simp only [Option.bind_some]
  rw [takeTo_append (by decide)]
  simp only [Option.bind_some]
  rw [takeTo_append hdash]
  simp only [Option.bind_some]
  rw [takeTo_append (by decide)]
  rfl

/-- An item that is no forward. -/
theorem not_forward {s : Str} (h : '=' ∉ s) :
    (unitsOf "hostfwd=".toList).isPrefixOf (unitsOf s) = false := by
  refine Bool.eq_false_iff.mpr fun hpre => ?_
  have hmem := (List.isPrefixOf_iff_prefix.mp hpre).subset
    (by decide : OsUnit.char '=' ∈ unitsOf "hostfwd=".toList)
  obtain ⟨c, hc, heq⟩ := List.mem_map.mp hmem
  exact h (OsUnit.char.inj heq ▸ hc)

theorem hostForwards_append (options others : List (OptionRead OsUnit)) :
    hostForwards (options ++ others) = hostForwards options ++ hostForwards others := by
  rw [hostForwards, List.flatMap_append, List.filter_append]
  rfl

theorem hostForwards_cons (option : OptionRead OsUnit) (others : List (OptionRead OsUnit)) :
    hostForwards (option :: others) = hostForwards [option] ++ hostForwards others :=
  hostForwards_append [option] others

/-- The machine forwards no port. -/
theorem hostForwards_machine (hname : '=' ∉ ctx.manifest.spec.name) :
    hostForwards ctx.plannedMachine = [] := by
  -- An item without an equals sign is no forwarding.
  have hcpus : '=' ∉ decimal ctx.manifest.spec.cpus.toNat := not_mem_decimal (by decide)
  have hmemory : '=' ∉ decimal ctx.manifest.spec.memoryMib.toNat ++ ['M'] := by
    have hdigits : '=' ∉ decimal ctx.manifest.spec.memoryMib.toNat := not_mem_decimal (by decide)
    simpa using hdigits
  have hmachine : hostForwards [texts "-machine" (["q35".toList, "usb=on".toList] ++
      if ctx.security.secureBoot then ["smm=on".toList] else [])] = [] := by
    cases ctx.security.secureBoot with
    | _ => rfl
  have hacceleration : hostForwards ctx.plannedAcceleration = [] := by
    unfold plannedAcceleration
    cases ctx.planner.backend.accelerator with
    | _ => rfl
  have hcpu : hostForwards [texts "-cpu" ctx.plannedCpu] = [] := by
    unfold plannedCpu
    cases ctx.planner.backend.accelerator with
    | kvm => cases ctx.planner.cpuTuning with | _ => rfl
    | _ => rfl
  -- So such an item can be left out.
  have hone {name : String} {item : Str} {others : List Str} (hitem : '=' ∉ item) :
      hostForwards [texts name (item :: others)] = hostForwards [texts name others] := by
    rw [hostForwards, hostForwards, List.flatMap_singleton, List.flatMap_singleton]
    exact List.filter_cons_of_neg (by rw [not_forward hitem]; exact Bool.false_ne_true)
  have hnone (name : String) : hostForwards [texts name []] = [] := rfl
  have hname' : hostForwards [texts "-name" [ctx.manifest.spec.name]] = [] := by
    rw [hone hname, hnone]
  have hsmp : hostForwards [texts "-smp" [decimal ctx.manifest.spec.cpus.toNat, "sockets=1".toList,
      "cores=".toList ++ decimal ctx.manifest.spec.cpus.toNat, "threads=1".toList]] = [] := by
    rw [hone hcpus]
    rfl
  have hm : hostForwards [texts "-m" [decimal ctx.manifest.spec.memoryMib.toNat ++ ['M']]] = [] := by
    rw [hone hmemory, hnone]
  have hrtc : hostForwards [texts "-rtc" ["base=utc".toList, "driftfix=slew".toList]] = [] := rfl
  -- Option by option there is none.
  rw [plannedMachine, hostForwards_append, hostForwards_append, hacceleration, hostForwards_cons,
    hname', List.nil_append, hostForwards_cons, hmachine, List.nil_append, hostForwards_cons, hsmp,
    hm, List.nil_append, List.nil_append, hostForwards_cons, hcpu, hrtc, List.nil_append,
    List.nil_append]

theorem hostForwards_texts_append (name : String) (items others : List Str) :
    hostForwards [texts name (items ++ others)] =
      hostForwards [texts name items] ++ hostForwards [texts name others] := by
  simp only [hostForwards, texts, List.flatMap_singleton, List.map_append, List.filter_append]

/-- The network forwards the planned ports. -/
theorem hostForwards_network :
    hostForwards ctx.plannedNetwork =
      ctx.plannedPorts.map fun ports => unitsOf (hostForward ports.1 ports.2) := by
  -- Every forwarding of a port is one.
  have hports : hostForwards [texts "-netdev"
      (ctx.plannedPorts.map fun ports => hostForward ports.1 ports.2)] =
      ctx.plannedPorts.map fun ports => unitsOf (hostForward ports.1 ports.2) := by
    rw [hostForwards, List.flatMap_singleton, texts, List.map_map]
    refine List.filter_eq_self.mpr fun item hitem => ?_
    obtain ⟨ports, -, rfl⟩ := List.mem_map.mp hitem
    rfl
  -- No other item of the network is.
  have hrestrict : hostForwards [texts "-netdev" ["user".toList, "id=net0".toList,
      match ctx.manifest.spec.network with
      | .nat => "restrict=off".toList
      | .offline => "restrict=on".toList]] = [] := by
    cases ctx.manifest.spec.network with
    | _ => rfl
  have hlive : hostForwards [texts "-netdev" (if ctx.liveShare?.isSome then
      ["guestfwd=tcp:10.0.2.4:139-cmd:".toList ++ ctx.serverCommand,
        "guestfwd=tcp:10.0.2.4:445-cmd:".toList ++ ctx.serverCommand] else [])] = [] := by
    split
    · rfl
    · rfl
  have hdevice : hostForwards [texts "-device" ["e1000e".toList, "netdev=net0".toList]] = [] := rfl
  rw [plannedNetwork, hostForwards_cons, hdevice, hostForwards_texts_append,
    hostForwards_texts_append, hrestrict, hports, hlive, List.nil_append, List.append_nil,
    List.append_nil]

/-- The sockets forward none. -/
theorem hostForwards_sockets {dir : Str} (hdir : ctx.instanceDir = .ofStr ('/' :: dir)) :
    hostForwards ctx.plannedSockets = [] := by
  have hpid : ∃ rest, (ctx.instanceDir.join "run/qemu.pid".toList).units = .char '/' :: rest := by
    have hinner : isAbsolute '/' "run/qemu.pid".toList = false := rfl
    rw [hdir, PathBuf.join_ofStr, joinPath,
      if_neg (by rw [hinner]; exact Bool.false_ne_true)]
    split
    · exact ⟨_, rfl⟩
    · exact ⟨_, rfl⟩
  obtain ⟨rest, hrest⟩ := hpid
  have hfile : hostForwards [withPath "-pidfile" [] ""
      (ctx.instanceDir.join "run/qemu.pid".toList) []] = [] := by
    rw [withPath, pathItem, hrest]
    rfl
  have hsplit : ctx.plannedSockets = [withPath "-qmp" [] "unix:"
      (ctx.instanceDir.join "run/qmp.sock".toList) ["server=on", "wait=off"]] ++
      [withPath "-pidfile" [] "" (ctx.instanceDir.join "run/qemu.pid".toList) []] ++
      ctx.plannedSockets.drop 2 := rfl
  rw [hsplit, hostForwards_append, hostForwards_append, hfile]
  rfl

/-- The forwards of the launch are the ones that are planned. -/
theorem hostForwards_planned (hname : '=' ∉ ctx.manifest.spec.name) {dir : Str}
    (hdir : ctx.instanceDir = .ofStr ('/' :: dir)) :
    hostForwards ctx.plannedOptions =
      ctx.plannedPorts.map fun ports => unitsOf (hostForward ports.1 ports.2) := by
  -- No other group has an item that reads as a forwarding.
  have hfirmware : hostForwards ctx.plannedFirmware = [] := by
    unfold plannedFirmware
    cases ctx.security.secureBoot with
    | _ => rfl
  have hdisk : hostForwards ctx.plannedDisk = [] := rfl
  have hdevices : hostForwards plannedPlatformDevices = [] := rfl
  have hboot : hostForwards ctx.plannedBootMedia = [] := by
    unfold plannedBootMedia
    cases ctx.phase with
    | _ => rfl
  have hseed : hostForwards (ctx.plannedVolume .install "seed" "id=lsw-seed" "usb-storage"
      ["drive=lsw-seed", "removable=on"]) = [] := by
    unfold plannedVolume
    split
    · rfl
    · rfl
  have hidentity : hostForwards (ctx.plannedVolume .run "identity-seed" "id=lsw-identity" "ide-hd"
      ["drive=lsw-identity"]) = [] := by
    unfold plannedVolume
    split
    · rfl
    · rfl
  have hvtpm : hostForwards ctx.plannedVtpm = [] := by
    unfold plannedVtpm
    split
    · rfl
    · rfl
  -- What is left are the forwardings of the network.
  simp only [plannedOptions, hostForwards_append, hostForwards_machine hname, hfirmware, hdisk,
    hostForwards_network, hdevices, hboot, hseed, hidentity, hvtpm, hostForwards_sockets hdir,
    List.nil_append, List.append_nil]

/-! ## The server of a live share -/

/-- The words of the share server are texts, and not empty. -/
theorem isText_of_mem_plannedServer {dir : Str} (hdir : ctx.instanceDir = .ofStr dir)
    (hsmbd : ∃ c text, ctx.planner.capabilities.smbd.getD (.ofStr "smbd".toList) =
      .ofStr (c :: text)) :
    ∀ path ∈ ctx.plannedServer, path ≠ .ofStr [] ∧ ∃ text, path = .ofStr text := by
  obtain ⟨c, text, hsmbd⟩ := hsmbd
  have hjoin (base : PathBuf) (h : ∃ text, base = .ofStr text) {name : Str} (hne : name ≠ []) :
      base.join name ≠ .ofStr [] ∧ ∃ text, base.join name = .ofStr text := by
    refine ⟨fun hempty => display_join_ne_nil base hne ?_, join_isText h name⟩
    rw [hempty, PathBuf.display_ofStr]
  have hruntime : ∃ text, (ctx.instanceDir.join "run".toList).join "live-smb".toList = .ofStr text :=
    join_isText (join_isText ⟨dir, hdir⟩ _) _
  intro path hpath
  simp only [plannedServer, List.mem_cons, List.not_mem_nil, or_false] at hpath
  rcases hpath with rfl | rfl | rfl | rfl | rfl
  · exact hsmbd ▸ ⟨by simp [PathBuf.ofStr], _, rfl⟩
  · exact ⟨by simp [PathBuf.ofStr], _, rfl⟩
  · exact hjoin _ (join_isText ⟨dir, hdir⟩ _) (by simp)
  · exact ⟨by simp [PathBuf.ofStr], _, rfl⟩
  · exact hjoin _ hruntime (by simp)

/-- The shell reads the words of the share server back. -/
theorem words_serverCommand (hserver : ∀ path ∈ ctx.plannedServer,
    path ≠ .ofStr [] ∧ ∃ text, path = .ofStr text) :
    ∃ words, ShellWords.reader.words ctx.serverCommand = some words ∧
      words.map .ofStr = ctx.plannedServer := by
  have hwords : ShellWords.reader.words ctx.serverCommand =
      some ((ctx.plannedServer.map PathBuf.display).filter fun word => !word.isEmpty) :=
    words_shellQuote (ctx.plannedServer.map PathBuf.display)
  have hall : ∀ word ∈ ctx.plannedServer.map PathBuf.display, (!word.isEmpty) = true := by
    intro word hword
    obtain ⟨path, hpath, rfl⟩ := List.mem_map.mp hword
    obtain ⟨hne, text, rfl⟩ := hserver path hpath
    rw [PathBuf.display_ofStr]
    cases text with
    | nil => exact absurd rfl hne
    | cons c text => rfl
  refine ⟨_, hwords, ?_⟩
  rw [List.filter_eq_self.mpr hall, List.map_map]
  conv_rhs => rw [← List.map_id ctx.plannedServer]
  refine List.map_congr_left fun path hpath => ?_
  obtain ⟨-, text, rfl⟩ := hserver path hpath
  rw [Function.comp_apply, PathBuf.display_ofStr, id]

end LaunchContext

/-! ## A launch -/

/-- The tools of the host that a launch names. -/
def HostCapabilities.tools (capabilities : HostCapabilities) : List PathBuf :=
  [capabilities.qemuSystem, capabilities.swtpm, capabilities.smbd, capabilities.ovmfCode,
    capabilities.ovmfSecureCode].reduceOption

/-- A valid name has nothing in it that parts or assigns. -/
theorem not_mem_of_isName {limit : Nat} {name : Str} (h : isName limit name) {c : Char}
    (hc : c = ',' ∨ c = '=') : c ∉ name := by
  simp only [isName, Bool.and_eq_true, List.all_eq_true] at h
  intro hmem
  rcases hc with rfl | rfl
  · exact absurd (h.1.2 44 (mem_bytes_of_mem hmem (by decide))) (by decide)
  · exact absurd (h.1.2 61 (mem_bytes_of_mem hmem (by decide))) (by decide)

theorem exists_of_isAbsolute {text : Str} (h : (PathBuf.ofStr text).isAbsolute = true) :
    ∃ rest, text = '/' :: rest := by
  cases text with
  | nil => cases h
  | cons c rest =>
    have hhead : OsUnit.char c = .char '/' := by
      simpa [PathBuf.isAbsolute, isAbsolute, PathBuf.ofStr] using h
    exact ⟨rest, by rw [OsUnit.char.inj hhead]⟩

/-- The programs of a launch are told what is planned exactly when the directory of the instance holds
    no comma. -/
theorem launch_is_told_as_planned_iff (planner : QemuPlanner) (fs : HostFs)
    (manifest : InstanceManifest) (instanceDir : Str) (phase : LaunchPhase) (plan : CommandPlan)
    (hdir : (PathBuf.ofStr instanceDir).isAbsolute = true)
    (htools : ∀ tool ∈ planner.capabilities.tools,
      tool.isAbsolute = true ∧ ∃ text, tool = .ofStr text)
    (hplan : planner.plan fs manifest (.ofStr instanceDir) phase = .ok plan) :
    FaithfulLaunch { fs, planner, manifest, instanceDir := .ofStr instanceDir, phase } plan ↔
      ',' ∉ instanceDir := by
  let ctx : LaunchContext :=
    { fs, planner, manifest, instanceDir := .ofStr instanceDir, phase }
  -- A plan that is made has passed the checks of the specification.
  obtain ⟨⟨⟩, hcheck, hcollect⟩ := bind_eq_ok.mp hplan
  obtain ⟨⟨launch, missing⟩, hcollect, hresult⟩ := bind_eq_ok.mp hcollect
  have hspec : manifest.spec.validate = .ok () := by
    cases phase with
    | install => exact (bind_eq_ok.mp hcheck).choose_spec.1
    | run => exact hcheck
  have hstorable := storableSpec hspec
  obtain ⟨iso, hiso, -⟩ := hstorable.iso
  -- A valid name has no comma and no equals sign in it.
  have hcomma : ',' ∉ manifest.spec.name := not_mem_of_isName hstorable.name_valid (.inl rfl)
  have hequals : '=' ∉ manifest.spec.name := not_mem_of_isName hstorable.name_valid (.inr rfl)
  -- The directory is absolute, so its text begins with a slash.
  obtain ⟨rest, rfl⟩ := exists_of_isAbsolute hdir
  -- Every path of the capabilities is the path of a text.
  have hcode : ∀ path ∈ planner.capabilities.firmwareCode manifest.spec.profile,
      ∃ text, path = .ofStr text := by
    intro path hpath
    refine (htools path ?_).2
    rw [HostCapabilities.firmwareCode] at hpath
    split at hpath
    · simp [HostCapabilities.tools, List.reduceOption_mem_iff, Option.mem_def.mp hpath]
    · simp [HostCapabilities.tools, List.reduceOption_mem_iff, Option.mem_def.mp hpath]
  have hsmbd : ∃ c text, planner.capabilities.smbd.getD (.ofStr "smbd".toList) =
      .ofStr (c :: text) := by
    cases hserver : planner.capabilities.smbd with
    | none => exact ⟨_, _, rfl⟩
    | some path =>
      obtain ⟨habsolute, text, rfl⟩ :=
        htools path (by simp [HostCapabilities.tools, List.reduceOption_mem_iff, hserver])
      obtain ⟨below, rfl⟩ := exists_of_isAbsolute habsolute
      exact ⟨_, _, rfl⟩
  -- What the program itself and its share server are told, whatever the directory.
  have hserver := @LaunchContext.isText_of_mem_plannedServer ctx _ rfl hsmbd
  obtain ⟨added, harguments, hreads⟩ :=
    (@LaunchContext.tells_collect ctx _ _ hcomma ⟨_, rfl⟩ ⟨iso, hiso⟩ hcode hcollect).arguments
  have hhelpers :=
    (@LaunchContext.tells_collect ctx _ _ hcomma ⟨_, rfl⟩ ⟨iso, hiso⟩ hcode hcollect).helpers
  -- The emulator of the TPM is the only one that reads the directory undoubled.
  have hemulator : plan.helperCommands.map
      (fun helper => swtpmGrammar.read (helper.arguments.map (·.units))) =
      (if ctx.security.vtpm then [some ctx.plannedEmulator] else []) ↔ ',' ∉ '/' :: rest := by
    rw [← Except.ok.inj hresult, hhelpers, if_pos LaunchContext.security_vtpm,
      ← @LaunchContext.read_emulator_iff ctx _ rfl]
    simp
  -- So all the rest of the launch is faithful, and the emulator decides.
  constructor
  · exact fun hfaithful => hemulator.mp hfaithful.emulator
  · intro hnone
    refine ⟨?_, LaunchContext.words_serverCommand hserver, ?_, hemulator.mpr hnone⟩
    · rw [← Except.ok.inj hresult, harguments]
      exact hreads.read
    · rw [LaunchContext.hostForwards_planned hequals rfl, List.map_map]
      exact List.map_congr_left fun ports _ =>
        LaunchContext.readHostForward_hostForward ports.1 ports.2

/-- A host without any tools, and where nothing is prepared. -/
def bareFs : HostFs where
  symlinkMetadata _ := .error .notFound
  canonicalize _ := .error .notFound
  isFile _ := false
  isDir _ := false

def barePlanner : QemuPlanner := .new { platform := .linux }

/-- A launch of the instance in a directory. -/
def bareLaunch (dir : Str) : LaunchContext where
  fs := bareFs
  planner := barePlanner
  manifest := demoManifest []
  instanceDir := .ofStr dir
  phase := .run

/-- A host with its tools; the path of the firmware has a comma. -/
def toolPlanner : QemuPlanner := .new
  { platform := .linux
    qemuSystem := some (.ofStr "/usr/bin/qemu-system-x86_64".toList)
    swtpm := some (.ofStr "/usr/bin/swtpm".toList)
    smbd := some (.ofStr "/usr/sbin/smbd".toList)
    ovmfCode := some (.ofStr "/usr/share/ovmf,4m/CODE.fd".toList)
    ovmfSecureCode := some (.ofStr "/usr/share/ovmf,4m/CODE.secboot.fd".toList) }

/-- What the plan says is what is told, the firmware included. -/
theorem plain_directory_is_told_as_planned :
    ∃ plan, toolPlanner.plan bareFs (demoManifest []) (.ofStr "/vm".toList) .run = .ok plan ∧
      FaithfulLaunch { bareLaunch "/vm".toList with planner := toolPlanner } plan := by
  refine ⟨_, rfl, (launch_is_told_as_planned_iff toolPlanner bareFs (demoManifest []) "/vm".toList
    .run _ (by decide) ?_ rfl).mpr (by decide)⟩
  have hpaths : ∀ tool ∈ toolPlanner.capabilities.tools, tool.isAbsolute = true ∧
      tool.toStr.isSome = true := by decide
  intro tool htool
  obtain ⟨habsolute, htext⟩ := hpaths tool htool
  obtain ⟨text, htext⟩ := Option.isSome_iff_exists.mp htext
  exact ⟨habsolute, text, PathBuf.toStr_eq_some_iff.mp htext⟩

/-- A comma in the directory ends the directory of the state for swtpm. -/
theorem comma_cuts_the_state_directory :
    ∃ plan, barePlanner.plan bareFs (demoManifest []) (.ofStr "/vm,1".toList) .run = .ok plan ∧
      ¬ FaithfulLaunch (bareLaunch "/vm,1".toList) plan :=
  ⟨_, rfl, fun h => absurd h.emulator (by decide)⟩

end Lsw.Core
