import Lsw.Core.Qemu

/-!
# Which QEMU Belongs to an Instance

`qemu_command_matches_instance` (`runtime.rs`) recognises the QEMU process of an instance by
its command line: the program, the name, the QMP socket and the PID file.  The process was
started with the arguments that `QemuPlanner::plan` wrote, so the two have to agree; they do
unless the state directory has a comma in its path, which the planner doubles and the matcher
does not.

Command lines are sequences of characters and stray bytes, like paths.
-/

namespace Lsw.Daemon

open Lsw.Lib Lsw.Core

/-! ## Matching a command line -/

/-- `Path::file_name`. -/
def fileName (path : PathBuf) : Option (List OsUnit) :=
  Lib.fileName (.char '/') (.char '.') path.units

/-- The byte that ends every argument. -/
def nul : OsUnit := .char (Char.ofNat 0)

/-- The command line of a process, as `/proc` shows it. -/
def commandLine (program : PathBuf) (arguments : List PathBuf) : List OsUnit :=
  ((program :: arguments).map PathBuf.units).flatMap (· ++ [nul])

/-- `command_has_exact_option`. -/
def commandHasExactOption (arguments : List Str) (option value : Str) : Bool :=
  (arguments.zip arguments.tail).any fun pair => pair.1 = option ∧ pair.2 = value

/-- The arguments of a command line, as text. -/
def shownArguments (line : List OsUnit) : List Str :=
  ((line.splitOn nul).filter fun argument => argument ≠ []).map fun argument =>
    PathBuf.display ⟨argument⟩

/-- The program is called `qemu-system-*`. -/
def isQemuSystem (program : PathBuf) : Bool :=
  match fileName program with
  | some name => ("qemu-system-".toList.map OsUnit.char).isPrefixOf name
  | none => false

/-- `qemu_command_matches_instance`. -/
def qemuCommandMatchesInstance (line : List OsUnit) (instanceDir : PathBuf) (name : Str) :
    Bool :=
  let arguments := shownArguments line
  match arguments.head? with
  | none => false
  | some program =>
    if isQemuSystem (.ofStr program) = false then false
    else
      let qmp := "unix:".toList ++ (instanceDir.join "run/qmp.sock".toList).display ++
        ",server=on,wait=off".toList
      let pidFile := (instanceDir.join "run/qemu.pid".toList).display
      commandHasExactOption arguments "-name".toList name &&
        commandHasExactOption arguments "-qmp".toList qmp &&
        commandHasExactOption arguments "-pidfile".toList pidFile

/-! ## Options -/

section Options

variable {option value : Str}

theorem commandHasExactOption_cons_cons (first second : Str) (rest : List Str) :
    commandHasExactOption (first :: second :: rest) option value =
      (decide (first = option ∧ second = value) ||
        commandHasExactOption (second :: rest) option value) := rfl

theorem commandHasExactOption_of_not_mem {arguments : List Str} (h : option ∉ arguments) :
    commandHasExactOption arguments option value = false := by
  rw [commandHasExactOption, List.any_eq_false]
  rintro ⟨x, y⟩ hmem
  have hx : x ≠ option := fun heq => h (heq ▸ (List.of_mem_zip hmem).1)
  simp [hx]

/-- Arguments before the option do not matter. -/
theorem commandHasExactOption_skip {before : List Str} (h : option ∉ before) (second : Str)
    (rest : List Str) :
    commandHasExactOption (before ++ second :: rest) option value =
      commandHasExactOption (second :: rest) option value := by
  induction before with
  | nil => rfl
  | cons first before ih =>
    simp only [List.mem_cons, not_or] at h
    have hfirst : ∀ next, decide (first = option ∧ next = value) = false := by
      simp [Ne.symm h.1]
    rw [← ih h.2]
    cases before with
    | nil => rw [List.cons_append, List.nil_append, commandHasExactOption_cons_cons, hfirst]; rfl
    | cons next before =>
      rw [List.cons_append, List.cons_append, commandHasExactOption_cons_cons, hfirst]
      rfl

/-- An option that occurs once has the value that follows it. -/
theorem commandHasExactOption_once {before after : List Str} {given : Str}
    (hbefore : option ∉ before) (hgiven : given ≠ option) (hafter : option ∉ after) :
    commandHasExactOption (before ++ option :: given :: after) option value = true ↔
      given = value := by
  have hrest : option ∉ given :: after := by simp [hafter, hgiven.symm]
  rw [commandHasExactOption_skip hbefore, commandHasExactOption_cons_cons,
    commandHasExactOption_of_not_mem hrest]
  simp

/-- Three options, each once, among other arguments. -/
theorem commandHasExactOption_three {a b c program x y z : Str} {early late : List Str}
    (hab : a ≠ b) (hac : a ≠ c) (hbc : b ≠ c)
    (hother : ∀ argument ∈ [program, x, y, z] ++ early ++ late,
      argument ≠ a ∧ argument ≠ b ∧ argument ≠ c) :
    let arguments := [program, a, x] ++ early ++ [b, y, c, z] ++ late
    (∀ v, commandHasExactOption arguments a v = true ↔ x = v) ∧
      (∀ v, commandHasExactOption arguments b v = true ↔ y = v) ∧
      ∀ v, commandHasExactOption arguments c v = true ↔ z = v := by
  have hmem : ∀ argument, argument = program ∨ argument = x ∨ argument = y ∨ argument = z ∨
      argument ∈ early ∨ argument ∈ late → argument ≠ a ∧ argument ≠ b ∧ argument ≠ c :=
    fun argument h => hother argument (by grind)
  refine ⟨fun v => ?_, fun v => ?_, fun v => ?_⟩
  · have hlist : [program, a, x] ++ early ++ [b, y, c, z] ++ late =
        [program] ++ a :: x :: (early ++ [b, y, c, z] ++ late) := by simp
    rw [hlist]
    exact commandHasExactOption_once (by grind) (by grind) (by grind)
  · have hlist : [program, a, x] ++ early ++ [b, y, c, z] ++ late =
        ([program, a, x] ++ early) ++ b :: y :: ([c, z] ++ late) := by simp
    rw [hlist]
    exact commandHasExactOption_once (by grind) (by grind) (by grind)
  · have hlist : [program, a, x] ++ early ++ [b, y, c, z] ++ late =
        ([program, a, x] ++ early ++ [b, y]) ++ c :: z :: late := by simp
    rw [hlist]
    exact commandHasExactOption_once (by grind) (by grind) (by grind)

end Options

/-! ## Command lines as text -/

/-- The arguments are found again, without the empty ones. -/
theorem shownArguments_commandLine {program : PathBuf} {arguments : List PathBuf}
    (h : ∀ argument ∈ program :: arguments, nul ∉ argument.units) :
    shownArguments (commandLine program arguments) =
      ((program :: arguments).map PathBuf.display).filter fun argument => argument ≠ [] := by
  have hpieces : ∀ piece ∈ (program :: arguments).map PathBuf.units, nul ∉ piece := by
    intro piece hpiece
    obtain ⟨argument, hargument, rfl⟩ := List.mem_map.mp hpiece
    exact h argument hargument
  rw [shownArguments, commandLine, splitOn_flatMap_terminated hpieces, List.filter_append,
    List.filter_map, List.filter_map, List.map_append, List.map_map]
  have hempty : ((fun argument => decide (argument ≠ [])) ∘ PathBuf.display) =
      (fun argument => decide (argument ≠ [])) ∘ PathBuf.units := by
    funext path
    simp [PathBuf.display]
  rw [hempty]
  simp [Function.comp_def]

theorem isQemuSystem_display {program : PathBuf} (h : isQemuSystem program = true) :
    isQemuSystem (.ofStr program.display) = true := by
  -- Every unit is shown as one character, and a byte that is none as the replacement.
  obtain ⟨shown, hchar, hbyte, hdisplay⟩ : ∃ shown : OsUnit → Char, (∀ c, shown (.char c) = c) ∧
      (∀ b, shown (.byte b) = Char.ofNat 0xfffd) ∧ program.display = program.units.map shown :=
    ⟨_, fun _ => rfl, fun _ => rfl, rfl⟩
  -- So a separator is shown by a separator only.
  have hsep : ∀ (c : Char), c ≠ Char.ofNat 0xfffd → ∀ unit : OsUnit,
      OsUnit.char (shown unit) = .char c ↔ unit = .char c := by
    intro c hc unit
    cases unit with
    | char d => simp [hchar]
    | byte b => simp [hbyte, hc.symm]
  -- The name of the file is shown as it stands in the path.
  have hname := fileName_map (hsep '/' (by decide)) (hsep '.' (by decide)) program.units
  have hunits : (PathBuf.ofStr program.display).units = program.units.map fun unit =>
      OsUnit.char (shown unit) := by
    rw [PathBuf.ofStr, hdisplay, List.map_map]
    rfl
  rw [isQemuSystem, fileName] at h ⊢
  rw [hunits, hname]
  split at h
  · rename_i name hfile
    rw [hfile, Option.map_some]
    obtain ⟨rest, rfl⟩ := List.isPrefixOf_iff_prefix.mp h
    -- What it begins with has no byte that is replaced.
    have hprogram : ("qemu-system-".toList.map OsUnit.char).map
        (fun unit => OsUnit.char (shown unit)) = "qemu-system-".toList.map OsUnit.char := by
      rw [List.map_map]
      exact List.map_congr_left fun c _ => congrArg OsUnit.char (hchar c)
    dsimp only
    rw [List.map_append, hprogram, List.isPrefixOf_iff_prefix]
    exact List.prefix_append _ _
  · cases h

/-! ## The arguments of a plan -/

/-- The options that the matcher looks for. -/
def identityOptions : List Str := ["-name".toList, "-qmp".toList, "-pidfile".toList]

/-- An argument that is none of these options. -/
def Plain (argument : Str) : Prop := argument ∉ identityOptions

instance : DecidablePred Plain := fun _ => inferInstanceAs (Decidable (¬ _))

/-- A text that starts, and not with a dash. -/
def Undashed (text : Str) : Prop := text.head?.any (· ≠ '-') = true

instance : DecidablePred Undashed := fun _ => inferInstanceAs (Decidable (_ = true))

theorem Undashed.append {text : Str} (h : Undashed text) (rest : Str) :
    Undashed (text ++ rest) := by
  cases text with
  | nil => cases h
  | cons c text => exact h

theorem Undashed.plain {text : Str} (h : Undashed text) : Plain text := by
  intro hmem
  simp only [identityOptions, List.mem_cons, List.not_mem_nil, or_false] at hmem
  rcases hmem with rfl | rfl | rfl <;> exact absurd h (by decide)

theorem undashed_decimal (n : Nat) : Undashed (decimal n) := by
  cases h : decimal n with
  | nil => exact absurd h (decimal_ne_nil n)
  | cons c digits =>
    have hdash : '-' ∉ decimal n := not_mem_decimal (by decide)
    rw [h, List.mem_cons, not_or] at hdash
    simpa [Undashed] using Ne.symm hdash.1

theorem undashed_of_isName {limit : Nat} {name : Str} (h : isName limit name = true) :
    Undashed name := by
  simp only [isName, Bool.and_eq_true] at h
  obtain ⟨-, hfirst, -⟩ := h
  cases name with
  | nil => cases hfirst
  | cons c name =>
    have hc : c ≠ '-' := by
      rintro rfl
      have hdash : isAsciiAlphanumeric 45 = true := hfirst
      exact absurd hdash (by decide)
    simpa [Undashed] using hc

/-- A name has only the characters it may have. -/
theorem not_mem_of_isName {limit : Nat} {name : Str} (h : isName limit name = true) {c : Char}
    {b : UInt8} (hb : String.utf8EncodeChar c = [b]) (hbad : isNameByte b = false) :
    c ∉ name := by
  intro hc
  simp only [isName, Bool.and_eq_true] at h
  have hgood := List.all_eq_true.mp h.1.2 b (mem_bytes_of_mem hc hb)
  rw [hbad] at hgood
  cases hgood

/-- Only plain arguments are added. -/
def Adds (launch next : LaunchArguments) : Prop :=
  ∃ extra : List Str, next.arguments = launch.arguments ++ extra.map PathBuf.ofStr ∧
    ∀ argument ∈ extra, Plain argument

namespace Adds

variable {launch next last : LaunchArguments}

theorem refl (launch : LaunchArguments) : Adds launch launch := ⟨[], by simp, by simp⟩

theorem trans (h : Adds launch next) (h' : Adds next last) : Adds launch last := by
  obtain ⟨extra, hextra, hplain⟩ := h
  obtain ⟨extra', hextra', hplain'⟩ := h'
  refine ⟨extra ++ extra', by simp [hextra', hextra], fun argument hmem => ?_⟩
  rcases List.mem_append.mp hmem with hmem | hmem
  · exact hplain argument hmem
  · exact hplain' argument hmem

theorem extend (h : Adds launch next) {texts : List Str} (hplain : ∀ text ∈ texts, Plain text) :
    Adds launch (next.extend texts) := h.trans ⟨texts, rfl, hplain⟩

theorem push (h : Adds launch next) {option : String} {value : Str}
    (hoption : Plain option.toList) (hvalue : Plain value) :
    Adds launch (next.push option value) :=
  h.extend (by simp [hoption, hvalue])

theorem note (h : Adds launch next) (message : Message) : Adds launch (next.note message) := h

end Adds

section Groups

variable (ctx : LaunchContext) (launch : LaunchArguments)

theorem adds_firmware : Adds launch (ctx.firmware launch) := by
  rw [LaunchContext.firmware]
  have hdrives : ∀ code vars : Str, Adds launch
      ((launch.push "-drive" ("if=pflash,format=raw,readonly=on,file=".toList ++ code)).push
        "-drive" ("if=pflash,format=raw,file=".toList ++ vars)) := by
    intro code vars
    refine ((Adds.refl launch).push ?_ ?_).push ?_ ?_
    · decide
    · exact Undashed.plain (.append (by decide) code)
    · decide
    · exact Undashed.plain (.append (by decide) vars)
  split
  · exact (hdrives _ _).push (by decide) (by decide)
  · exact hdrives _ _

theorem adds_systemDisk : Adds launch (ctx.systemDisk launch) := by
  refine ((Adds.refl launch).push ?_ ?_).push ?_ ?_
  · decide
  · exact Undashed.plain (.append (.append (by decide) _) _)
  · decide
  · decide

theorem adds_inputAndPlatformDevices :
    Adds launch (LaunchContext.inputAndPlatformDevices launch) := by
  have hdevices : ∀ device ∈ LaunchContext.platformDevices, Plain device.toList := by
    decide
  rw [LaunchContext.inputAndPlatformDevices]
  generalize LaunchContext.platformDevices = devices at hdevices
  induction devices generalizing launch with
  | nil => exact .refl launch
  | cons device devices ih =>
    have hfirst : Adds launch (launch.push "-device" device.toList) :=
      (Adds.refl launch).push (by decide) (hdevices device List.mem_cons_self)
    exact hfirst.trans (ih _ fun other hother => hdevices other (List.mem_cons_of_mem _ hother))

theorem adds_bootMedia : Adds launch (ctx.bootMedia launch) := by
  rw [LaunchContext.bootMedia]
  split
  · refine ((Adds.refl launch).push ?_ ?_).push ?_ ?_
    · decide
    · exact Undashed.plain (.append (by decide) _)
    · decide
    · decide
  · exact (Adds.refl launch).push (by decide) (by decide)

theorem adds_pushVolume (path : PathBuf) (id : String) {device : String} (message : String)
    (hdevice : Plain device.toList) :
    Adds launch (LaunchContext.pushVolume launch path id device message) := by
  refine Adds.note (((Adds.refl launch).push ?_ ?_).push ?_ hdevice) _
  · decide
  · exact Undashed.plain (.append (.append (.append (.append (by decide) _) _) _) _)
  · decide

theorem adds_vtpm : Adds launch (ctx.vtpm launch) := by
  rw [LaunchContext.vtpm]
  split
  · exact .refl launch
  · refine Adds.push (Adds.push (Adds.push (Adds.refl launch) ?_ ?_) ?_ ?_) ?_ ?_
    · decide
    · exact Undashed.plain (.append (by decide) _)
    all_goals decide

theorem adds_profileNotes : Adds launch (ctx.profileNotes launch) := by
  rw [LaunchContext.profileNotes]
  split <;> split <;> exact .refl launch

theorem adds_missingCapabilities (liveShare : Bool) :
    Adds launch (ctx.missingCapabilities launch liveShare).1 := by
  unfold LaunchContext.missingCapabilities
  generalize ctx.planner.capabilities.missingForProfileLaunch ctx.manifest.spec.profile ++ _ ++ _
    ++ _ ++ _ ++ _ = missing
  dsimp only
  split <;> exact .refl launch

/-- The name comes first, and nothing else in its group is an option of the matcher. -/
theorem adds_machineAndCpu :
    Adds (launch.push "-name" ctx.manifest.spec.name) (ctx.machineAndCpu launch) := by
  -- Every argument of the group is plain, whatever the machine is.
  have hmachine : Plain (if ctx.security.secureBoot = true then "q35,usb=on,smm=on".toList
      else "q35,usb=on".toList) := by
    split <;> decide
  have haccel : ∀ text ∈ ctx.planner.backend.accelerationArguments.map String.toList,
      Plain text := by
    rw [QemuBackend.accelerationArguments]
    split <;> decide
  -- The model of the CPU begins with a letter.
  have hcpu : Plain (ctx.planner.backend.cpuModel ctx.planner.cpuTuning) := by
    have hkvm : Undashed kvmEnlightenedCpuModel := by
      rw [kvmEnlightenedCpuModel, List.map_cons, List.map_cons, List.intercalate_cons_cons,
        List.append_assoc]
      exact .append (by decide) _
    unfold QemuBackend.cpuModel
    split
    · exact hkvm.plain
    all_goals decide
  have hsmp : Plain (decimal ctx.manifest.spec.cpus.toNat ++ ",sockets=1,cores=".toList ++
      decimal ctx.manifest.spec.cpus.toNat ++ ",threads=1".toList) :=
    Undashed.plain (.append (.append (.append (undashed_decimal _) _) _) _)
  have hmemory : Plain (decimal ctx.manifest.spec.memoryMib.toNat ++ ['M']) :=
    Undashed.plain (.append (undashed_decimal _) _)
  -- So the group adds plain arguments only.
  have hpushed := ((((((Adds.refl (launch.push "-name" ctx.manifest.spec.name)).push
    (show Plain "-machine".toList by decide) hmachine).push
    (show Plain "-smp".toList by decide) hsmp).push
    (show Plain "-m".toList by decide) hmemory).extend haccel).push
    (show Plain "-cpu".toList by decide) hcpu).push
    (show Plain "-rtc".toList by decide)
    (show Plain "base=utc,driftfix=slew".toList by decide)
  -- Notes add none.
  unfold LaunchContext.machineAndCpu
  dsimp only
  split
  · refine Adds.note ?_ _
    split
    · exact hpushed.note _
    · exact hpushed
  · split
    · exact hpushed.note _
    · exact hpushed

theorem adds_liveForwards {options options' : Str} {next : LaunchArguments}
    (h : ctx.liveForwards launch options = .ok (options', next)) (hoptions : Undashed options) :
    Adds launch next ∧ Undashed options' := by
  unfold LaunchContext.liveForwards at h
  split at h
  · obtain ⟨rfl, rfl⟩ := Prod.mk.inj (Except.ok.inj h)
    exact ⟨.refl _, hoptions⟩
  · obtain ⟨root, -, h⟩ := bind_eq_ok.mp h
    obtain ⟨rfl, rfl⟩ := Prod.mk.inj (Except.ok.inj h)
    refine ⟨(Adds.refl launch).note _, ?_⟩
    exact .append (.append (.append (.append (.append (.append (.append (.append hoptions
      _) _) _) _) _) _) _) _

theorem undashed_hostForwards (forwards : List PortForward) {options : Str}
    (hoptions : Undashed options) :
    Undashed (forwards.foldl (fun options forward => options ++ ',' ::
      LaunchContext.hostForward forward.hostPort.toNat forward.guestPort.toNat) options) := by
  induction forwards generalizing options with
  | nil => exact hoptions
  | cons forward forwards ih => exact ih (hoptions.append _)

theorem adds_network {next : LaunchArguments} {liveShare : Bool}
    (h : ctx.network launch = .ok (next, liveShare)) : Adds launch next := by
  have hnotes : ∀ (forwards : List PortForward) {last : LaunchArguments}, Adds launch last →
      Adds launch (forwards.foldl (fun launch forward =>
        launch.note [.text "published TCP port: 127.0.0.1:",
          .shown (decimal forward.hostPort.toNat), .text " forwards to guest port ",
          .shown (decimal forward.guestPort.toNat)]) last) := by
    intro forwards
    induction forwards with
    | nil => exact fun hlast => hlast
    | cons forward forwards ih => exact fun hlast => ih (hlast.note _)
  unfold LaunchContext.network at h
  obtain ⟨⟨options, noted⟩, hlive, h⟩ := bind_eq_ok.mp h
  obtain ⟨hnoted, hoptions⟩ := adds_liveForwards ctx launch hlive
    (undashed_hostForwards _ (.append (.append (by decide) _) _))
  obtain ⟨rfl, -⟩ := Prod.mk.inj (Except.ok.inj h)
  refine hnotes _ (Adds.note ((hnoted.push ?_ hoptions.plain).push ?_ ?_) _)
  all_goals decide

theorem adds_installSeed {next : LaunchArguments} (h : ctx.installSeed launch = .ok next) :
    Adds launch next := by
  unfold LaunchContext.installSeed at h
  split at h
  · rw [Except.ok.inj h]
    exact .refl _
  · obtain ⟨found, -, h⟩ := bind_eq_ok.mp h
    split at h
    · rw [← Except.ok.inj h]
      exact adds_pushVolume launch _ _ _ (by decide)
    · rw [Except.ok.inj h]
      exact .refl _

theorem adds_identitySeed {next : LaunchArguments} (h : ctx.identitySeed launch = .ok next) :
    Adds launch next := by
  unfold LaunchContext.identitySeed at h
  dsimp only at h
  split at h
  · split at h
    · rw [Except.ok.inj h]
      exact .refl _
    · rw [Except.ok.inj h]
      exact .refl _
    · cases h
  · obtain ⟨found, -, h⟩ := bind_eq_ok.mp h
    split at h
    · rw [← Except.ok.inj h]
      exact adds_pushVolume launch _ _ _ (by decide)
    · rw [Except.ok.inj h]
      exact .refl _

/-- The control sockets: what the matcher looks for, and then plain arguments. -/
theorem adds_controlSockets :
    Adds ((launch.push "-qmp" ("unix:".toList ++
        qemuPath (ctx.instanceDir.join "run/qmp.sock".toList) ++ ",server=on,wait=off".toList)).pushPath
        "-pidfile" (ctx.instanceDir.join "run/qemu.pid".toList)) (ctx.controlSockets launch) := by
  refine (((((Adds.refl _).extend ?_).push ?_ ?_).push ?_ ?_).push ?_ ?_).push ?_ ?_
  · decide
  all_goals first
    | decide
    | exact Undashed.plain (.append (by decide) _)

end Groups

/-- The arguments of a plan, with what the matcher looks for in its places. -/
structure Identified (ctx : LaunchContext) (arguments : List PathBuf) (early late : List Str) :
    Prop where
  arguments_eq : arguments =
    (["-name".toList, ctx.manifest.spec.name] ++ early ++ ["-qmp".toList, "unix:".toList ++
      qemuPath (ctx.instanceDir.join "run/qmp.sock".toList) ++ ",server=on,wait=off".toList,
      "-pidfile".toList]).map PathBuf.ofStr ++ ctx.instanceDir.join "run/qemu.pid".toList ::
      late.map PathBuf.ofStr
  early_plain : ∀ argument ∈ early, Plain argument
  late_plain : ∀ argument ∈ late, Plain argument

theorem identified_of_collect {ctx : LaunchContext} {launch : LaunchArguments}
    {missing : List String} (h : ctx.collect = .ok (launch, missing)) :
    ∃ early late, Identified ctx launch.arguments early late := by
  unfold LaunchContext.collect at h
  obtain ⟨⟨networked, liveShare⟩, hnetwork, h⟩ := bind_eq_ok.mp h
  obtain ⟨seeded, hseeded, h⟩ := bind_eq_ok.mp h
  obtain ⟨identity, hidentity, h⟩ := bind_eq_ok.mp h
  have hlast : (ctx.missingCapabilities (ctx.profileNotes (ctx.controlSockets
      (ctx.vtpm identity))) liveShare).1 = launch := congrArg Prod.fst (Except.ok.inj h)
  -- The groups before the control sockets add only plain arguments after the name.
  obtain ⟨early, hearly, hearlyPlain⟩ := (((((((adds_machineAndCpu ctx {}).trans
    (adds_firmware ctx _)).trans (adds_systemDisk ctx _)).trans
    (adds_network ctx _ hnetwork)).trans (adds_inputAndPlatformDevices _)).trans
    (adds_bootMedia ctx _)).trans (adds_installSeed ctx _ hseeded)).trans
    ((adds_identitySeed ctx _ hidentity).trans (adds_vtpm ctx _))
  obtain ⟨late, hlate, hlatePlain⟩ := ((adds_controlSockets ctx (ctx.vtpm identity)).trans
    (adds_profileNotes ctx _)).trans (adds_missingCapabilities ctx _ liveShare)
  refine ⟨early, late, ?_, hearlyPlain, hlatePlain⟩
  rw [← hlast, hlate]
  simp [LaunchArguments.pushPath, LaunchArguments.push, LaunchArguments.extend, hearly]

theorem identified_of_plan {planner : QemuPlanner} {fs : HostFs} {manifest : InstanceManifest}
    {instanceDir : PathBuf} {phase : LaunchPhase} {plan : CommandPlan}
    (h : planner.plan fs manifest instanceDir phase = .ok plan) :
    manifest.spec.validate = .ok () ∧
      plan.program = planner.capabilities.qemuSystem.getD (.ofStr "qemu-system-x86_64".toList) ∧
      ∃ early late, Identified { fs, planner, manifest, instanceDir, phase } plan.arguments early
        late := by
  unfold QemuPlanner.plan at h
  obtain ⟨⟨⟩, hcheck, h⟩ := bind_eq_ok.mp h
  obtain ⟨⟨launch, missing⟩, hcollect, h⟩ := bind_eq_ok.mp h
  have hplan := Except.ok.inj h
  refine ⟨?_, by rw [← hplan], by rw [← hplan]; exact identified_of_collect hcollect⟩
  unfold LaunchContext.check at hcheck
  split at hcheck
  · obtain ⟨⟨⟩, hvalid, -⟩ := bind_eq_ok.mp hcheck
    exact hvalid
  · exact hcheck

/-! ## The directories of a store -/

/-- The path of a file in the directory of an instance, as text. -/
def instanceFile (root name file : Str) : Str :=
  joinPath '/' root "instances".toList ++ '/' :: (name ++ '/' :: file)

section Store

variable {store : StateStore} {root name : Str} {dir : PathBuf}

/-- Files of an instance are where their names say. -/
theorem join_instanceDir (hroot : store.root = .ofStr root)
    (hdir : store.instanceDir name = .ok dir) {file : Str}
    (hfile : isAbsolute '/' file = false) :
    dir.join file = .ofStr (instanceFile root name file) ∧ isName 63 name = true := by
  obtain ⟨⟨⟩, hname, hdir⟩ := bind_eq_ok.mp hdir
  simp only [validateInstanceName, rejectIf_eq_ok, Bool.not_eq_false] at hname
  -- A name has no slash in it, so that joining it goes down by one directory.
  have hslash : '/' ∉ name := not_mem_of_isName hname rfl (by decide)
  have hne : name ≠ [] := by
    rintro rfl
    cases hname
  have hnameRel : isAbsolute '/' name = false := by
    rw [isAbsolute, beq_eq_false_iff_ne]
    intro hhead
    exact hslash (List.mem_of_mem_head? hhead)
  -- Neither does the directory of the instances end with one.
  have hbase : (joinPath '/' root "instances".toList).getLast? = some 's' := by
    rw [getLast?_joinPath '/' (by decide)]
    decide
  have hbaseNe : joinPath '/' root "instances".toList ≠ [] := by
    intro hnil
    rw [hnil] at hbase
    cases hbase
  refine ⟨?_, hname⟩
  rw [← Except.ok.inj hdir, hroot, PathBuf.join_ofStr, PathBuf.join_ofStr, PathBuf.join_ofStr,
    joinPath_of_inner '/' hnameRel hbaseNe (by rw [hbase]; decide),
    joinPath_of_inner '/' hfile (by simp)]
  · rw [instanceFile, List.append_assoc, List.cons_append]
  · obtain ⟨c, rest, rfl⟩ := List.exists_cons_of_ne_nil hne
    rw [List.getLast?_append_of_ne_nil _ (by simp), List.getLast?_cons_cons]
    exact fun hlast => hslash (List.mem_of_getLast? hlast)

theorem undashed_instanceFile (habsolute : root.head? = some '/') (name file : Str) :
    Undashed (instanceFile root name file) := by
  have hrel : isAbsolute '/' "instances".toList = false := by decide
  cases root with
  | nil => cases habsolute
  | cons c root =>
    have hbase : Undashed (c :: root) := by
      rw [Option.some.inj habsolute]
      rfl
    refine .append ?_ _
    rw [joinPath, if_neg (by rw [hrel]; decide)]
    split
    · exact hbase.append _
    · exact hbase.append _

theorem instanceFile_inj {other file : Str}
    (h : instanceFile root other file = instanceFile root name file) : other = name := by
  have hrest := List.append_cancel_left h
  rw [List.cons.injEq] at hrest
  exact List.append_cancel_right hrest.2

/-- Only the state directory can bring a comma into these paths. -/
theorem comma_mem_instanceFile {file : Str} (hname : isName 63 name = true)
    (hfile : ',' ∉ file) : ',' ∈ instanceFile root name file ↔ ',' ∈ root := by
  have hcomma : ',' ∉ name := not_mem_of_isName hname rfl (by decide)
  have hinstances : ',' ∉ "instances".toList := by decide
  have hrel : isAbsolute '/' "instances".toList = false := by decide
  have hbase : ',' ∈ joinPath '/' root "instances".toList ↔ ',' ∈ root := by
    rw [mem_joinPath '/' (by decide) hrel, or_iff_left hinstances]
  rw [instanceFile, List.mem_append, hbase]
  simp [hcomma, hfile]

end Store

@[simp] theorem qemuOptionText_cons (c : Char) (text : Str) :
    qemuOptionText (c :: text) = (if c = ',' then [',', ','] else [c]) ++ qemuOptionText text :=
  List.flatMap_cons

theorem length_qemuOptionText (text : Str) :
    (qemuOptionText text).length = text.length + text.count ',' := by
  induction text with
  | nil => rfl
  | cons c text ih =>
    rw [qemuOptionText_cons, List.length_append, ih, List.length_cons, List.count_cons]
    by_cases hc : c = ','
    · simp only [hc, if_true, beq_self_eq_true, List.length_cons, List.length_nil]
      omega
    · simp only [hc, if_false, beq_iff_eq, List.length_cons, List.length_nil]
      omega

/-- Doubling the commas changes exactly the texts that have one. -/
theorem qemuOptionText_eq_self_iff {text : Str} : qemuOptionText text = text ↔ ',' ∉ text := by
  constructor
  · intro heq
    have hlength := length_qemuOptionText text
    rw [heq] at hlength
    exact List.count_eq_zero.mp (by omega)
  · intro hcomma
    induction text with
    | nil => rfl
    | cons c text ih =>
      simp only [List.mem_cons, not_or] at hcomma
      rw [qemuOptionText_cons, if_neg (Ne.symm hcomma.1), ih hcomma.2, List.singleton_append]

/-! ## Plans and the matcher -/

theorem Undashed.ne_nil {text : Str} (h : Undashed text) : text ≠ [] := by
  rintro rfl
  cases h

theorem plain_of_isQemuSystem {program : Str} (h : isQemuSystem (.ofStr program) = true) :
    Plain program ∧ program ≠ [] := by
  constructor
  · intro hmem
    simp only [identityOptions, List.mem_cons, List.not_mem_nil, or_false] at hmem
    rcases hmem with rfl | rfl | rfl <;> exact absurd h (by decide)
  · rintro rfl
    exact absurd h (by decide)

/-- A command line with each of the options once, among plain arguments, is matched by their
    values. -/
theorem matches_iff {line : List OsUnit} {program name qmp pidFile : Str}
    {early late : List Str} (hline : shownArguments line =
      [program, "-name".toList, name] ++ early ++ ["-qmp".toList, qmp, "-pidfile".toList, pidFile]
        ++ late)
    (hprogram : isQemuSystem (.ofStr program) = true) (hname : Plain name) (hqmp : Plain qmp)
    (hpidFile : Plain pidFile) (hearly : ∀ argument ∈ early, Plain argument)
    (hlate : ∀ argument ∈ late, Plain argument) (dir : PathBuf) (other : Str) :
    qemuCommandMatchesInstance line dir other = true ↔
      name = other ∧
      qmp = "unix:".toList ++ (dir.join "run/qmp.sock".toList).display ++
        ",server=on,wait=off".toList ∧
      pidFile = (dir.join "run/qemu.pid".toList).display := by
  have hprogramPlain := (plain_of_isQemuSystem hprogram).1
  -- No other argument is one of the three options.
  have hother : ∀ argument ∈ [program, name, qmp, pidFile] ++ early ++ late,
      argument ≠ "-name".toList ∧ argument ≠ "-qmp".toList ∧ argument ≠ "-pidfile".toList := by
    intro argument hmem
    have hplain : Plain argument := by
      simp only [List.mem_append, List.mem_cons, List.not_mem_nil, or_false] at hmem
      rcases hmem with ((rfl | rfl | rfl | rfl) | hmem) | hmem
      · exact hprogramPlain
      · exact hname
      · exact hqmp
      · exact hpidFile
      · exact hearly argument hmem
      · exact hlate argument hmem
    simpa only [Plain, identityOptions, List.mem_cons, List.not_mem_nil, or_false, not_or]
      using hplain
  -- So each option is there once, with its value.
  obtain ⟨hasName, hasQmp, hasPidFile⟩ := commandHasExactOption_three (by decide)
    (by decide) (by decide) hother
  -- What is left is the program, which is a QEMU.
  generalize hall : [program, "-name".toList, name] ++ early ++ ["-qmp".toList, qmp,
    "-pidfile".toList, pidFile] ++ late = arguments at hline hasName hasQmp hasPidFile
  have hhead : arguments.head? = some program := by rw [← hall]; rfl
  simp only [qemuCommandMatchesInstance, hline, hhead, hprogram, Bool.true_eq_false, if_false,
    Bool.and_eq_true, hasName, hasQmp, hasPidFile, and_assoc]

section Store

variable {store : StateStore} {root : Str} {manifest : InstanceManifest} {dir : PathBuf}

/-- Every program that the planner may start is called `qemu-system-*`. -/
def NamedQemu (capabilities : HostCapabilities) : Prop :=
  ∀ path ∈ capabilities.qemuSystem, isQemuSystem path = true

/-- The text of a planned command line. -/
theorem shownArguments_plan {planner : QemuPlanner} {fs : HostFs} {phase : LaunchPhase}
    {plan : CommandPlan} (hplan : planner.plan fs manifest dir phase = .ok plan)
    (hroot : store.root = .ofStr root) (hdir : store.instanceDir manifest.spec.name = .ok dir)
    (habsolute : root.head? = some '/')
    (hqemu : NamedQemu planner.capabilities)
    (hnul : ∀ argument ∈ plan.program :: plan.arguments, nul ∉ argument.units) :
    ∃ program early late, isQemuSystem (.ofStr program) = true ∧
      (∀ argument ∈ early, Plain argument) ∧ (∀ argument ∈ late, Plain argument) ∧
      shownArguments (commandLine plan.program plan.arguments) =
        [program, "-name".toList, manifest.spec.name] ++ early ++ ["-qmp".toList,
          "unix:".toList ++ qemuOptionText (instanceFile root manifest.spec.name
            "run/qmp.sock".toList) ++ ",server=on,wait=off".toList,
          "-pidfile".toList, instanceFile root manifest.spec.name "run/qemu.pid".toList] ++ late := by
  -- The arguments of a plan are the two that identify it, between plain ones.
  obtain ⟨-, hprogram, early, late, hidentified⟩ := identified_of_plan hplan
  obtain ⟨hqmp, hname⟩ := join_instanceDir hroot hdir
    (show isAbsolute '/' "run/qmp.sock".toList = false by decide)
  have hpid := (join_instanceDir hroot hdir
    (show isAbsolute '/' "run/qemu.pid".toList = false by decide)).1
  -- The program is a QEMU by its name, found or not.
  have hqemuProgram : isQemuSystem (.ofStr plan.program.display) = true := by
    refine isQemuSystem_display ?_
    rw [hprogram]
    cases hpath : planner.capabilities.qemuSystem with
    | none => decide
    | some path => exact hqemu path hpath
  -- The arguments as texts.
  have hdisplay : plan.arguments.map PathBuf.display =
      ["-name".toList, manifest.spec.name] ++ early ++ ["-qmp".toList, "unix:".toList ++
        qemuOptionText (instanceFile root manifest.spec.name "run/qmp.sock".toList) ++
        ",server=on,wait=off".toList, "-pidfile".toList,
        instanceFile root manifest.spec.name "run/qemu.pid".toList] ++ late := by
    have hid : PathBuf.display ∘ PathBuf.ofStr = id := funext PathBuf.display_ofStr
    rw [hidentified.arguments_eq, List.map_append, List.map_map, hid, List.map_id,
      List.map_cons, List.map_map, hid, List.map_id]
    dsimp only
    rw [hpid, PathBuf.display_ofStr, qemuPath, hqmp, PathBuf.display_ofStr]
    simp only [List.append_assoc, List.cons_append, List.nil_append]
  -- Empty arguments leave no trace in a command line.
  refine ⟨plan.program.display, early.filter (· ≠ []), late.filter (· ≠ []), hqemuProgram,
    fun argument hmem => hidentified.early_plain argument (List.mem_filter.mp hmem).1,
    fun argument hmem => hidentified.late_plain argument (List.mem_filter.mp hmem).1, ?_⟩
  -- None of the identifying arguments is empty, so each of them is shown.
  have hqmpUndashed : Undashed ("unix:".toList ++ qemuOptionText (instanceFile root
      manifest.spec.name "run/qmp.sock".toList) ++ ",server=on,wait=off".toList) :=
    .append (.append (by decide) _) _
  have hkeep : ∀ {texts : List Str}, (∀ text ∈ texts, text ≠ []) →
      texts.filter (· ≠ []) = texts := fun hne =>
    List.filter_eq_self.mpr fun text htext => decide_eq_true (hne text htext)
  rw [shownArguments_commandLine hnul, List.map_cons, hdisplay, ← List.cons_append,
    ← List.cons_append, ← List.cons_append, List.filter_append, List.filter_append,
    List.filter_append]
  -- The program and the name, then the socket and the file of the process.
  congr 2
  · congr 1
    refine hkeep ?_
    simp only [List.mem_cons, List.not_mem_nil, or_false, forall_eq_or_imp, forall_eq]
    exact ⟨(plain_of_isQemuSystem hqemuProgram).2, by decide,
      (undashed_of_isName hname).ne_nil⟩
  · refine hkeep ?_
    simp only [List.mem_cons, List.not_mem_nil, or_false, forall_eq_or_imp, forall_eq]
    exact ⟨by decide, hqmpUndashed.ne_nil, by decide,
      (undashed_instanceFile habsolute _ _).ne_nil⟩

/-- What the matcher compares in a planned command line. -/
theorem plan_matches_iff {planner : QemuPlanner} {fs : HostFs} {phase : LaunchPhase}
    {plan : CommandPlan} (hplan : planner.plan fs manifest dir phase = .ok plan)
    (hroot : store.root = .ofStr root) (hdir : store.instanceDir manifest.spec.name = .ok dir)
    (habsolute : root.head? = some '/') (hqemu : NamedQemu planner.capabilities)
    (hnul : ∀ argument ∈ plan.program :: plan.arguments, nul ∉ argument.units)
    {name other : Str} {dir' : PathBuf} (hdir' : store.instanceDir name = .ok dir') :
    qemuCommandMatchesInstance (commandLine plan.program plan.arguments) dir' other = true ↔
      manifest.spec.name = other ∧
      qemuOptionText (instanceFile root manifest.spec.name "run/qmp.sock".toList) =
        instanceFile root name "run/qmp.sock".toList ∧
      manifest.spec.name = name := by
  obtain ⟨program, early, late, hprogram, hearly, hlate, hline⟩ :=
    shownArguments_plan hplan hroot hdir habsolute hqemu hnul
  have hqmpRel : isAbsolute '/' "run/qmp.sock".toList = false := by decide
  have hpidRel : isAbsolute '/' "run/qemu.pid".toList = false := by decide
  have hname := (join_instanceDir hroot hdir hqmpRel).2
  rw [matches_iff hline hprogram (undashed_of_isName hname).plain
    (Undashed.append (.append (by decide) _) _).plain
    (undashed_instanceFile habsolute _ _).plain hearly hlate,
    (join_instanceDir hroot hdir' hqmpRel).1, (join_instanceDir hroot hdir' hpidRel).1,
    PathBuf.display_ofStr, PathBuf.display_ofStr]
  constructor
  · rintro ⟨hother, hqmp, hpid⟩
    exact ⟨hother, List.append_cancel_left (List.append_cancel_right hqmp), instanceFile_inj hpid⟩
  · rintro ⟨hother, hqmp, rfl⟩
    exact ⟨hother, by rw [hqmp], rfl⟩

/-- The doubled socket path is the path when it has no comma to double. -/
theorem qmpText_eq_iff (hdir : store.instanceDir manifest.spec.name = .ok dir) :
    qemuOptionText (instanceFile root manifest.spec.name "run/qmp.sock".toList) =
      instanceFile root manifest.spec.name "run/qmp.sock".toList ↔ ',' ∉ root := by
  obtain ⟨⟨⟩, hname, -⟩ := bind_eq_ok.mp hdir
  simp only [validateInstanceName, rejectIf_eq_ok, Bool.not_eq_false] at hname
  rw [qemuOptionText_eq_self_iff, comma_mem_instanceFile hname (by decide)]

/-- A planned command line is recognised as that of its own instance, and of no other in the
    store, exactly when the path of the state directory has no comma. -/
theorem plan_matches_own_instance_iff {planner : QemuPlanner} {fs : HostFs}
    {phase : LaunchPhase} {plan : CommandPlan}
    (hplan : planner.plan fs manifest dir phase = .ok plan)
    (hroot : store.root = .ofStr root) (hdir : store.instanceDir manifest.spec.name = .ok dir)
    (habsolute : root.head? = some '/') (hqemu : NamedQemu planner.capabilities)
    (hnul : ∀ argument ∈ plan.program :: plan.arguments, nul ∉ argument.units) :
    (qemuCommandMatchesInstance (commandLine plan.program plan.arguments) dir
        manifest.spec.name = true ∧
      ∀ name other dir', store.instanceDir name = .ok dir' →
        (name, other) ≠ (manifest.spec.name, manifest.spec.name) →
        qemuCommandMatchesInstance (commandLine plan.program plan.arguments) dir' other =
          false) ↔
      ',' ∉ root := by
  have hown : qemuCommandMatchesInstance (commandLine plan.program plan.arguments) dir
      manifest.spec.name = true ↔ ',' ∉ root := by
    rw [plan_matches_iff hplan hroot hdir habsolute hqemu hnul hdir, ← qmpText_eq_iff hdir]
    simp
  constructor
  · exact fun h => hown.mp h.1
  · refine fun hcomma => ⟨hown.mpr hcomma, fun name other dir' hdir' hne => ?_⟩
    rw [Bool.eq_false_iff]
    intro hmatch
    obtain ⟨hother, -, hname⟩ :=
      (plan_matches_iff hplan hroot hdir habsolute hqemu hnul hdir').mp hmatch
    exact hne (Prod.ext hname.symm hother.symm)

end Store

/-! ## A demo host -/

/-- A host with QEMU and none of the files that a launch would like to find. -/
def demoPlanner : QemuPlanner :=
  .new { platform := .linux, qemuSystem := some (.ofStr "/usr/bin/qemu-system-x86_64".toList) }

/-- A file system in which nothing is found. -/
def emptyFs : HostFs where
  symlinkMetadata _ := .error .notFound
  canonicalize _ := .error .notFound
  isFile _ := false
  isDir _ := false

/-- No argument of the plan has a NUL. -/
def hasNoNul (plan : CommandPlan) : Bool :=
  (plan.program :: plan.arguments).all fun argument => !argument.units.contains nul

/-- The plan of the demo instance in a store of this root. -/
def demoPlan (root : Str) : Result (PathBuf × CommandPlan) := do
  let dir ← ({ root := .ofStr root } : StateStore).instanceDir (demoManifest []).spec.name
  let plan ← demoPlanner.plan emptyFs (demoManifest []) dir .run
  return (dir, plan)

theorem exists_demo_plan {root : Str}
    (h : (demoPlan root).toOption.any (fun planned => hasNoNul planned.2) = true) :
    ∃ dir plan,
      ({ root := .ofStr root } : StateStore).instanceDir (demoManifest []).spec.name = .ok dir ∧
      demoPlanner.plan emptyFs (demoManifest []) dir .run = .ok plan ∧
      ∀ argument ∈ plan.program :: plan.arguments, nul ∉ argument.units := by
  cases hplanned : demoPlan root with
  | error e =>
    rw [hplanned] at h
    cases h
  | ok planned =>
    rw [hplanned] at h
    obtain ⟨dir, hdir, hrest⟩ := bind_eq_ok.mp hplanned
    obtain ⟨plan, hplan, hpure⟩ := bind_eq_ok.mp hrest
    have hnul : hasNoNul plan = true := by
      rw [← Except.ok.inj hpure] at h
      exact h
    refine ⟨dir, plan, hdir, hplan, fun argument hargument => ?_⟩
    simpa using List.all_eq_true.mp hnul argument hargument

theorem demoPlan_hasNoNul : ∀ root ∈ ["/state".toList, "/sta,te".toList],
    (demoPlan root).toOption.any (fun planned => hasNoNul planned.2) = true := by
  decide +kernel

theorem namedQemu_demoPlanner : NamedQemu demoPlanner.capabilities := by
  rintro path hpath
  cases hpath
  decide

theorem demo_plan_matches_itself :
    ∃ dir plan, demoPlanner.plan emptyFs (demoManifest []) dir .run = .ok plan ∧
      qemuCommandMatchesInstance (commandLine plan.program plan.arguments) dir
        (demoManifest []).spec.name = true := by
  obtain ⟨dir, plan, hdir, hplan, hnul⟩ :=
    exists_demo_plan (demoPlan_hasNoNul "/state".toList List.mem_cons_self)
  have hroot : ({ root := .ofStr "/state".toList } : StateStore).root =
      .ofStr "/state".toList := rfl
  have habsolute : "/state".toList.head? = some '/' := by decide
  have hcomma : ',' ∉ "/state".toList := by decide
  exact ⟨dir, plan, hplan, ((plan_matches_own_instance_iff hplan hroot hdir habsolute
    namedQemu_demoPlanner hnul).mpr hcomma).1⟩

/-- With a comma in the state directory the process is not recognised as its instance. -/
theorem demo_plan_with_comma_unmatched :
    ∃ dir plan, ({ root := .ofStr "/sta,te".toList } : StateStore).instanceDir
        (demoManifest []).spec.name = .ok dir ∧
      demoPlanner.plan emptyFs (demoManifest []) dir .run = .ok plan ∧
      (∀ argument ∈ plan.program :: plan.arguments, nul ∉ argument.units) ∧
      qemuCommandMatchesInstance (commandLine plan.program plan.arguments) dir
        (demoManifest []).spec.name = false := by
  obtain ⟨dir, plan, hdir, hplan, hnul⟩ :=
    exists_demo_plan (demoPlan_hasNoNul "/sta,te".toList
      (List.mem_cons_of_mem _ List.mem_cons_self))
  have hroot : ({ root := .ofStr "/sta,te".toList } : StateStore).root =
      .ofStr "/sta,te".toList := rfl
  have habsolute : "/sta,te".toList.head? = some '/' := by decide
  have hcomma : ',' ∈ "/sta,te".toList := by decide
  refine ⟨dir, plan, hdir, hplan, hnul, ?_⟩
  rw [Bool.eq_false_iff]
  intro hmatch
  obtain ⟨-, hqmp, -⟩ := (plan_matches_iff hplan hroot hdir habsolute namedQemu_demoPlanner
    hnul hdir).mp hmatch
  exact (qmpText_eq_iff hdir).mp hqmp hcomma

end Lsw.Daemon
