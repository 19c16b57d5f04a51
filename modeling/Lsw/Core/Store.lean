import Lsw.Lib.Effect
import Lsw.Lib.Run
import Lsw.Core.ManifestRoundTrip

/-!
# The State Store

`StateStore` (`store.rs`) keeps one directory for each instance, with its manifest and its
agent token.  `create` and `update` refuse a manifest that asks for a host port another
instance reserves.

Here the calls are made one at a time and the file system does what it is asked, so that the
only errors are those of the checks; the ports that can be bound are the environment's
choice, anew for each call.  `Sound` is the invariant: every directory holds the text of a
manifest of its own name, and no host port is reserved twice.
-/

namespace Lsw.Core

open Lsw.Lib

/-! ## Stores -/

/-- An instance directory: the contents of `MANIFEST_FILE` and `AGENT_TOKEN_FILE`. -/
structure InstanceDir where
  manifest : Option Str := none
  token : Option Str := none
  deriving DecidableEq

/-- `StateStore` and the directory below its root. -/
structure StateStore where
  root : PathBuf
  instances : List (Str × InstanceDir) := []
  defaultInstance : Option Str := none
  deriving DecidableEq

/-- `Path::join`, of a string. -/
def PathBuf.join (base : PathBuf) (name : Str) : PathBuf :=
  ⟨joinPath (.char '/') base.units (PathBuf.ofStr name).units⟩

theorem PathBuf.join_ofStr (base name : Str) :
    (PathBuf.ofStr base).join name = .ofStr (joinPath '/' base name) := by
  have hsep : ∀ c : Char, OsUnit.char c = .char '/' ↔ c = '/' := by simp
  rw [PathBuf.join, PathBuf.ofStr, PathBuf.ofStr, joinPath_map hsep]
  rfl

/-- `Path::strip_prefix`, as components. -/
def PathBuf.stripPrefix (path base : PathBuf) : Option (List (Component OsUnit)) :=
  if path.startsWith base then some (path.components.drop base.components.length) else none

theorem PathBuf.stripPrefix_eq_some {path base : PathBuf} {rest : List (Component OsUnit)} :
    path.stripPrefix base = some rest ↔ path.components = base.components ++ rest := by
  have hstarts : path.startsWith base = true ↔ base.components <+: path.components :=
    List.isPrefixOf_iff_prefix
  rw [PathBuf.stripPrefix, Option.ite_none_right_eq_some, hstarts, Option.some.injEq]
  constructor
  · rintro ⟨⟨rest, hrest⟩, rfl⟩
    rw [← hrest, List.drop_left]
  · intro h
    exact ⟨⟨rest, h.symm⟩, by rw [h, List.drop_left]⟩

/-- The host ports a manifest reserves. -/
def InstanceManifest.hostPorts (manifest : InstanceManifest) : List UInt16 :=
  manifest.controlPort :: manifest.spec.portForwards.map PortForward.hostPort

namespace StateStore

/-- `StateStore::instance_dir`. -/
def instanceDir (store : StateStore) (name : Str) : Result PathBuf := do
  validateInstanceName name
  return (store.root.join "instances".toList).join name

/-- The directory of an instance, if it exists. -/
def dir? (store : StateStore) (name : Str) : Option InstanceDir := store.instances.lookup name

/-- `StateStore::list`.  The directory is read in any order; here it is that of the list. -/
def list (store : StateStore) : Result (List InstanceManifest) := do
  let texts := store.instances.filterMap fun entry => entry.2.manifest
  let manifests ← texts.mapM InstanceManifest.decode
  return manifests.mergeSort fun left right => decide (bytes left.spec.name ≤ bytes right.spec.name)

/-- `StateStore::load`. -/
def load (store : StateStore) (name : Str) : Result InstanceManifest := do
  let _ ← store.instanceDir name
  let dir ← okOr (store.dir? name) (.instanceNotFound name)
  let text ← okOr dir.manifest (.instanceNotFound name)
  InstanceManifest.decode text

/-- `byte.is_ascii_hexdigit() && !byte.is_ascii_uppercase()`. -/
def isLowerHexDigit (byte : UInt8) : Bool := (48 ≤ byte && byte ≤ 57) || (97 ≤ byte && byte ≤ 102)

/-- `StateStore::read_agent_token`. -/
def readAgentToken (store : StateStore) (name : Str) : Result Str := do
  let path ← store.instanceDir name
  let dir ← okOr (store.dir? name) (.instanceNotFound name)
  let contents ← okOr dir.token (.invalidValue "agent token"
    [.shown (path.join "agent.token".toList).display,
      .text " is missing or is not a regular file"])
  let token := trim contents
  rejectIf (¬ ((bytes token).length = 64 ∧ (bytes token).all isLowerHexDigit))
    (.invalidValue "agent token" [.text "must contain 64 lowercase hexadecimal characters"])
  return token

/-- One existing instance in the loop of `ensure_host_ports_available`. -/
def checkPorts (requested : List UInt16) (excluded : Option Str) (existing : InstanceManifest) :
    Result Unit :=
  if excluded = some existing.spec.name then .ok ()
  else
    match requested.find? fun port => existing.hostPorts.contains port with
    | some port => .error (.invalidValue "host port"
        [.text "instance ", .debug existing.spec.name, .text " already reserves ",
          .shown (decimal port.toNat),
          .text "; choose another instance name or published port"])
    | none => .ok ()

/-- `StateStore::ensure_host_ports_available`. -/
def ensureHostPortsAvailable (store : StateStore) (manifest : InstanceManifest)
    (excluded : Option Str) : Result Unit := do
  let existing ← store.list
  forEach existing (fun _ => checkPorts manifest.hostPorts excluded) ()

/-- `TcpListener::bind` of one port; `bindError` says which ports cannot be bound, and why. -/
def reservePort (bindError : UInt16 → Option String) (port : UInt16) : Result Unit :=
  match bindError port with
  | none => .ok ()
  | some error => .error (.invalidValue "host port"
      [.text "127.0.0.1:", .shown (decimal port.toNat), .text " cannot be reserved: ",
        .text error])

/-- `reserve_host_ports`. -/
def reserveHostPorts (bindError : UInt16 → Option String) (manifest : InstanceManifest) :
    Result Unit :=
  forEach manifest.hostPorts (fun _ => reservePort bindError) ()

/-- `fs::create_dir` of a directory that does not exist. -/
def makeDir (store : StateStore) (name : Str) : StateStore :=
  { store with instances := store.instances ++ [(name, {})] }

/-- Change the files of one directory. -/
def changeDir (store : StateStore) (name : Str) (f : InstanceDir → InstanceDir) : StateStore :=
  { store with
    instances := store.instances.map fun entry =>
      if entry.1 = name then (entry.1, f entry.2) else entry }

/-- `write_atomic` of the manifest. -/
def writeManifest (store : StateStore) (name text : Str) : StateStore :=
  store.changeDir name fun dir => { dir with manifest := some text }

/-- `write_new_private` of the agent token. -/
def writeToken (store : StateStore) (name token : Str) : StateStore :=
  store.changeDir name fun dir => { dir with token := some (token ++ ['\n']) }

/-- `fs::remove_dir_all` of an instance directory. -/
def removeDir (store : StateStore) (name : Str) : StateStore :=
  { store with instances := store.instances.filter fun entry => entry.1 ≠ name }

/-- Forget the default instance when it is the one that was removed. -/
def dropDefault (store : StateStore) (name : Str) : StateStore :=
  if store.defaultInstance.any (trim · == name) then { store with defaultInstance := none }
  else store

/-! ## Calls -/

/-- What the environment contributes to a `create`: the ports that cannot be bound, and the
    random token. -/
structure CreateEnv where
  bindError : UInt16 → Option String
  token : Str

/-- `StateStore::create`. -/
def create (env : CreateEnv) (manifest : InstanceManifest) : Effect StateStore LswError PathBuf :=
  do
    let encoded ← Effect.check fun _ => manifest.encode
    let path ← Effect.check fun store => store.instanceDir manifest.spec.name
    Effect.check fun store => rejectIf (store.dir? manifest.spec.name).isSome
      (.instanceAlreadyExists path)
    Effect.check fun store => store.ensureHostPortsAvailable manifest none
    Effect.check fun _ => reserveHostPorts env.bindError manifest
    Effect.change fun store => store.makeDir manifest.spec.name
    Effect.change fun store => store.writeManifest manifest.spec.name encoded
    Effect.change fun store => store.writeToken manifest.spec.name env.token
    return path

/-- `StateStore::update`. -/
def update (manifest : InstanceManifest) : Effect StateStore LswError Unit := do
  let encoded ← Effect.check fun _ => manifest.encode
  let _ ← Effect.check fun store => store.instanceDir manifest.spec.name
  Effect.check fun store => rejectIf (store.dir? manifest.spec.name).isNone
    (.instanceNotFound manifest.spec.name)
  Effect.check fun store => store.ensureHostPortsAvailable manifest (some manifest.spec.name)
  Effect.change fun store => store.writeManifest manifest.spec.name encoded

/-- The states in which `remove` refuses to act. -/
def isActive : InstanceState → Bool
  | .installing | .running | .suspended => true
  | _ => false

/-- `StateStore::remove`. -/
def remove (name : Str) : Effect StateStore LswError Unit := do
  let _ ← Effect.check fun store => store.instanceDir name
  Effect.check fun store => rejectIf (store.dir? name).isNone (.instanceNotFound name)
  let manifest ← Effect.check fun store => store.load name
  Effect.check fun _ => rejectIf (isActive manifest.state) (.invalidValue "instance state"
    [.text "instance ", .debug name, .text " is ", .text manifest.state.text,
      .text "; shut it down before removing it"])
  Effect.change fun store => store.removeDir name
  Effect.change fun store => store.dropDefault name

end StateStore

/-! ## Stored manifests -/

/-- The directory holds a text that was written for the manifest or that is read as it. -/
def Stores (entry : Str × InstanceDir) (manifest : InstanceManifest) : Prop :=
  ∃ text, entry.2.manifest = some text ∧
    (manifest.encode = .ok text ∨ InstanceManifest.decode text = .ok manifest)

/-- A directory of this name stores the manifest. -/
def StoresAt (store : StateStore) (name : Str) (manifest : InstanceManifest) : Prop :=
  ∃ entry ∈ store.instances, entry.1 = name ∧ Stores entry manifest

/-- The directory holds the text of a manifest of its own name. -/
structure Holds (entry : Str × InstanceDir) (manifest : InstanceManifest) : Prop where
  name_eq : entry.1 = manifest.spec.name
  text : ∃ text, entry.2.manifest = some text ∧ manifest.encode = .ok text

/-- Two stored manifests that may stand side by side. -/
structure PortsApart (a b : InstanceManifest) : Prop where
  name_ne : a.spec.name ≠ b.spec.name
  disjoint : a.hostPorts.Disjoint b.hostPorts

/-- The invariant of the store, with the manifests whose texts it holds. -/
structure SoundWith (store : StateStore) (manifests : List InstanceManifest) : Prop where
  holds : List.Forall₂ Holds store.instances manifests
  nodup : ∀ manifest ∈ manifests, manifest.hostPorts.Nodup
  apart : manifests.Pairwise PortsApart

/-- Writing the current version is all `encode` does with the version. -/
theorem encode_with_version (manifest : InstanceManifest) (version : UInt32) :
    ({ manifest with version } : InstanceManifest).encode = manifest.encode := rfl

/-- A stored text that can be read is read as the manifest it was written for. -/
theorem decode_stored {manifest read : InstanceManifest} {text : Str}
    (hencode : manifest.encode = .ok text) (hdecode : InstanceManifest.decode text = .ok read) :
    read = { manifest with version := manifestVersion } := by
  have hport := controlPort_of_decode_encode hencode hdecode
  have hshares := length_folderShares_of_decode_encode hencode hdecode
  have hcurrent : InstanceManifest.decode text =
      .ok { manifest with version := manifestVersion } :=
    decode_encode ((encode_with_version manifest manifestVersion).trans hencode)
      ⟨rfl, hport, hshares⟩
  rw [hdecode, Except.ok.injEq] at hcurrent
  exact hcurrent

theorem isReservedPort_ofNat {n : Nat}
    (h : n < agentControlPortEndExclusive - agentControlPortStart) :
    isReservedPort (UInt16.ofNat (agentControlPortStart + n)) = true := by
  simp only [agentControlPortStart, agentControlPortEndExclusive] at h
  have hnat : (UInt16.ofNat (agentControlPortStart + n)).toNat = 42000 + n :=
    UInt16.toNat_ofNat_of_lt (by rw [UInt16.size, agentControlPortStart]; omega)
  rw [isReservedPort, hnat, Bool.and_eq_true, decide_eq_true_eq, decide_eq_true_eq,
    agentControlPortStart, agentControlPortEndExclusive]
  omega

theorem controlPort_reserved {name : Str} {port : UInt16}
    (h : controlPortForInstance name = .ok port) : isReservedPort port = true := by
  simp only [controlPortForInstance, bind_eq_ok, pure_eq_ok_iff] at h
  obtain ⟨-, -, rfl⟩ := h
  exact isReservedPort_ofNat (Nat.mod_lt _ (by decide))

/-- The ports of an accepted manifest are distinct: the control port is in the range that
    published ports avoid. -/
theorem hostPorts_nodup {manifest : InstanceManifest} {text : Str}
    (hencode : manifest.encode = .ok text)
    (hport : controlPortForInstance manifest.spec.name = .ok manifest.controlPort) :
    manifest.hostPorts.Nodup := by
  obtain ⟨hstorable, -⟩ := encode_eq_ok_iff.mp hencode
  rw [InstanceManifest.hostPorts, List.nodup_cons]
  refine ⟨fun hmem => ?_, hstorable.spec.hostPorts_nodup⟩
  obtain ⟨forward, hforward, heq⟩ := List.mem_map.mp hmem
  have hfree := (hstorable.spec.forwards forward hforward).2
  rw [heq, controlPort_reserved hport] at hfree
  exact absurd hfree (by decide)

/-! ## The port check -/

section Ports

variable {store : StateStore} {manifests : List InstanceManifest}

/-- When `list` succeeds it has read the text of every directory. -/
theorem exists_decode_of_list {listed : List InstanceManifest} (hlist : store.list = .ok listed)
    {entry : Str × InstanceDir} (hentry : entry ∈ store.instances) {text : Str}
    (htext : entry.2.manifest = some text) :
    ∃ read ∈ listed, InstanceManifest.decode text = .ok read := by
  simp only [StateStore.list, bind_eq_ok, pure_eq_ok_iff] at hlist
  obtain ⟨reads, hreads, rfl⟩ := hlist
  have hmem : text ∈ store.instances.filterMap fun entry => entry.2.manifest :=
    List.mem_filterMap.mpr ⟨entry, hentry, htext⟩
  obtain ⟨read, hread, hdecode⟩ := exists_of_forall₂ (mapM_eq_ok_iff.mp hreads) hmem
  exact ⟨read, List.mem_mergeSort.mpr hread, hdecode⟩

theorem checkPorts_eq_ok {requested : List UInt16} {excluded : Option Str}
    {existing : InstanceManifest}
    (h : StateStore.checkPorts requested excluded existing = .ok ())
    (hne : excluded ≠ some existing.spec.name) : requested.Disjoint existing.hostPorts := by
  rw [StateStore.checkPorts, if_neg hne] at h
  split at h
  · simp at h
  · rename_i hnone
    intro port hport hexisting
    have := List.find?_eq_none.mp hnone port hport
    simp [hexisting] at this

/-- A manifest that passes the check shares no port with one that is stored. -/
theorem disjoint_of_available {manifest : InstanceManifest} {excluded : Option Str}
    (havailable : store.ensureHostPortsAvailable manifest excluded = .ok ())
    {name : Str} {existing : InstanceManifest} (hstores : StoresAt store name existing)
    (hne : excluded ≠ some existing.spec.name) :
    manifest.hostPorts.Disjoint existing.hostPorts := by
  obtain ⟨listed, hlist, hcheck⟩ := bind_eq_ok.mp havailable
  obtain ⟨entry, hentry, -, text, htext, hwritten⟩ := hstores
  obtain ⟨read, hread, hdecode⟩ := exists_decode_of_list hlist hentry htext
  have hpassed := forEach_check hcheck read hread
  rcases hwritten with hencode | hdecode'
  · rw [decode_stored hencode hdecode] at hpassed
    exact checkPorts_eq_ok hpassed hne
  · rw [hdecode, Except.ok.injEq] at hdecode'
    rw [hdecode'] at hpassed
    exact checkPorts_eq_ok hpassed hne

theorem SoundWith.disjoint_of_available (h : SoundWith store manifests)
    {manifest : InstanceManifest} {excluded : Option Str}
    (havailable : store.ensureHostPortsAvailable manifest excluded = .ok ())
    {existing : InstanceManifest} (hmem : existing ∈ manifests)
    (hne : excluded ≠ some existing.spec.name) :
    manifest.hostPorts.Disjoint existing.hostPorts := by
  obtain ⟨entry, hentry, hholds⟩ := exists_of_forall₂ h.holds.flip hmem
  obtain ⟨text, htext, hencode⟩ := hholds.text
  exact Core.disjoint_of_available havailable
    ⟨entry, hentry, rfl, text, htext, .inl hencode⟩ hne

/-- A directory exists exactly when a manifest of its name is stored. -/
theorem SoundWith.dir?_isSome_iff (h : SoundWith store manifests) (name : Str) :
    (store.dir? name).isSome ↔ ∃ manifest ∈ manifests, manifest.spec.name = name := by
  obtain ⟨hholds, -, -⟩ := h
  rw [StateStore.dir?]
  generalize store.instances = entries at hholds
  induction hholds with
  | nil => simp
  | @cons entry manifest entries manifests hentry hrest ih =>
    rw [List.lookup_cons]
    by_cases hname : name = entry.1
    · simp [hname, hentry.name_eq]
    · have hbeq : (name == entry.1) = false := beq_eq_false_iff_ne.mpr hname
      have hother : manifest.spec.name ≠ name := fun heq => hname (by rw [hentry.name_eq, heq])
      simp [hbeq, ih, hother]

end Ports

/-! ## The calls keep the invariant -/

section Calls

variable {store : StateStore} {manifests : List InstanceManifest}

/-- A change of the last directory leaves those before it alone. -/
theorem instances_changeDir_last {entries : List (Str × InstanceDir)} {name : Str}
    {dir : InstanceDir} (hother : ∀ entry ∈ entries, entry.1 ≠ name)
    (hlast : store.instances = entries ++ [(name, dir)]) (f : InstanceDir → InstanceDir) :
    (store.changeDir name f).instances = entries ++ [(name, f dir)] := by
  have hkeep : (entries.map fun entry =>
      if entry.1 = name then (entry.1, f entry.2) else entry) = entries := by
    conv_rhs => rw [← List.map_id entries]
    exact List.map_congr_left fun entry hentry => if_neg (hother entry hentry)
  rw [StateStore.changeDir, hlast, List.map_append, hkeep, List.map_singleton, if_pos rfl]

/-- What an accepted manifest adds: a directory after the others. -/
theorem instances_created {name text token : Str} (hnew : store.dir? name = none) :
    (((store.makeDir name).writeManifest name text).writeToken name token).instances =
      store.instances ++ [(name, { manifest := some text, token := some (token ++ ['\n']) })] := by
  have hother : ∀ entry ∈ store.instances, entry.1 ≠ name := by
    intro entry hentry heq
    rw [StateStore.dir?, List.lookup_eq_none_iff] at hnew
    simpa [heq] using hnew entry hentry
  have hmade : (store.makeDir name).instances = store.instances ++ [(name, ({} : InstanceDir))] := rfl
  exact instances_changeDir_last hother (instances_changeDir_last hother hmade _) _

/-- One more instance, whose ports are its own. -/
theorem SoundWith.append (h : SoundWith store manifests) {manifest : InstanceManifest}
    {text : Str} {dir : InstanceDir} (hencode : manifest.encode = .ok text)
    (hport : controlPortForInstance manifest.spec.name = .ok manifest.controlPort)
    (hdir : dir.manifest = some text)
    (hnew : ∀ existing ∈ manifests, existing.spec.name ≠ manifest.spec.name)
    (hfree : ∀ existing ∈ manifests, manifest.hostPorts.Disjoint existing.hostPorts)
    {next : StateStore}
    (hnext : next.instances = store.instances ++ [(manifest.spec.name, dir)]) :
    SoundWith next (manifests ++ [manifest]) where
  holds := by
    rw [hnext]
    exact List.rel_append h.holds (.cons ⟨rfl, text, hdir, hencode⟩ .nil)
  nodup := by
    intro m hm
    rcases List.mem_append.mp hm with hold | hlast
    · exact h.nodup m hold
    · rw [List.mem_singleton.mp hlast]
      exact hostPorts_nodup hencode hport
  apart := by
    rw [List.pairwise_append]
    refine ⟨h.apart, List.pairwise_singleton _ _, fun a ha b hb => ?_⟩
    rw [List.mem_singleton.mp hb]
    exact ⟨hnew a ha, List.disjoint_symm (hfree a ha)⟩

/-- The stored manifests after an `update`. -/
def replaceManifest (manifests : List InstanceManifest) (manifest : InstanceManifest) :
    List InstanceManifest :=
  manifests.map fun old => if old.spec.name = manifest.spec.name then manifest else old

/-- The manifest of an instance is replaced, and its ports are still its own. -/
theorem SoundWith.replace (h : SoundWith store manifests) {manifest : InstanceManifest}
    {text : Str} (hencode : manifest.encode = .ok text)
    (hport : controlPortForInstance manifest.spec.name = .ok manifest.controlPort)
    (hfree : ∀ existing ∈ manifests, existing.spec.name ≠ manifest.spec.name →
      manifest.hostPorts.Disjoint existing.hostPorts) :
    SoundWith (store.writeManifest manifest.spec.name text)
      (replaceManifest manifests manifest) where
  -- The text of the instance is that of the new manifest, any other one is as it was.
  holds := by
    rw [StateStore.writeManifest, StateStore.changeDir, replaceManifest,
      List.forall₂_map_left_iff, List.forall₂_map_right_iff]
    refine h.holds.imp fun entry old hold => ?_
    rw [hold.name_eq]
    split
    · exact ⟨‹_›, text, rfl, hencode⟩
    · exact hold
  nodup := by
    intro m hm
    obtain ⟨old, hold, rfl⟩ := List.mem_map.mp hm
    split
    · exact hostPorts_nodup hencode hport
    · exact h.nodup old hold
  apart := by
    rw [replaceManifest, List.pairwise_map]
    refine h.apart.imp_of_mem fun {a b} ha hb hab => ?_
    -- Of two instances at most one is the one that is replaced.
    by_cases haname : a.spec.name = manifest.spec.name
    · have hbname : b.spec.name ≠ manifest.spec.name := fun hb' => hab.name_ne (haname.trans hb'.symm)
      rw [if_pos haname, if_neg hbname]
      exact ⟨hbname.symm, hfree b hb hbname⟩
    · rw [if_neg haname]
      split
      · exact ⟨haname, List.disjoint_symm (hfree a ha haname)⟩
      · exact hab

theorem SoundWith.filter (h : SoundWith store manifests) (name : Str) :
    SoundWith (store.removeDir name) (manifests.filter fun m => m.spec.name ≠ name) where
  holds := by
    refine List.rel_filter (fun entry manifest hholds => ?_) h.holds
    simp [hholds.name_eq]
  nodup m hm := h.nodup m (List.mem_filter.mp hm).1
  apart := h.apart.filter _

/-- What the checks of `create` have established when it succeeds, and what it then does. -/
theorem create_eq_ok {env : StateStore.CreateEnv} {manifest : InstanceManifest} {path : PathBuf}
    {next : StateStore} (h : StateStore.create env manifest store = (.ok path, next)) :
    ∃ text, manifest.encode = .ok text ∧ store.dir? manifest.spec.name = none ∧
      store.ensureHostPortsAvailable manifest none = .ok () ∧
      next = ((store.makeDir manifest.spec.name).writeManifest manifest.spec.name text).writeToken
        manifest.spec.name env.token := by
  simp only [StateStore.create, Effect.check_bind_eq_ok, rejectIf_eq_ok, Effect.change_bind,
    Effect.pure_run, Prod.mk.injEq] at h
  obtain ⟨text, hencode, -, -, -, hnew, _, hports, -, -, -, rfl⟩ := h
  exact ⟨text, hencode, by simpa using hnew, hports, rfl⟩

theorem update_eq_ok {manifest : InstanceManifest} {next : StateStore}
    (h : StateStore.update manifest store = (.ok (), next)) :
    ∃ text, manifest.encode = .ok text ∧
      store.ensureHostPortsAvailable manifest (some manifest.spec.name) = .ok () ∧
      next = store.writeManifest manifest.spec.name text := by
  simp only [StateStore.update, Effect.check_bind_eq_ok, rejectIf_eq_ok, Effect.change_run,
    Prod.mk.injEq, true_and] at h
  obtain ⟨text, hencode, -, -, -, -, _, hports, rfl⟩ := h
  exact ⟨text, hencode, hports, rfl⟩

theorem remove_eq_ok {name : Str} {next : StateStore}
    (h : StateStore.remove name store = (.ok (), next)) :
    next = (store.removeDir name).dropDefault name := by
  simp only [StateStore.remove, Effect.check_bind_eq_ok, Effect.change_bind, Effect.change_run,
    Prod.mk.injEq, true_and] at h
  obtain ⟨-, -, -, -, -, -, -, -, rfl⟩ := h
  rfl

@[simp] theorem instances_dropDefault (name : Str) :
    (store.dropDefault name).instances = store.instances := by
  rw [StateStore.dropDefault]
  split <;> rfl

end Calls

/-! ## Runs -/

/-- A call on the store. -/
inductive StoreCall where
  | create (env : StateStore.CreateEnv) (manifest : InstanceManifest)
  | update (manifest : InstanceManifest)
  | remove (name : Str)

namespace StoreCall

/-- Make a call; the directory that `create` returns is not kept. -/
def perform : StoreCall → Effect StateStore LswError Unit
  | .create env manifest => (StateStore.create env manifest).void
  | .update manifest => StateStore.update manifest
  | .remove name => StateStore.remove name

/-- The manifest of the call has the control port of its name. -/
def HasDerivedPort : StoreCall → Prop
  | .create _ manifest | .update manifest =>
      controlPortForInstance manifest.spec.name = .ok manifest.controlPort
  | .remove _ => True

instance : DecidablePred HasDerivedPort
  | .create _ manifest | .update manifest =>
      inferInstanceAs (Decidable (controlPortForInstance manifest.spec.name = .ok _))
  | .remove _ => inferInstanceAs (Decidable True)

/-- The store after a sequence of calls, failed ones included. -/
def run (calls : List StoreCall) (store : StateStore) : StateStore :=
  Lib.run (fun store call => (call.perform store).2) store calls

/-- Every check comes before the first change. -/
theorem failsClean (call : StoreCall) : Effect.FailsClean call.perform := by
  cases call with
  | create env manifest =>
    refine Effect.FailsClean.void ?_
    iterate 5 refine Effect.FailsClean.check_bind fun _ => ?_
    exact Effect.FailsClean.of_ok fun _ => ⟨_, rfl⟩
  | update manifest =>
    iterate 4 refine Effect.FailsClean.check_bind fun _ => ?_
    exact Effect.FailsClean.of_ok fun _ => ⟨_, rfl⟩
  | remove name =>
    iterate 4 refine Effect.FailsClean.check_bind fun _ => ?_
    exact Effect.FailsClean.of_ok fun _ => ⟨_, rfl⟩

/-- A call that succeeds leaves the store sound. -/
theorem perform_eq_ok {call : StoreCall} {store next : StateStore}
    {manifests : List InstanceManifest} (h : SoundWith store manifests)
    (hport : call.HasDerivedPort) (hrun : call.perform store = (.ok (), next)) :
    ∃ nextManifests, SoundWith next nextManifests := by
  cases call with
  | create env manifest =>
    obtain ⟨path, hcreate⟩ := Effect.void_eq_ok.mp hrun
    obtain ⟨text, hencode, hnew, hports, rfl⟩ := create_eq_ok hcreate
    have hname : ∀ existing ∈ manifests, existing.spec.name ≠ manifest.spec.name := by
      intro existing hexisting heq
      have hsome := (h.dir?_isSome_iff manifest.spec.name).mpr ⟨existing, hexisting, heq⟩
      rw [hnew] at hsome
      exact absurd hsome (by decide)
    exact ⟨_, h.append hencode hport rfl hname
      (fun existing hexisting => h.disjoint_of_available hports hexisting (by simp))
      (instances_created hnew)⟩
  | update manifest =>
    obtain ⟨text, hencode, hports, rfl⟩ := update_eq_ok hrun
    exact ⟨_, h.replace hencode hport fun existing hexisting hne =>
      h.disjoint_of_available hports hexisting (by simpa using hne.symm)⟩
  | remove name =>
    obtain rfl := remove_eq_ok hrun
    obtain ⟨hholds, hnodup, hapart⟩ := h.filter name
    exact ⟨_, by rwa [instances_dropDefault], hnodup, hapart⟩

theorem perform_sound {call : StoreCall} {store : StateStore}
    (h : ∃ manifests, SoundWith store manifests) (hport : call.HasDerivedPort) :
    ∃ manifests, SoundWith (call.perform store).2 manifests := by
  rcases hrun : call.perform store with ⟨e | u, next⟩
  · rw [call.failsClean hrun]
    exact h
  · obtain ⟨manifests, hmanifests⟩ := h
    exact perform_eq_ok hmanifests hport hrun

theorem run_sound {calls : List StoreCall} {store : StateStore}
    (h : ∃ manifests, SoundWith store manifests) (hport : ∀ call ∈ calls, call.HasDerivedPort) :
    ∃ manifests, SoundWith (run calls store) manifests := by
  have halong : Along (fun store call => (perform call store).2)
      (fun _ call => call.HasDerivedPort) store calls := along_of_forall_mem hport
  exact run_invariant (I := fun store => ∃ manifests, SoundWith store manifests)
    (fun _ _ hsound hderived => perform_sound hsound hderived) h halong

end StoreCall

/-- The host ports of all stored manifests together are distinct. -/
theorem SoundWith.nodup_flatMap {store : StateStore} {manifests : List InstanceManifest}
    (h : SoundWith store manifests) :
    (manifests.flatMap InstanceManifest.hostPorts).Nodup := by
  rw [List.nodup_flatMap]
  exact ⟨h.nodup, h.apart.imp fun hab => hab.disjoint⟩

/-- What is read from a directory is the manifest that it holds, of the current version. -/
theorem Holds.eq_of_decode {entry : Str × InstanceDir} {manifest read : InstanceManifest} {text : Str}
    (h : Holds entry manifest) (htext : entry.2.manifest = some text)
    (hdecode : InstanceManifest.decode text = .ok read) :
    read = { manifest with version := manifestVersion } := by
  obtain ⟨held, hheld, hencode⟩ := h.text
  obtain rfl := Option.some.inj (htext.symm.trans hheld)
  exact decode_stored hencode hdecode

/-- In every store that calls reach, each directory holds a manifest of its own name, which is what
    can be read from it, and the host ports of all of them are distinct; a call that then fails
    changes nothing. -/
theorem reachable_store_sound (root : PathBuf) (calls : List StoreCall)
    (hport : ∀ call ∈ calls, call.HasDerivedPort) :
    (∃ manifests, List.Forall₂ Holds (StoreCall.run calls { root }).instances manifests ∧
      (manifests.flatMap InstanceManifest.hostPorts).Nodup ∧
      List.Forall₂ (fun entry manifest => ∀ text read, entry.2.manifest = some text →
          InstanceManifest.decode text = .ok read →
            read = { manifest with version := manifestVersion })
        (StoreCall.run calls { root }).instances manifests) ∧
    ∀ (call : StoreCall) (e : LswError),
      (call.perform (StoreCall.run calls { root })).1 = .error e →
      (call.perform (StoreCall.run calls { root })).2 = StoreCall.run calls { root } := by
  constructor
  · have hempty : SoundWith { root } [] := ⟨.nil, by simp, .nil⟩
    obtain ⟨manifests, h⟩ := StoreCall.run_sound ⟨[], hempty⟩ hport
    exact ⟨manifests, h.holds, h.nodup_flatMap, h.holds.imp fun _ _ hholds _ _ => hholds.eq_of_decode⟩
  · intro call e herror
    exact call.failsClean (Prod.ext herror rfl)

/-- An instance of another name, with its own control port. -/
def demoManifestOf (name : Str) (portForwards : List PortForward) : InstanceManifest :=
  let demo := demoManifest []
  { demo with
    spec := { demo.spec with name, portForwards }
    controlPort := stableControlPort name }

/-- Every port is free, and there is a token. -/
def demoCreateEnv : StateStore.CreateEnv := { bindError := fun _ => none, token := [] }

/-- The demo instance is created, asked for once more, and changed; one of another name asks for its
    ports, and then for others. -/
def demoCalls : List StoreCall :=
  [.create demoCreateEnv (demoManifest []), .create demoCreateEnv (demoManifest []),
    .update { demoManifest [] with state := .running },
    .create demoCreateEnv (demoManifestOf "other".toList (demoManifest []).spec.portForwards),
    .create demoCreateEnv (demoManifestOf "other".toList [⟨8081, 80⟩])]

/-- The store that they reach. -/
def demoStore : StateStore := StoreCall.run demoCalls { root := .ofStr "/s".toList }

/-- It has two instances, and the one that runs cannot be removed. -/
theorem demoCalls_store_sound :
    (demoStore.instances.map Prod.fst = ["demo".toList, "other".toList] ∧
      ∃ manifests, List.Forall₂ Holds demoStore.instances manifests ∧
        (manifests.flatMap InstanceManifest.hostPorts).Nodup) ∧
    (∃ e, ((StoreCall.remove "demo".toList).perform demoStore).1 = .error e) ∧
      ((StoreCall.remove "demo".toList).perform demoStore).2 = demoStore := by
  obtain ⟨⟨manifests, hholds, hnodup, -⟩, hclean⟩ :=
    reachable_store_sound (.ofStr "/s".toList) demoCalls (by decide +kernel)
  have hrefused : ((StoreCall.remove "demo".toList).perform demoStore).1.isOk = false := by
    decide +kernel
  obtain ⟨e, he⟩ := exists_error_of_isOk hrefused
  exact ⟨⟨by decide +kernel, manifests, hholds, hnodup⟩, ⟨e, he⟩, hclean _ e he⟩

end Lsw.Core
