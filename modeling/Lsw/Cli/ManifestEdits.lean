import Mathlib.Data.Fintype.Basic
import Mathlib.Data.Fintype.Pi
import Lsw.Core.StoredManifest

/-!
# Manifest Edits of Two Processes

The daemon records every state change of an instance with `Supervisor::set_state`, and the
command line edits the same manifest with `lsw share` and `lsw config set`.  Each of them
loads the whole manifest, changes some fields of its copy and writes the whole copy back;
nothing tells the writer that the stored manifest has changed since it was loaded.

An operation here is a sequence of such steps, and any number of operations take theirs in
any order.  Removing a live share is the long one: it loads the manifest, has the daemon start
the instance if it is not running, waits for the guest, and only then writes its copy.
-/

namespace Lsw.Cli

open Lsw.Lib Lsw.Core

/-! ## Edits -/

/-- `Box<dyn std::error::Error>` of the command line, as far as the edits report it. -/
inductive CliError where
  | message (text : Message)
  | number (error : ParseIntError)
  | lsw (error : LswError)
  deriving DecidableEq

/-- The `?` that turns an `LswError` into a boxed one. -/
def boxed {α : Type} : Result α → Except CliError α
  | .ok a => .ok a
  | .error e => .error (.lsw e)

/-- The `?` of a number. -/
def boxedNumber {α : Type} : Except ParseIntError α → Except CliError α
  | .ok a => .ok a
  | .error e => .error (.number e)

/-- `parse_memory_mib`. -/
def parseMemoryMib (value : Str) : Except CliError UInt32 := do
  let (number, multiplier) :=
    match stripSuffix "GiB".toList value, stripSuffix "MiB".toList value with
    | some number, _ => (number, 1024)
    | none, some number => (number, 1)
    | none, none => (value, 1)
  let amount ← boxedNumber (parseUnsigned (2 ^ 64) number)
  rejectIf (2 ^ 64 ≤ amount * multiplier) (.message [.text "memory value is too large"])
  rejectIf (2 ^ 32 ≤ amount * multiplier) (.message [.text "memory value is too large"])
  return UInt32.ofNat (amount * multiplier)

/-- The units of `parse_duration_seconds`. -/
def durationUnits : List (Char × Nat) :=
  [('s', 1), ('m', 60), ('h', 60 * 60), ('d', 24 * 60 * 60)]

/-- `parse_duration_seconds`. -/
def parseDurationSeconds (value : Str) : Except CliError UInt64 := do
  if value = "0".toList ∨ value = "off".toList then return 0
  let (number, multiplier) ← okOr
    (durationUnits.findSome? fun (unit, multiplier) =>
      (stripSuffix [unit] value).map fun number => (number, multiplier))
    (.message [.text "duration must use s, m, h, or d (for example, 10m)"])
  let amount ← boxedNumber (parseUnsigned (2 ^ 64) number)
  rejectIf (2 ^ 64 ≤ amount * multiplier) (.message [.text "duration is too large"])
  return UInt64.ofNat (amount * multiplier)

/-- One assignment of `config set`. -/
inductive ConfigChange where
  | memoryMax (mib : UInt32)
  | memoryMin (mib : UInt32)
  | idleTimeout (seconds : UInt64)
  | hibernateTimeout (seconds : UInt64)
  | idlePolicy (policy : IdlePolicy)
  deriving DecidableEq

/-- One assignment in the loop of `config set`. -/
def parseAssignment (assignment : Str) : Except CliError ConfigChange := do
  let (key, value) ← okOr (splitOnce '=' assignment)
    (.message [.text "configuration assignments must use KEY=VALUE syntax"])
  if key = "memory.max".toList then return .memoryMax (← parseMemoryMib value)
  else if key = "memory.min".toList then return .memoryMin (← parseMemoryMib value)
  else if key = "idle-timeout".toList then return .idleTimeout (← parseDurationSeconds value)
  else if key = "hibernate-timeout".toList then
    return .hibernateTimeout (← parseDurationSeconds value)
  else if key = "idle-policy".toList then
    return .idlePolicy (← boxed (IdlePolicy.fromStr value))
  else .error (.message [.text "unknown configuration key ", .debug key,
    .text "; supported keys are memory.max, memory.min, idle-timeout, hibernate-timeout, and idle-policy"])

def ConfigChange.apply (manifest : InstanceManifest) : ConfigChange → InstanceManifest
  | .memoryMax mib => { manifest with spec := { manifest.spec with memoryMib := mib } }
  | .memoryMin mib => { manifest with memoryMinMib := mib }
  | .idleTimeout seconds => { manifest with idleTimeoutSeconds := seconds }
  | .hibernateTimeout seconds => { manifest with hibernateTimeoutSeconds := seconds }
  | .idlePolicy policy => { manifest with idlePolicy := policy }

/-- What an operation does to its copy of the manifest. -/
inductive Edit where
  /-- `Supervisor::set_state`, with the clock. -/
  | setState (state : InstanceState) (now : UInt64)
  /-- `folder_shares.push`. -/
  | addShare (share : FolderShare)
  /-- `folder_shares.retain` of the other names. -/
  | removeShare (shareName : Str)
  /-- `folder_shares.retain` of a rollback. -/
  | rollBackShare (shareName : Str)
  /-- The assignments of `config set`. -/
  | configure (changes : List ConfigChange)
  deriving DecidableEq

def Edit.apply (manifest : InstanceManifest) : Edit → InstanceManifest
  | .setState state now => { manifest with state, stateChangedUnixSeconds := now }
  | .addShare share => { manifest with folderShares := manifest.folderShares ++ [share] }
  | .removeShare shareName =>
    { manifest with
      folderShares := manifest.folderShares.filter fun share => share.name ≠ shareName }
  | .rollBackShare shareName =>
    { manifest with
      folderShares := manifest.folderShares.filter fun share =>
        ¬ (share.name = shareName ∧ share.transport = .liveSmb) }
  | .configure changes => changes.foldl ConfigChange.apply manifest

/-! ## Operations -/

/-- An operation on one instance. -/
inductive Operation where
  | setState (state : InstanceState) (now : UInt64)
  /-- `share add`, with the share its arguments describe. -/
  | addShare (share : FolderShare)
  /-- `lsw share PATH`, with the live share of that directory. -/
  | addLiveShare (share : FolderShare)
  | removeShare (shareName : Str)
  | configSet (assignments : List Str)
  deriving DecidableEq

/-- What an operation is going to do with the manifest it has loaded. -/
structure Plan where
  /-- It waits for the live folder to be mapped first. -/
  mapsFirst : Bool := false
  /-- The edit, unless there is nothing to change. -/
  edit : Option Edit
  /-- It has the instance restarted afterwards. -/
  restarts : Bool := false
  deriving DecidableEq

/-- The states of an instance that runs or can be resumed. -/
def isUp : InstanceState → Bool
  | .running | .suspended => true
  | _ => false

/-- The checks of `add_live_path` on the loaded manifest. -/
def planAddLive (name : Str) (share : FolderShare) (manifest : InstanceManifest) :
    Except CliError Plan :=
  match manifest.folderShares.find? fun existing => existing.transport = .liveSmb with
  | some existing =>
    if existing.hostPath = share.hostPath then .ok { mapsFirst := true, edit := none }
    else .error (.message [.text "instance ", .debug name, .text " already exposes live root ",
      .shown existing.hostPath.display, .text "; run `lsw unshare ", .shown existing.name,
      .text "` first"])
  | none =>
    if manifest.folderShares.any fun existing => existing.name = share.name then
      .error (.message [.text "folder share ", .debug share.name,
        .text " already exists; remove or rename it before enabling Linux (L:)"])
    else .ok { edit := some (.addShare share), restarts := true }

/-- The checks of `remove` on the loaded manifest. -/
def planRemove (name shareName : Str) (manifest : InstanceManifest) : Except CliError Plan :=
  if manifest.folderShares.any fun share =>
      share.name = shareName ∧ share.transport = .liveSmb then
    .ok { mapsFirst := true, edit := some (.removeShare shareName), restarts := true }
  else if manifest.folderShares.any fun share => share.name = shareName then
    .ok { edit := some (.removeShare shareName) }
  else .error (.message [.text "folder share ", .debug shareName, .text " does not exist for ",
    .debug name])

/-- What an operation does before it loads the manifest. -/
def Operation.precheck : Operation → Except CliError Unit
  | .addShare share | .addLiveShare share => boxed share.validate
  | _ => .ok ()

/-- The checks of an operation on the manifest it has loaded. -/
def Operation.plan (name : Str) (manifest : InstanceManifest) : Operation → Except CliError Plan
  | .setState state now => .ok { edit := some (.setState state now) }
  | .addShare share =>
    if manifest.folderShares.any fun existing => existing.name = share.name then
      .error (.message [.text "folder share ", .debug share.name, .text " already exists for ",
        .debug name, .text "; remove it before replacing its trust boundary"])
    else .ok { edit := some (.addShare share) }
  | .addLiveShare share => planAddLive name share manifest
  | .removeShare shareName => planRemove name shareName manifest
  | .configSet assignments => do
    rejectIf (StateStore.isActive manifest.state) (.message [.text "instance ", .debug name,
      .text " is ", .text manifest.state.text,
      .text "; shut it down before changing runtime limits"])
    let changes ← assignments.mapM parseAssignment
    return { edit := some (.configure changes) }

/-- The share that a failed operation takes out again. -/
def Operation.rollback : Operation → Option Str
  | .addLiveShare share => some share.name
  | _ => none

/-- How far an operation has come. -/
inductive EditPhase where
  | called
  /-- `ensure_live_mapping` is about to look at the state. -/
  | mapping (manifest : InstanceManifest) (plan : Plan)
  /-- The daemon has been asked to start the instance. -/
  | starting (manifest : InstanceManifest) (plan : Plan)
  /-- The guest is asked about its mappings. -/
  | mapped (manifest : InstanceManifest) (plan : Plan)
  /-- The copy, which is about to be edited and written. -/
  | ready (manifest : InstanceManifest) (edit : Edit) (restarts : Bool)
  /-- The edit is stored and the instance is being restarted. -/
  | restarting
  /-- The restart failed; the share is about to be taken out again. -/
  | rollingBack (shareName : Str) (error : Message)
  | rollbackReady (manifest : InstanceManifest) (shareName : Str) (error : Message)
  /-- The operation has returned, after its edit was stored. -/
  | acknowledged
  /-- The operation has returned and had nothing to change. -/
  | unchanged
  | failed (error : CliError)
  deriving DecidableEq

/-- The store, the operations, and the edits whose `update` has succeeded, in order. -/
structure EditWorld (ι : Type) where
  store : StateStore
  phase : ι → EditPhase := fun _ => .called
  log : List Edit := []

section Steps

variable {ι : Type} [DecidableEq ι]

namespace EditWorld

def setPhase (world : EditWorld ι) (i : ι) (phase : EditPhase) : EditWorld ι :=
  { world with phase := Function.update world.phase i phase }

/-- `StateStore::update` of an edited copy. -/
def write (world : EditWorld ι) (i : ι) (manifest : InstanceManifest) (edit : Edit)
    (next : EditPhase) : EditWorld ι :=
  match StateStore.update (edit.apply manifest) world.store with
  | (.ok (), store) => { world.setPhase i next with store, log := world.log ++ [edit] }
  | (.error e, store) => { world.setPhase i (.failed (.lsw e)) with store }

end EditWorld

/-- Where a plan leads. -/
def Plan.next (manifest : InstanceManifest) (plan : Plan) : EditPhase :=
  match plan.edit with
  | some edit => .ready manifest edit plan.restarts
  | none => .unchanged

/-- The phase after the manifest is loaded. -/
def Operation.loaded (name : Str) (operation : Operation) (manifest : InstanceManifest) :
    EditPhase :=
  match operation.plan name manifest with
  | .ok plan => if plan.mapsFirst then .mapping manifest plan else plan.next manifest
  | .error e => .failed e

/-- The next step of one operation.  The guest and the daemon answer as they like: `none` is
    success, `some` the text of an error. -/
def editStep (name : Str) (operations : ι → Operation) (world : EditWorld ι)
    (move : ι × Option Message) : EditWorld ι :=
  let (i, answer) := move
  match world.phase i with
  | .called =>
    match (operations i).precheck, boxed (world.store.load name) with
    | .ok (), .ok manifest => world.setPhase i ((operations i).loaded name manifest)
    | .error e, _ | _, .error e => world.setPhase i (.failed e)
  | .mapping manifest plan =>
    match world.store.load name with
    | .ok current =>
      world.setPhase i (if isUp current.state then .mapped manifest plan
        else .starting manifest plan)
    | .error e => world.setPhase i (.failed (.lsw e))
  | .starting manifest plan =>
    match answer with
    | none => world.setPhase i (.mapped manifest plan)
    | some error => world.setPhase i (.failed (.message error))
  | .mapped manifest plan =>
    match answer with
    | none => world.setPhase i (plan.next manifest)
    | some error => world.setPhase i (.failed (.message error))
  | .ready manifest edit restarts =>
    world.write i manifest edit (if restarts then .restarting else .acknowledged)
  | .restarting =>
    match answer, (operations i).rollback with
    | none, _ => world.setPhase i .acknowledged
    | some error, some shareName => world.setPhase i (.rollingBack shareName error)
    | some error, none => world.setPhase i (.failed (.message error))
  | .rollingBack shareName error =>
    match world.store.load name with
    | .ok manifest => world.setPhase i (.rollbackReady manifest shareName error)
    | .error e => world.setPhase i (.failed (.lsw e))
  | .rollbackReady manifest shareName error =>
    world.write i manifest (.rollBackShare shareName) (.failed (.message
      (.text "could not mount Linux (L:); the live export was rolled back: " :: error)))
  | .acknowledged | .unchanged | .failed _ => world

end Steps

/-! ## No lost update -/

/-- The manifest that the logged edits make, one after another. -/
def replay (initial : InstanceManifest) (log : List Edit) : InstanceManifest :=
  log.foldl Edit.apply initial

/-- The state that an edit sets. -/
def Edit.state? : Edit → Option InstanceState
  | .setState state _ => some state
  | _ => none

/-- The last state that the supervisor set. -/
def lastState (initial : InstanceState) (log : List Edit) : InstanceState :=
  ((log.filterMap Edit.state?).getLast?).getD initial

/-- What an edit makes of the shares. -/
def Edit.onShares (shares : List FolderShare) : Edit → List FolderShare
  | .addShare share => shares ++ [share]
  | .removeShare shareName => shares.filter fun share => share.name ≠ shareName
  | .rollBackShare shareName =>
    shares.filter fun share => ¬ (share.name = shareName ∧ share.transport = .liveSmb)
  | _ => shares

/-- The settings that `config set` changes. -/
structure Configuration where
  memoryMax : UInt32
  memoryMin : UInt32
  idleTimeout : UInt64
  hibernateTimeout : UInt64
  idlePolicy : IdlePolicy
  deriving DecidableEq

def configuration (manifest : InstanceManifest) : Configuration where
  memoryMax := manifest.spec.memoryMib
  memoryMin := manifest.memoryMinMib
  idleTimeout := manifest.idleTimeoutSeconds
  hibernateTimeout := manifest.hibernateTimeoutSeconds
  idlePolicy := manifest.idlePolicy

/-- One assignment, on the settings. -/
def Configuration.set (settings : Configuration) : ConfigChange → Configuration
  | .memoryMax mib => { settings with memoryMax := mib }
  | .memoryMin mib => { settings with memoryMin := mib }
  | .idleTimeout seconds => { settings with idleTimeout := seconds }
  | .hibernateTimeout seconds => { settings with hibernateTimeout := seconds }
  | .idlePolicy policy => { settings with idlePolicy := policy }

/-- What an edit makes of the settings. -/
def Edit.onConfiguration (settings : Configuration) : Edit → Configuration
  | .configure changes => changes.foldl Configuration.set settings
  | _ => settings

/-- The stored manifest has the last state that was set and every share and setting that was
    edited. -/
structure NoUpdateLost (initial : InstanceManifest) (log : List Edit)
    (stored : InstanceManifest) : Prop where
  state : stored.state = lastState initial.state log
  shares : stored.folderShares = log.foldl Edit.onShares initial.folderShares
  settings : configuration stored = log.foldl Edit.onConfiguration (configuration initial)

/-! ### Replaying edits -/

section Replay

variable (initial : InstanceManifest) (log : List Edit)

theorem replay_append (edit : Edit) :
    replay initial (log ++ [edit]) = edit.apply (replay initial log) := by
  rw [replay, replay, List.foldl_append]
  rfl

theorem lastState_append (state : InstanceState) (edit : Edit) :
    lastState state (log ++ [edit]) = edit.state?.getD (lastState state log) := by
  rw [lastState, lastState, List.filterMap_append]
  cases h : edit.state? with
  | none => simp [h]
  | some next => simp [h]

/-- The assignments change the settings as they say, and nothing else. -/
theorem configure_keeps (changes : List ConfigChange) (manifest : InstanceManifest) :
    (changes.foldl ConfigChange.apply manifest).state = manifest.state ∧
      (changes.foldl ConfigChange.apply manifest).folderShares = manifest.folderShares ∧
      (changes.foldl ConfigChange.apply manifest).version = manifest.version ∧
      (changes.foldl ConfigChange.apply manifest).spec.name = manifest.spec.name ∧
      configuration (changes.foldl ConfigChange.apply manifest) =
        changes.foldl Configuration.set (configuration manifest) := by
  induction changes generalizing manifest with
  | nil => exact ⟨rfl, rfl, rfl, rfl, rfl⟩
  | cons change changes ih =>
    obtain ⟨hstate, hshares, hversion, hname, hsettings⟩ := ih (change.apply manifest)
    simp only [List.foldl_cons]
    rw [hstate, hshares, hversion, hname, hsettings]
    cases change <;> exact ⟨rfl, rfl, rfl, rfl, rfl⟩

theorem Edit.apply_keeps (edit : Edit) (manifest : InstanceManifest) :
    (edit.apply manifest).version = manifest.version ∧
      (edit.apply manifest).spec.name = manifest.spec.name := by
  cases edit with
  | configure changes =>
    obtain ⟨-, -, hversion, hname, -⟩ := configure_keeps changes manifest
    exact ⟨hversion, hname⟩
  | _ => exact ⟨rfl, rfl⟩

theorem Edit.apply_effect (edit : Edit) (manifest : InstanceManifest) :
    (edit.apply manifest).state = edit.state?.getD manifest.state ∧
      (edit.apply manifest).folderShares = edit.onShares manifest.folderShares ∧
      configuration (edit.apply manifest) = edit.onConfiguration (configuration manifest) := by
  cases edit with
  | configure changes =>
    obtain ⟨hstate, hshares, -, -, hsettings⟩ := configure_keeps changes manifest
    exact ⟨hstate, hshares, hsettings⟩
  | _ => exact ⟨rfl, rfl, rfl⟩

theorem replay_noUpdateLost : NoUpdateLost initial log (replay initial log) := by
  induction log using List.reverseRecOn with
  | nil => exact ⟨rfl, rfl, rfl⟩
  | append_singleton log edit ih =>
    obtain ⟨hstate, hshares, hsettings⟩ := edit.apply_effect (replay initial log)
    rw [replay_append]
    constructor
    · rw [hstate, lastState_append, ih.state]
    · rw [hshares, List.foldl_append, ih.shares]
      rfl
    · rw [hsettings, List.foldl_append, ih.settings]
      rfl

end Replay

/-! ## Runs -/

/-- The edit that an operation makes. -/
def Operation.edit? : Operation → Option Edit
  | .setState state now => some (.setState state now)
  | .addShare share | .addLiveShare share => some (.addShare share)
  | .removeShare shareName => some (.removeShare shareName)
  | .configSet assignments =>
    match assignments.mapM parseAssignment with
    | .ok changes => some (.configure changes)
    | .error _ => none

/-- A planned edit is the one of its operation. -/
theorem edit?_of_plan {operation : Operation} {name : Str} {manifest : InstanceManifest}
    {plan : Plan} (h : operation.plan name manifest = .ok plan) :
    ∀ edit ∈ plan.edit, operation.edit? = some edit := by
  intro edit hedit
  -- Each operation plans its own edit, or none.
  cases operation with
  | setState state now =>
    cases h
    exact hedit
  | addShare share =>
    rw [Operation.plan] at h
    split at h <;> cases h
    exact hedit
  -- A live share that is already there needs no edit.
  | addLiveShare share =>
    rw [Operation.plan, planAddLive] at h
    split at h <;> split at h <;> cases h
    · cases hedit
    · exact hedit
  | removeShare shareName =>
    rw [Operation.plan, planRemove] at h
    split at h
    · cases h
      exact hedit
    · split at h <;> cases h
      exact hedit
  | configSet assignments =>
    simp only [Operation.plan, bind_eq_ok, pure_eq_ok_iff] at h
    obtain ⟨-, -, changes, hchanges, rfl⟩ := h
    simpa [Operation.edit?, hchanges] using hedit

namespace EditPhase

/-- The edit that is still to be stored. -/
def planned? : EditPhase → Option Edit
  | .mapping _ plan | .starting _ plan | .mapped _ plan => plan.edit
  | .ready _ edit _ => some edit
  | _ => none

/-- The copy that the next step writes. -/
def pending? : EditPhase → Option InstanceManifest
  | .ready manifest _ _ | .rollbackReady manifest _ _ => some manifest
  | _ => none

/-- The edit is stored and was not taken back. -/
def isStored : EditPhase → Bool
  | .restarting | .acknowledged => true
  | _ => false

end EditPhase

section Runs

variable {ι : Type} {name : Str} {initial : InstanceManifest} {operations : ι → Operation}
  {world : EditWorld ι}

/-- A copy is written only while the stored manifest is still the one that was loaded. -/
def Current (name : Str) (world : EditWorld ι) (move : ι × Option Message) : Prop :=
  ∀ manifest ∈ (world.phase move.1).pending?, world.store.load name = .ok manifest

instance (name : Str) (world : EditWorld ι) (move : ι × Option Message) :
    Decidable (Current name world move) :=
  inferInstanceAs (Decidable (∀ manifest ∈ (world.phase move.1).pending?, _))

/-- The store holds what the logged edits make of the first manifest. -/
structure EditInv (name : Str) (initial : InstanceManifest) (operations : ι → Operation)
    (world : EditWorld ι) : Prop where
  version_eq : (replay initial world.log).version = manifestVersion
  name_eq : (replay initial world.log).spec.name = name
  holds : HoldsText world.store name (replay initial world.log)
  planned : ∀ i, ∀ edit ∈ (world.phase i).planned?, (operations i).edit? = some edit
  logged : ∀ i, (world.phase i).isStored = true →
    ∃ edit ∈ world.log, (operations i).edit? = some edit

variable [DecidableEq ι]

/-- An operation goes on without writing. -/
theorem EditInv.setPhase (h : EditInv name initial operations world) {i : ι} {next : EditPhase}
    (hplanned : ∀ edit ∈ next.planned?, (operations i).edit? = some edit)
    (hlogged : next.isStored = true → ∃ edit ∈ world.log, (operations i).edit? = some edit) :
    EditInv name initial operations (world.setPhase i next) where
  version_eq := h.version_eq
  name_eq := h.name_eq
  holds := h.holds
  planned := by
    intro j edit hedit
    by_cases hj : j = i
    · subst hj
      simp only [EditWorld.setPhase, Function.update_self] at hedit
      exact hplanned edit hedit
    · simp only [EditWorld.setPhase, Function.update_of_ne hj] at hedit
      exact h.planned j edit hedit
  logged := by
    intro j hstored
    by_cases hj : j = i
    · subst hj
      simp only [EditWorld.setPhase, Function.update_self] at hstored
      exact hlogged hstored
    · simp only [EditWorld.setPhase, Function.update_of_ne hj] at hstored
      exact h.logged j hstored

/-- A copy of the current manifest is edited and written. -/
theorem EditInv.write (h : EditInv name initial operations world) {i : ι}
    {manifest : InstanceManifest} {edit : Edit} {next : EditPhase}
    (hcurrent : world.store.load name = .ok manifest) (hplanned : next.planned? = none)
    (hedit : next.isStored = true → (operations i).edit? = some edit) :
    EditInv name initial operations (world.write i manifest edit next) := by
  -- The copy is what the edits so far make of the manifest.
  have hmanifest : manifest = replay initial world.log := by
    rw [eq_of_load h.holds hcurrent, InstanceManifest.asRead, ← h.version_eq]
  subst hmanifest
  obtain ⟨hversion, hname⟩ := edit.apply_keeps (replay initial world.log)
  rw [EditWorld.write]
  rcases hupdate : StateStore.update (edit.apply (replay initial world.log)) world.store with
    ⟨e | u, store⟩
  · -- A refused update leaves the store as it was.
    have hsame : store = world.store := (StoreCall.update _).failsClean hupdate
    subst hsame
    exact h.setPhase (by simp [EditPhase.planned?]) (by simp [EditPhase.isStored])
  -- An update that goes through stores the next one.
  · have hholds := holdsText_update h.holds (hname.trans h.name_eq) hupdate
    -- So the log grows by the edit.
    have hgrown : EditInv name initial operations
        { world with store, log := world.log ++ [edit] } := by
      refine ⟨?_, ?_, ?_, h.planned, ?_⟩
      · rw [replay_append, hversion]
        exact h.version_eq
      · rw [replay_append, hname]
        exact h.name_eq
      · rw [replay_append]
        exact hholds
      · intro j hstored
        obtain ⟨old, hold, heq⟩ := h.logged j hstored
        exact ⟨old, List.mem_append_left _ hold, heq⟩
    refine hgrown.setPhase (by simp [hplanned]) fun hstored => ?_
    exact ⟨edit, List.mem_append_right _ List.mem_cons_self, hedit hstored⟩

/-- A plan keeps to the edit of its operation wherever it leads. -/
theorem EditInv.next (h : EditInv name initial operations world) {i : ι}
    (manifest : InstanceManifest) {plan : Plan}
    (hplan : ∀ edit ∈ plan.edit, (operations i).edit? = some edit) :
    EditInv name initial operations (world.setPhase i (plan.next manifest)) := by
  rw [Plan.next]
  split
  · rename_i edit hedit
    refine h.setPhase ?_ (by simp [EditPhase.isStored])
    simpa [EditPhase.planned?] using hplan edit hedit
  · exact h.setPhase (by simp [EditPhase.planned?]) (by simp [EditPhase.isStored])

theorem EditInv.fail (h : EditInv name initial operations world) (i : ι) (e : CliError) :
    EditInv name initial operations (world.setPhase i (.failed e)) :=
  h.setPhase (by simp [EditPhase.planned?]) (by simp [EditPhase.isStored])

theorem EditInv.loaded (h : EditInv name initial operations world) (i : ι)
    (manifest : InstanceManifest) :
    EditInv name initial operations
      (world.setPhase i ((operations i).loaded name manifest)) := by
  rw [Operation.loaded]
  split
  · rename_i plan hplan
    split
    · exact h.setPhase (edit?_of_plan hplan) (by simp [EditPhase.isStored])
    · exact h.next manifest (edit?_of_plan hplan)
  · exact h.fail i _

/-- Every step from the current manifest keeps the invariant. -/
theorem EditInv.step (h : EditInv name initial operations world) {move : ι × Option Message}
    (hcurrent : Current name world move) :
    EditInv name initial operations (editStep name operations world move) := by
  obtain ⟨i, answer⟩ := move
  have hplanned := h.planned i
  have hlogged := h.logged i
  simp only [Current] at hcurrent
  -- One case for each phase of an editor, in the order of its calls.
  unfold editStep
  dsimp only
  split
  · split
    -- A copy is loaded, and the edit is planned on it.
    · exact h.loaded i _
    · exact h.fail i _
    · exact h.fail i _
  · rename_i manifest plan hphase
    rw [hphase] at hplanned
    split
    · refine h.setPhase ?_ ?_ <;> split
      · exact hplanned
      · exact hplanned
      · simp [EditPhase.isStored]
      · simp [EditPhase.isStored]
    · exact h.fail i _
  · rename_i manifest plan hphase
    rw [hphase] at hplanned
    split
    · exact h.setPhase hplanned (by simp [EditPhase.isStored])
    · exact h.fail i _
  · rename_i manifest plan hphase
    rw [hphase] at hplanned
    split
    · exact h.next manifest hplanned
    · exact h.fail i _
  · -- The copy is written.
    rename_i manifest edit restarts hphase
    rw [hphase] at hplanned hcurrent
    refine h.write (hcurrent manifest rfl) ?_ fun _ => hplanned edit rfl
    cases restarts <;> rfl
  · rename_i hphase
    rw [hphase] at hlogged
    split
    · exact h.setPhase (by simp [EditPhase.planned?]) (fun _ => hlogged rfl)
    · exact h.setPhase (by simp [EditPhase.planned?]) (by simp [EditPhase.isStored])
    · exact h.fail i _
  · split
    · exact h.setPhase (by simp [EditPhase.planned?]) (by simp [EditPhase.isStored])
    · exact h.fail i _
  · -- The share is taken out of a fresh copy.
    rename_i manifest shareName error hphase
    rw [hphase] at hcurrent
    exact h.write (hcurrent manifest rfl) rfl (by simp [EditPhase.isStored])
  · exact h
  · exact h
  · exact h

/-- However the operations interleave: when every copy is written while the stored manifest is
    still the one it was loaded from, the stored manifest has the last state that was set and
    every edit, and the edits of all acknowledged operations are among them. -/
theorem current_edits_lose_no_update (operations : ι → Operation) {store : StateStore}
    (hname : initial.spec.name = name) (hversion : initial.version = manifestVersion)
    (hholds : HoldsText store name initial) (moves : List (ι × Option Message))
    (hcurrent : Along (editStep name operations) (Current name) { store } moves) :
    let world := run (editStep name operations) { store } moves
    (∃ stored, HoldsText world.store name stored ∧ NoUpdateLost initial world.log stored) ∧
      ∀ i, world.phase i = .acknowledged →
        ∃ edit ∈ world.log, (operations i).edit? = some edit := by
  have hfirst : EditInv name initial operations { store } :=
    ⟨hversion, hname, hholds, by simp [EditPhase.planned?], by simp [EditPhase.isStored]⟩
  have hlast := run_invariant (I := EditInv name initial operations)
    (fun _ _ hinv hallowed => hinv.step hallowed) hfirst hcurrent
  refine ⟨⟨_, hlast.holds, replay_noUpdateLost initial _⟩, fun i hphase => ?_⟩
  exact hlast.logged i (by rw [hphase]; rfl)

end Runs

/-- The live folder that `lsw share` adds. -/
def demoLiveShare : FolderShare where
  name := "linux".toList
  hostPath := .ofStr "/home/user/LSW".toList
  guestPath := "L:\\".toList
  mode := .readWrite
  transport := .liveSmb

/-- A store with the stopped demo instance, which has a live folder. -/
def demoStore : StateStore where
  root := .ofStr "/s".toList
  instances := [("demo".toList, ⟨(demoManifest [demoLiveShare]).encode.toOption, none⟩)]

theorem holdsText_demoStore :
    HoldsText demoStore "demo".toList (demoManifest [demoLiveShare]) := by
  obtain ⟨text, htext⟩ : ∃ text, (demoManifest [demoLiveShare]).encode = .ok text := ⟨_, rfl⟩
  refine ⟨⟨some text, none⟩, text, ?_, rfl, htext⟩
  rw [StateStore.dir?, demoStore, htext, List.lookup_cons_self]
  rfl

/-- A new memory limit is set, and then the daemon records that the instance runs. -/
def demoEdits : Bool → Operation
  | false => .configSet ["memory.max=8GiB".toList]
  | true => .setState .running 1700000200

theorem demoEdits_lose_no_update :
    ∃ stored, HoldsText (run (editStep "demo".toList demoEdits) { store := demoStore }
        ([false, false, true, true].map fun i => (i, none))).store "demo".toList stored ∧
      NoUpdateLost (demoManifest [demoLiveShare])
        [.configure [.memoryMax 8192], .setState .running 1700000200] stored := by
  have hname : (demoManifest [demoLiveShare]).spec.name = "demo".toList := rfl
  -- One evaluation of the run gives its log and that no copy in it is stale.
  have hrun : (run (editStep "demo".toList demoEdits) { store := demoStore }
      ([false, false, true, true].map fun i => (i, none))).log =
      [.configure [.memoryMax 8192], .setState .running 1700000200] ∧
      Along (editStep "demo".toList demoEdits) (Current "demo".toList) { store := demoStore }
        ([false, false, true, true].map fun i => (i, none)) := by decide +kernel
  rw [← hrun.1]
  exact (current_edits_lose_no_update demoEdits hname rfl holdsText_demoStore _ hrun.2).1

/-- The live folder of the stopped instance is removed, and the daemon starts the instance on
    the way. -/
def demoRemoval : Bool → Operation
  | false => .removeShare "linux".toList
  | true => .setState .running 1700000200

/-- The daemon records that the instance runs before the copy from before the start is
    written. -/
def demoRemovalMoves : List (Bool × Option Message) :=
  [false, false, true, true, false, false, false, false].map fun i => (i, none)

theorem demoRemoval_loses_running :
    HoldsText demoStore "demo".toList (demoManifest [demoLiveShare]) ∧
      (∀ i, (run (editStep "demo".toList demoRemoval) { store := demoStore }
        demoRemovalMoves).phase i = .acknowledged) ∧
      ¬ ∃ stored, HoldsText (run (editStep "demo".toList demoRemoval) { store := demoStore }
          demoRemovalMoves).store "demo".toList stored ∧
        NoUpdateLost (demoManifest [demoLiveShare])
          (run (editStep "demo".toList demoRemoval) { store := demoStore }
            demoRemovalMoves).log stored := by
  -- One evaluation of the run gives both outcomes, the last state that was set and the state
  -- that is stored.
  have hrun : (∀ i, (run (editStep "demo".toList demoRemoval) { store := demoStore }
        demoRemovalMoves).phase i = .acknowledged) ∧
      lastState .stopped (run (editStep "demo".toList demoRemoval) { store := demoStore }
        demoRemovalMoves).log = .running ∧
      ((run (editStep "demo".toList demoRemoval) { store := demoStore }
        demoRemovalMoves).store.load "demo".toList).map InstanceManifest.state = .ok .stopped := by
    decide +kernel
  obtain ⟨hdone, hset, hread⟩ := hrun
  refine ⟨holdsText_demoStore, hdone, ?_⟩
  rintro ⟨stored, hholds, hkept⟩
  cases hload : (run (editStep "demo".toList demoRemoval) { store := demoStore }
      demoRemovalMoves).store.load "demo".toList with
  | error e =>
    rw [hload] at hread
    cases hread
  | ok loaded =>
    rw [hload, eq_of_load hholds hload] at hread
    have hstopped : stored.state = .stopped := Except.ok.inj hread
    rw [hkept.state] at hstopped
    exact absurd (hset.symm.trans hstopped) (by decide)

end Lsw.Cli
