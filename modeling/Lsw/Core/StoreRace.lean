import Mathlib.Data.Fintype.Basic
import Mathlib.Data.Fintype.Pi
import Lsw.Core.Store

/-!
# Concurrent Creates

`StateStore::create` takes no lock.  It looks whether the directory exists, scans the stored
manifests for the ports it wants, binds a listener to each of them, makes the directory,
writes the manifest and the token, and releases the listeners when it returns.

Here any number of creators take these steps in any order.  A creator whose scan is over but
whose listeners are not yet bound does not see a manifest that another writes meanwhile, and
once that other has returned nothing keeps it from binding the same port.  `Quiet` is the
condition that rules this out.
-/

namespace Lsw.Core

open Lsw.Lib

/-! ## Steps -/

/-- A `create` call: its manifest, and the token it will draw. -/
structure Creator where
  manifest : InstanceManifest
  token : Str

namespace Creator

def name (creator : Creator) : Str := creator.manifest.spec.name

def hostPorts (creator : Creator) : List UInt16 := creator.manifest.hostPorts

end Creator

/-- What is left of the directory when a write fails; the removals may fail themselves. -/
inductive Cleanup where
  | kept
  | emptied
  | removed
  deriving DecidableEq

/-- How the system call of a step ends. -/
inductive Outcome where
  | done
  | fails (error : String) (cleanup : Cleanup)
  deriving DecidableEq

/-- The error of a system call, if it has one. -/
def Outcome.error? : Outcome → Option String
  | .done => none
  | .fails error _ => some error

/-- How far a `create` has come. -/
inductive CreatePhase where
  | called
  /-- The directory did not exist. -/
  | absent (encoded : Str) (path : PathBuf)
  /-- The scan found no conflict; the ports of `rest` are still to be bound. -/
  | binding (encoded : Str) (path : PathBuf) (rest : List UInt16)
  /-- The directory is made. -/
  | made (encoded : Str) (path : PathBuf)
  /-- The manifest is written. -/
  | written (path : PathBuf)
  /-- The token is written. -/
  | complete (path : PathBuf)
  | returned (result : Result PathBuf)
  deriving DecidableEq

/-- The store, the ports that are listened on, and the creators. -/
structure StoreWorld (ι : Type) where
  store : StateStore
  listeners : List (UInt16 × ι) := []
  phase : ι → CreatePhase := fun _ => .called

section Steps

variable {ι : Type} [DecidableEq ι]

namespace StoreWorld

def setPhase (world : StoreWorld ι) (i : ι) (phase : CreatePhase) : StoreWorld ι :=
  { world with phase := Function.update world.phase i phase }

/-- Return, which drops the listeners. -/
def finish (world : StoreWorld ι) (i : ι) (result : Result PathBuf) : StoreWorld ι :=
  { world.setPhase i (.returned result) with
    listeners := world.listeners.filter fun listener => listener.2 ≠ i }

/-- Why a port cannot be bound. -/
def bindError (world : StoreWorld ι) (outcome : Outcome) (port : UInt16) : Option String :=
  if world.listeners.any fun listener => listener.1 == port then
    some "Address already in use (os error 98)"
  else outcome.error?

end StoreWorld

/-- What a failed write leaves of the store. -/
def Cleanup.apply (cleanup : Cleanup) (store : StateStore) (name : Str) : StateStore :=
  match cleanup with
  | .kept => store
  | .emptied => store.changeDir name fun dir => { dir with manifest := none }
  | .removed => store.removeDir name

/-- The existence check of `create`, after `encode`. -/
def checkAbsent (store : StateStore) (manifest : InstanceManifest) : Result (Str × PathBuf) := do
  let encoded ← manifest.encode
  let path ← store.instanceDir manifest.spec.name
  rejectIf (store.dir? manifest.spec.name).isSome (.instanceAlreadyExists path)
  return (encoded, path)

/-- The next step of one creator. -/
def createStep (creators : ι → Creator) (world : StoreWorld ι) (move : ι × Outcome) :
    StoreWorld ι :=
  let (i, outcome) := move
  let creator := creators i
  match world.phase i with
  | .called =>
    match checkAbsent world.store creator.manifest with
    | .ok (encoded, path) => world.setPhase i (.absent encoded path)
    | .error e => world.finish i (.error e)
  | .absent encoded path =>
    match world.store.ensureHostPortsAvailable creator.manifest none with
    | .ok () => world.setPhase i (.binding encoded path creator.hostPorts)
    | .error e => world.finish i (.error e)
  | .binding encoded path (port :: rest) =>
    match StateStore.reservePort (world.bindError outcome) port with
    | .ok () =>
      { world.setPhase i (.binding encoded path rest) with
        listeners := (port, i) :: world.listeners }
    | .error e => world.finish i (.error e)
  | .binding encoded path [] =>
    if (world.store.dir? creator.name).isSome then
      world.finish i (.error (.instanceAlreadyExists path))
    else
      match outcome with
      | .done =>
        { world.setPhase i (.made encoded path) with store := world.store.makeDir creator.name }
      | .fails _ _ => world.finish i (.error .io)
  | .made encoded path =>
    match outcome with
    | .done =>
      { world.setPhase i (.written path) with
        store := world.store.writeManifest creator.name encoded }
    | .fails _ cleanup =>
      { world.finish i (.error .io) with store := cleanup.apply world.store creator.name }
  | .written path =>
    match outcome with
    | .done =>
      { world.setPhase i (.complete path) with
        store := world.store.writeToken creator.name creator.token }
    | .fails _ cleanup =>
      { world.finish i (.error .io) with store := cleanup.apply world.store creator.name }
  | .complete path => world.finish i (.ok path)
  | .returned _ => world

end Steps

/-! ## What directories store -/

/-- No two directories store manifests that reserve the same host port. -/
def StoredApart (store : StateStore) : Prop :=
  ∀ ⦃name name' : Str⦄ ⦃m m' : InstanceManifest⦄, name ≠ name' → StoresAt store name m →
    StoresAt store name' m' → m.hostPorts.Disjoint m'.hostPorts

/-- Nothing is stored that was not stored before. -/
def StoresLess (next store : StateStore) : Prop :=
  ∀ ⦃name : Str⦄ ⦃m : InstanceManifest⦄, StoresAt next name m → StoresAt store name m

theorem StoresLess.refl (store : StateStore) : StoresLess store store := fun _ _ h => h

section Stored

variable {store : StateStore} {name : Str}

theorem storesLess_makeDir : StoresLess (store.makeDir name) store := by
  rintro other m ⟨entry, hentry, hname, text, htext, hwritten⟩
  rcases List.mem_append.mp hentry with hold | hnew
  · exact ⟨entry, hold, hname, text, htext, hwritten⟩
  · rw [List.mem_singleton.mp hnew] at htext
    cases htext

/-- The directory of a changed store, and the one it was. -/
theorem mem_changeDir {f : InstanceDir → InstanceDir} {entry : Str × InstanceDir}
    (h : entry ∈ (store.changeDir name f).instances) :
    ∃ old ∈ store.instances, old.1 = entry.1 ∧
      (entry.1 = name ∧ entry.2 = f old.2 ∨ entry.1 ≠ name ∧ entry = old) := by
  obtain ⟨old, hold, rfl⟩ := List.mem_map.mp h
  refine ⟨old, hold, ?_⟩
  split
  · exact ⟨rfl, .inl ⟨‹_›, rfl⟩⟩
  · exact ⟨rfl, .inr ⟨‹_›, rfl⟩⟩

theorem storesLess_changeDir {f : InstanceDir → InstanceDir}
    (hf : ∀ dir text, (f dir).manifest = some text → dir.manifest = some text) :
    StoresLess (store.changeDir name f) store := by
  rintro other m ⟨entry, hentry, hname, text, htext, hwritten⟩
  obtain ⟨old, hold, hsame, ⟨-, hdir⟩ | ⟨-, rfl⟩⟩ := mem_changeDir hentry
  · rw [hdir] at htext
    exact ⟨old, hold, hsame.trans hname, text, hf _ _ htext, hwritten⟩
  · exact ⟨entry, hold, hname, text, htext, hwritten⟩

theorem storesLess_cleanup (cleanup : Cleanup) :
    StoresLess (cleanup.apply store name) store := by
  cases cleanup with
  | kept => exact .refl store
  | emptied => exact storesLess_changeDir fun _ _ h => by simp at h
  | removed =>
    rintro other m ⟨entry, hentry, hstored⟩
    exact ⟨entry, (List.mem_filter.mp hentry).1, hstored⟩

/-- After a manifest is written its directory stores it, and the others what they stored. -/
theorem storesAt_writeManifest {text other : Str} {m : InstanceManifest}
    (h : StoresAt (store.writeManifest name text) other m) :
    other = name ∧ (m.encode = .ok text ∨ InstanceManifest.decode text = .ok m) ∨
      other ≠ name ∧ StoresAt store other m := by
  obtain ⟨entry, hentry, rfl, written, hwritten, hm⟩ := h
  obtain ⟨old, hold, -, ⟨hname, hdir⟩ | ⟨hne, rfl⟩⟩ := mem_changeDir hentry
  · rw [hdir] at hwritten
    exact .inl ⟨hname, Option.some.inj hwritten ▸ hm⟩
  · exact .inr ⟨hne, entry, hold, rfl, written, hwritten, hm⟩

theorem hostPorts_of_text {manifest m : InstanceManifest} {text : Str}
    (hencode : manifest.encode = .ok text)
    (hm : m.encode = .ok text ∨ InstanceManifest.decode text = .ok m) :
    m.hostPorts = manifest.hostPorts := by
  rcases hm with hm | hm
  · obtain ⟨hport, hforwards⟩ := ports_of_encode_eq hm hencode
    rw [InstanceManifest.hostPorts, InstanceManifest.hostPorts, hport, hforwards]
  · rw [decode_stored hencode hm]
    rfl

end Stored

/-! ## The invariant -/

namespace CreatePhase

/-- The text a creator is going to write. -/
def encoded? : CreatePhase → Option Str
  | .absent encoded _ | .binding encoded _ _ | .made encoded _ => some encoded
  | _ => none

/-- The scan is over and the manifest is not yet written. -/
def hasScanned : CreatePhase → Bool
  | .binding _ _ _ | .made _ _ => true
  | _ => false

/-- The next step writes the manifest. -/
def isMade : CreatePhase → Bool
  | .made _ _ => true
  | _ => false

/-- The ports that are still to be bound after the scan. -/
def toBind : CreatePhase → List UInt16
  | .binding _ _ rest => rest
  | _ => []

/-- The ports a creator does not listen on, of those it wants. -/
def unbound (wanted : List UInt16) : CreatePhase → List UInt16
  | .binding _ _ rest => rest
  | .made _ _ | .written _ | .complete _ => []
  | _ => wanted

end CreatePhase

section Invariant

variable {ι : Type} {creators : ι → Creator} {world : StoreWorld ι}

/-- What the creators know at any time. -/
structure RaceInv (creators : ι → Creator) (world : StoreWorld ι) : Prop where
  apart : StoredApart world.store
  owner : ∀ ⦃port i j⦄, (port, i) ∈ world.listeners → (port, j) ∈ world.listeners → i = j
  encoded : ∀ i, ∀ text ∈ (world.phase i).encoded?, (creators i).manifest.encode = .ok text
  bound : ∀ i, ∀ port ∈ (creators i).hostPorts,
    port ∉ (world.phase i).unbound (creators i).hostPorts → (port, i) ∈ world.listeners
  scanned : ∀ i, (world.phase i).hasScanned = true → ∀ ⦃name m⦄, name ≠ (creators i).name →
    StoresAt world.store name m → (creators i).hostPorts.Disjoint m.hostPorts

/-- When a creator writes its manifest, no other one that has scanned the store still has to
    bind one of its ports. -/
def Quiet (creators : ι → Creator) (world : StoreWorld ι) (move : ι × Outcome) : Prop :=
  (world.phase move.1).isMade = true → ∀ j ≠ move.1, ∀ port ∈ (creators move.1).hostPorts,
    port ∉ (world.phase j).toBind

instance [Fintype ι] [DecidableEq ι] (creators : ι → Creator) (world : StoreWorld ι)
    (move : ι × Outcome) : Decidable (Quiet creators world move) :=
  @instDecidableForall _ _ (instDecidableEqBool _ _)
    (@Fintype.decidableForallFintype ι _
      (fun j => @instDecidableForall (j ≠ move.1) _ instDecidableNot
        (List.decidableBAll (fun port => port ∉ (world.phase j).toBind) _)) _)

theorem RaceInv.apart_of_less (h : RaceInv creators world) {store : StateStore}
    (hstore : StoresLess store world.store) : StoredApart store :=
  fun _ _ _ _ hne hm hm' => h.apart hne (hstore hm) (hstore hm')

theorem RaceInv.scanned_of_less (h : RaceInv creators world) {store : StateStore}
    (hstore : StoresLess store world.store) (j : ι) (hphase : (world.phase j).hasScanned = true)
    ⦃name : Str⦄ ⦃m : InstanceManifest⦄ (hname : name ≠ (creators j).name)
    (hm : StoresAt store name m) : (creators j).hostPorts.Disjoint m.hostPorts :=
  h.scanned j hphase hname (hstore hm)

/-- Two creators that have bound all their ports want none in common. -/
theorem RaceInv.disjoint_of_bound (h : RaceInv creators world) {i j : ι} (hij : i ≠ j)
    (hi : ∀ port ∈ (creators i).hostPorts, (port, i) ∈ world.listeners)
    (hj : ∀ port ∈ (creators j).hostPorts,
      port ∈ (creators i).hostPorts → (port, j) ∈ world.listeners) :
    (creators j).hostPorts.Disjoint (creators i).hostPorts := fun port hpj hpi =>
  hij (h.owner (hi port hpi) (hj port hpj hpi))

theorem raceInv_called (creators : ι → Creator) {store : StateStore} (h : StoredApart store) :
    RaceInv creators { store } where
  apart := h
  owner := by simp
  encoded := by simp [CreatePhase.encoded?]
  bound := fun i port hport hnot => absurd hport hnot
  scanned := by simp [CreatePhase.hasScanned]

theorem not_mem_of_reservePort {outcome : Outcome} {port : UInt16}
    (h : StateStore.reservePort (world.bindError outcome) port = .ok ()) (j : ι) :
    (port, j) ∉ world.listeners := by
  intro hmem
  have hany : (world.listeners.any fun listener => listener.1 == port) = true :=
    List.any_eq_true.mpr ⟨(port, j), hmem, beq_self_eq_true port⟩
  simp [StateStore.reservePort, StoreWorld.bindError, hany] at h

variable [DecidableEq ι]

/-- A creator moves to a phase it has the facts for, and those of the others stay true. -/
theorem RaceInv.move (h : RaceInv creators world) {i : ι} {next : CreatePhase}
    {store : StateStore} {listeners : List (UInt16 × ι)} (hapart : StoredApart store)
    (hothers : ∀ j ≠ i, (world.phase j).hasScanned = true → ∀ ⦃name m⦄,
      name ≠ (creators j).name → StoresAt store name m →
      (creators j).hostPorts.Disjoint m.hostPorts)
    (hlisteners : ∀ port, ∀ j ≠ i, (port, j) ∈ world.listeners → (port, j) ∈ listeners)
    (howner : ∀ ⦃port i j⦄, (port, i) ∈ listeners → (port, j) ∈ listeners → i = j)
    (hencoded : ∀ text ∈ next.encoded?, (creators i).manifest.encode = .ok text)
    (hbound : ∀ port ∈ (creators i).hostPorts, port ∉ next.unbound (creators i).hostPorts →
      (port, i) ∈ listeners)
    (hscanned : next.hasScanned = true → ∀ ⦃name m⦄, name ≠ (creators i).name →
      StoresAt store name m → (creators i).hostPorts.Disjoint m.hostPorts) :
    RaceInv creators { world.setPhase i next with store, listeners } where
  apart := hapart
  owner := howner
  -- For each field: the creator that moves by what it shows, the others as before.
  encoded := by
    intro j text htext
    by_cases hj : j = i
    · subst hj
      simp only [StoreWorld.setPhase, Function.update_self] at htext
      exact hencoded text htext
    · simp only [StoreWorld.setPhase, Function.update_of_ne hj] at htext
      exact h.encoded j text htext
  bound := by
    intro j port hport hnot
    by_cases hj : j = i
    · subst hj
      simp only [StoreWorld.setPhase, Function.update_self] at hnot
      exact hbound port hport hnot
    · simp only [StoreWorld.setPhase, Function.update_of_ne hj] at hnot
      exact hlisteners port j hj (h.bound j port hport hnot)
  scanned := by
    intro j hphase name m hname hm
    by_cases hj : j = i
    · subst hj
      simp only [StoreWorld.setPhase, Function.update_self] at hphase
      exact hscanned hphase hname hm
    · simp only [StoreWorld.setPhase, Function.update_of_ne hj] at hphase
      exact hothers j hj hphase hname hm

theorem RaceInv.finish (h : RaceInv creators world) (i : ι) (result : Result PathBuf)
    {store : StateStore} (hstore : StoresLess store world.store) :
    RaceInv creators { world.finish i result with store } := by
  refine h.move (h.apart_of_less hstore) (fun j _ => h.scanned_of_less hstore j) ?_ ?_ ?_ ?_ ?_
  · intro port j hj hmem
    exact List.mem_filter.mpr ⟨hmem, by simpa using hj⟩
  · intro port j k hj hk
    exact h.owner (List.mem_filter.mp hj).1 (List.mem_filter.mp hk).1
  · simp [CreatePhase.encoded?]
  · intro port hport hnot
    exact absurd hport hnot
  · simp [CreatePhase.hasScanned]

/-- A creator goes on without binding anything. -/
theorem RaceInv.advance (h : RaceInv creators world) {i : ι} {next : CreatePhase}
    {store : StateStore} (hstore : StoresLess store world.store)
    (hencoded : ∀ text ∈ next.encoded?, (creators i).manifest.encode = .ok text)
    (hbound : ∀ port ∈ (creators i).hostPorts, port ∉ next.unbound (creators i).hostPorts →
      (port, i) ∈ world.listeners)
    (hscanned : next.hasScanned = true → ∀ ⦃name m⦄, name ≠ (creators i).name →
      StoresAt world.store name m → (creators i).hostPorts.Disjoint m.hostPorts) :
    RaceInv creators { world.setPhase i next with store } :=
  h.move (h.apart_of_less hstore) (fun j _ => h.scanned_of_less hstore j)
    (fun _ _ _ hmem => hmem) h.owner hencoded hbound
    fun hphase _ _ hname hm => hscanned hphase hname (hstore hm)

/-- A port that was free is bound. -/
theorem RaceInv.bind (h : RaceInv creators world) {i : ι} {encoded : Str} {path : PathBuf}
    {port : UInt16} {rest : List UInt16}
    (hphase : world.phase i = .binding encoded path (port :: rest))
    (hfree : ∀ j, (port, j) ∉ world.listeners) :
    RaceInv creators { world.setPhase i (.binding encoded path rest) with
      listeners := (port, i) :: world.listeners } := by
  have hscanned := h.scanned i (by rw [hphase]; rfl)
  refine h.move h.apart (fun j _ => h.scanned j) ?_ ?_ ?_ ?_ (fun _ => hscanned)
  · intro p j _ hmem
    exact List.mem_cons_of_mem _ hmem
  -- The port had no listener before.
  · intro p j k hj hk
    simp only [List.mem_cons, Prod.mk.injEq] at hj hk
    rcases hj with ⟨rfl, rfl⟩ | hj <;> rcases hk with ⟨hp, rfl⟩ | hk
    · rfl
    · exact absurd hk (hfree k)
    · subst hp
      exact absurd hj (hfree j)
    · exact h.owner hj hk
  · intro text htext
    exact h.encoded i text (by rw [hphase]; exact htext)
  · intro p hp hnot
    -- The port itself is bound now; those before it were already.
    by_cases hpport : p = port
    · rw [hpport]
      exact List.mem_cons_self
    · refine List.mem_cons_of_mem _ (h.bound i p hp ?_)
      rw [hphase]
      simpa [CreatePhase.unbound, hpport] using hnot

/-- The manifest is written. -/
theorem RaceInv.publish (h : RaceInv creators world) {i : ι} {outcome : Outcome}
    (hquiet : Quiet creators world (i, outcome)) {encoded : Str} {path : PathBuf}
    (hphase : world.phase i = .made encoded path) :
    RaceInv creators { world.setPhase i (.written path) with
      store := world.store.writeManifest (creators i).name encoded } := by
  have hencode := h.encoded i encoded (by rw [hphase]; rfl)
  have hscanned := h.scanned i (by rw [hphase]; rfl)
  have hothers := hquiet (by rw [hphase]; rfl)
  have hbound : ∀ port ∈ (creators i).hostPorts, (port, i) ∈ world.listeners :=
    fun port hport => h.bound i port hport (by rw [hphase]; simp [CreatePhase.unbound])
  refine h.move ?_ ?_ (fun _ _ _ hmem => hmem) h.owner (by simp [CreatePhase.encoded?])
    (fun port hport _ => hbound port hport) (by simp [CreatePhase.hasScanned])
  · intro name name' m m' hne hm hm'
    rcases storesAt_writeManifest hm with ⟨rfl, htext⟩ | ⟨hname, hold⟩ <;>
      rcases storesAt_writeManifest hm' with ⟨rfl, htext'⟩ | ⟨hname', hold'⟩
    · exact absurd rfl hne
    · rw [hostPorts_of_text hencode htext]
      exact hscanned hname' hold'
    · rw [hostPorts_of_text hencode htext']
      exact List.disjoint_symm (hscanned hname hold)
    · exact h.apart hne hold hold'
  · intro j hj hphasej name m hname hm
    rcases storesAt_writeManifest hm with ⟨rfl, htext⟩ | ⟨-, hold⟩
    swap
    · exact h.scanned j hphasej hname hold
    -- The other creator has scanned: what it wants is bound, or not wanted here.
    rw [hostPorts_of_text hencode htext]
    refine h.disjoint_of_bound hj.symm hbound fun port hpj hpi => h.bound j port hpj ?_
    cases hcase : world.phase j with
    | binding encoded' path' rest =>
      have hnot := hothers j hj port hpi
      rwa [hcase] at hnot
    | made encoded' path' => simp [CreatePhase.unbound]
    | _ => rw [hcase] at hphasej; cases hphasej

theorem checkAbsent_encode {store : StateStore} {manifest : InstanceManifest} {encoded : Str}
    {path : PathBuf} (h : checkAbsent store manifest = .ok (encoded, path)) :
    manifest.encode = .ok encoded := by
  simp only [checkAbsent, bind_eq_ok, pure_eq_ok_iff, Prod.mk.injEq] at h
  obtain ⟨text, htext, -, -, -, -, rfl, -⟩ := h
  exact htext

/-- Every step that keeps to the condition keeps the invariant. -/
theorem RaceInv.step (h : RaceInv creators world) {move : ι × Outcome}
    (hquiet : Quiet creators world move) :
    RaceInv creators (createStep creators world move) := by
  obtain ⟨i, outcome⟩ := move
  have hbound := h.bound i
  have hencoded := h.encoded i
  have hscanned := h.scanned i
  unfold createStep
  dsimp only
  split
  · -- The existence check.
    split
    · rename_i hcheck
      refine h.advance (.refl _) ?_ ?_ (by simp [CreatePhase.hasScanned])
      · simpa [CreatePhase.encoded?] using checkAbsent_encode hcheck
      · exact fun port hport hnot => absurd hport hnot
    · exact h.finish i _ (.refl _)
  · -- The scan.
    rename_i encoded path hphase
    rw [hphase] at hencoded
    split
    · rename_i havailable
      refine h.advance (.refl _) hencoded ?_ ?_
      · exact fun port hport hnot => absurd hport hnot
      · intro _ name m _ hm
        exact disjoint_of_available havailable hm (by simp)
    · exact h.finish i _ (.refl _)
  · -- A listener.
    rename_i encoded path port rest hphase
    split
    · rename_i hreserve
      exact h.bind hphase (not_mem_of_reservePort hreserve)
    · exact h.finish i _ (.refl _)
  · -- The directory.
    rename_i encoded path hphase
    rw [hphase] at hencoded hbound hscanned
    split
    · exact h.finish i _ (.refl _)
    · split
      · exact h.advance storesLess_makeDir hencoded hbound hscanned
      · exact h.finish i _ (.refl _)
  · -- The manifest.
    rename_i encoded path hphase
    split
    · exact h.publish hquiet hphase
    · exact h.finish i _ (storesLess_cleanup _)
  · -- The token.
    rename_i path hphase
    rw [hphase] at hbound
    split
    · exact h.advance (storesLess_changeDir fun _ _ htext => htext)
        (by simp [CreatePhase.encoded?]) hbound (by simp [CreatePhase.hasScanned])
    · exact h.finish i _ (storesLess_cleanup _)
  · exact h.finish i _ (.refl _)
  · exact h

/-- Whatever creators there are and however their steps interleave: when no manifest is
    written while another creator has scanned the store and still has to bind one of its
    ports, no two stored instances reserve the same host port. -/
theorem quiet_creates_stored_apart (creators : ι → Creator) (store : StateStore)
    (hstore : StoredApart store) (moves : List (ι × Outcome))
    (hquiet : Along (createStep creators) (Quiet creators) { store } moves) :
    StoredApart (run (createStep creators) { store } moves).store :=
  (run_invariant (I := RaceInv creators) (fun _ _ hinv hallowed => hinv.step hallowed)
    (raceInv_called creators hstore) hquiet).apart

end Invariant

/-- Two creators: the demo instance, and one of another name with the given published
    ports. -/
def demoCreators (forwards : List PortForward) : Bool → Creator
  | false => { manifest := demoManifest [], token := [] }
  | true =>
    { manifest := { demoManifest [] with
        spec := { (demoManifest []).spec with name := "other".toList, portForwards := forwards }
        controlPort := stableControlPort "other".toList }
      token := [] }

/-- Both look at the store before either of them writes. -/
def demoMoves : List (Bool × Outcome) :=
  [false, true, false, true, false, false, false, true, true, false, true, false, false, true,
    true, true, false, true].map fun i => (i, .done)

theorem demoCreators_stored_apart :
    ((run (createStep (demoCreators [⟨8081, 80⟩])) { store := { root := .ofStr "/s".toList } }
      demoMoves).store.instances.map Prod.fst = ["demo".toList, "other".toList]) ∧
    StoredApart (run (createStep (demoCreators [⟨8081, 80⟩]))
      { store := { root := .ofStr "/s".toList } } demoMoves).store :=
  ⟨by decide +kernel, quiet_creates_stored_apart _ _ (by simp [StoredApart, StoresAt]) demoMoves
    (by decide +kernel)⟩

/-- The first creator has scanned the empty store when the second one runs from its first to
    its last step. -/
def raceMoves : List (Bool × Outcome) :=
  (List.replicate 2 false ++ List.replicate 8 true ++ List.replicate 7 false).map
    fun i => (i, .done)

/-- Both `create` calls succeed, and both instances publish host port 8080. -/
theorem raceMoves_share_port :
    ∃ (creators : Bool → Creator) (store : StateStore),
      (creators false).name ≠ (creators true).name ∧ StoredApart store ∧
      ¬ StoredApart (run (createStep creators) { store } raceMoves).store := by
  let creators := demoCreators [⟨8080, 80⟩]
  let store : StateStore := { root := .ofStr "/s".toList }
  refine ⟨creators, store, by decide, by simp [store, StoredApart, StoresAt],
    fun hapart => ?_⟩
  -- Both directories are there at the end.
  have hlast : (run (createStep creators) { store } raceMoves).store.instances =
      [("other".toList, ⟨(creators true).manifest.encode.toOption, some ['\n']⟩),
        ("demo".toList, ⟨(creators false).manifest.encode.toOption, some ['\n']⟩)] := by
    decide +kernel
  -- So both instances are stored, and they publish the same port.
  have hstores : ∀ i, StoresAt (run (createStep creators) { store } raceMoves).store
      (creators i).name (creators i).manifest := by
    intro i
    obtain ⟨text, htext⟩ : ∃ text, (creators i).manifest.encode = .ok text := by
      cases i <;> exact ⟨_, rfl⟩
    refine ⟨((creators i).name, ⟨some text, some ['\n']⟩), ?_, rfl, text, rfl, .inl htext⟩
    rw [hlast]
    cases i with
    | false =>
      rw [htext]
      exact List.mem_cons_of_mem _ List.mem_cons_self
    | true =>
      rw [htext]
      exact List.mem_cons_self
  have hdisjoint := hapart (by decide) (hstores false) (hstores true)
  exact @hdisjoint 8080 (by decide) (by decide)

end Lsw.Core
