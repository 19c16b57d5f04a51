import Mathlib.Data.List.Pairwise
import Lsw.Core.Store

/-!
# Reading and Rewriting a Stored Manifest

`load` after `update`, and the change that the daemon makes most: a manifest is read, its state
is set, and it is written back (`Supervisor::set_state`).  In a sound store whose manifests can
all be read that change is always accepted, and it concerns no other instance.
-/

namespace Lsw.Core

open Lsw.Lib

/-! ## One manifest -/

/-- The directory of the instance holds the text of this manifest. -/
def HoldsText (store : StateStore) (name : Str) (manifest : InstanceManifest) : Prop :=
  ∃ dir text, store.dir? name = some dir ∧ dir.manifest = some text ∧
    manifest.encode = .ok text

/-- A manifest as it is read: at the current version. -/
def InstanceManifest.asRead (manifest : InstanceManifest) : InstanceManifest :=
  { manifest with version := manifestVersion }

@[simp] theorem asRead_spec (manifest : InstanceManifest) :
    manifest.asRead.spec = manifest.spec := rfl

@[simp] theorem asRead_hostPorts (manifest : InstanceManifest) :
    manifest.asRead.hostPorts = manifest.hostPorts := rfl

/-- The manifest with another state. -/
def InstanceManifest.withState (manifest : InstanceManifest) (state : InstanceState)
    (seconds : UInt64) : InstanceManifest :=
  { manifest with state, stateChangedUnixSeconds := seconds }

@[simp] theorem withState_spec (manifest : InstanceManifest) (state : InstanceState)
    (seconds : UInt64) : (manifest.withState state seconds).spec = manifest.spec := rfl

@[simp] theorem withState_state (manifest : InstanceManifest) (state : InstanceState)
    (seconds : UInt64) : (manifest.withState state seconds).state = state := rfl

section One

variable {store next : StateStore} {name : Str} {manifest : InstanceManifest}

/-- `load` returns the manifest that was written, at the current version. -/
theorem eq_of_load {loaded : InstanceManifest} (hholds : HoldsText store name manifest)
    (hload : store.load name = .ok loaded) :
    loaded = manifest.asRead := by
  obtain ⟨dir, text, hdir, htext, hencode⟩ := hholds
  simp only [StateStore.load, hdir, okOr_some, bind_eq_ok, Except.ok.injEq] at hload
  obtain ⟨-, -, _, rfl, read, hread, hdecode⟩ := hload
  rw [htext, okOr_some, Except.ok.injEq] at hread
  rw [← hread] at hdecode
  exact decode_stored hencode hdecode

/-- A change of one directory. -/
theorem dir?_changeDir (other : Str) (f : InstanceDir → InstanceDir) :
    (store.changeDir name f).dir? other =
      if other = name then (store.dir? other).map f else store.dir? other := by
  rw [StateStore.dir?, StateStore.dir?, StateStore.changeDir]
  dsimp only
  induction store.instances with
  | nil => simp
  | cons entry entries ih =>
    rw [List.map_cons, List.lookup_cons, List.lookup_cons, ih]
    by_cases hentry : other = entry.1
    · by_cases hname : other = name
      · simp [hentry.symm, hname]
      · simp [hentry.symm, hname]
    · have hbeq : (other == entry.1) = false := beq_eq_false_iff_ne.mpr hentry
      have hfirst : (if entry.1 = name then (entry.1, f entry.2) else entry).1 = entry.1 := by
        split <;> rfl
      rw [hfirst, hbeq]

/-- An accepted update is what the directory holds afterwards. -/
theorem holdsText_update {edited : InstanceManifest} (hholds : HoldsText store name manifest)
    (hname : edited.spec.name = name) (h : StateStore.update edited store = (.ok (), next)) :
    HoldsText next name edited := by
  obtain ⟨text, hencode, -, rfl⟩ := update_eq_ok h
  obtain ⟨dir, -, hdir, -, -⟩ := hholds
  rw [hname]
  exact ⟨_, text, by rw [StateStore.writeManifest, dir?_changeDir, if_pos rfl, hdir]; rfl, rfl,
    hencode⟩

/-- An update concerns no other instance. -/
theorem load_update_of_ne {edited : InstanceManifest}
    (h : StateStore.update edited store = (.ok (), next)) (hne : edited.spec.name ≠ name) :
    next.load name = store.load name := by
  obtain ⟨text, -, -, rfl⟩ := update_eq_ok h
  rw [StateStore.load, StateStore.load, StateStore.writeManifest, dir?_changeDir,
    if_neg (Ne.symm hne)]
  rfl

/-- What can be read after an update is what it has written, or what was there before. -/
theorem load_update {edited loaded : InstanceManifest}
    (h : StateStore.update edited store = (.ok (), next)) (hload : next.load name = .ok loaded) :
    edited.spec.name = name ∧ loaded = edited.asRead ∨
      edited.spec.name ≠ name ∧ store.load name = .ok loaded := by
  by_cases hname : edited.spec.name = name
  · obtain ⟨text, hencode, -, rfl⟩ := update_eq_ok h
    simp only [StateStore.load, StateStore.writeManifest, dir?_changeDir, if_pos hname.symm,
      bind_eq_ok, okOr_eq_ok, Option.map_eq_some_iff] at hload
    obtain ⟨-, -, _, ⟨dir, -, rfl⟩, read, hread, hdecode⟩ := hload
    rw [Option.some.injEq] at hread
    rw [← hread] at hdecode
    exact .inl ⟨hname, decode_stored hencode hdecode⟩
  · exact .inr ⟨hname, load_update_of_ne h hname ▸ hload⟩

/-- An update that passes its checks. -/
theorem update_of_checks {text : Str} (hencode : manifest.encode = .ok text)
    (hdir : (store.dir? manifest.spec.name).isSome)
    (hports : store.ensureHostPortsAvailable manifest (some manifest.spec.name) = .ok ()) :
    StateStore.update manifest store =
      (.ok (), store.writeManifest manifest.spec.name text) := by
  have hname : isName 63 manifest.spec.name = true :=
    (encode_eq_ok_iff.mp hencode).1.spec.name_valid
  have hvalid : validateInstanceName manifest.spec.name = .ok () := by
    simp [validateInstanceName, hname]
  have hpath : store.instanceDir manifest.spec.name =
      .ok ((store.root.join "instances".toList).join manifest.spec.name) := by
    rw [StateStore.instanceDir, hvalid, ok_bind]
    rfl
  simp only [StateStore.update, Effect.check_bind_eq_ok, rejectIf_eq_ok]
  exact ⟨text, hencode, _, hpath, (), by simpa [Option.isSome_iff_ne_none] using hdir, (), hports,
    rfl⟩

/-- A manifest that can be read again is what `load` returns. -/
theorem HoldsText.load (hholds : HoldsText store manifest.spec.name manifest)
    (hreadable : Readable manifest.asRead) :
    store.load manifest.spec.name = .ok manifest.asRead := by
  obtain ⟨dir, text, hdir, htext, hencode⟩ := hholds
  have hname : isName 63 manifest.spec.name = true :=
    (encode_eq_ok_iff.mp hencode).1.spec.name_valid
  have hvalid : validateInstanceName manifest.spec.name = .ok () := by
    simp [validateInstanceName, hname]
  have hdecode := decode_encode
    ((encode_with_version manifest manifestVersion).trans hencode) hreadable
  rw [StateStore.load, StateStore.instanceDir, hvalid, hdir]
  simp only [ok_bind, okOr_some, htext]
  exact hdecode

/-- The state can be changed in a manifest that can be written. -/
theorem encode_with_state {text : Str} (h : manifest.encode = .ok text) (state : InstanceState)
    (seconds : UInt64) :
    ∃ text', (manifest.withState state seconds).encode = .ok text' := by
  obtain ⟨⟨hspec, hidle, hhibernate, hruntime⟩, iso, hiso, -⟩ := encode_eq_ok_iff.mp h
  refine ⟨_, encode_eq_ok_iff.mpr ⟨⟨hspec, hidle, hhibernate, ?_⟩, iso, hiso, rfl⟩⟩
  exact ⟨hruntime.valid, hruntime.key, hruntime.user, hruntime.shares, hruntime.apart⟩

end One

/-! ## Whatever is stored -/

/-- Every manifest that can be read from a directory of the store meets `Q`. -/
def AllRead (Q : InstanceManifest → Prop) (store : StateStore) : Prop :=
  ∀ entry ∈ store.instances, ∀ text manifest, entry.2.manifest = some text →
    InstanceManifest.decode text = .ok manifest → Q manifest

/-- The agent token of every instance can be read. -/
def Tokened (store : StateStore) : Prop :=
  ∀ name path, store.instanceDir name = .ok path → (store.dir? name).isSome = true →
    ∃ token, store.readAgentToken name = .ok token

section Stored

variable {Q : InstanceManifest → Prop} {store next : StateStore} {name : Str}
  {manifest : InstanceManifest}

theorem AllRead.load (h : AllRead Q store) (hload : store.load name = .ok manifest) :
    Q manifest := by
  simp only [StateStore.load, bind_eq_ok, okOr_eq_ok] at hload
  obtain ⟨-, -, dir, hdir, text, htext, hdecode⟩ := hload
  obtain ⟨before, after, hsplit, -⟩ := List.lookup_eq_some_iff.mp hdir
  exact h (name, dir) (by simp [hsplit]) text manifest htext hdecode

theorem AllRead.list (h : AllRead Q store) {manifests : List InstanceManifest}
    (hlist : store.list = .ok manifests) (hmem : manifest ∈ manifests) : Q manifest := by
  simp only [StateStore.list, bind_eq_ok, pure_eq_ok_iff] at hlist
  obtain ⟨reads, hreads, rfl⟩ := hlist
  obtain ⟨text, htext, hdecode⟩ :=
    exists_of_forall₂ (mapM_eq_ok_iff.mp hreads).flip (List.mem_mergeSort.mp hmem)
  obtain ⟨entry, hentry, hfound⟩ := List.mem_filterMap.mp htext
  exact h entry hentry text manifest hfound hdecode

theorem AllRead.update (h : AllRead Q store) {edited : InstanceManifest} (hedited : Q edited.asRead)
    (hupdate : StateStore.update edited store = (.ok (), next)) : AllRead Q next := by
  obtain ⟨text, hencode, -, rfl⟩ := update_eq_ok hupdate
  intro entry hentry found read hfound hdecode
  obtain ⟨old, hold, rfl⟩ := List.mem_map.mp hentry
  split at hfound
  · rw [Option.some.injEq] at hfound
    rw [← hfound] at hdecode
    rw [decode_stored hencode hdecode]
    exact hedited
  · exact h old hold found read hfound hdecode

/-- An update changes no token. -/
theorem readAgentToken_update {edited : InstanceManifest}
    (hupdate : StateStore.update edited store = (.ok (), next)) :
    next.readAgentToken name = store.readAgentToken name := by
  obtain ⟨text, -, -, rfl⟩ := update_eq_ok hupdate
  rw [StateStore.readAgentToken, StateStore.readAgentToken, StateStore.writeManifest,
    dir?_changeDir]
  split
  · cases store.dir? name <;> rfl
  · rfl

theorem Tokened.update (h : Tokened store) {edited : InstanceManifest}
    (hupdate : StateStore.update edited store = (.ok (), next)) : Tokened next := by
  intro name path hpath hdir
  rw [readAgentToken_update hupdate]
  obtain ⟨text, -, -, rfl⟩ := update_eq_ok hupdate
  refine h name path hpath ?_
  rw [StateStore.writeManifest, dir?_changeDir] at hdir
  split at hdir
  · rwa [Option.isSome_map] at hdir
  · exact hdir

/-- What can be loaded has a token. -/
theorem Tokened.of_load (h : Tokened store) (hload : store.load name = .ok manifest) :
    ∃ token, store.readAgentToken name = .ok token := by
  simp only [StateStore.load, bind_eq_ok, okOr_eq_ok] at hload
  obtain ⟨path, hpath, dir, hdir, -⟩ := hload
  exact h name path hpath (by rw [hdir]; rfl)

end Stored

/-! ## All of them -/

/-- A sound store in which every manifest can be read. -/
structure ReadableWith (store : StateStore) (manifests : List InstanceManifest) : Prop where
  sound : SoundWith store manifests
  readable : ∀ manifest ∈ manifests, Readable manifest.asRead

/-- Two manifests stand side by side in either order. -/
instance : Std.Symm PortsApart := ⟨fun _ _ h => ⟨h.name_ne.symm, List.disjoint_symm h.disjoint⟩⟩

section All

variable {store next : StateStore} {manifests : List InstanceManifest} {name : Str}
  {manifest : InstanceManifest}

/-- A store holds the text of each of its manifests. -/
theorem SoundWith.holdsText (h : SoundWith store manifests) (hmem : manifest ∈ manifests) :
    HoldsText store manifest.spec.name manifest := by
  obtain ⟨hholds, -, hapart⟩ := h
  rw [HoldsText, StateStore.dir?]
  generalize store.instances = entries at hholds
  induction hholds with
  | nil => simp at hmem
  | @cons entry first entries manifests hentry _ ih =>
    rw [List.pairwise_cons] at hapart
    rw [List.lookup_cons]
    rcases List.mem_cons.mp hmem with rfl | hmem
    · obtain ⟨text, htext, hencode⟩ := hentry.text
      rw [hentry.name_eq, beq_self_eq_true]
      exact ⟨entry.2, text, rfl, htext, hencode⟩
    · have hne : manifest.spec.name ≠ entry.1 := by
        rw [hentry.name_eq]
        exact (hapart.1 manifest hmem).name_ne.symm
      rw [beq_eq_false_iff_ne.mpr hne]
      exact ih hmem hapart.2

theorem ReadableWith.load (h : ReadableWith store manifests) (hmem : manifest ∈ manifests) :
    store.load manifest.spec.name = .ok manifest.asRead :=
  (h.sound.holdsText hmem).load (h.readable manifest hmem)

theorem ReadableWith.exists_of_load (h : ReadableWith store manifests)
    (hload : store.load name = .ok manifest) :
    ∃ stored ∈ manifests, stored.spec.name = name ∧
      manifest = stored.asRead := by
  have hdir : (store.dir? name).isSome := by
    simp only [StateStore.load, bind_eq_ok, okOr_eq_ok] at hload
    obtain ⟨-, -, dir, hdir, -⟩ := hload
    simp [hdir]
  obtain ⟨stored, hmem, rfl⟩ := (h.sound.dir?_isSome_iff name).mp hdir
  exact ⟨stored, hmem, rfl, eq_of_load (h.sound.holdsText hmem) hload⟩

/-- Every manifest is listed, and nothing else. -/
theorem ReadableWith.list (h : ReadableWith store manifests) :
    ∃ listed, store.list = .ok listed ∧ ∀ read ∈ listed, ∃ stored ∈ manifests,
      read = stored.asRead := by
  have hdecode : List.Forall₂ (fun text read => InstanceManifest.decode text = .ok read)
      (store.instances.filterMap fun entry => entry.2.manifest)
      (manifests.map InstanceManifest.asRead) := by
    obtain ⟨⟨hholds, -, -⟩, hreadable⟩ := h
    generalize store.instances = entries at hholds
    induction hholds with
    | nil => exact .nil
    | cons hentry _ ih =>
      obtain ⟨text, htext, hencode⟩ := hentry.text
      rw [List.filterMap_cons, htext, List.map_cons]
      refine .cons ?_ (ih fun m hm => hreadable m (List.mem_cons_of_mem _ hm))
      exact decode_encode ((encode_with_version _ manifestVersion).trans hencode)
        (hreadable _ List.mem_cons_self)
  refine ⟨_, by rw [StateStore.list, mapM_eq_ok_iff.mpr hdecode]; rfl, fun read hread => ?_⟩
  obtain ⟨stored, hstored, rfl⟩ := List.mem_map.mp (List.mem_mergeSort.mp hread)
  exact ⟨stored, hstored, rfl⟩

/-- A stored manifest has its ports for itself, whatever else is changed in it. -/
theorem ReadableWith.available (h : ReadableWith store manifests) (hmem : manifest ∈ manifests)
    {edited : InstanceManifest} (hports : edited.hostPorts = manifest.hostPorts) :
    store.ensureHostPortsAvailable edited (some manifest.spec.name) = .ok () := by
  obtain ⟨listed, hlist, hlisted⟩ := h.list
  rw [StateStore.ensureHostPortsAvailable, hlist, ok_bind]
  refine forEach_check_of fun read hread => ?_
  obtain ⟨stored, hstored, rfl⟩ := hlisted read hread
  rw [StateStore.checkPorts]
  by_cases hname : stored.spec.name = manifest.spec.name
  · exact if_pos (congrArg some hname.symm)
  · have hapart : PortsApart manifest stored :=
      h.sound.apart.forall hmem hstored fun heq => hname (by rw [heq])
    have hnone : edited.hostPorts.find?
        (fun port => stored.asRead.hostPorts.contains port) = none := by
      rw [List.find?_eq_none, hports]
      intro port hport
      simpa using hapart.disjoint hport
    rw [if_neg (by simpa using Ne.symm hname), hnone]

/-- A state change is accepted, is what `load` returns from then on, and leaves the other
    instances alone. -/
theorem ReadableWith.update_state (h : ReadableWith store manifests)
    (hload : store.load name = .ok manifest) (state : InstanceState) (seconds : UInt64) :
    ∃ next nextManifests,
      StateStore.update (manifest.withState state seconds) store = (.ok (), next) ∧
      ReadableWith next nextManifests ∧
      next.load name = .ok (manifest.withState state seconds) ∧
      ∀ other found, other ≠ name → store.load other = .ok found →
        next.load other = .ok found := by
  -- What `load` returns is a stored manifest as it is read.
  obtain ⟨stored, hmem, rfl, rfl⟩ := h.exists_of_load hload
  have hholds := h.sound.holdsText hmem
  obtain ⟨dir, text, hdir, -, hencode⟩ := hholds
  have hreadable := h.readable stored hmem
  have hport := hreadable.controlPort_eq
  -- With another state it can still be encoded.
  obtain ⟨text', hencode'⟩ := encode_with_state
    ((encode_with_version stored manifestVersion).trans hencode) state seconds
  -- Its ports are its own.
  have hports : store.ensureHostPortsAvailable (stored.asRead.withState state seconds)
      (some stored.spec.name) = .ok () := h.available hmem rfl
  have hupdate := update_of_checks hencode' (by simp [hdir]) hports
  -- The store is readable with the manifest replaced.
  have hnext : ReadableWith
      (store.writeManifest stored.spec.name text')
      (replaceManifest manifests (stored.asRead.withState state seconds)) := by
    refine ⟨h.sound.replace hencode' hport fun existing hexisting hne => ?_, fun m hm => ?_⟩
    · exact (h.sound.apart.forall hmem hexisting fun heq => hne (by rw [← heq]; rfl)).disjoint
    · obtain ⟨old, hold, rfl⟩ := List.mem_map.mp hm
      split
      · exact ⟨rfl, hport, hreadable.shares_le⟩
      · exact h.readable old hold
  refine ⟨_, _, hupdate, hnext, ?_, fun other found hother hfound => ?_⟩
  -- The instance itself.
  · have hmem' : stored.asRead.withState state seconds ∈
        replaceManifest manifests (stored.asRead.withState state seconds) :=
      List.mem_map.mpr ⟨stored, hmem, if_pos rfl⟩
    exact hnext.load hmem'
  -- Any other one has its manifest as before.
  · obtain ⟨old, hold, rfl, rfl⟩ := h.exists_of_load hfound
    have hmem' : old ∈ replaceManifest manifests (stored.asRead.withState state seconds) :=
      List.mem_map.mpr ⟨old, hold, if_neg hother⟩
    exact hnext.load hmem'

end All

end Lsw.Core
