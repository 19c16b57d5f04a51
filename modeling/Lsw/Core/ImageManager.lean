import Lsw.Lib.Run
import Lsw.Core.ImageClone
import Lsw.Core.ImageSeal

/-!
# The Image Manager

Images are sealed and instances are cloned in any order, and any step of these may fail.  `CleansUp`
is the condition on a call under which a failure leaves nothing behind, and it is exact.  Along calls
that meet it `list` keeps working, and what failed can be done again.
-/

namespace Lsw.Core.Image

open Lsw.Lib

/-! ## Calls -/

/-- The state directory. -/
structure World where
  images : Images
  store : StateStore

/-- A call of the manager. -/
inductive ManagerCall where
  | sealImage (env : SealEnv) (manifest : InstanceManifest)
  | cloneInstance (env : CloneEnv) (sourceName target : Str)

namespace ManagerCall

variable (sha256 : Sha256)

/-- The state directory after a call. -/
def perform (world : World) : ManagerCall → World
  | .sealImage env manifest =>
    { world with
      images := (ImageManager.seal sha256 env world.store.root manifest world.images).2 }
  | .cloneInstance env sourceName target =>
    { world with
      store := (ImageManager.cloneInstance sha256 env world.images sourceName target
        world.store).2 }

/-- The call returns an error. -/
def Fails (world : World) : ManagerCall → Prop
  | .sealImage env manifest => ∃ e,
      (ImageManager.seal sha256 env world.store.root manifest world.images).1 = .error e
  | .cloneInstance env sourceName target => ∃ e,
      (ImageManager.cloneInstance sha256 env world.images sourceName target
        world.store).1 = .error e

/-- A call that fails leaves no image directory and no target that was not there. -/
def LeavesNothing (world : World) : ManagerCall → Prop
  | .sealImage env manifest => env.LeavesNothing sha256 world.store.root manifest world.images
  | .cloneInstance env sourceName target =>
      env.LeavesNothing sha256 world.images sourceName target world.store

/-- The condition under which a call that fails leaves nothing. -/
def CleansUp (world : World) : ManagerCall → Prop
  | .sealImage env manifest => env.CleansUp sha256 world.store.root manifest world.images
  | .cloneInstance env sourceName target =>
      env.CleansUp sha256 world.images sourceName target world.store

instance (world : World) : DecidablePred (CleansUp sha256 world)
  | .sealImage env manifest =>
    inferInstanceAs (Decidable (env.CleansUp sha256 world.store.root manifest world.images))
  | .cloneInstance env sourceName target =>
    inferInstanceAs (Decidable (env.CleansUp sha256 world.images sourceName target world.store))

theorem leavesNothing_iff (world : World) (call : ManagerCall) :
    call.LeavesNothing sha256 world ↔ call.CleansUp sha256 world := by
  cases call with
  | sealImage env manifest => exact seal_leaves_nothing_iff
  | cloneInstance env sourceName target => exact clone_leaves_nothing_iff

end ManagerCall

/-! ## Retries -/

/-- No step of the call fails. -/
def SealEnv.Undisturbed (env : SealEnv) : Prop := ∀ call, env.fails call = false

/-- No step of the call fails. -/
def CloneEnv.Undisturbed (env : CloneEnv) : Prop := ∀ step, env.stopsAt step = false

/-- After the call, an undisturbed call of the same key or name succeeds if its checks passed before
    and the directory did not exist then. -/
def ManagerCall.CanBeRetried (sha256 : Sha256) (world : World) : ManagerCall → Prop
  | .sealImage env manifest =>
    ∀ (retry : SealEnv) (manifest' : InstanceManifest) (qemuImg : PathBuf) (contract : Contract),
      retry.Undisturbed →
      retry.prepare sha256 world.store.root manifest' = .ok (qemuImg, contract) →
      world.images.lookup contract.key = none →
      ∃ image, (ImageManager.seal sha256 retry world.store.root manifest'
        ((ManagerCall.sealImage env manifest).perform sha256 world).images).1 = .ok image
  | .cloneInstance env sourceName target =>
    ∀ (retry : CloneEnv) (manifest : InstanceManifest) (encoded : Str) (path : PathBuf),
      retry.Undisturbed →
      retry.prepare sha256 world.images sourceName target world.store = .ok manifest →
      retry.creation.prepare manifest ⟨world.store, none⟩ = .ok (encoded, path) →
      world.store.dir? target = none →
      (ImageManager.cloneInstance sha256 retry world.images sourceName target
        ((ManagerCall.cloneInstance env sourceName target).perform sha256 world).store).1 = .ok path

section Retry

variable {sha256 : Sha256} {world : World}

/-- An undisturbed `seal` that passes its checks makes the image. -/
theorem SealEnv.Undisturbed.seal {env : SealEnv} (h : env.Undisturbed) {root : PathBuf}
    {manifest : InstanceManifest} {images : Images} {qemuImg : PathBuf} {contract : Contract}
    (hprepare : env.prepare sha256 root manifest = .ok (qemuImg, contract))
    (hnew : images.lookup contract.key = none) :
    ∃ image, (ImageManager.seal sha256 env root manifest images).1 = .ok image := by
  have hstaged := seal_staged hprepare hnew
  have hnone : sealCalls.find? env.fails = none := by
    rw [List.find?_eq_none]
    intro call _
    rw [h call]
    simp
  unfold Effect.Staged at hstaged
  rw [hnone] at hstaged
  obtain ⟨image, after, hrun, -⟩ := hstaged
  exact ⟨image, by rw [hrun]⟩

/-- An undisturbed `clone_instance` that passes its checks makes the instance. -/
theorem CloneEnv.Undisturbed.clone {env : CloneEnv} (h : env.Undisturbed) {images : Images}
    {store : StateStore} {manifest : InstanceManifest} {sourceName target encoded : Str}
    {path : PathBuf} (hprepare : env.prepare sha256 images sourceName target store = .ok manifest)
    (hnew : store.dir? target = none)
    (hcreate : env.creation.prepare manifest ⟨store, none⟩ = .ok (encoded, path)) :
    (ImageManager.cloneInstance sha256 env images sourceName target store).1 = .ok path := by
  have hstaged := clone_staged hprepare hnew hcreate
  have hnone : cloneCalls.find? env.stopsAt = none := by
    rw [List.find?_eq_none]
    intro step _
    rw [h step]
    simp
  unfold Effect.Staged at hstaged
  rw [hnone] at hstaged
  obtain ⟨made, after, hrun, rfl, -⟩ := hstaged
  rw [hrun]

/-- What failed and cleaned up can be retried: it has changed nothing that a retry looks at. -/
theorem ManagerCall.CleansUp.canBeRetried {call : ManagerCall} (h : call.CleansUp sha256 world)
    (hfails : call.Fails sha256 world) : call.CanBeRetried sha256 world := by
  cases call with
  | sealImage env manifest =>
    rcases seal_cases sha256 env world.store.root manifest world.images with
      ⟨-, hsame, -⟩ | ⟨hbroken, -⟩
    · obtain ⟨e, herror⟩ := hfails
      intro retry manifest' qemuImg contract hretry hprepare hnew
      rw [ManagerCall.perform, hsame e herror]
      exact hretry.seal hprepare hnew
    · exact absurd h hbroken
  | cloneInstance env sourceName target =>
    rcases clone_cases sha256 env world.images sourceName target world.store with
      ⟨-, hsame, -⟩ | ⟨hbroken, -⟩
    · obtain ⟨e, herror⟩ := hfails
      obtain ⟨default, hafter⟩ := hsame e herror
      intro retry manifest encoded path hretry hprepare hcreate hnew
      rw [ManagerCall.perform, hafter]
      -- Neither the checks nor `create` look at the default instance.
      exact hretry.clone hprepare hnew hcreate
    · exact absurd h hbroken

/-! ## Runs -/

/-- `list` succeeds. -/
def World.Listed (sha256 : Sha256) (world : World) : Prop :=
  ∃ listed, list sha256 world.store.root world.images = .ok listed

/-- A call that cleans up after itself leaves images that can be listed. -/
theorem ManagerCall.CleansUp.listed {call : ManagerCall} (h : call.CleansUp sha256 world)
    (hlist : world.Listed sha256) : (call.perform sha256 world).Listed sha256 := by
  rw [World.Listed, list_eq_ok_iff] at hlist ⊢
  cases call with
  | sealImage env manifest =>
    rcases seal_cases sha256 env world.store.root manifest world.images with
      ⟨-, -, hsame | ⟨name, files, image, hafter, hload⟩⟩ | ⟨hbroken, -⟩
    · rw [ManagerCall.perform, hsame]
      exact hlist
    · rw [ManagerCall.perform, hafter]
      exact hlist.append hload
    · exact absurd h hbroken
  | cloneInstance env sourceName target =>
    rcases clone_cases sha256 env world.images sourceName target world.store with
      ⟨-, -, hroot⟩ | ⟨hbroken, -⟩
    · rw [ManagerCall.perform, hroot]
      exact hlist
    · exact absurd h hbroken

end Retry

/-- What is asked of a call where it is made: `list` works before it and after it, and when it fails
    it leaves nothing behind and can be retried. -/
structure Whole (sha256 : Sha256) (world : World) (call : ManagerCall) : Prop where
  listed : world.Listed sha256
  listed_after : (call.perform sha256 world).Listed sha256
  leavesNothing : call.LeavesNothing sha256 world
  retry : call.Fails sha256 world → call.CanBeRetried sha256 world

/-- A failing `seal` or `clone_instance` leaves nothing behind exactly when it cleans up, and along
    calls that do `list` keeps working and every failed call can be retried. -/
theorem images_stay_listable (sha256 : Sha256) (world : World) (calls : List ManagerCall)
    (hlist : world.Listed sha256)
    (hclean : Along (ManagerCall.perform sha256) (fun world call => call.CleansUp sha256 world)
      world calls) :
    (∀ (world : World) (call : ManagerCall),
      call.LeavesNothing sha256 world ↔ call.CleansUp sha256 world) ∧
    Along (ManagerCall.perform sha256) (Whole sha256) world calls ∧
    (run (ManagerCall.perform sha256) world calls).Listed sha256 := by
  have hstep : ∀ (world : World) (call : ManagerCall), world.Listed sha256 →
      call.CleansUp sha256 world → (call.perform sha256 world).Listed sha256 :=
    fun _ _ hlisted hcall => hcall.listed hlisted
  refine ⟨fun world call => call.leavesNothing_iff sha256 world, ?_, ?_⟩
  · refine along_of_invariant hstep (fun world call hlisted hcall => ?_) hlist hclean
    exact ⟨hlisted, hcall.listed hlisted, (call.leavesNothing_iff sha256 world).mpr hcall,
      hcall.canBeRetried⟩
  · exact run_invariant hstep hlist hclean

/-! ## A directory that could not be protected -/

/-- A digest given by its number. -/
def digest (n : Nat) : Vector UInt8 32 := Vector.ofFn fun i => UInt8.ofNat (n / 256 ^ (31 - i.val))

/-- The hash of the empty file, and of the contract of an image all of whose files are empty. -/
def emptySha256 : Sha256 := fun contents =>
  if contents = [] then
    digest 0xe3b0c44298fc1c149afbf4c8996fb92427ae41e4649b934ca495991b7852b855
  else
    digest 0x47fae46a1449892af5261d3af245f7c7598b3a84de749b4c72d60229b564df8a

/-- A machine on which all files are empty and one step of `seal` may fail. -/
def emptySeal (which : Option SealCall) : SealEnv where
  fails := fun call => some call = which
  converted := []
  contents := fun _ => []
  capabilities := {
    platform := .linux
    qemuImg := some (.ofStr "/usr/bin/qemu-img".toList)
    ovmfCode := some (.ofStr "/usr/share/OVMF/OVMF_CODE.fd".toList) }

/-- The demo instance, before any user was registered. -/
def pristineManifest : InstanceManifest :=
  { demoManifest [] with defaultUser := none, defaultUserRole := none }

/-- A machine on which the instance is cloned. -/
def emptyClone : CloneEnv where
  fails _ := false
  creation := .failing none
  fs := {
    symlinkMetadata _ := .ok .file
    canonicalize path := .ok path
    isFile _ := true
    isDir _ := true }
  clock := .ok 0
  sourceIso := []
  firmware := []
  capabilities := (emptySeal none).capabilities

/-- The key of the image of the demo instance. -/
def demoKey : Str := "47fae46a1449892af5261d3af245f7c7598b3a84de749b4c72d60229b564df8a".toList

/-- No images, and the demo instance that is to be cloned. -/
def sourceWorld : World :=
  ⟨[], {
    root := .ofStr "/s".toList
    instances := [("demo".toList,
      ⟨({ pristineManifest with baseImageKey := some demoKey } : InstanceManifest).encode.toOption,
        none⟩)] }⟩

/-- A seal whose conversion fails. -/
def firstSeal : ManagerCall := .sealImage (emptySeal (some .convert)) pristineManifest

/-- It is tried again, and the instance is cloned. -/
def retriedCalls : List ManagerCall :=
  [firstSeal, .sealImage (emptySeal none) pristineManifest,
    .cloneInstance emptyClone "demo".toList "copy".toList]

theorem firstSeal_fails : firstSeal.Fails emptySha256 sourceWorld := by
  have hfails : (ImageManager.seal emptySha256 (emptySeal (some .convert)) sourceWorld.store.root
      pristineManifest sourceWorld.images).1.isOk = false := by decide +kernel
  exact exists_error_of_isOk hfails

theorem secondSeal_passes : ∃ checked, (emptySeal none).prepare emptySha256 sourceWorld.store.root
    pristineManifest = .ok checked := by
  have hpasses : ((emptySeal none).prepare emptySha256 sourceWorld.store.root
      pristineManifest).isOk = true := by decide +kernel
  exact exists_ok_of_isOk hpasses

/-- The state directory after all calls. -/
def retriedWorld : World := run (ManagerCall.perform emptySha256) sourceWorld retriedCalls

/-- All of them clean up, and the clone is made. -/
theorem retriedCalls_clean : Along (ManagerCall.perform emptySha256)
    (fun world call => call.CleansUp emptySha256 world) sourceWorld retriedCalls ∧
    retriedWorld.store.instances.map Prod.fst = ["demo".toList, "copy".toList] := by
  decide +kernel

/-- The second seal returns the image, and the clone is there afterwards. -/
theorem second_seal_succeeds :
    (∃ image, (ImageManager.seal emptySha256 (emptySeal none) sourceWorld.store.root pristineManifest
        (firstSeal.perform emptySha256 sourceWorld).images).1 = .ok image) ∧
    retriedWorld.Listed emptySha256 ∧
      retriedWorld.store.instances.map Prod.fst = ["demo".toList, "copy".toList] := by
  obtain ⟨hclean, hnames⟩ := retriedCalls_clean
  obtain ⟨-, hwhole, hlisted⟩ := images_stay_listable emptySha256 sourceWorld retriedCalls
    (list_eq_ok_iff.mpr (by simp [Loads, sourceWorld])) hclean
  refine ⟨?_, hlisted, hnames⟩
  have hretry : firstSeal.CanBeRetried emptySha256 sourceWorld := hwhole.1.retry firstSeal_fails
  have hundisturbed : (emptySeal none).Undisturbed := fun call => by simp [emptySeal]
  obtain ⟨checked, hchecked⟩ := secondSeal_passes
  exact hretry (emptySeal none) pristineManifest checked.1 checked.2 hundisturbed hchecked rfl

/-- No images and no instances. -/
def emptyWorld : World := ⟨[], { root := .ofStr "/s".toList }⟩

/-- When the new directory cannot be protected it stays, empty, and neither `list` nor `seal`
    succeeds any more. -/
theorem unprotected_directory_breaks_list :
    let broken := ManagerCall.sealImage (emptySeal (some .protectDirectory)) pristineManifest
    let after := broken.perform emptySha256 emptyWorld
    emptyWorld.Listed emptySha256 ∧ ¬ broken.LeavesNothing emptySha256 emptyWorld ∧
      ¬ after.Listed emptySha256 ∧
      (ImageManager.seal emptySha256 (emptySeal none) after.store.root pristineManifest
        after.images).1 = .error .io := by
  intro broken after
  have hlist : list emptySha256 after.store.root after.images = .error .io := by decide +kernel
  refine ⟨list_eq_ok_iff.mpr (by simp [Loads, emptyWorld]), ?_, ?_, by decide +kernel⟩
  · rw [ManagerCall.leavesNothing_iff]
    decide +kernel
  · rintro ⟨listed, hlisted⟩
    cases hlist.symm.trans hlisted

end Lsw.Core.Image
