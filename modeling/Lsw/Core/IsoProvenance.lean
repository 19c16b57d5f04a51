import Lsw.Core.IsoDownload
import Lsw.Lib.Run

/-!
# Where the Bytes of an ISO Come From

A run continues the files that earlier runs left under the names it derives from its destination,
and `ensure_same_iso` compares only the resolutions of one run.  So a run keeps apart what was
fetched for different ISOs exactly as long as the files it continues are of its own ISO: then every
file that it hashes is, whatever the CDN answers and wherever the run is interrupted.
-/

namespace Lsw.Core.IsoDownload

open Lsw.Lib Lsw.Lib.Traced

/-! ## Sources -/

/-- The byte was fetched for an ISO with the product, SKU, file name and digest of this one. -/
def FetchedFor (iso : ResolvedWindowsIso) (byte : FetchedByte) : Prop :=
  byte.source.any (sameIso iso) = true

instance (iso : ResolvedWindowsIso) (byte : FetchedByte) : Decidable (FetchedFor iso byte) :=
  inferInstanceAs (Decidable (_ = true))

/-- Every byte at the path was fetched for the ISO. -/
def OfIso (iso : ResolvedWindowsIso) (files : Directory) (path : Path) : Prop :=
  ∀ byte ∈ bytesAt files path, FetchedFor iso byte

instance (iso : ResolvedWindowsIso) (files : Directory) (path : Path) :
    Decidable (OfIso iso files path) :=
  inferInstanceAs (Decidable (∀ _ ∈ _, _))

/-- The part files that an attempt of the native engine continues. -/
def continuedParts (temporary : Path) (head : Except HttpError Response) : List Path :=
  match cdnContentLength head >>= splitRanges >>= partPaths temporary with
  | .ok parts => parts.map (·.1)
  | .error _ => []

/-- The files that the run continues if it finds them. -/
def Run.continued (run : Run) (destination : Path) : List Path :=
  match downloadTemporaryPath destination, run.aria2c with
  | .ok temporary, some _ => [temporary]
  | .ok temporary, none =>
    (List.range maxDownloadAttempts).flatMap fun attempt =>
      continuedParts temporary (run.head attempt)
  | .error _, _ => []

/-- What earlier runs left for the run to continue was fetched for its ISO.  A run that finds its
    destination continues nothing. -/
def SameIsoLeft (destination : Path) (files : Directory) (run : Run) : Prop :=
  files destination = none → ∀ path ∈ run.continued destination, OfIso run.initial files path

/-- Every file that one of the runs hashes consists of bytes fetched for the ISO the run was asked
    for. -/
def OnlySameIso (sha256 : List UInt8 → Str) (destination : Path) (files : Directory)
    (runs : List Run) : Prop :=
  ∀ event ∈ hashed sha256 destination files runs, ∀ byte ∈ event.bytes,
    FetchedFor event.asked byte

theorem fetchedFor_of_source {iso source : ResolvedWindowsIso} {byte : FetchedByte}
    (hsame : sameIso iso source = true) (h : byte.source = some source) :
    FetchedFor iso byte := by
  rw [FetchedFor, h]
  exact hsame

theorem sameIso_refl (iso : ResolvedWindowsIso) : sameIso iso iso = true := by
  simp [sameIso, eqIgnoreAsciiCase]

theorem bytesAt_update_self (files : Directory) (path : Path) (node : Option Node) :
    bytesAt (Function.update files path node) path = contents node := by
  rw [bytesAt, Function.update_self]

theorem bytesAt_update_of_ne {files : Directory} {path other : Path} {node : Option Node}
    (h : other ≠ path) : bytesAt (Function.update files path node) other = bytesAt files other := by
  rw [bytesAt, Function.update_of_ne h, bytesAt]

theorem fileAt_getD (files : Directory) (path : Path) :
    (fileAt files path).getD [] = bytesAt files path := by
  unfold fileAt bytesAt contents
  split <;> rfl

/-! ## Calls that change no file -/

/-- The files are as they were. -/
def SameFiles (world world' : World) : Prop := world'.files = world.files

section Looks

variable {α : Type}

instance : Std.Refl SameFiles := ⟨fun _ => rfl⟩

instance : IsTrans World SameFiles := ⟨fun _ _ _ hfirst hsecond => hsecond.trans hfirst⟩

/-- The call changes no file. -/
abbrev Looks (x : Download α) : Prop := Within SameFiles x

theorem looks_ofResult (r : Result α) : Looks (ofResult r) := by
  cases r with
  | ok a => exact .pure a
  | error e => exact .fail _

theorem looks_invalid (field : String) (reason : Message) :
    Looks (invalid field reason : Download α) := .fail _

theorem looks_nextFault : Looks nextFault :=
  (Within.read _).bind fun _ => (Within.modify fun world => by rfl).bind fun _ => .pure _

theorem looks_call : Looks call := by
  refine looks_nextFault.bind fun fault => ?_
  cases fault with
  | none => exact .pure ()
  | some fault => exact .fail _

theorem looks_symlinkMetadata (path : Path) : Looks (symlinkMetadata path) :=
  looks_call.bind fun _ => .read _

theorem looks_requireRegularFile (path : Path) (field : String) :
    Looks (requireRegularFile path field) := by
  refine (looks_symlinkMetadata path).bind fun node => ?_
  split
  · exact .pure ()
  · exact looks_invalid _ _
  · exact .fail _

theorem looks_requireRealDirectory (node : Option Node) (path : PathBuf) (field : String) :
    Looks (requireRealDirectory node path field) := by
  refine looks_call.bind fun _ => ?_
  split
  · exact .pure ()
  · exact looks_invalid _ _
  · exact .fail _

theorem looks_validateDestination (path : Path) : Looks (validateDestination path) := by
  refine (looks_symlinkMetadata path).bind fun node => ?_
  split
  · exact looks_invalid _ _
  · exact looks_invalid _ _
  · exact .pure ()
  · exact .pure ()

theorem looks_validatePartialFile (path : Path) : Looks (validatePartialFile path) := by
  refine (looks_symlinkMetadata path).bind fun node => ?_
  split
  · exact .pure ()
  · exact .pure ()
  · exact looks_invalid _ _

theorem looks_partialFileLength (path : Path) (expected : Nat) :
    Looks (partialFileLength path expected) := by
  refine (looks_symlinkMetadata path).bind fun node => ?_
  split
  · exact .ite (.pure _) (looks_invalid _ _)
  · exact looks_invalid _ _
  · exact looks_invalid _ _
  · exact .pure 0

theorem looks_sha256File (sha256 : List UInt8 → Str) (path : Path) :
    Looks (sha256File sha256 path) :=
  (looks_requireRegularFile path _).bind fun _ => looks_call.bind fun _ => looks_call.bind fun _ =>
    looks_call.bind fun _ => .read _

end Looks

/-! ## Calls that add bytes of the ISO -/

/-- Every byte of a file was there or was fetched for the ISO: no byte has moved from one file to
    another. -/
def Adds (iso : ResolvedWindowsIso) (world world' : World) : Prop :=
  ∀ path, ∀ byte ∈ bytesAt world'.files path,
    byte ∈ bytesAt world.files path ∨ FetchedFor iso byte

section Adds

variable {iso : ResolvedWindowsIso} {α : Type}

instance : Std.Refl (Adds iso) := ⟨fun _ _ _ => .inl⟩

instance : IsTrans World (Adds iso) :=
  ⟨fun _ _ _ hfirst hsecond path byte h =>
    (hsecond path byte h).elim (hfirst path byte) .inr⟩

theorem Adds.of_files {world world' : World} (h : world'.files = world.files) :
    Adds iso world world' := by
  intro path byte hbyte
  rw [h] at hbyte
  exact .inl hbyte

theorem Adds.update {world : World} {path : Path} {node : Option Node}
    (h : ∀ byte ∈ contents node, byte ∈ bytesAt world.files path ∨ FetchedFor iso byte) :
    Adds iso world { world with files := Function.update world.files path node } := by
  intro other byte hbyte
  by_cases hpath : other = path
  · subst hpath
    rw [bytesAt_update_self] at hbyte
    exact h byte hbyte
  · rw [bytesAt_update_of_ne hpath] at hbyte
    exact .inl hbyte

theorem Looks.adds {x : Download α} (h : Looks x) : Within (Adds iso) x :=
  Within.mono h fun _ _ => .of_files

theorem adds_call : Within (Adds iso) call := looks_call.adds

theorem adds_invalid (field : String) (reason : Message) :
    Within (Adds iso) (invalid field reason : Download α) := .fail _

theorem adds_setNode {path : Path} {node : Option Node}
    (h : ∀ byte ∈ contents node, FetchedFor iso byte) : Within (Adds iso) (setNode path node) :=
  adds_call.bind fun _ => .modify fun _ => .update fun byte hbyte => .inr (h byte hbyte)

/-- Writing adds bytes that were fetched for the ISO. -/
theorem adds_writeAll {path : Path} {bytes : List FetchedByte}
    (h : ∀ byte ∈ bytes, FetchedFor iso byte) : Within (Adds iso) (writeAll path bytes) := by
  refine looks_nextFault.adds.bind fun fault => ?_
  have hwrite (written : List FetchedByte) (hwritten : ∀ byte ∈ written, FetchedFor iso byte) :
      Within (Adds iso) (Traced.modify fun world : World => { world with
        files := Function.update world.files path
          (some (.file (bytesAt world.files path ++ written))) } : Download Unit) := by
    refine .modify fun world => .update fun byte hbyte => ?_
    exact (List.mem_append.mp hbyte).imp id (hwritten byte)
  cases fault with
  | none => exact (hwrite bytes h).bind fun _ => .pure ()
  | some fault =>
    -- A write that stops has written a beginning of the bytes.
    refine (hwrite (bytes.take fault.written) fun byte hbyte => ?_).bind fun _ => .fail _
    exact h byte (List.mem_of_mem_take hbyte)

theorem adds_removeFile (path : Path) : Within (Adds iso) (removeFile path) := by
  refine (Within.read _).bind fun node => ?_
  split
  · exact adds_setNode (by simp)
  · exact adds_setNode (by simp)
  · exact .fail _

/-- What a worker writes was fetched for its ISO. -/
theorem adds_copyBody {source : ResolvedWindowsIso} (hsame : sameIso iso source = true)
    (path : Path) (limit : Nat) (body : List BodyRead) :
    Within (Adds iso) (copyBody source path limit body) := by
  induction body generalizing limit with
  | nil => exact .pure 0
  | cons read body ih =>
    cases read with
    | fault fault => exact .ite (.pure 0) (.fail _)
    | bytes chunk =>
      refine .ite (.pure 0) ((adds_writeAll fun byte hbyte => ?_).bind fun _ =>
        (ih _).bind fun _ => .pure _)
      obtain ⟨value, _, rfl⟩ := List.mem_map.mp hbyte
      exact fetchedFor_of_source hsame rfl

theorem adds_removePrivateRegularFile (path : Path) :
    Within (Adds iso) (removePrivateRegularFile path) := by
  refine (looks_symlinkMetadata path).adds.bind fun node => ?_
  split
  · exact adds_removeFile path
  · exact adds_invalid _ _
  · exact .pure ()

theorem adds_removeExisting (temporary : Path) : Within (Adds iso) (removeExisting temporary) := by
  refine (looks_symlinkMetadata temporary).adds.attempt.bind fun node => ?_
  split
  · exact (looks_validatePartialFile _).adds.bind fun _ => adds_removeFile _
  · exact .pure ()

theorem adds_openAppend (path : Path) : Within (Adds iso) (openAppend path) := by
  refine (Within.read _).bind fun node => ?_
  split
  · exact adds_call
  · exact adds_setNode (by simp)
  · exact .fail _

theorem adds_downloadRange {source : ResolvedWindowsIso} (hsame : sameIso iso source = true)
    (range : ByteRange) (path : Path) (reply : RangeReply) :
    Within (Adds iso) (downloadRange source range path reply) := by
  refine (looks_partialFileLength _ _).adds.bind fun existing => .ite (.pure ()) ?_
  refine (looks_ofResult _).adds.bind fun _ => (adds_openAppend path).bind fun _ => adds_call.bind fun _ => ?_
  exact (adds_copyBody hsame path _ _).bind fun _ => adds_call.bind fun _ =>
    .ite (.pure ()) (adds_invalid _ _)

/-- The workers together, however far each of them comes. -/
theorem adds_runWorkers {workers : List (Download Unit)}
    (h : ∀ worker ∈ workers, Within (Adds iso) worker) : Within (Adds iso) (runWorkers workers) := by
  induction workers with
  | nil => exact .pure []
  | cons worker workers ih =>
    exact (h worker List.mem_cons_self).attempt.bind fun _ =>
      (ih fun other hother => h other (List.mem_cons_of_mem _ hother)).bind fun _ => .pure _

theorem adds_child (aria2 : Aria2) {source : ResolvedWindowsIso}
    (hsame : sameIso iso source = true) (temporary : Path) :
    Within (Adds iso) (aria2.child source temporary) := by
  refine (Within.read _).bind fun status => (Within.modify fun world => ?_).bind fun _ => .pure _
  cases hafter : (aria2.transfer source (fileAt world.files temporary)).2 with
  | none => exact .of_files rfl
  | some after =>
    refine .update fun byte hbyte => ?_
    refine (aria2.continues source _ after hafter byte hbyte).imp (fun hkept => ?_)
      (fetchedFor_of_source hsame)
    rwa [fileAt_getD] at hkept

theorem adds_downloadWithAria2 (aria2 : Aria2) {source : ResolvedWindowsIso}
    (hsame : sameIso iso source = true) (temporary : Path) :
    Within (Adds iso) (downloadWithAria2 aria2 source temporary) := by
  refine (looks_ofResult _).adds.bind fun _ => ?_
  split
  · exact adds_invalid _ _
  · refine .ite (adds_invalid _ _) ((looks_validatePartialFile _).adds.bind fun _ =>
      adds_call.bind fun _ => adds_call.bind fun _ => adds_call.bind fun _ => ?_)
    exact (adds_child aria2 hsame temporary).bind fun _ => adds_call.bind fun _ =>
      .ite (.fail _) (looks_requireRegularFile _ _).adds

end Adds

/-! ## An attempt -/

section Attempt

variable {iso : ResolvedWindowsIso} {watched : List Path}

/-- The watched files hold bytes of the ISO only. -/
def Clean (iso : ResolvedWindowsIso) (watched : List Path) (world : World) : Prop :=
  ∀ path ∈ watched, OfIso iso world.files path

theorem OfIso.of_adds {world world' : World} {path : Path} (h : OfIso iso world.files path)
    (hadds : Adds iso world world') : OfIso iso world'.files path :=
  fun byte hbyte => (hadds path byte hbyte).elim (h byte) id

theorem Clean.of_adds {world world' : World} (hadds : Adds iso world world')
    (h : Clean iso watched world) : Clean iso watched world' :=
  fun path hpath => (h path hpath).of_adds hadds

/-- A file may be set to bytes of the ISO, wherever they come from. -/
theorem Clean.update {world : World} {path : Path} {node : Option Node}
    (h : Clean iso watched world) (hnode : ∀ byte ∈ contents node, FetchedFor iso byte) :
    Clean iso watched { world with files := Function.update world.files path node } :=
  h.of_adds (.update fun byte hbyte => .inr (hnode byte hbyte))

/-- A call that adds bytes of the ISO keeps what is clean. -/
theorem sat_of_adds {α : Type} {x : Download α} {G : Hashed → Prop} (h : Within (Adds iso) x) :
    Sat (fun _ => True) G (Clean iso watched) x (fun _ => Clean iso watched)
      (Clean iso watched) :=
  h.sat fun _ _ => .of_adds

/-- What is read from a watched file was fetched for the ISO. -/
theorem sat_read {α : Type} {G : Hashed → Prop} {f : World → α} {Q : α → Prop}
    (h : ∀ world, Clean iso watched world → Q (f world)) :
    Sat (fun _ => True) G (Clean iso watched) (Traced.read f : Download α)
      (fun a world => Clean iso watched world ∧ Q a) (Clean iso watched) :=
  .read fun world hworld => ⟨hworld, h world hworld⟩

/-- The parts are watched files: what is copied from them was fetched for the ISO. -/
theorem sat_assembleParts {G : Hashed → Prop} {assembly : Path} {parts : List (Path × ByteRange)}
    (h : ∀ part ∈ parts, part.1 ∈ watched) :
    Sat (fun _ => True) G (Clean iso (assembly :: watched)) (assembleParts assembly parts)
      (fun _ => Clean iso (assembly :: watched)) (Clean iso (assembly :: watched)) := by
  induction parts with
  | nil => exact .pure fun _ => id
  | cons part parts ih =>
    have hpart : part.1 ∈ assembly :: watched :=
      List.mem_cons_of_mem _ (h part List.mem_cons_self)
    refine (sat_of_adds (looks_requireRegularFile _ _).adds).bind fun _ =>
      (sat_read (Q := fun bytes => ∀ byte ∈ bytes, FetchedFor iso byte)
        fun world hworld => hworld part.1 hpart).bind fun bytes =>
      .given fun hbytes => .ite (fun _ => .fail fun _ => id) fun _ => ?_
    refine (sat_of_adds adds_call).bind fun _ =>
      (sat_of_adds (adds_writeAll hbytes)).bind fun _ => ?_
    exact (ih fun other hother => h other (List.mem_cons_of_mem _ hother)).bind fun _ =>
      .pure fun _ => id

/-- A file that is renamed takes what is known of it along. -/
theorem sat_rename {G : Hashed → Prop} (old new : Path) :
    Sat (fun _ => True) G (Clean iso (old :: watched)) (rename old new)
      (fun _ => Clean iso (new :: watched)) (Clean iso (old :: watched)) := by
  refine (sat_of_adds adds_call).bind fun _ =>
    (sat_read (Q := fun node => ∀ byte ∈ contents node, FetchedFor iso byte)
      fun world hworld => hworld old List.mem_cons_self).bind fun node =>
    .given fun hnode => Sat.look.bind fun _ => .ite (fun _ => .fail fun _ => id) fun _ => ?_
  refine .modify fun world hworld => ?_
  have hremoved : Clean iso (old :: watched)
      { world with files := Function.update world.files old none } := hworld.update (by simp)
  have hrenamed : Clean iso (old :: watched) { world with
      files := Function.update (Function.update world.files old none) new node } :=
    hremoved.update hnode
  intro path hpath
  obtain rfl | hwatched := List.mem_cons.mp hpath
  · intro byte hbyte
    rw [bytesAt_update_self] at hbyte
    exact hnode byte hbyte
  · exact hrenamed path (List.mem_cons_of_mem _ hwatched)

theorem Clean.tail {path : Path} {world : World} (h : Clean iso (path :: watched) world) :
    Clean iso watched world :=
  fun other hother => h other (List.mem_cons_of_mem _ hother)

theorem sat_createPrivateTruncatedFile {G : Hashed → Prop} (path : Path) :
    Sat (fun _ => True) G (Clean iso watched) (createPrivateTruncatedFile path)
      (fun _ => Clean iso (path :: watched)) (Clean iso watched) := by
  refine (sat_of_adds (looks_validatePartialFile path).adds).bind fun _ =>
    Sat.bind (Q := fun _ => Clean iso (path :: watched)) ?_ fun _ =>
      (sat_of_adds adds_call).weaken fun _ => .tail
  refine (sat_of_adds adds_call).bind fun _ => .modify fun world hworld other hother => ?_
  obtain rfl | hwatched := List.mem_cons.mp hother
  · intro byte hbyte
    rw [bytesAt_update_self] at hbyte
    exact absurd hbyte List.not_mem_nil
  · exact hworld.update (by simp) other hwatched

/-- The parts are watched files: then the assembled file holds bytes of the ISO only. -/
theorem sat_assemble {G : Hashed → Prop} {temporary : Path} {length : Nat}
    {parts : List (Path × ByteRange)} (h : ∀ part ∈ parts, part.1 ∈ watched) :
    Sat (fun _ => True) G (Clean iso watched) (assemble temporary length parts)
      (fun _ => Clean iso (temporary :: watched)) (Clean iso watched) := by
  refine (sat_of_adds (looks_ofResult _).adds).bind fun assembly =>
    (sat_createPrivateTruncatedFile assembly).bind fun _ =>
    ((sat_assembleParts h).weaken fun _ => .tail).bind fun assembled =>
    .ite (fun _ => .fail fun _ => .tail) fun _ => ?_
  refine ((sat_of_adds adds_call).weaken fun _ => .tail).bind fun _ =>
    ((sat_of_adds (adds_removeExisting _)).weaken fun _ => .tail).bind fun _ => ?_
  exact ((sat_rename assembly temporary).weaken fun _ => .tail).bind fun _ =>
    (sat_of_adds adds_call).weaken fun _ => .tail

/-- A check that passes: what it returns is known. -/
theorem sat_ofResult {α β : Type} {G : Hashed → Prop} {P : World → Prop} {r : Result α}
    {f : α → Download β} {Q : β → World → Prop} {E : World → Prop}
    (h : ∀ a, r = .ok a → Sat (fun _ => True) G P (f a) Q E) (hE : ∀ world, P world → E world) :
    Sat (fun _ => True) G P (ofResult r >>= f) Q E := by
  cases r with
  | ok a =>
    exact Sat.bind (Q := fun b world => P world ∧ b = a) (.pure fun _ hworld => ⟨hworld, rfl⟩)
      fun b => .given fun hb => hb ▸ h a rfl
  | error e => exact Sat.bind (Q := fun _ _ => False) (.fail hE) fun _ => .of_false fun _ => id

/-- An attempt of the native engine. -/
theorem sat_downloadWithRanges {G : Hashed → Prop} {source : ResolvedWindowsIso}
    (hsame : sameIso iso source = true) {temporary : Path} {head : Except HttpError Response}
    (reply : Nat → RangeReply) (h : ∀ path ∈ continuedParts temporary head, path ∈ watched) :
    Sat (fun _ => True) G (Clean iso watched) (downloadWithRanges source temporary head reply)
      (fun _ => Clean iso (temporary :: watched)) (Clean iso watched) := by
  refine sat_ofResult (fun _ _ => ?_) fun _ => id
  refine sat_ofResult (fun length hlength => ?_) fun _ => id
  refine sat_ofResult (fun ranges hranges => ?_) fun _ => id
  refine sat_ofResult (fun parts hparts => ?_) fun _ => id
  have hcontinued : continuedParts temporary head = parts.map (·.1) := by
    rw [continuedParts, hlength, ok_bind, hranges, ok_bind, hparts]
  have hwatched : ∀ part ∈ parts, part.1 ∈ watched := fun part hpart =>
    h part.1 (hcontinued ▸ List.mem_map_of_mem hpart)
  refine (sat_of_adds (Within.each fun part => (looks_partialFileLength _ _).adds.bind fun _ =>
    .pure ())).bind fun _ => ?_
  refine (sat_of_adds (adds_runWorkers fun worker hworker => ?_)).bind fun results =>
    (Sat.ofExcept (fun _ _ _ => id) fun _ => id).bind fun _ => sat_assemble hwatched
  obtain ⟨part, _, rfl⟩ := List.mem_map.mp hworker
  exact adds_downloadRange hsame _ _ _

/-- A transfer for the same ISO leaves only its bytes in the temporary file. -/
theorem sat_transfer {G : Hashed → Prop} {run : Run} {source : ResolvedWindowsIso}
    (hsame : sameIso run.initial source = true) {destination temporary : Path}
    (htemporary : downloadTemporaryPath destination = .ok temporary) {attempt : Nat}
    (hattempt : attempt < maxDownloadAttempts) :
    Sat (fun _ => True) G (Clean run.initial (run.continued destination))
      (run.transfer temporary attempt source)
      (fun _ => Clean run.initial (temporary :: run.continued destination))
      (Clean run.initial (run.continued destination)) := by
  unfold Run.transfer
  cases haria : run.aria2c with
  | some aria2c =>
    -- The file that `aria2c` continues is the one that is hashed.
    have hcontinued : run.continued destination = [temporary] := by
      rw [Run.continued, htemporary, haria]
    rw [hcontinued]
    exact (sat_of_adds (adds_downloadWithAria2 _ hsame _)).mono (fun _ => id)
      (fun _ _ hworld path hpath => hworld path (by simpa using hpath)) fun _ => id
  | none =>
    refine sat_downloadWithRanges hsame _ fun path hpath => ?_
    rw [Run.continued, htemporary, haria]
    exact List.mem_flatMap.mpr ⟨attempt, List.mem_range.mpr hattempt, hpath⟩

end Attempt

/-! ## A run -/

section Run

variable {sha256 : List UInt8 → Str} {run : Run} {destination temporary : Path}

/-- The file was fetched for the ISO the run was asked for. -/
def Hashed.Pure (event : Hashed) : Prop := ∀ byte ∈ event.bytes, FetchedFor event.asked byte

theorem sat_promoteDownload {iso : ResolvedWindowsIso} {watched : List Path} {G : Hashed → Prop} :
    Sat (fun _ => True) G (Clean iso (temporary :: watched))
      (promoteDownload temporary destination) (fun _ => Clean iso (temporary :: watched))
      (Clean iso (temporary :: watched)) := by
  refine (sat_of_adds (looks_requireRegularFile _ _).adds).bind fun _ =>
    (sat_of_adds adds_call).bind fun _ => Sat.look.bind fun _ => .ite
      (fun _ => (sat_of_adds adds_call).bind fun _ => sat_of_adds (adds_invalid _ _)) fun _ => ?_
  -- The destination is a link to the temporary file.
  refine (sat_read (Q := fun node => ∀ byte ∈ contents node, FetchedFor iso byte)
    fun world hworld => hworld temporary List.mem_cons_self).bind fun node =>
    .given fun hnode => (sat_of_adds (adds_setNode hnode)).bind fun _ =>
    sat_of_adds (adds_removeFile _)

theorem adds_cleanupDownloadSidecars {iso : ResolvedWindowsIso} :
    Within (Adds iso) (cleanupDownloadSidecars temporary) := by
  have hremove (path : Result Path) : Within (Adds iso) (removeSidecar path) := by
    cases path with
    | ok path => exact (adds_removePrivateRegularFile path).attempt.bind fun _ => .pure ()
    | error e => exact .pure ()
  exact (Within.each fun _ => hremove _).bind fun _ => Within.each fun _ => hremove _

/-- The file that is hashed is the one that the attempt has completed. -/
theorem sat_verify {watched : List Path} (attempt : Nat) (resolved : ResolvedWindowsIso) :
    Sat (fun _ => True) Hashed.Pure (Clean run.initial (temporary :: watched))
      (run.verify sha256 destination temporary attempt resolved)
      (fun _ => Clean run.initial watched) (Clean run.initial watched) := by
  have hverify : Sat (fun _ => True) Hashed.Pure (Clean run.initial (temporary :: watched))
      (run.verify sha256 destination temporary attempt resolved)
      (fun _ => Clean run.initial (temporary :: watched))
      (Clean run.initial (temporary :: watched)) := by
    refine (Sat.emit fun world hworld _ => ⟨hworld temporary List.mem_cons_self, hworld⟩).bind
      fun _ => (sat_of_adds (looks_sha256File _ _).adds).bind fun actual =>
      .ite (fun _ => sat_of_adds (adds_invalid _ _)) fun _ => ?_
    refine (sat_of_adds adds_call).bind fun _ => Sat.look.bind fun _ =>
      sat_promoteDownload.bind fun _ => (sat_of_adds adds_cleanupDownloadSidecars).bind fun _ => ?_
    exact .pure fun _ => id
  exact hverify.mono (fun _ => id) (fun _ _ => .tail) fun _ => .tail

theorem sameIso_of_resolved {attempt : Nat} {resolved : ResolvedWindowsIso}
    (h : run.resolved attempt = .ok resolved) : sameIso run.initial resolved = true := by
  unfold Run.resolved at h
  split at h
  · obtain ⟨refreshed, _, h⟩ := bind_eq_ok.mp h
    obtain ⟨_, hsame, h⟩ := bind_eq_ok.mp h
    cases h
    simpa [ensureSameIso] using hsame
  · cases h
    exact sameIso_refl _

/-- Every attempt finds the continued files clean and leaves them clean. -/
theorem sat_attempts (htemporary : downloadTemporaryPath destination = .ok temporary)
    (attempt left : Nat) (hleft : attempt + left = maxDownloadAttempts) (lastError : Option Halt) :
    Sat (fun _ => True) Hashed.Pure (Clean run.initial (run.continued destination))
      (run.attempts sha256 destination temporary attempt left lastError)
      (fun _ => Clean run.initial (run.continued destination))
      (Clean run.initial (run.continued destination)) := by
  induction left generalizing attempt lastError with
  | zero => exact .fail fun _ => id
  | succ left ih =>
    refine sat_ofResult (fun resolved hresolved => ?_) fun _ => id
    have htransfer := sat_transfer (G := Hashed.Pure) (sameIso_of_resolved hresolved) htemporary
      (by omega : attempt < maxDownloadAttempts)
    refine Sat.bind (Q := fun result world => match result with
        | .ok _ => Clean run.initial (temporary :: run.continued destination) world
        | .error _ => Clean run.initial (run.continued destination) world)
      (htransfer.attempt (fun _ _ => id) fun _ _ _ => id) fun result => ?_
    cases result with
    | ok _ => exact sat_verify attempt resolved
    | error error => exact ih (attempt + 1) (by omega) (some error)

/-- The check of the destination finds it, or the run continues what is beside it. -/
theorem sat_existingVerifiedIso {resolved : ResolvedWindowsIso} {engine : IsoDownloadEngine}
    {G : Hashed → Prop} {P : World → Prop}
    (hP : ∀ world world', SameFiles world world' → P world → P world') :
    Sat (fun _ => True) G (fun world => world.files destination = none → P world)
      (existingVerifiedIso sha256 destination resolved engine)
      (fun report world => report = none → P world) fun _ => True := by
  have hmetadata : Sat (fun _ => True) G (fun world => world.files destination = none → P world)
      (symlinkMetadata destination) (fun node world => node = none → P world)
      fun _ => True := by
    refine Sat.bind (Q := fun _ world => world.files destination = none → P world) ?_ fun _ =>
      .read fun _ => id
    refine (looks_call.sat fun world world' hsame hworld hmissing => ?_).weaken fun _ _ => trivial
    rw [hsame] at hmissing
    exact hP world world' hsame (hworld hmissing)
  refine hmetadata.bind fun node => ?_
  split
  · exact .pure fun _ h _ => h rfl
  · -- A file at the destination is hashed, and the run ends with it.
    refine Sat.bind (Q := fun _ _ => True) ?_ fun actual => .ite (fun _ => .fail fun _ => id)
      fun _ => .pure fun _ _ => nofun
    exact ((looks_sha256File sha256 destination).sat fun _ _ _ => id).pre fun _ _ => trivial
  · exact .fail fun _ _ => trivial

/-- A run that finds no destination continues what it finds beside it. -/
theorem sat_downloadResolved :
    Sat (fun _ => True) Hashed.Pure
      (fun world => world.files destination = none →
        Clean run.initial (run.continued destination) world)
      (run.downloadResolved sha256 destination) (fun _ _ => True) fun _ => True := by
  have hlook {x : Download Unit} (h : Looks x) : Sat (fun _ => True) Hashed.Pure
      (fun world => world.files destination = none →
        Clean run.initial (run.continued destination) world) x
      (fun _ world => world.files destination = none →
        Clean run.initial (run.continued destination) world) (fun _ => True) := by
    refine (h.sat fun world world' hsame hworld hmissing => ?_).weaken fun _ _ => trivial
    rw [hsame] at hmissing
    exact (hworld hmissing).of_adds (.of_files hsame)
  refine (hlook (looks_requireRealDirectory _ _ _)).bind fun _ =>
    (hlook (looks_validateDestination _)).bind fun _ =>
    (sat_existingVerifiedIso fun _ _ hsame => .of_adds (.of_files hsame)).bind fun report => ?_
  cases report with
  | some report => exact .pure fun _ _ => trivial
  | none =>
    refine Sat.pre (sat_ofResult (fun temporary htemporary => ?_) fun _ _ => trivial)
      fun world hworld => hworld rfl
    exact (sat_attempts htemporary 0 maxDownloadAttempts (Nat.zero_add _) none).mono (fun _ => id)
      (fun _ _ _ => trivial) fun _ _ => trivial

/-- A run that meets what it needs to hashes bytes of its ISO only. -/
theorem pure_of_sameIsoLeft {files : Directory} (h : SameIsoLeft destination files run) :
    ∀ event ∈ (run.outcome sha256 destination files).events, event.Pure :=
  (sat_downloadResolved ⟨files, run.faults⟩ h fun _ _ => trivial).1

end Run

instance (destination : Path) (files : Directory) (run : Run) :
    Decidable (SameIsoLeft destination files run) :=
  inferInstanceAs (Decidable (_ → _))

instance (sha256 : List UInt8 → Str) (destination : Path) (files : Directory) (runs : List Run) :
    Decidable (OnlySameIso sha256 destination files runs) :=
  inferInstanceAs (Decidable (∀ _ ∈ _, ∀ _ ∈ _, _))

/-- In every sequence of runs to one destination, whatever the resolver and the CDN answer, whatever
    fails and wherever a run is interrupted: when each run that continues files of an earlier one
    finds that they were fetched for its ISO, every file that is hashed was fetched for the ISO that
    its run was asked for. -/
theorem hashed_files_are_of_the_iso_asked_for (sha256 : List UInt8 → Str) (destination : Path)
    (files : Directory) (runs : List Run)
    (h : Along (fun files run => Run.after sha256 run destination files)
      (SameIsoLeft destination) files runs) :
    OnlySameIso sha256 destination files runs := by
  induction runs generalizing files with
  | nil => exact fun event hevent => absurd hevent List.not_mem_nil
  | cons run runs ih =>
    intro event hevent
    obtain hfirst | hrest := List.mem_append.mp hevent
    · exact pure_of_sameIsoLeft h.1 event hfirst
    · exact ih _ h.2 event hrest

/-! ## An interrupted run -/

def sampleDestination : Path := ⟨.ofStr "/iso".toList, .ofStr "w.iso".toList⟩

def sampleUrl : Url :=
  ⟨"https".toList, some "x.delivery.mp.microsoft.com".toList, [], none, none⟩

/-- The first product, of which the CDN serves four bytes `A`. -/
def sampleIso : ResolvedWindowsIso :=
  ⟨"1".toList, "1".toList, "a.iso".toList,
    "63c1dd951ffedf6f7fd968ad4efa39b8ed584f162f46e715114ee184f8de9201".toList, sampleUrl⟩

/-- The second product, of which the CDN serves four bytes `B`. -/
def otherIso : ResolvedWindowsIso :=
  ⟨"2".toList, "1".toList, "b.iso".toList,
    "4a8d8134f29b0b7b60c126f5532bc9f5d9bb73037373cf6fb872d81f1dcefdfd".toList, sampleUrl⟩

/-- SHA-256 of the two files that the runs below assemble, `AAAA` and `ABBB`. -/
def sampleSha256 (bytes : List UInt8) : Str :=
  if bytes = [65, 65, 65, 65] then sampleIso.expectedSha256
  else if bytes = [65, 66, 66, 66] then
    "4b72f9394137bdf6f3996813f2fdec1bdddfb9a843d25b98dc8aa32fff433c3e".toList
  else []

def sampleReply (value : UInt8) (index : Nat) : RangeReply :=
  let range := decimal index ++ '-' :: decimal index
  ⟨.ok ⟨some sampleUrl, 206, none, some ("bytes ".toList ++ range ++ "/4".toList)⟩,
    [.bytes [value]]⟩

/-- A run of the native engine whose ranges all arrive. -/
def completeRun (iso : ResolvedWindowsIso) (value : UInt8) : Run where
  initial := iso
  parent := some .directory
  aria2c := none
  resolve _ := .ok iso
  head _ := .ok ⟨some sampleUrl, 200, some "4".toList, none⟩
  reply _ := sampleReply value
  faults := []

/-- A run that is killed when the first range has arrived. -/
def interruptedRun : Run :=
  { completeRun sampleIso 65 with
    reply := fun _ index =>
      if index = 0 then sampleReply 65 0
      else { sampleReply 65 index with body := [.fault ⟨.kills, 0⟩] } }

/-- A run for another ISO takes the part that the interrupted run has left for its own first
    range. -/
theorem leftover_of_another_iso_is_combined :
    ¬ OnlySameIso sampleSha256 sampleDestination (fun _ => none)
      [interruptedRun, completeRun otherIso 66] := by
  decide +kernel

/-- An `aria2c` that fetches some bytes behind those that are there, and ends with a status. -/
def appendingAria2 (value : UInt8) (total : Nat) (status : Int) : Aria2 where
  transfer iso before :=
    let found := before.getD []
    (some status, some (found ++ List.replicate (total - found.length) ⟨value, some iso⟩))
  continues iso before after h byte hbyte := by
    obtain rfl := Option.some.inj h
    rcases List.mem_append.mp hbyte with hfound | hnew
    · exact .inl hfound
    · rw [List.eq_of_mem_replicate hnew]
      exact .inr rfl

/-- A run with `aria2c`, which loses the connection after two bytes and is started again. -/
def aria2Run : Run :=
  { completeRun sampleIso 65 with
    aria2c := some fun attempt =>
      if attempt = 0 then appendingAria2 65 2 6 else appendingAria2 65 4 0 }

/-- A run for the same ISO may continue the interrupted one, and an `aria2c` what another has left:
    both hash a file. -/
theorem resumed_file_is_of_its_iso :
    (hashed sampleSha256 sampleDestination (fun _ => none)
        [interruptedRun, completeRun sampleIso 65] ≠ [] ∧
      OnlySameIso sampleSha256 sampleDestination (fun _ => none)
        [interruptedRun, completeRun sampleIso 65]) ∧
    hashed sampleSha256 sampleDestination (fun _ => none) [aria2Run] ≠ [] ∧
      OnlySameIso sampleSha256 sampleDestination (fun _ => none) [aria2Run] := by
  refine ⟨⟨?_, ?_⟩, ?_, ?_⟩
  · decide +kernel
  · exact hashed_files_are_of_the_iso_asked_for sampleSha256 sampleDestination (fun _ => none)
      [interruptedRun, completeRun sampleIso 65] (by decide +kernel)
  · decide +kernel
  · exact hashed_files_are_of_the_iso_asked_for sampleSha256 sampleDestination (fun _ => none)
      [aria2Run] (by decide +kernel)

end Lsw.Core.IsoDownload
