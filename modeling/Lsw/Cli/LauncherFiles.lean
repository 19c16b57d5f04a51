import Mathlib.Logic.Function.Basic
import Lsw.Cli.LauncherIds

/-!
# Launcher Files

A launcher is a desktop entry and an icon, which `lsw app install` writes and `lsw app remove`
removes.  Both look first at what is there: an entry without the mark of its id, an icon without such
an entry, and whatever is no regular file, is left alone.

A call that fails at any point leaves what is not its own as it was, and so does every run of calls.
-/

namespace Lsw.Cli.DesktopLauncher

open Lsw.Lib Lsw.Core Lsw.Protocol Lsw.Cli.CommandOptions

/-! ## Files -/

/-- What `fs::symlink_metadata` finds at a path. -/
inductive FileNode where
  | absent
  | file (contents : Bytes)
  | other
  deriving DecidableEq

/-- The files of all launchers, by their ids. -/
structure LauncherFiles where
  desktop : Str → FileNode
  icon : Str → FileNode

/-- Why a launcher is not changed. -/
inductive LauncherRefusal where
  | id
  | notLsw
  | nonRegularEntry
  | foreignEntry
  | nonRegularIcon
  | foreignIcon
  | missing
  | io
  deriving DecidableEq

/-- How `atomic_write` ends: the file is written, the old one is left, or the file is written and
    its mode could not be set. -/
inductive WriteEnd where
  | written
  | failed
  | unprotected
  deriving DecidableEq

/-- What the system does during a call: a look that fails, the two writes, a path that no entry can
    name, and the removals. -/
structure LauncherEnv where
  unreadable : Bool := false
  icon : WriteEnd := .written
  nowhere : Bool := false
  entry : WriteEnd := .written
  entryKept : Bool := false
  iconKept : Bool := false

/-- The first key of a line that belongs to LSW. -/
def ownerKey : Str := "X-LSW-Launcher".toList ++ ['=']

/-- `managed` in `validate_existing_launcher`. -/
def managed (id : Str) : FileNode → Except LauncherRefusal Bool
  | .absent => return false
  | .file contents =>
    if contents.length ≤ 64 * 1024 then do
      let text ← okOr (fromUtf8 contents) .io
      return (lines text).any fun line => stripPrefix ownerKey line == some id
    else return false
  | .other => .error .nonRegularEntry

/-- The icon in `validate_existing_launcher`. -/
def ownedIcon (owned : Bool) : FileNode → Except LauncherRefusal Bool
  | .absent => return false
  | .file _ => if owned then return true else .error .foreignIcon
  | .other => .error .nonRegularIcon

/-- `validate_existing_launcher`: whether there is an icon. -/
def validateExistingLauncher (files : LauncherFiles) (id : Str) : Except LauncherRefusal Bool := do
  let owned ← managed id (files.desktop id)
  rejectIf (files.desktop id ≠ .absent ∧ owned = false) .foreignEntry
  ownedIcon owned (files.icon id)

/-- `atomic_write`, over what is there. -/
def WriteEnd.write (contents : Bytes) (old : FileNode) : WriteEnd → FileNode
  | .failed => old
  | _ => .file contents

/-- The icon of an id is changed. -/
def LauncherFiles.setIcon (files : LauncherFiles) (id : Str) (node : FileNode) : LauncherFiles :=
  { files with icon := Function.update files.icon id node }

/-- The entry of an id is changed. -/
def LauncherFiles.setDesktop (files : LauncherFiles) (id : Str) (node : FileNode) :
    LauncherFiles :=
  { files with desktop := Function.update files.desktop id node }

/-- A call on the files, whose outcome does not undo what it has done. -/
abbrev LauncherCall := LauncherFiles → Except LauncherRefusal Unit × LauncherFiles

/-- The end of `install`, once nothing speaks against it. -/
def writeLauncher (env : LauncherEnv) (id : Str) (icon entry : Bytes) (iconExisted : Bool) :
    LauncherCall := fun files =>
  let withIcon := files.setIcon id (env.icon.write icon (files.icon id))
  if env.icon ≠ .written ∨ env.nowhere then (.error .io, withIcon)
  else
    let withEntry := withIcon.setDesktop id (env.entry.write entry (files.desktop id))
    if env.entry = .written then (.ok (), withEntry)
    else if iconExisted ∨ env.iconKept then (.error .io, withEntry)
    else (.error .io, withEntry.setIcon id .absent)

/-- `install`, from the look at the files on. -/
def installFiles (env : LauncherEnv) (id : Str) (icon entry : Bytes) : LauncherCall := fun files =>
  if env.unreadable then (.error .io, files)
  else
    match validateExistingLauncher files id with
    | .error refusal => (.error refusal, files)
    | .ok iconExisted => writeLauncher env id icon entry iconExisted files

/-- The loop of `remove`, once nothing speaks against it. -/
def removeBoth (env : LauncherEnv) (id : Str) : LauncherCall := fun files =>
  if files.desktop id ≠ .absent ∧ env.entryKept then (.error .io, files)
  else
    let without := files.setDesktop id .absent
    if files.icon id ≠ .absent ∧ env.iconKept then (.error .io, without)
    else if files.desktop id = .absent ∧ files.icon id = .absent then (.error .missing, files)
    else (.ok (), without.setIcon id .absent)

/-- `remove`. -/
def removeFiles (env : LauncherEnv) (id : Str) : LauncherCall := fun files =>
  if validateId id ≠ .ok () then (.error .id, files)
  else if stripPrefix "lsw-".toList id = none then (.error .notLsw, files)
  else if env.unreadable then (.error .io, files)
  else
    match validateExistingLauncher files id with
    | .error refusal => (.error refusal, files)
    | .ok _ => removeBoth env id files

/-! ## Calls -/

/-- A call of `lsw app`, with what the file system does during it. -/
inductive AppCall where
  | install (env : LauncherEnv) (id : Str) (icon entry : Bytes)
  | remove (env : LauncherEnv) (id : Str)

namespace AppCall

/-- The launcher that a call is about. -/
def id : AppCall → Str
  | install _ id _ _ => id
  | remove _ id => id

/-- What a call does. -/
def perform : AppCall → LauncherCall
  | install env id icon entry => installFiles env id icon entry
  | remove env id => removeFiles env id

/-- One call after the other, whatever their outcomes. -/
def run (calls : List AppCall) (files : LauncherFiles) : LauncherFiles :=
  calls.foldl (fun files call => (call.perform files).2) files

end AppCall

/-- Two states have the same files for an id. -/
def SameFiles (id : Str) (before after : LauncherFiles) : Prop :=
  after.desktop id = before.desktop id ∧ after.icon id = before.icon id

/-- A file is a desktop entry with the mark of an id: a text that is not too long and has the mark on
    a line of its own. -/
def IsEntryOf (id : Str) (node : FileNode) : Prop :=
  ∃ contents text, node = .file contents ∧ contents.length ≤ 64 * 1024 ∧
    fromUtf8 contents = some text ∧ ownerKey ++ id ∈ lines text

/-- Something stands at the paths of an id that is no launcher: neither is there nothing, nor an entry
    with its mark that has a regular file for its icon, if any. -/
def Foreign (files : LauncherFiles) (id : Str) : Prop :=
  ¬ (files.desktop id = .absent ∧ files.icon id = .absent) ∧
    ¬ (IsEntryOf id (files.desktop id) ∧ files.icon id ≠ .other)

theorem Foreign.of_sameFiles {id : Str} {before after : LauncherFiles} (h : Foreign before id)
    (hsame : SameFiles id before after) : Foreign after id := by
  rw [Foreign, hsame.1, hsame.2]
  exact h

/-- A managed entry is one with the mark of its identifier. -/
theorem managed_eq_true_iff {id : Str} {node : FileNode} :
    managed id node = .ok true ↔ IsEntryOf id node := by
  cases node with
  | absent => simp [managed, IsEntryOf, pure, Except.pure]
  | other => simp [managed, IsEntryOf]
  | file contents =>
    rw [managed]
    split
    · rename_i hshort
      simp only [bind_eq_ok, okOr_eq_ok, pure_eq_ok_iff, List.any_eq_true, beq_iff_eq, IsEntryOf,
        FileNode.file.injEq, exists_and_left, exists_eq_left', hshort, true_and]
      constructor
      · rintro ⟨text, htext, line, hline, hmark⟩
        obtain rfl := eq_append_of_stripPrefix hmark
        exact ⟨text, htext, hline⟩
      · rintro ⟨text, htext, hline⟩
        exact ⟨text, htext, _, hline, stripPrefix_append ownerKey id⟩
    · rename_i hlong
      simp [IsEntryOf, hlong, pure, Except.pure]

/-- What is no launcher is what `validate_existing_launcher` refuses. -/
theorem foreign_iff {files : LauncherFiles} {id : Str} :
    Foreign files id ↔ ∀ existed, validateExistingLauncher files id ≠ .ok existed := by
  have hentry := @managed_eq_true_iff id (files.desktop id)
  rw [Foreign, ← hentry, validateExistingLauncher]
  cases hmanaged : managed id (files.desktop id) with
  | error refusal =>
    have hpresent : files.desktop id ≠ .absent := by
      intro habsent
      rw [habsent] at hmanaged
      cases hmanaged
    simp [hpresent]
  | ok owned =>
    rw [ok_bind]
    cases owned with
    | true =>
      -- The entry carries the mark, so that it is there.
      have hpresent : files.desktop id ≠ .absent := by
        intro habsent
        rw [habsent] at hmanaged
        cases hmanaged
      rw [rejectIf_of_not _ (by simp), ok_bind]
      cases files.icon id <;> simp [ownedIcon, hpresent, pure, Except.pure]
    | false =>
      by_cases habsent : files.desktop id = .absent
      · rw [rejectIf_of_not _ (by simp [habsent]), ok_bind]
        cases files.icon id <;> simp [ownedIcon, habsent, pure, Except.pure]
      · rw [rejectIf_of _ ⟨habsent, rfl⟩, error_bind]
        simp [habsent]

/-- Changing the files of an id leaves those of the others. -/
theorem sameFiles_set {id other : Str} (hne : other ≠ id) (files : LauncherFiles)
    (desktop icon : FileNode) :
    SameFiles other files (files.setDesktop id desktop) ∧
      SameFiles other files (files.setIcon id icon) :=
  ⟨⟨Function.update_of_ne hne .., rfl⟩, ⟨rfl, Function.update_of_ne hne ..⟩⟩

theorem SameFiles.trans {id : Str} {first second third : LauncherFiles}
    (h : SameFiles id first second) (h' : SameFiles id second third) : SameFiles id first third :=
  ⟨h'.1.trans h.1, h'.2.trans h.2⟩

/-- Writing a launcher changes no files of another identifier. -/
theorem sameFiles_writeLauncher {env : LauncherEnv} {id other : Str} (hne : other ≠ id)
    (icon entry : Bytes) (iconExisted : Bool) (files : LauncherFiles) :
    SameFiles other files (writeLauncher env id icon entry iconExisted files).2 := by
  have hset := fun before desktop icon => sameFiles_set hne before desktop icon
  have hicon := (hset files .absent (env.icon.write icon (files.icon id))).2
  rw [writeLauncher]
  dsimp only
  split
  · exact hicon
  · have hentry := hicon.trans (hset (files.setIcon id (env.icon.write icon (files.icon id)))
      (env.entry.write entry (files.desktop id)) .absent).1
    split
    · exact hentry
    · split
      · exact hentry
      · exact hentry.trans (hset _ .absent .absent).2

theorem sameFiles_removeBoth {env : LauncherEnv} {id other : Str} (hne : other ≠ id)
    (files : LauncherFiles) : SameFiles other files (removeBoth env id files).2 := by
  have hdesktop := (sameFiles_set hne files .absent .absent).1
  rw [removeBoth]
  dsimp only
  split
  · exact ⟨rfl, rfl⟩
  · split
    · exact hdesktop
    · split
      · exact ⟨rfl, rfl⟩
      · exact hdesktop.trans (sameFiles_set hne _ .absent .absent).2

/-- A call changes no files of another id, and none that are not its own. -/
theorem sameFiles_perform {call : AppCall} {id : Str} {files : LauncherFiles}
    (h : call.id = id → Foreign files id) : SameFiles id files (call.perform files).2 := by
  cases call with
  -- A refused installation writes nothing.
  | install env own icon entry =>
    rw [AppCall.perform, installFiles]
    split
    · exact ⟨rfl, rfl⟩
    · split
      · exact ⟨rfl, rfl⟩
      -- One that is not refused writes the files of its own identifier.
      · rename_i existed hvalid
        refine sameFiles_writeLauncher (fun heq => ?_) icon entry existed files
        subst heq
        exact foreign_iff.mp (h rfl) existed hvalid
  -- The same for a removal.
  | remove env own =>
    rw [AppCall.perform, removeFiles]
    split
    · exact ⟨rfl, rfl⟩
    · split
      · exact ⟨rfl, rfl⟩
      · split
        · exact ⟨rfl, rfl⟩
        · split
          · exact ⟨rfl, rfl⟩
          · rename_i existed hvalid
            refine sameFiles_removeBoth (fun heq => ?_) files
            subst heq
            exact foreign_iff.mp (h rfl) existed hvalid

/-- In every run of calls, whatever fails in it, what stands at the paths of an id and is no launcher
    is left as it is, and so are the files of every id that no call is about. -/
theorem foreign_files_are_never_touched (calls : List AppCall) (files : LauncherFiles) (id : Str)
    (h : (∃ call ∈ calls, call.id = id) → Foreign files id) :
    SameFiles id files (AppCall.run calls files) := by
  -- What is not touched stays foreign, so that the next call does not touch it either.
  induction calls generalizing files with
  | nil => exact ⟨rfl, rfl⟩
  | cons call calls ih =>
    have hcall : SameFiles id files (call.perform files).2 :=
      sameFiles_perform fun heq => h ⟨call, List.mem_cons_self, heq⟩
    refine hcall.trans (ih (call.perform files).2 ?_)
    rintro ⟨other, hother, heq⟩
    exact (h ⟨other, List.mem_cons_of_mem call hother, heq⟩).of_sameFiles hcall

/-! ## What install has written -/

/-- A line between two others is one of the lines. -/
theorem mem_lines_of_between {line : Str} (hnewline : '\n' ∉ line) (hreturn : '\r' ∉ line)
    (front back : Str) : line ∈ lines (front ++ '\n' :: (line ++ '\n' :: back)) := by
  have hsplit : (front ++ '\n' :: (line ++ '\n' :: back)).splitOn '\n' =
      front.splitOn '\n' ++ line :: back.splitOn '\n' := by
    rw [List.splitOn_append_cons_self, List.splitOn_append_cons_self_of_not_mem hnewline]
  have hback : back.splitOn '\n' ≠ [] := List.splitOn_ne_nil _ _
  rw [lines, hsplit]
  rw [List.dropLast_append_of_ne_nil (List.cons_ne_nil _ _), List.dropLast_cons_of_ne_nil hback,
    List.map_append, List.map_cons, stripCarriageReturn_of_not_mem hreturn]
  simp

/-- A field of an entry stands between two others. -/
theorem exists_fieldLine (start : Str) (fields : List (String × Str)) (before : String × Str)
    (key : String) (value : Str) (rest : List (String × Str)) : ∃ front back,
      start ++ (fields ++ before :: (key, value) :: rest).flatMap fieldLine =
        front ++ '\n' :: (key.toList ++ '=' :: value ++ '\n' :: back) := by
  refine ⟨start ++ (fields.flatMap fieldLine ++ (before.1.toList ++ '=' :: before.2)),
    rest.flatMap fieldLine, ?_⟩
  rw [List.flatMap_append, List.flatMap_cons, List.flatMap_cons, fieldLine, fieldLine]
  simp only [List.append_assoc, List.cons_append, List.nil_append]

theorem desktopValue_of_plain {value : Str}
    (h : ∀ c ∈ value, c ≠ '\\' ∧ c ≠ '\n' ∧ c ≠ '\r') : desktopValue value = value := by
  rw [desktopValue_eq]
  induction value with
  | nil => rfl
  | cons c value ih =>
    obtain ⟨⟨hslash, hnewline, hreturn⟩, hvalue⟩ := List.forall_mem_cons.mp h
    rw [List.flatMap_cons, ih hvalue, valueUnit, if_neg hslash, if_neg hnewline, if_neg hreturn]
    rfl

theorem plain_of_isIdChar {id : Str} (h : ∀ c ∈ id, isIdChar c = true) :
    ∀ c ∈ id, c ≠ '\\' ∧ c ≠ '\n' ∧ c ≠ '\r' := by
  intro c hc
  refine ⟨?_, ?_, ?_⟩
  all_goals
    rintro rfl
    exact absurd (h _ hc) (by decide)

/-- The mark of its id is a field of an entry, and not the first one. -/
theorem exists_ownerField (launcher : Launcher) : ∃ fields before rest,
    launcher.front ++ ("Exec", launcher.exec) :: launcher.back =
      fields ++ before :: ("X-LSW-Launcher", desktopValue launcher.id) :: rest := by
  refine ⟨launcher.front ++ [("Exec", launcher.exec), ("Icon", desktopValue launcher.icon),
    ("Terminal", "false".toList), ("StartupNotify", "true".toList)],
    ("Categories", "Utility;".toList), [("X-LSW-Instance", desktopValue launcher.instanceName),
      ("X-LSW-Program", desktopValue launcher.program)], ?_⟩
  rw [List.append_assoc]
  rfl

/-- The entry of a launcher carries the mark of its id. -/
theorem owner_mem_lines {launcher : Launcher} (h : ∀ c ∈ launcher.id, isIdChar c = true) :
    ownerKey ++ launcher.id ∈ lines launcher.desktopEntry := by
  obtain ⟨fields, before, rest, hfields⟩ := exists_ownerField launcher
  obtain ⟨front, back, hentry⟩ := exists_fieldLine header fields before "X-LSW-Launcher"
    (desktopValue launcher.id) rest
  have hplain := plain_of_isIdChar h
  have hline : "X-LSW-Launcher".toList ++ '=' :: desktopValue launcher.id =
      ownerKey ++ launcher.id := by
    rw [desktopValue_of_plain hplain]
    exact List.append_cons ..
  have hwhole : launcher.desktopEntry =
      front ++ '\n' :: (ownerKey ++ launcher.id ++ '\n' :: back) :=
    (congrArg (header ++ List.flatMap fieldLine ·) hfields).trans
      (hentry.trans (congrArg (fun line => front ++ '\n' :: (line ++ '\n' :: back)) hline))
  have hkey : '\n' ∉ ownerKey ∧ '\r' ∉ ownerKey := by decide +kernel
  rw [hwhole]
  refine mem_lines_of_between (fun hmem => ?_) (fun hmem => ?_) front back
  · rcases List.mem_append.mp hmem with hmem | hmem
    · exact hkey.1 hmem
    · exact (hplain _ hmem).2.1 rfl
  · rcases List.mem_append.mp hmem with hmem | hmem
    · exact hkey.2 hmem
    · exact (hplain _ hmem).2.2 rfl

/-- An entry is recognized by its id as long as it is not too long. -/
theorem managed_desktopEntry {launcher : Launcher} (h : ∀ c ∈ launcher.id, isIdChar c = true) :
    managed launcher.id (.file (bytes launcher.desktopEntry)) =
      .ok (decide ((bytes launcher.desktopEntry).length ≤ 64 * 1024)) := by
  rw [managed]
  split
  · rename_i hshort
    rw [fromUtf8_bytes, okOr_some, ok_bind, decide_eq_true hshort]
    refine congrArg Except.ok (List.any_eq_true.mpr ⟨_, owner_mem_lines h, ?_⟩)
    rw [stripPrefix_append]
    exact beq_self_eq_true _
  · rename_i hlong
    rw [decide_eq_false hlong]
    rfl

/-- What a call that has installed a launcher leaves. -/
theorem files_of_installed {env : LauncherEnv} {id : Str} {icon entry : Bytes}
    {files : LauncherFiles} (h : (installFiles env id icon entry files).1 = .ok ()) :
    (installFiles env id icon entry files).2.desktop id = .file entry ∧
      (installFiles env id icon entry files).2.icon id = .file icon := by
  rw [installFiles] at h ⊢
  split at h
  · cases h
  · rename_i hreadable
    rw [if_neg hreadable]
    split at h
    · cases h
    · rw [writeLauncher] at h ⊢
      dsimp only at h ⊢
      split at h
      · cases h
      · rename_i hicon
        rw [if_neg hicon]
        rw [not_or, ne_eq, not_not] at hicon
        split at h
        · rename_i hentry
          rw [if_pos hentry, hentry, hicon.1]
          exact ⟨Function.update_self .., Function.update_self ..⟩
        · split at h <;> cases h

/-- Whatever was there before, and whatever icon it has: a launcher that was installed can be removed
    again, and then leaves nothing, if and only if its entry has at most 64 KiB. -/
theorem installed_launcher_can_be_removed_iff (parsed : InstallArguments)
    (name icons executable : Str) (launcher : Launcher) (env : LauncherEnv) (icon : Bytes)
    (files : LauncherFiles) (hname : isName 63 name = true)
    (hlauncher : installed parsed name icons executable = .ok launcher)
    (hdone : (installFiles env launcher.id icon (bytes launcher.desktopEntry) files).1 = .ok ()) :
    let after := (installFiles env launcher.id icon (bytes launcher.desktopEntry) files).2
    ((bytes launcher.desktopEntry).length ≤ 64 * 1024 →
      (removeFiles {} launcher.id after).1 = .ok () ∧
        (removeFiles {} launcher.id after).2.desktop launcher.id = .absent ∧
        (removeFiles {} launcher.id after).2.icon launcher.id = .absent) ∧
    (64 * 1024 < (bytes launcher.desktopEntry).length →
      removeFiles {} launcher.id after = (.error .foreignEntry, after)) := by
  intro after
  -- What an installation leaves: the entry and the icon.
  obtain ⟨hdesktop, hicon⟩ := files_of_installed hdone
  obtain ⟨title, hid⟩ : ∃ title, launcher.id = launcherId name title := by
    simp only [installed, bind_eq_ok, pure_eq_ok_iff] at hlauncher
    obtain ⟨_, -, _, -, rfl⟩ := hlauncher
    exact ⟨_, rfl⟩
  -- The identifier is made from the instance and the title, so it passes every check.
  have hchars : ∀ c ∈ launcher.id, isIdChar c = true := hid ▸ isIdChar_launcherId hname title
  have hmanaged := managed_desktopEntry hchars
  have hvalidId : validateId launcher.id = .ok () := hid ▸ validateId_launcherId hname title
  have hstart : stripPrefix "lsw-".toList launcher.id ≠ none := by
    rw [hid, launcherId, stripPrefix_append]
    exact Option.some_ne_none _
  -- The removal is decided by what it makes of the entry that is there.
  have hremove : removeFiles {} launcher.id after =
      match validateExistingLauncher after launcher.id with
      | .error refusal => (.error refusal, after)
      | .ok _ => removeBoth {} launcher.id after := by
    rw [removeFiles, if_neg (by simp [hvalidId]), if_neg hstart, if_neg (by simp)]
  have hnode : after.desktop launcher.id ≠ .absent := by
    rw [show after.desktop launcher.id = _ from hdesktop]
    simp
  rw [hremove, validateExistingLauncher, hdesktop, hicon, hmanaged, ok_bind]
  constructor
  -- Read back as a whole, the entry names itself and its icon, so both go.
  · intro hshort
    rw [decide_eq_true hshort, rejectIf_of_not _ (by simp), ok_bind, ownedIcon, if_pos rfl]
    dsimp only [pure, Except.pure]
    rw [removeBoth, if_neg (by simp)]
    dsimp only
    rw [if_neg (by simp), if_neg (by simp [hnode])]
    exact ⟨rfl, Function.update_self .., Function.update_self ..⟩
  -- A longer one does not count as managed, so it is refused as a foreign one.
  · intro hlong
    rw [decide_eq_false (Nat.not_le_of_lt hlong), rejectIf_of _ (by simp), error_bind]

/-! ## A launcher of the user -/

/-- An entry that the user wrote, at the path of a launcher. -/
def userFiles : LauncherFiles where
  desktop id := if id = "lsw-win-viewer".toList then
    .file (bytes "[Desktop Entry]\nName=Unrelated\n".toList) else .absent
  icon _ := .absent

/-- Calls about that launcher and about another one. -/
def mixedCalls : List AppCall :=
  [.install {} "lsw-win-viewer".toList [0, 0, 1, 0] [],
    .install { entry := .failed } "lsw-win-editor".toList [0, 0, 1, 0] [],
    .remove {} "lsw-win-viewer".toList]

/-- The entry of the user is left as it is. -/
theorem user_entry_is_left :
    SameFiles "lsw-win-viewer".toList userFiles (AppCall.run mixedCalls userFiles) := by
  refine foreign_files_are_never_touched mixedCalls userFiles "lsw-win-viewer".toList fun _ => ?_
  have hrefused : validateExistingLauncher userFiles "lsw-win-viewer".toList =
      .error .foreignEntry := by
    decide +kernel
  refine foreign_iff.mpr fun existed => ?_
  rw [hrefused]
  exact fun h => by cases h

/-- A launcher is installed where nothing is, and removed again. -/
theorem launcher_is_removed :
    let after := (installFiles {} (inDirectory "C:/Work").id [0, 0, 1, 0]
      (bytes (inDirectory "C:/Work").desktopEntry) ⟨fun _ => .absent, fun _ => .absent⟩).2
    (removeFiles {} (inDirectory "C:/Work").id after).1 = .ok () := by
  have hlauncher : installed (parsedInDirectory "C:/Work") "win-dev".toList "/icons".toList
      "/usr/bin/lsw".toList = .ok (inDirectory "C:/Work") := rfl
  exact ((installed_launcher_can_be_removed_iff (parsedInDirectory "C:/Work") "win-dev".toList
    "/icons".toList "/usr/bin/lsw".toList (inDirectory "C:/Work") {} [0, 0, 1, 0]
    ⟨fun _ => .absent, fun _ => .absent⟩ rfl hlauncher rfl).1 (by decide +kernel)).1

end Lsw.Cli.DesktopLauncher
