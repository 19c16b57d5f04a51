import Mathlib.Logic.Function.Basic
import Lsw.Lib.Assoc
import Lsw.Lib.Run

/-!
# Watching a Tree and Synchronizing It

`lsw sync --watch` pushes a host tree to the guest, takes a first snapshot of it, and then takes
another snapshot at every interval and uploads the files whose stamp is not the one recorded.  The
tree changes meanwhile: between any two steps of the command files are created, edited and deleted.

A file is known by the stamps it has had, newest first; each edit gives it one that it never had
before.  Reading a file for an upload takes time, so what the guest's copy is known by is the stamp
the file had when the reading began: all of the copy is content of that stamp or of a later one.
-/

namespace Lsw.Cli.WatchSync

open Lsw.Lib

/-! ## Snapshots -/

/-- `FileStamp`. -/
structure FileStamp where
  length : Nat
  modifiedNanos : Nat
  deriving DecidableEq, Repr

/-- `LocalEntryKind`. -/
inductive LocalEntryKind where
  | directory
  | file
  deriving DecidableEq, Repr

/-- `LocalEntry`; its path is the relative one below the root. -/
structure LocalEntry where
  relative : String
  kind : LocalEntryKind
  deriving DecidableEq, Repr

/-- `LocalSnapshot`. -/
structure LocalSnapshot where
  directories : List String := []
  files : List (String × FileStamp) := []
  deriving DecidableEq, Repr

namespace LocalSnapshot

/-- `files.insert(relative, stamp)`. -/
def insertFile (snapshot : LocalSnapshot) (relative : String) (stamp : FileStamp) :
    LocalSnapshot :=
  { snapshot with files := insertEntry snapshot.files relative stamp }

/-- `directories.insert(relative)`. -/
def insertDirectory (snapshot : LocalSnapshot) (relative : String) : LocalSnapshot :=
  { snapshot with
    directories := snapshot.directories.filter (· ≠ relative) ++ [relative] }

/-- The first value of `next`: what of `previous` is still there. -/
def retained (previous current : LocalSnapshot) : LocalSnapshot where
  directories := previous.directories.filter (· ∈ current.directories)
  files := retain previous.files fun relative => (current.files.lookup relative).isSome

/-- `current.directories.difference(&previous.directories)`. -/
def newDirectories (previous current : LocalSnapshot) : List String :=
  current.directories.filter (· ∉ previous.directories)

/-- The files of `current` whose stamp is not the one recorded. -/
def changedFiles (previous current : LocalSnapshot) : List (String × FileStamp) :=
  current.files.filter fun file => previous.files.lookup file.1 ≠ some file.2

end LocalSnapshot

/-! ## The command -/

/-- How far the command has come.  `alive` are the files that were there when a walk through the tree
    began and have not been deleted since: the walk cannot miss them.  `reading` is the stamp that
    the first file to be uploaded had when its reading began. -/
inductive Phase where
  /-- `collect_local_tree` of `push_tree`. -/
  | collecting (alive : List String)
  /-- The loop of `push_tree`. -/
  | pushing (todo : List LocalEntry) (reading : Option FileStamp)
  /-- `collect_local_tree` of `local_snapshot`; `previous` is `none` for the first snapshot. -/
  | walking (previous : Option LocalSnapshot) (alive : List String)
  /-- The loop of `local_snapshot`. -/
  | stating (previous : Option LocalSnapshot) (todo : List LocalEntry) (current : LocalSnapshot)
  /-- `thread::sleep`. -/
  | sleeping (previous : LocalSnapshot)
  /-- The two loops that bring the guest up to date. -/
  | updating (previous next : LocalSnapshot) (directories : List String)
      (files : List (String × FileStamp)) (reading : Option FileStamp)
  /-- The command has returned an error. -/
  | ended
  deriving DecidableEq

namespace Phase

/-- `previous`, once there is one. -/
def recorded : Phase → Option LocalSnapshot
  | .walking previous _ => previous
  | .stating previous _ _ => previous
  | .sleeping previous => some previous
  | .updating previous _ _ _ _ => some previous
  | _ => none

/-- The walk of the initial push is under way. -/
def isCollecting : Phase → Bool
  | .collecting _ => true
  | _ => false

/-- A file is deleted. -/
def forget (relative : String) : Phase → Phase
  | .collecting alive => .collecting (alive.filter (· ≠ relative))
  | .walking previous alive => .walking previous (alive.filter (· ≠ relative))
  | phase => phase

/-- The command goes on from the end of one of its loops, or of its sleep. -/
def proceed (present : List String) : Phase → Phase
  | .pushing [] _ => .walking none present
  | .stating none [] current => .sleeping current
  | .stating (some previous) [] current =>
    .updating previous (previous.retained current) (previous.newDirectories current)
      (previous.changedFiles current) none
  | .sleeping previous => .walking (some previous) present
  | .updating _ next [] [] _ => .sleeping next
  | phase => phase

/-- A call of the command fails.  A snapshot that fails in the loop is tried again; any other error
    ends the command. -/
def failed : Phase → Phase
  | .walking (some previous) _ => .sleeping previous
  | .stating (some previous) _ _ => .sleeping previous
  | .sleeping previous => .sleeping previous
  | _ => .ended

/-- A walk ends with its entries. -/
def collected (entries : List LocalEntry) : Phase → Phase
  | .collecting alive =>
    if ∀ relative ∈ alive, ⟨relative, .file⟩ ∈ entries then .pushing entries none
    else .collecting alive
  | .walking previous alive =>
    if ∀ relative ∈ alive, ⟨relative, .file⟩ ∈ entries then .stating previous entries {}
    else .walking previous alive
  | phase => phase

/-- `remote_create_directory` for the next directory. -/
def directory (created : Bool) : Phase → Phase
  | .pushing (⟨_, .directory⟩ :: todo) _ => if created then .pushing todo none else .ended
  | .updating previous next (relative :: directories) files _ =>
    .updating previous (if created then next.insertDirectory relative else next) directories files
      none
  | phase => phase

end Phase

/-- How an upload ends: done; refused, with the guest's copy as it was; or in place although an error
    is reported. -/
inductive UploadEnd where
  | done
  | refused
  | lost
  deriving DecidableEq, Repr

/-- The tree, what the command has uploaded, and the command. -/
structure World where
  present : List String
  history : String → List FileStamp
  guest : String → Option FileStamp
  phase : Phase

/-- What happens next: a change of the tree, or a step of the command. -/
inductive Event where
  | edit (relative : String) (stamp : FileStamp)
  | delete (relative : String)
  | proceed
  | failed
  | collected (entries : List LocalEntry)
  | stat
  | begin
  | finish (outcome : UploadEnd)
  | directory (created : Bool)
  deriving DecidableEq

namespace World

/-- A file is created or edited; its stamp is a new one. -/
def edit (w : World) (relative : String) (stamp : FileStamp) : World :=
  if stamp ∈ w.history relative then w
  else { w with
    present := relative :: w.present.filter (· ≠ relative)
    history := Function.update w.history relative (stamp :: w.history relative) }

/-- `fs::metadata` of the next entry of a snapshot. -/
def stat (w : World) : World :=
  match w.phase with
  | .stating previous (⟨relative, .directory⟩ :: todo) current =>
    { w with phase := .stating previous todo (current.insertDirectory relative) }
  | .stating previous (⟨relative, .file⟩ :: todo) current =>
    match (w.history relative).head? with
    | some stamp =>
      if relative ∈ w.present then
        { w with phase := .stating previous todo (current.insertFile relative stamp) }
      else w
    | none => w
  | _ => w

/-- The reading of the next file to be uploaded begins. -/
def begin (w : World) : World :=
  match w.phase with
  | .pushing (⟨relative, .file⟩ :: todo) none =>
    if relative ∈ w.present then
      { w with phase := .pushing (⟨relative, .file⟩ :: todo) (w.history relative).head? }
    else w
  | .updating previous next [] ((relative, stamp) :: files) none =>
    if relative ∈ w.present then
      { w with
        phase := .updating previous next [] ((relative, stamp) :: files)
          (w.history relative).head? }
    else w
  | _ => w

/-- The guest's copy of a file is replaced. -/
def upload (w : World) (relative : String) (read : FileStamp) : World :=
  { w with guest := Function.update w.guest relative (some read) }

/-- `put_file_replacing` ends. -/
def finish (w : World) (outcome : UploadEnd) : World :=
  match w.phase, outcome with
  | .pushing (⟨relative, .file⟩ :: todo) (some read), .done =>
    { w.upload relative read with phase := .pushing todo none }
  | .pushing (⟨relative, .file⟩ :: _) (some read), .lost =>
    { w.upload relative read with phase := .ended }
  | .pushing (⟨_, .file⟩ :: _) _, .refused => { w with phase := .ended }
  | .updating previous next [] ((relative, stamp) :: files) (some read), .done =>
    { w.upload relative read with
      phase := .updating previous (next.insertFile relative stamp) [] files none }
  | .updating previous next [] ((relative, _) :: files) (some read), .lost =>
    { w.upload relative read with phase := .updating previous next [] files none }
  | .updating previous next [] (_ :: files) _, .refused =>
    { w with phase := .updating previous next [] files none }
  | _, _ => w

/-- One step of the tree or of the command.  What cannot happen changes nothing. -/
def step (w : World) : Event → World
  | .edit relative stamp => w.edit relative stamp
  | .delete relative =>
    { w with present := w.present.filter (· ≠ relative), phase := w.phase.forget relative }
  | .proceed => { w with phase := w.phase.proceed w.present }
  | .failed => { w with phase := w.phase.failed }
  | .collected entries => { w with phase := w.phase.collected entries }
  | .stat => w.stat
  | .begin => w.begin
  | .finish outcome => w.finish outcome
  | .directory created => { w with phase := w.phase.directory created }

/-- The command starts on a tree of files with their stamps. -/
def start (tree : List (String × FileStamp)) : World where
  present := tree.map Prod.fst
  history := fun relative => (tree.lookup relative).toList
  guest := fun _ => none
  phase := .collecting (tree.map Prod.fst)

end World

end Lsw.Cli.WatchSync
