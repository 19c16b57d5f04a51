import Mathlib.Data.List.Infix
import Lsw.Cli.LocalTree
import Lsw.Core.ShareRoots

/-!
# Pushing a Host Directory

`push_tree` creates the directories of a host tree in the guest and writes its files, in the order of
`collect_local_tree` (`transfer.rs`).  A push without replacement writes new files only; one with
replacement writes a file under a temporary name and then moves it over what is there.

The names of the host are kept as they are, and the guest does not distinguish letters by their case.
`CaseApart` is what a tree must fulfil for its files to stay apart in the guest.
-/

namespace Lsw.Cli.Transfer

open Lsw.Lib Lsw.Core

/-! ## The guest -/

/-- What stands at a path of the guest. -/
inductive GuestNode where
  | directory
  | file (contents : List UInt8)
  deriving DecidableEq, Repr

/-- The file system of the guest: a path is looked up by its components, without regard to case. -/
abbrev Guest := List Str → Option GuestNode

/-- The calls of a push that the guest answers. -/
inductive GuestCall where
  | createDirectory (path : Str)
  | checkParents (path : Str)
  | putFile (destination : Str)
  | replace (temporary destination : Str)
  deriving DecidableEq

/-- What a push does not decide: which calls fail, and how temporary files are numbered. -/
structure PushEnv where
  refuses : GuestCall → Bool
  processId : Nat
  nonce : Str → Nat

section Model

variable (env : PushEnv)

/-- A call that is made of the guest; it may fail for reasons of its own. -/
def call (request : GuestCall) : Exec TransferError Unit :=
  rejectIf (env.refuses request = true) (.error .io)

def isFile : Option GuestNode → Bool
  | some (.file _) => true
  | _ => false

/-- `remote_create_directory`: a path that leads through a file is refused. -/
def remoteCreateDirectory (guest : Guest) (path : Str) : Exec TransferError Guest := do
  call env (.createDirectory path)
  let components := windowsComponents path
  rejectIf (components.inits.any fun front => isFile (guest front)) (.error .io)
  return fun other => if other ≠ [] ∧ other <+: components then some .directory else guest other

def componentName : Component OsUnit → Option (List OsUnit)
  | .normal name => some name
  | _ => none

/-- The contents of a file of the host. -/
def HostTree.read (tree : HostTree) (path : PathBuf) : Exec TransferError (List UInt8) :=
  match (path.stripPrefix tree.root).bind fun rest =>
    (rest.mapM componentName).bind tree.node.find with
  | some (.file contents) => .ok contents
  | _ => .error (.error .io)

/-- `put_file`: the agent publishes a file where nothing stands, in a directory. -/
def putFile (tree : HostTree) (guest : Guest) (source : PathBuf) (destination : Str) :
    Exec TransferError Guest := do
  let contents ← tree.read source
  call env (.putFile destination)
  let components := windowsComponents destination
  rejectIf (guest components ≠ none ∨ guest components.dropLast ≠ some .directory) (.error .io)
  return Function.update guest components (some (.file contents))

/-- `format!("{destination}.lsw-sync-{}-{nonce}", std::process::id())`. -/
def temporaryPath (destination : Str) : Str :=
  destination ++ ".lsw-sync-".toList ++ Nat.toDigits 10 env.processId ++
    '-' :: Nat.toDigits 10 (env.nonce destination)

/-- `put_file_replacing`. -/
def putFileReplacing (tree : HostTree) (guest : Guest) (source : PathBuf) (destination : Str) :
    Exec TransferError Guest := do
  let components := windowsComponents destination
  call env (.checkParents destination)
  rejectIf (components.dropLast.inits.any fun front => front ≠ [] ∧ guest front = none) (.error .io)
  let temporary := temporaryPath env destination
  let guest ← putFile env tree guest source temporary
  call env (.replace temporary destination)
  rejectIf (guest components = some .directory) (.error .io)
  -- `Move-Item -Force`
  return Function.update (Function.update guest (windowsComponents temporary) none) components
    (guest (windowsComponents temporary))

/-- `require_real_directory`. -/
def requireRealDirectory (tree : HostTree) : Exec TransferError Unit := do
  let fileType ← tree.node.metadata.mapError .error
  rejectIf (fileType ≠ .directory)
    (.error (.text [.shown tree.root.display, .text " must be a real directory"]))

/-- `push_tree`, one entry. -/
def pushEntry (tree : HostTree) (destination : Str) (replace : Bool) (guest : Guest)
    (entry : LocalEntry) : Exec TransferError Guest := do
  let remote ← (joinWindowsPath destination entry.relative).mapError .error
  match entry.kind with
  | .directory => remoteCreateDirectory env guest remote
  | .file =>
    if replace then putFileReplacing env tree guest entry.path remote
    else putFile env tree guest entry.path remote

/-- `push_tree`. -/
def pushTree (tree : HostTree) (destination : Str) (replace : Bool) (guest : Guest) :
    Exec TransferError Guest := do
  requireRealDirectory tree
  let guest ← remoteCreateDirectory env guest destination
  let entries ← collectLocalTree tree
  forEach entries (pushEntry env tree destination replace) guest

end Model

/-! ## What a push should do -/

/-- Windows takes two paths for the same. -/
def SameWindowsPath (left right : Str) : Prop := windowsComponents left = windowsComponents right

/-- A path is strictly below a directory. -/
def IsBelowWindows (path directory : Str) : Prop :=
  ∃ rest, rest ≠ [] ∧ windowsComponents path = windowsComponents directory ++ rest

/-- The paths that a push writes keep the entries apart, and what it writes stays. -/
structure SoundPush (tree : HostTree) (destination : Str) (entries : List LocalEntry) : Prop where
  distinct : ∀ first ∈ entries, ∀ second ∈ entries, first.kind = .file → second.kind = .file →
    first.path.components ≠ second.path.components → ∀ left right,
      joinWindowsPath destination first.relative = .ok left →
        joinWindowsPath destination second.relative = .ok right → ¬ SameWindowsPath left right
  below : ∀ entry ∈ entries, ∃ remote, joinWindowsPath destination entry.relative = .ok remote ∧
    IsBelowWindows remote destination
  parentsFirst : entries.Pairwise fun first second => ¬ IsInside first second
  present : ∀ env guest after, pushTree env tree destination true guest = .ok after →
    ∀ names contents, tree.node.find names = some (.file contents) →
      ∃ entry ∈ entries, entry.path.components = tree.root.components ++ names.map .normal ∧
        ∃ remote, joinWindowsPath destination entry.relative = .ok remote ∧
          after (windowsComponents remote) = some (.file contents)

/-- A name without regard to the case of its ASCII letters. -/
def foldName (name : List OsUnit) : List OsUnit :=
  name.map fun
    | .char c => .char (toAsciiLowercase c)
    | .byte b => .byte b

/-- No two files of the tree differ only in the case of ASCII letters in their paths. -/
def CaseApart (tree : HostTree) : Prop :=
  ∀ first second left right, tree.node.find first = some (.file left) →
    tree.node.find second = some (.file right) → first.map foldName = second.map foldName →
      first = second

/-! ## The paths of the guest -/

theorem windowsComponents_eq (path : Str) :
    windowsComponents path = (namedPieces isSeparator path).map (List.map toAsciiLowercase) := by
  have hsep : isWindowsSeparator = isSeparator := funext fun c => Bool.or_comm _ _
  have hfilter : (fun piece : Str => decide (piece ≠ [])) = fun piece => !piece.isEmpty := by
    funext piece
    cases piece <;> rfl
  rw [windowsComponents, namedPieces, hsep, hfilter]

/-- The components of what is joined to a destination. -/
theorem windowsComponents_join {destination relative remote : Str}
    (h : joinWindowsPath destination relative = .ok remote) :
    windowsComponents remote =
      windowsComponents destination ++ (pathNames relative).map (List.map toAsciiLowercase) := by
  rw [windowsComponents_eq, windowsComponents_eq, namedPieces_joinWindowsPath h, List.map_append]

theorem kind_eq_file {node : HostNode} (h : node.kind = some .file) :
    ∃ contents, node = .file contents := by
  cases node with
  | file contents => exact ⟨contents, rfl⟩
  | _ => cases h

theorem foldName_namesOf (texts : List Str) :
    (namesOf texts).map foldName = namesOf (texts.map (List.map toAsciiLowercase)) := by
  rw [namesOf, namesOf, List.map_map, List.map_map]
  apply List.map_congr_left
  intro text _
  simp [foldName]

theorem namesOf_inj {left right : List Str} : namesOf left = namesOf right ↔ left = right :=
  (List.map_injective_iff.mpr (List.map_injective_iff.mpr fun _ _ => OsUnit.char.inj)).eq_iff

/-- Two files have one path in the guest when their names differ in case only. -/
theorem sameWindowsPath_iff {root : PathBuf} {first second : LocalEntry}
    {left right : List (List OsUnit)} {destination a b : Str} (hfirst : Located root first left)
    (hsecond : Located root second right) (ha : joinWindowsPath destination first.relative = .ok a)
    (hb : joinWindowsPath destination second.relative = .ok b) :
    SameWindowsPath a b ↔ left.map foldName = right.map foldName := by
  rw [SameWindowsPath, windowsComponents_join ha, windowsComponents_join hb,
    List.append_cancel_left_eq, hfirst.relative, hsecond.relative, foldName_namesOf,
    foldName_namesOf, namesOf_inj]

/-- What is accepted can be joined to any destination, below it. -/
theorem Located.exists_join {root : PathBuf} {entry : LocalEntry} {names : List (List OsUnit)}
    (h : Located root entry names) (destination : Str) :
    ∃ remote, joinWindowsPath destination entry.relative = .ok remote ∧
      IsBelowWindows remote destination := by
  have hjoin := (@joinWindowsPath_eq_ok destination _ _).mpr ⟨h.safe, rfl⟩
  refine ⟨_, hjoin, _, ?_, windowsComponents_join hjoin⟩
  have hne : pathNames entry.relative ≠ [] := List.splitOnP_ne_nil isSeparator _
  simpa using hne

/-! ## What a call changes -/

section Calls

variable {env : PushEnv} {tree : HostTree} {guest after : Guest}

/-- Creating a directory leaves every file where it is. -/
theorem createDirectory_keeps {path : Str} (h : remoteCreateDirectory env guest path = .ok after)
    {key : List Str} {contents : List UInt8} (hkey : guest key = some (.file contents)) :
    after key = some (.file contents) := by
  simp only [remoteCreateDirectory, bind_eq_ok, rejectIf_eq_ok, pure_eq_ok_iff, exists_const] at h
  obtain ⟨-, -, hfront, rfl⟩ := h
  simp only [Bool.not_eq_true, List.any_eq_false] at hfront
  -- A file on the way to the directory would have been refused.
  have hother : ¬ (key ≠ [] ∧ key <+: windowsComponents path) := by
    rintro ⟨-, hpre⟩
    have hplain := hfront key ((List.mem_inits _ _).mpr hpre)
    rw [hkey] at hplain
    cases hplain
  exact (if_neg hother).trans hkey

theorem putFile_eq_ok {source : PathBuf} {destination : Str}
    (h : putFile env tree guest source destination = .ok after) :
    ∃ contents, tree.read source = .ok contents ∧ guest (windowsComponents destination) = none ∧
      after = Function.update guest (windowsComponents destination) (some (.file contents)) := by
  simp only [putFile, bind_eq_ok, rejectIf_eq_ok, pure_eq_ok_iff, exists_const, not_or,
    not_not] at h
  obtain ⟨contents, hread, -, -, ⟨hnone, -⟩, rfl⟩ := h
  exact ⟨contents, hread, hnone, rfl⟩

/-- A replacing upload puts the file at its destination, and moves no other file. -/
theorem putFileReplacing_eq_ok {source : PathBuf} {destination : Str}
    (h : putFileReplacing env tree guest source destination = .ok after) :
    ∃ contents, tree.read source = .ok contents ∧
      after (windowsComponents destination) = some (.file contents) ∧
      ∀ key other, key ≠ windowsComponents destination → guest key = some (.file other) →
        after key = some (.file other) := by
  simp only [putFileReplacing, bind_eq_ok, rejectIf_eq_ok, pure_eq_ok_iff, exists_const] at h
  obtain ⟨-, -, -, staged, hstaged, -, -, -, rfl⟩ := h
  obtain ⟨contents, hread, hnone, rfl⟩ := putFile_eq_ok hstaged
  refine ⟨contents, hread, by simp, fun key other hne hkey => ?_⟩
  -- The temporary file stands where nothing stood.
  have htemporary : key ≠ windowsComponents (temporaryPath env destination) := by
    rintro rfl
    rw [hnone] at hkey
    cases hkey
  rw [Function.update_of_ne hne, Function.update_of_ne htemporary, Function.update_of_ne htemporary,
    hkey]

theorem mapM_componentName (names : List (List OsUnit)) :
    (names.map Component.normal).mapM componentName = some names := by
  induction names with
  | nil => rfl
  | cons name names ih => simp_all [componentName, List.mapM_map]

/-- What is read for an entry is what the tree has under its names. -/
theorem Located.read_eq {entry : LocalEntry} {names : List (List OsUnit)} {contents : List UInt8}
    (h : Located tree.root entry names) (hfind : tree.node.find names = some (.file contents)) :
    tree.read entry.path = .ok contents := by
  rw [HostTree.read, PathBuf.stripPrefix_eq_some.mpr h.path, Option.bind_some, mapM_componentName, Option.bind_some,
    hfind]

end Calls

/-! ## The whole push -/

section Push

variable {env : PushEnv} {tree : HostTree} {destination : Str} {guest after : Guest}
  {entries : List LocalEntry}

/-- An entry's file stands in the guest. -/
def Sent (tree : HostTree) (destination : Str) (guest : Guest) (entry : LocalEntry) : Prop :=
  entry.kind = .file → ∃ remote contents, joinWindowsPath destination entry.relative = .ok remote ∧
    tree.read entry.path = .ok contents ∧ guest (windowsComponents remote) = some (.file contents)

/-- Entries that go to one path in the guest have the same contents. -/
def Agree (tree : HostTree) (destination : Str) (first second : LocalEntry) : Prop :=
  first.kind = .file → second.kind = .file → ∀ left right,
    joinWindowsPath destination first.relative = .ok left →
      joinWindowsPath destination second.relative = .ok right →
        SameWindowsPath left right → tree.read first.path = tree.read second.path

/-- One entry more: it is sent, and those that agree with it stay. -/
theorem pushEntry_sent {entry : LocalEntry}
    (h : pushEntry env tree destination true guest entry = .ok after) :
    Sent tree destination after entry ∧ ∀ other, Agree tree destination other entry →
      Sent tree destination guest other → Sent tree destination after other := by
  obtain ⟨remote, hremote, h⟩ := bind_eq_ok.mp h
  rw [mapError_eq_ok] at hremote
  split at h
  · rename_i hkind
    refine ⟨fun hfile => absurd (hkind.symm.trans hfile) (by simp), ?_⟩
    intro other _ hother hfile
    obtain ⟨path, contents, hpath, hread, hsent⟩ := hother hfile
    exact ⟨path, contents, hpath, hread, createDirectory_keeps h hsent⟩
  · rename_i hkind
    rw [if_pos rfl] at h
    obtain ⟨contents, hread, hput, hkeeps⟩ := putFileReplacing_eq_ok h
    refine ⟨fun _ => ⟨remote, contents, hremote, hread, hput⟩, ?_⟩
    intro other hagree hother hfile
    obtain ⟨path, before, hpath, hbefore, hsent⟩ := hother hfile
    refine ⟨path, before, hpath, hbefore, ?_⟩
    by_cases hsame : SameWindowsPath path remote
    · -- Both files go to one path: then they are the same file.
      have heq := hagree hfile hkind path remote hpath hremote hsame
      rw [hbefore, hread, Except.ok.injEq] at heq
      rw [hsame, hput, heq]
    · exact hkeeps _ _ hsame hsent

/-- The loop: every entry that it has visited is sent, when all of them agree. -/
theorem pushEntries_sent {seen : List LocalEntry}
    (hagree : ∀ first ∈ seen ++ entries, ∀ second ∈ seen ++ entries,
      Agree tree destination first second)
    (hseen : ∀ entry ∈ seen, Sent tree destination guest entry)
    (h : forEach entries (pushEntry env tree destination true) guest = .ok after) :
    ∀ entry ∈ seen ++ entries, Sent tree destination after entry := by
  induction entries generalizing seen guest with
  | nil =>
    obtain rfl : guest = after := by simpa using h
    simpa using hseen
  | cons entry entries ih =>
    obtain ⟨next, hentry, hrest⟩ := bind_eq_ok.mp h
    obtain ⟨hsent, hkeeps⟩ := pushEntry_sent hentry
    rw [List.append_cons] at hagree ⊢
    refine ih hagree ?_ hrest
    intro other hother
    have hmem : entry ∈ seen ++ [entry] ++ entries := by simp
    rcases List.mem_append.mp hother with hbefore | hlast
    · have hall : other ∈ seen ++ [entry] ++ entries := List.mem_append_left _ hother
      exact hkeeps other (hagree other hall entry hmem) (hseen other hbefore)
    · exact List.mem_singleton.mp hlast ▸ hsent

/-- A file is below the root of a tree that is accepted. -/
theorem ne_nil_of_file (hcollect : collectLocalTree tree = .ok entries)
    {names : List (List OsUnit)} {contents : List UInt8}
    (hfind : tree.node.find names = some (.file contents)) : names ≠ [] := by
  rintro rfl
  obtain ⟨collected, hcollected, -⟩ := bind_eq_ok.mp hcollect
  have hroot : tree.node = .file contents := by simpa [HostNode.find] using hfind
  rw [hroot] at hcollected
  cases hcollected

/-- The entries of a tree that is kept apart agree. -/
theorem agree_of_caseApart (hcollect : Gathered tree.root [] tree.node entries)
    (happart : CaseApart tree) : ∀ first ∈ entries, ∀ second ∈ entries,
      Agree tree destination first second := by
  intro first hfirst second hsecond hfile hfile' left right hleft hright hsame
  obtain ⟨names, found, -, hfind, hkind, hat⟩ := hcollect.located first hfirst
  obtain ⟨others, found', -, hfind', hkind', hat'⟩ := hcollect.located second hsecond
  rw [hfile] at hkind
  rw [hfile'] at hkind'
  obtain ⟨contents, rfl⟩ := kind_eq_file hkind
  obtain ⟨contents', rfl⟩ := kind_eq_file hkind'
  have hcase := (sameWindowsPath_iff hat hat' hleft hright).mp hsame
  obtain rfl := happart names others contents contents' hfind hfind' hcase
  exact (hat.read_eq hfind).trans (hat'.read_eq hfind).symm

/-- A replacing push that ends leaves the contents of every file in the guest. -/
theorem pushTree_present (hcollect : collectLocalTree tree = .ok entries)
    (happart : CaseApart tree) (hpush : pushTree env tree destination true guest = .ok after)
    {names : List (List OsUnit)} {contents : List UInt8}
    (hfind : tree.node.find names = some (.file contents)) :
    ∃ entry ∈ entries, entry.path.components = tree.root.components ++ names.map .normal ∧
      ∃ remote, joinWindowsPath destination entry.relative = .ok remote ∧
        after (windowsComponents remote) = some (.file contents) := by
  obtain ⟨hgathered, -⟩ := collectLocalTree_eq_ok hcollect
  simp only [pushTree, bind_eq_ok, hcollect, Except.ok.injEq, exists_eq_left'] at hpush
  obtain ⟨-, -, created, -, hloop⟩ := hpush
  have hsent := @pushEntries_sent env tree destination created after entries []
    (agree_of_caseApart hgathered happart) (by simp) hloop
  have hne : names ≠ [] := ne_nil_of_file hcollect hfind
  obtain ⟨entry, hentry, hkind, hat⟩ := hgathered.complete names _ hne hfind
  obtain ⟨remote, read, hremote, hread, hafter⟩ := hsent entry hentry (Option.some.inj hkind).symm
  obtain rfl := Except.ok.inj ((hat.read_eq hfind).symm.trans hread)
  exact ⟨entry, hentry, hat.path, remote, hremote, hafter⟩

/-- Files that are sent to different paths differ in more than case. -/
theorem caseApart_of_distinct (hcollect : collectLocalTree tree = .ok entries)
    (hsound : SoundPush tree destination entries) : CaseApart tree := by
  intro first second left right hfirst hsecond hcase
  obtain ⟨hgathered, -⟩ := collectLocalTree_eq_ok hcollect
  obtain ⟨entry, hentry, hkind, hat⟩ :=
    hgathered.complete first _ (ne_nil_of_file hcollect hfirst) hfirst
  obtain ⟨other, hother, hkind', hat'⟩ :=
    hgathered.complete second _ (ne_nil_of_file hcollect hsecond) hsecond
  by_contra hne
  have hpaths : entry.path.components ≠ other.path.components := by
    rw [hat.path, hat'.path]
    intro heq
    exact hne (List.map_injective_iff.mpr (fun _ _ => Component.normal.inj)
      (List.append_cancel_left heq))
  obtain ⟨a, ha, -⟩ := hat.exists_join destination
  obtain ⟨b, hb, -⟩ := hat'.exists_join destination
  exact hsound.distinct entry hentry other hother (Option.some.inj hkind).symm
    (Option.some.inj hkind').symm hpaths a b ha hb ((sameWindowsPath_iff hat hat' ha hb).mpr hcase)

/-- The files of a tree that is kept apart go to different paths. -/
theorem distinct_of_caseApart (hgathered : Gathered tree.root [] tree.node entries)
    (happart : CaseApart tree) {first second : LocalEntry} (hfirst : first ∈ entries)
    (hsecond : second ∈ entries) (hfile : first.kind = .file) (hfile' : second.kind = .file)
    (hne : first.path.components ≠ second.path.components) {left right : Str}
    (hleft : joinWindowsPath destination first.relative = .ok left)
    (hright : joinWindowsPath destination second.relative = .ok right) :
    ¬ SameWindowsPath left right := by
  intro hsame
  obtain ⟨names, found, -, hfind, hkind, hat⟩ := hgathered.located first hfirst
  obtain ⟨others, found', -, hfind', hkind', hat'⟩ := hgathered.located second hsecond
  obtain ⟨contents, rfl⟩ := kind_eq_file (hkind.trans (congrArg some hfile))
  obtain ⟨contents', rfl⟩ := kind_eq_file (hkind'.trans (congrArg some hfile'))
  have hcase := (sameWindowsPath_iff hat hat' hleft hright).mp hsame
  obtain rfl := happart names others contents contents' hfind hfind' hcase
  exact hne (hat.path.trans hat'.path.symm)

end Push

/-- Everything that is pushed goes below the destination, directories before what is in them.  The
    files stay apart, and all of them are there after a replacing push, exactly when no two of them
    differ in case only. -/
theorem pushed_files_stay_apart_iff (tree : HostTree) (destination : Str)
    (entries : List LocalEntry) (h : collectLocalTree tree = .ok entries) :
    (∀ entry ∈ entries, ∃ remote, joinWindowsPath destination entry.relative = .ok remote ∧
      IsBelowWindows remote destination) ∧
    (entries.Pairwise fun first second => ¬ IsInside first second) ∧
    (SoundPush tree destination entries ↔ CaseApart tree) := by
  obtain ⟨hgathered, hsorted⟩ := collectLocalTree_eq_ok h
  have hbelow : ∀ entry ∈ entries, ∃ remote,
      joinWindowsPath destination entry.relative = .ok remote ∧
        IsBelowWindows remote destination := by
    intro entry hentry
    obtain ⟨names, found, -, -, -, hat⟩ := hgathered.located entry hentry
    exact hat.exists_join destination
  have hordered : entries.Pairwise fun first second => ¬ IsInside first second := by
    refine hsorted.imp_of_mem ?_
    intro first second hfirst hsecond hle hinside
    obtain ⟨names, found, -, -, -, hat⟩ := hgathered.located first hfirst
    obtain ⟨others, found', -, -, -, hat'⟩ := hgathered.located second hsecond
    exact hle (hat.lt_of_isInside hat' hinside)
  refine ⟨hbelow, hordered, caseApart_of_distinct h, fun happart => ?_⟩
  constructor
  · intro first hfirst second hsecond hfile hfile' hne left right hleft hright
    exact distinct_of_caseApart hgathered happart hfirst hsecond hfile hfile' hne hleft hright
  · exact hbelow
  · exact hordered
  · intro env guest after hpush names contents hfind
    exact pushTree_present h happart hpush hfind

/-! ## Two trees -/

/-- Whether the files of a tree are kept apart is seen from its entries. -/
theorem caseApart_of_entries (h : collectLocalTree tree = .ok entries)
    (happart : ∀ first ∈ entries, ∀ second ∈ entries, first.kind = .file → second.kind = .file →
      (pathNames first.relative).map (List.map toAsciiLowercase) =
        (pathNames second.relative).map (List.map toAsciiLowercase) →
      first.relative = second.relative) : CaseApart tree := by
  intro first second left right hfirst hsecond hcase
  obtain ⟨hgathered, -⟩ := collectLocalTree_eq_ok h
  obtain ⟨entry, hentry, hkind, hat⟩ :=
    hgathered.complete first _ (ne_nil_of_file h hfirst) hfirst
  obtain ⟨other, hother, hkind', hat'⟩ :=
    hgathered.complete second _ (ne_nil_of_file h hsecond) hsecond
  have hnames : first = namesOf (pathNames entry.relative) := hat.relative
  have hnames' : second = namesOf (pathNames other.relative) := hat'.relative
  rw [hnames, hnames', foldName_namesOf, foldName_namesOf, namesOf_inj] at hcase
  rw [hnames, hnames', happart entry hentry other hother (Option.some.inj hkind).symm
    (Option.some.inj hkind').symm hcase]

/-- The file names `A`, `a` and `c`. -/
def upperName : HostName := ⟨[.char 'A'], by decide, by decide, by decide, by decide⟩

def lowerName : HostName := ⟨[.char 'a'], by decide, by decide, by decide, by decide⟩

def otherName : HostName := ⟨[.char 'c'], by decide, by decide, by decide, by decide⟩

/-- The walk through a directory that holds files of safe names only, in order. -/
theorem walk_files {root directory : PathBuf} {names : List HostName} {text : HostName → Str}
    {contents : HostName → List UInt8} (above : List (Component OsUnit))
    (hdirectory : directory.components = root.components ++ above)
    (hnames : names.Pairwise fun first second => isListedBefore first second = true)
    (htext : ∀ name ∈ names, normalizedRelativePath (above ++ [.normal name.val]) = .ok (text name))
    (entries : List LocalEntry) :
    collectLocalDirectory root directory
        (.directory (some names) fun name => .file (contents name)) entries =
      .ok (entries ++ names.map fun name => ⟨text name, childPath directory name, .file⟩) := by
  rw [collectLocalDirectory, List.mergeSort_of_pairwise hnames, List.map_eq_flatMap]
  refine forEach_append (fun name hname entries => ?_) entries
  -- One file: its path is stripped again, and its name is safe.
  have hchild := components_childPath directory name
  rw [hdirectory, List.append_assoc] at hchild
  simp only [HostNode.metadata, Except.mapError, ok_bind, rejectIf_of_not,
    PathBuf.stripPrefix_eq_some.mpr hchild, okOr_some, htext name hname, reduceCtorEq,
    not_false_eq_true]
  rfl

/-- The directory `/r`. -/
def pushedRoot : PathBuf := .ofStr "/r".toList

/-- The tree of some files in one directory; each holds the bytes of its name. -/
def flatTree (names : List HostName) : HostTree where
  root := pushedRoot
  node := .directory (some names) fun name => .file (osBytes name.val)

/-- Two files whose names differ in case. -/
def twinEntries : List LocalEntry :=
  [⟨['A'], childPath pushedRoot upperName, .file⟩, ⟨['a'], childPath pushedRoot lowerName, .file⟩]

theorem collect_twins : collectLocalTree (flatTree [upperName, lowerName]) = .ok twinEntries := by
  have hwalk : collectLocalDirectory pushedRoot pushedRoot
      (.directory (some [upperName, lowerName]) fun name => .file (osBytes name.val)) [] =
        .ok twinEntries :=
    @walk_files _ _ _ (fun name => if name = upperName then ['A'] else ['a']) _ []
      (List.append_nil _).symm (by decide) (by decide) []
  have hsorted : twinEntries.Pairwise fun first second => isSentBefore first second = true := by
    decide
  rw [collectLocalTree, flatTree, hwalk, ok_bind, List.mergeSort_of_pairwise hsorted]
  rfl

/-- A directory with a file in it, and a file beside it. -/
def nestedTree : HostTree where
  root := pushedRoot
  node := .directory (some [upperName, otherName]) fun name =>
    if name = upperName then .directory (some [lowerName]) fun _ => .file [1, 2] else .file [3]

def nestedEntries : List LocalEntry :=
  [⟨['A'], childPath pushedRoot upperName, .directory⟩,
    ⟨"A/a".toList, childPath (childPath pushedRoot upperName) lowerName, .file⟩,
    ⟨['c'], childPath pushedRoot otherName, .file⟩]

/-- The walk over the sample tree. -/
theorem collect_nestedTree : collectLocalTree nestedTree = .ok nestedEntries := by
  -- The directory below the root holds one file.
  have hinner : ∀ entries, collectLocalDirectory pushedRoot (childPath pushedRoot upperName)
      (.directory (some [lowerName]) fun _ => .file [1, 2]) entries =
        .ok (entries ++ [⟨"A/a".toList, childPath (childPath pushedRoot upperName) lowerName, .file⟩]) :=
    @walk_files _ _ _ (fun _ => "A/a".toList) _ [.normal upperName.val]
      (components_childPath pushedRoot upperName) (by decide) (by decide)
  -- The names of the root are in order.
  have hnames : [upperName, otherName].mergeSort isListedBefore = [upperName, otherName] :=
    List.mergeSort_of_pairwise (by decide)
  have hne : ¬ otherName = upperName := by decide
  have hdirectory : normalizedRelativePath [.normal upperName.val] = .ok ['A'] := by decide
  have hfile : normalizedRelativePath [.normal otherName.val] = .ok ['c'] := by decide
  have hupper := PathBuf.stripPrefix_eq_some.mpr (components_childPath pushedRoot upperName)
  have hother := PathBuf.stripPrefix_eq_some.mpr (components_childPath pushedRoot otherName)
  have hwalk : collectLocalDirectory pushedRoot pushedRoot nestedTree.node [] = .ok nestedEntries := by
    rw [nestedTree, collectLocalDirectory, hnames]
    simp only [forEach_cons, forEach_nil, if_true, hne, if_false, HostNode.metadata, Except.mapError,
      ok_bind, rejectIf_of_not, reduceCtorEq, not_false_eq_true, hupper, hother, okOr_some, hdirectory,
      hfile, hinner, pure_bind]
    rfl
  -- So are the entries that are found.
  have hsorted : nestedEntries.Pairwise fun first second => isSentBefore first second = true := by
    decide
  rw [collectLocalTree, show nestedTree.root = pushedRoot from rfl, hwalk, ok_bind,
    List.mergeSort_of_pairwise hsorted]
  rfl

/-- The tree goes to a directory of the guest as it is. -/
theorem nested_tree_is_pushed : SoundPush nestedTree "C:\\d".toList nestedEntries :=
  (pushed_files_stay_apart_iff _ "C:\\d".toList _ collect_nestedTree).2.2.mpr
    (caseApart_of_entries collect_nestedTree (by decide))

/-- Two files whose names differ in case are accepted, and go to one path. -/
theorem files_meet_in_one_path : ¬ ∀ entries,
    collectLocalTree (flatTree [upperName, lowerName]) = .ok entries →
      SoundPush (flatTree [upperName, lowerName]) "C:\\d".toList entries := by
  intro hall
  have happart := caseApart_of_distinct collect_twins (hall _ collect_twins)
  have hsame := happart [upperName.val] [lowerName.val] [65] [97] rfl rfl (by decide)
  exact absurd hsame (by decide)

end Lsw.Cli.Transfer
