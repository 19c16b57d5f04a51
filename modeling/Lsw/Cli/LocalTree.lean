import Lsw.Cli.RemoteTree

/-!
# Collecting a Host Directory

`collect_local_tree` walks a directory of the host and names every entry by its path relative to the
root of the walk, with slashes (`transfer.rs`).  Links are refused, and names that Windows could not
have; the entries are sorted by their names.

The walk goes by paths and strips the root from them again.  `Located` says what an entry of its
result stands for: some names, below the root, under which the tree has such an entry.
-/

namespace Lsw.Cli.Transfer

open Lsw.Lib Lsw.Core

/-! ## Trees of the host -/

/-- The name of a directory entry, as `read_dir` gives it. -/
abbrev HostName := { units : List OsUnit // IsName (.char '/') (.char '.') units }

/-- What `symlink_metadata` distinguishes. -/
inductive FileType where
  | directory
  | file
  | symlink
  | other
  deriving DecidableEq, Repr

/-- What stands at a path of the host. -/
inductive HostNode where
  /-- A directory, with the names in it if they can be listed. -/
  | directory (names : Option (List HostName)) (child : HostName → HostNode)
  | file (contents : List UInt8)
  | symlink
  | other
  /-- An entry whose metadata cannot be read. -/
  | unreadable

namespace HostNode

/-- `fs::symlink_metadata`. -/
def metadata : HostNode → Except TransferError FileType
  | directory _ _ => .ok .directory
  | file _ => .ok .file
  | symlink => .ok .symlink
  | other => .ok .other
  | unreadable => .error .io

/-- What stands below a node. -/
def find : HostNode → List (List OsUnit) → Option HostNode
  | node, [] => some node
  | directory (some names) child, units :: rest =>
    (names.find? fun name => name.val = units).bind fun name => (child name).find rest
  | _, _ :: _ => none

end HostNode

/-- A tree of the host, by the path that it is reached by. -/
structure HostTree where
  root : PathBuf
  node : HostNode

/-! ## The walk -/

/-- `LocalEntry`. -/
structure LocalEntry where
  relative : Str
  path : PathBuf
  kind : EntryKind
  deriving DecidableEq

/-- The bytes of a file name. -/
def osBytes (units : List OsUnit) : List UInt8 :=
  units.flatMap fun
    | .char c => String.utf8EncodeChar c
    | .byte b => [b]

/-- `left.file_name().cmp(&right.file_name())` is not `Greater`. -/
def isListedBefore (left right : HostName) : Bool := decide (osBytes left.val ≤ osBytes right.val)

/-- `child.path()`. -/
def childPath (directory : PathBuf) (name : HostName) : PathBuf :=
  ⟨joinPath (.char '/') directory.units name.val⟩

/-- `normalized_relative_path`, one component. -/
def pushPart (path : List (Component OsUnit)) (parts : List Str) :
    Component OsUnit → Except TransferError (List Str)
  | .normal name => do
    let value ← okOr (PathBuf.toStr ⟨name⟩) (.text [.text "tree paths must be valid UTF-8"])
    rejectIf (windowsPathComponentIsSafe value = false)
      (.text [.shown (['/'].intercalate (path.map componentText)),
        .text " cannot be represented as a safe Windows path component"])
    return parts ++ [value]
  | _ => .error (.text [.text "tree path escaped its source root"])

/-- `normalized_relative_path`. -/
def normalizedRelativePath (path : List (Component OsUnit)) : Except TransferError Str := do
  let parts ← forEach path (pushPart path) []
  rejectIf (parts = []) (.text [.text "tree relative path must not be empty"])
  return ['/'].intercalate parts

/-- `collect_local_directory`. -/
def collectLocalDirectory (root directory : PathBuf) :
    HostNode → List LocalEntry → Exec TransferError (List LocalEntry)
  | .directory (some names) child, entries =>
    forEach (names.mergeSort isListedBefore) (fun entries name => do
      let path := childPath directory name
      let fileType ← (child name).metadata.mapError .error
      rejectIf (fileType = .symlink)
        (.error (.text [.shown path.display,
          .text " is a symbolic link; tree transfer refuses links"]))
      -- `expect("walk remains below root")`
      let relative ← okOr (path.stripPrefix root) .panic
      let relative ← (normalizedRelativePath relative).mapError .error
      match fileType with
      | .directory =>
        collectLocalDirectory root path (child name) (entries ++ [⟨relative, path, .directory⟩])
      | .file => return entries ++ [⟨relative, path, .file⟩]
      | _ => .error (.error (.text
          [.text "tree transfer accepts only regular files and directories"]))) entries
  | _, _ => .error (.error .io)

/-- `left.relative.cmp(&right.relative)` is not `Greater`. -/
def isSentBefore (left right : LocalEntry) : Bool := decide (bytes left.relative ≤ bytes right.relative)

/-- `collect_local_tree`. -/
def collectLocalTree (tree : HostTree) : Exec TransferError (List LocalEntry) := do
  let entries ← collectLocalDirectory tree.root tree.root tree.node []
  return entries.mergeSort isSentBefore

/-! ## Names and paths -/

theorem components_childPath (directory : PathBuf) (name : HostName) :
    (childPath directory name).components = directory.components ++ [.normal name.val] := by
  have hjoin := @components_join _ _ (OsUnit.char '/') (.char '.') [name.val] (by simp)
    (by simpa using name.property) directory.units
  simpa [childPath, PathBuf.components] using hjoin

/-- The names that some texts are. -/
def namesOf (texts : List Str) : List (List OsUnit) := texts.map (List.map .char)

theorem toStr_mk_eq_some {units : List OsUnit} {text : Str} :
    PathBuf.toStr ⟨units⟩ = some text ↔ units = text.map .char := by
  rw [PathBuf.toStr_eq_some_iff, PathBuf.ofStr, PathBuf.mk.injEq]

/-- The loop takes names that are safe texts, and nothing else. -/
theorem forEach_pushPart {path rest : List (Component OsUnit)} {parts out : List Str}
    (h : forEach rest (pushPart path) parts = .ok out) :
    ∃ texts, out = parts ++ texts ∧ rest = (namesOf texts).map .normal ∧
      ∀ text ∈ texts, windowsPathComponentIsSafe text = true := by
  induction rest generalizing parts with
  | nil =>
    obtain rfl : parts = out := by simpa using h
    exact ⟨[], by simp, rfl, by simp⟩
  | cons component rest ih =>
    obtain ⟨next, hpart, hrest⟩ := bind_eq_ok.mp h
    cases component with
    | normal name =>
      simp only [pushPart, bind_eq_ok, okOr_eq_ok, rejectIf_eq_ok, pure_eq_ok_iff, exists_const,
        Bool.not_eq_false] at hpart
      obtain ⟨text, htext, hsafe, rfl⟩ := hpart
      obtain rfl := toStr_mk_eq_some.mp htext
      obtain ⟨texts, rfl, rfl, hall⟩ := ih hrest
      exact ⟨text :: texts, by simp, rfl, by simpa using ⟨hsafe, hall⟩⟩
    | rootDir => cases hpart
    | curDir => cases hpart
    | parentDir => cases hpart

/-- A path that is normalized is made of safe texts, and joined from them. -/
theorem normalizedRelativePath_eq_ok {path : List (Component OsUnit)} {relative : Str}
    (h : normalizedRelativePath path = .ok relative) :
    path = (namesOf (pathNames relative)).map .normal ∧ IsSafePath relative ∧
      relative = ['/'].intercalate (pathNames relative) := by
  simp only [normalizedRelativePath, bind_eq_ok, rejectIf_eq_ok, pure_eq_ok_iff, exists_const] at h
  obtain ⟨parts, hparts, hne, rfl⟩ := h
  obtain ⟨texts, hout, rfl, hsafe⟩ := forEach_pushPart hparts
  obtain rfl : parts = texts := by simpa using hout
  -- Safe texts have no separator, so that the joined text has them as its pieces.
  have hpieces : (['/'].intercalate parts).splitOnP isSeparator = parts :=
    splitOnP_intercalate (by decide) hne fun text htext =>
      (of_windowsPathComponentIsSafe (hsafe text htext)).2.unseparated
  rw [pathNames, IsSafePath, hpieces]
  exact ⟨rfl, hsafe, rfl⟩

/-! ## What the walk finds -/

/-- The kind of an entry for what stands there. -/
def HostNode.kind : HostNode → Option EntryKind
  | directory _ _ => some .directory
  | file _ => some .file
  | _ => none

/-- An entry stands for what the tree has under some names. -/
structure Located (root : PathBuf) (entry : LocalEntry) (names : List (List OsUnit)) : Prop where
  path : entry.path.components = root.components ++ names.map .normal
  relative : names = namesOf (pathNames entry.relative)
  safe : IsSafePath entry.relative
  joined : entry.relative = ['/'].intercalate (pathNames entry.relative)

/-- The entries for a node that stands below the root under some names: they are located at what
    stands there, and nothing that does is missing. -/
structure Gathered (root : PathBuf) (names : List (List OsUnit)) (node : HostNode)
    (entries : List LocalEntry) : Prop where
  located : ∀ entry ∈ entries, ∃ rest found, rest ≠ [] ∧ node.find rest = some found ∧
    found.kind = some entry.kind ∧ Located root entry (names ++ rest)
  complete : ∀ rest found, rest ≠ [] → node.find rest = some found →
    ∃ entry ∈ entries, found.kind = some entry.kind ∧ Located root entry (names ++ rest)

/-- The entries for one child, itself included. -/
structure ChildGathered (root : PathBuf) (names : List (List OsUnit)) (node : HostNode)
    (entries : List LocalEntry) : Prop where
  located : ∀ entry ∈ entries, ∃ rest found, node.find rest = some found ∧
    found.kind = some entry.kind ∧ Located root entry (names ++ rest)
  complete : ∀ rest found, node.find rest = some found →
    ∃ entry ∈ entries, found.kind = some entry.kind ∧ Located root entry (names ++ rest)

/-- A child and what is below it. -/
theorem Gathered.cons {root : PathBuf} {names : List (List OsUnit)} {node : HostNode}
    {entry : LocalEntry} {entries : List LocalEntry} (h : Gathered root names node entries)
    (hkind : node.kind = some entry.kind) (hentry : Located root entry names) :
    ChildGathered root names node (entry :: entries) where
  located other hother := by
    rcases List.mem_cons.mp hother with rfl | hmem
    · exact ⟨[], node, by simp [HostNode.find], hkind, by simpa using hentry⟩
    · obtain ⟨rest, found, -, hfind, hother⟩ := h.located other hmem
      exact ⟨rest, found, hfind, hother⟩
  complete rest found hfind := by
    cases rest with
    | nil =>
      obtain rfl : node = found := by simpa [HostNode.find] using hfind
      exact ⟨entry, List.mem_cons_self, hkind, by simpa using hentry⟩
    | cons units rest =>
      obtain ⟨other, hmem, hother⟩ := h.complete (units :: rest) found (by simp) hfind
      exact ⟨other, List.mem_cons_of_mem _ hmem, hother⟩

theorem find?_name {names : List HostName} {name : HostName} {units : List OsUnit} :
    names.find? (fun name => name.val = units) = some name ↔ name ∈ names ∧ name.val = units := by
  constructor
  · intro h
    exact ⟨List.mem_of_find?_eq_some h, by simpa using List.find?_some h⟩
  · rintro ⟨hmem, rfl⟩
    obtain ⟨other, hother⟩ := Option.isSome_iff_exists.mp
      (List.find?_isSome.mpr ⟨name, hmem, decide_eq_true rfl⟩ :
        (names.find? fun other => decide (other.val = name.val)).isSome = true)
    have heq : other.val = name.val := by simpa using List.find?_some hother
    rwa [Subtype.ext heq] at hother

theorem HostNode.find_directory {names : List HostName} {child : HostName → HostNode}
    {units : List OsUnit} {rest : List (List OsUnit)} {found : HostNode} :
    (HostNode.directory (some names) child).find (units :: rest) = some found ↔
      ∃ name ∈ names, name.val = units ∧ (child name).find rest = some found := by
  simp only [find, Option.bind_eq_some_iff, find?_name, and_assoc]

/-- A loop over names collects the entries of their children. -/
theorem children_of_forEach {root : PathBuf} {names : List (List OsUnit)}
    {child : HostName → HostNode} {listed : List HostName}
    {body : List LocalEntry → HostName → Exec TransferError (List LocalEntry)}
    (hbody : ∀ name seen next, body seen name = .ok next → ∃ new, next = seen ++ new ∧
      ChildGathered root (names ++ [name.val]) (child name) new)
    {entries out : List LocalEntry} (h : forEach listed body entries = .ok out) :
    ∃ new, out = entries ++ new ∧
      (∀ entry ∈ new, ∃ name ∈ listed, ∃ rest found, (child name).find rest = some found ∧
        found.kind = some entry.kind ∧ Located root entry (names ++ name.val :: rest)) ∧
      ∀ name ∈ listed, ∀ rest found, (child name).find rest = some found → ∃ entry ∈ new,
        found.kind = some entry.kind ∧ Located root entry (names ++ name.val :: rest) := by
  -- Over the names that are listed.
  induction listed generalizing entries with
  | nil =>
    obtain rfl : entries = out := by simpa using h
    exact ⟨[], by simp, by simp, by simp⟩
  | cons name listed ih =>
    obtain ⟨next, hname, hrest⟩ := bind_eq_ok.mp h
    obtain ⟨first, rfl, hfirst⟩ := hbody name entries next hname
    obtain ⟨new, rfl, hlocated, hcomplete⟩ := ih hrest
    -- The entries of the first child, and those of the others.
    refine ⟨first ++ new, by simp, ?_, ?_⟩
    · intro entry hentry
      rcases List.mem_append.mp hentry with hmem | hmem
      · obtain ⟨rest, found, hfind, hkind, hentry⟩ := hfirst.located entry hmem
        exact ⟨name, List.mem_cons_self, rest, found, hfind, hkind, by simpa using hentry⟩
      · obtain ⟨other, hother, hentry⟩ := hlocated entry hmem
        exact ⟨other, List.mem_cons_of_mem name hother, hentry⟩
    -- Conversely, whatever lies below a child is among its entries.
    · intro other hother rest found hfind
      rcases List.mem_cons.mp hother with rfl | hmem
      · obtain ⟨entry, hentry, hkind, hat⟩ := hfirst.complete rest found hfind
        exact ⟨entry, List.mem_append_left new hentry, hkind, by simpa using hat⟩
      · obtain ⟨entry, hentry, hat⟩ := hcomplete other hmem rest found hfind
        exact ⟨entry, List.mem_append_right first hentry, hat⟩

/-- What is gathered for a directory, child by child. -/
theorem Gathered.of_children {root : PathBuf} {names : List (List OsUnit)} {listed : List HostName}
    {child : HostName → HostNode} {entries : List LocalEntry}
    (hlocated : ∀ entry ∈ entries, ∃ name ∈ listed, ∃ rest found,
      (child name).find rest = some found ∧ found.kind = some entry.kind ∧
        Located root entry (names ++ name.val :: rest))
    (hcomplete : ∀ name ∈ listed, ∀ rest found, (child name).find rest = some found →
      ∃ entry ∈ entries, found.kind = some entry.kind ∧
        Located root entry (names ++ name.val :: rest)) :
    Gathered root names (.directory (some listed) child) entries where
  located entry hentry := by
    obtain ⟨name, hname, rest, found, hfind, hentry⟩ := hlocated entry hentry
    exact ⟨name.val :: rest, found, by simp,
      HostNode.find_directory.mpr ⟨name, hname, rfl, hfind⟩, hentry⟩
  complete rest found hne hfind := by
    obtain ⟨units, rest, rfl⟩ := List.exists_cons_of_ne_nil hne
    obtain ⟨name, hname, rfl, hchild⟩ := HostNode.find_directory.mp hfind
    exact hcomplete name hname rest found hchild

/-- A file has nothing below it. -/
theorem gathered_file (root : PathBuf) (names : List (List OsUnit)) (contents : List UInt8) :
    Gathered root names (.file contents) [] where
  located := by simp
  complete rest found hne hfind := by
    obtain ⟨units, rest, rfl⟩ := List.exists_cons_of_ne_nil hne
    simp [HostNode.find] at hfind

/-- The walk adds the entries for what is below the directory that it is at. -/
theorem collectLocalDirectory_gathered {root directory : PathBuf} {node : HostNode}
    {names : List (List OsUnit)} {entries out : List LocalEntry}
    (hdirectory : directory.components = root.components ++ names.map .normal)
    (h : collectLocalDirectory root directory node entries = .ok out) :
    ∃ new, out = entries ++ new ∧ Gathered root names node new := by
  induction node generalizing directory names entries out with
  | directory listed child ih =>
    cases listed with
    | none => cases h
    | some listed =>
      rw [collectLocalDirectory] at h
      have hmem : ∀ name, name ∈ listed.mergeSort isListedBefore ↔ name ∈ listed := fun name =>
        (List.mergeSort_perm listed isListedBefore).mem_iff
      have hloop := @children_of_forEach root names child (listed.mergeSort isListedBefore) _
        ?_ entries out h
      · obtain ⟨new, rfl, hlocated, hcomplete⟩ := hloop
        simp only [hmem] at hlocated hcomplete
        exact ⟨new, rfl, .of_children hlocated hcomplete⟩
      · intro name seen next hnext
        -- The path of the child is below the root by one name more.
        have hpath : (childPath directory name).components =
            root.components ++ (names ++ [name.val]).map .normal := by
          rw [components_childPath, hdirectory, List.append_assoc, List.map_append]
          rfl
        simp only [bind_eq_ok, mapError_eq_ok, rejectIf_eq_ok, okOr_eq_ok, exists_const,
          PathBuf.stripPrefix_eq_some.mpr hpath, Option.some.injEq, exists_eq_left'] at hnext
        obtain ⟨fileType, hmetadata, -, relative, hrelative, hnext⟩ := hnext
        obtain ⟨hnames, hsafe, hjoined⟩ := normalizedRelativePath_eq_ok hrelative
        have hnormal : names ++ [name.val] = namesOf (pathNames relative) :=
          List.map_injective_iff.mpr (fun _ _ => Component.normal.inj) hnames
        have hentry : ∀ kind, Located root ⟨relative, childPath directory name, kind⟩
            (names ++ [name.val]) := fun _ => ⟨hpath, hnormal, hsafe, hjoined⟩
        generalize hchild : child name = node at hmetadata hnext ⊢
        cases node with
        | directory inner grandchild =>
          obtain rfl : FileType.directory = fileType := Except.ok.inj hmetadata
          obtain ⟨new, rfl, hnew⟩ := @ih name _ _ _ _ hpath (hchild ▸ hnext)
          rw [hchild] at hnew
          exact ⟨_ :: new, by simp, hnew.cons rfl (hentry .directory)⟩
        | file contents =>
          obtain rfl : FileType.file = fileType := Except.ok.inj hmetadata
          obtain rfl := (pure_eq_ok_iff _ _).mp hnext
          exact ⟨[_], rfl, (gathered_file root _ contents).cons rfl (hentry .file)⟩
        | symlink =>
          obtain rfl : FileType.symlink = fileType := Except.ok.inj hmetadata
          cases hnext
        | other =>
          obtain rfl : FileType.other = fileType := Except.ok.inj hmetadata
          cases hnext
        | unreadable => cases hmetadata
  | file contents => cases h
  | symlink => cases h
  | other => cases h
  | unreadable => cases h

/-! ## The collected tree -/

theorem isSentBefore_trans (a b c : LocalEntry) (hab : isSentBefore a b = true)
    (hbc : isSentBefore b c = true) : isSentBefore a c = true := by
  simp only [isSentBefore, decide_eq_true_eq] at *
  exact List.le_trans hab hbc

theorem isSentBefore_total (a b : LocalEntry) : (isSentBefore a b || isSentBefore b a) = true := by
  simp only [isSentBefore, Bool.or_eq_true, decide_eq_true_eq]
  exact List.le_total _ _

/-- The entries of an accepted tree are those of its nodes, sorted. -/
theorem collectLocalTree_eq_ok {tree : HostTree} {entries : List LocalEntry}
    (h : collectLocalTree tree = .ok entries) : Gathered tree.root [] tree.node entries ∧
      entries.Pairwise fun first second => bytes first.relative ≤ bytes second.relative := by
  obtain ⟨collected, hcollected, hsorted⟩ := bind_eq_ok.mp h
  obtain rfl := (pure_eq_ok_iff _ _).mp hsorted
  obtain ⟨new, hnew, hgathered⟩ :=
    @collectLocalDirectory_gathered _ _ _ [] _ _ (by simp) hcollected
  obtain rfl : collected = new := hnew
  have hmem : ∀ entry, entry ∈ collected.mergeSort isSentBefore ↔ entry ∈ collected := fun entry =>
    (List.mergeSort_perm collected isSentBefore).mem_iff
  refine ⟨⟨?_, ?_⟩, ?_⟩
  · exact fun entry hentry => hgathered.located entry ((hmem entry).mp hentry)
  · intro rest found hne hfind
    obtain ⟨entry, hentry, hat⟩ := hgathered.complete rest found hne hfind
    exact ⟨entry, (hmem entry).mpr hentry, hat⟩
  · have hordered := List.pairwise_mergeSort isSentBefore_trans isSentBefore_total collected
    exact hordered.imp fun hfirst => of_decide_eq_true hfirst

/-! ## Directories come first -/

/-- An entry is in a directory, at any depth. -/
def IsInside (entry directory : LocalEntry) : Prop :=
  directory.kind = .directory ∧
    ∃ rest, rest ≠ [] ∧ entry.path.components = directory.path.components ++ rest

/-- The path of what is in a directory goes on behind that of the directory. -/
theorem Located.lt_of_isInside {root : PathBuf} {entry directory : LocalEntry}
    {names above : List (List OsUnit)} (hentry : Located root entry names)
    (hdirectory : Located root directory above) (h : IsInside entry directory) :
    bytes directory.relative < bytes entry.relative := by
  obtain ⟨-, rest, hne, hpath⟩ := h
  rw [hentry.path, hdirectory.path, List.append_assoc, List.append_cancel_left_eq,
    hentry.relative, hdirectory.relative, namesOf, namesOf, List.map_map, List.map_map] at hpath
  -- The names of the directory are the first ones of the entry.
  have hpre : pathNames directory.relative <+: pathNames entry.relative := by
    have hinj : Function.Injective (Component.normal ∘ List.map OsUnit.char) := fun _ _ heq =>
      List.map_injective_iff.mpr (fun _ _ => OsUnit.char.inj) (Component.normal.inj heq)
    exact (List.prefix_map_iff_of_injective hinj).mp ⟨rest, hpath.symm⟩
  obtain ⟨more, hmore⟩ := hpre
  have hmorene : more ≠ [] := by
    rintro rfl
    rw [← hmore, List.append_nil] at hpath
    exact hne (List.self_eq_append_right.mp hpath)
  have hsplit : pathNames directory.relative ≠ [] := List.splitOnP_ne_nil isSeparator _
  have hslash : bytes ('/' :: ['/'].intercalate more) = 47 :: bytes (['/'].intercalate more) := rfl
  rw [hentry.joined, ← hmore, intercalate_append_of_ne_nil hsplit hmorene, ← hdirectory.joined,
    bytes_append, hslash]
  conv_lhs => rw [← List.append_nil (bytes directory.relative)]
  exact List.append_left_lt (List.nil_lt_cons _ _)

end Lsw.Cli.Transfer
