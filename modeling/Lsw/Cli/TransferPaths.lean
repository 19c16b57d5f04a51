import Lsw.Core.Store
import Lsw.Lib.PathNames

/-!
# Paths of a Transfer

A tree is transferred by the paths of its entries relative to the root of the tree
(`transfer.rs`).  `relative_path` makes a path of this system of one that the guest has
named, `join_windows_path` one of the guest.  Both take a path apart at either separator and
accept safe components only, so what they return is below the root they are given.
-/

namespace Lsw.Cli.Transfer

open Lsw.Lib Lsw.Core

/-- What a transfer fails with: a message, or an error of the library. -/
inductive TransferError where
  | text (message : Message)
  | utf8
  | number (error : ParseIntError)
  | io
  deriving DecidableEq

/-- `relative_path`, one component. -/
def pushComponent (value : Str) (path : PathBuf) (component : Str) : Except TransferError PathBuf := do
  rejectIf (windowsPathComponentIsSafe component = false)
    (.text [.text "unsafe relative transfer path ", .debug value])
  return path.join component

/-- `relative_path`. -/
def relativePath (value : Str) : Except TransferError PathBuf := do
  let path ← forEach (value.splitOnP isSeparator) (pushComponent value) (.ofStr [])
  rejectIf (path.units = []) (.text [.text "relative transfer path must not be empty"])
  return path

/-- `component.as_os_str().to_string_lossy()`. -/
def componentText : Component OsUnit → Str
  | .rootDir => ['/']
  | .curDir => ['.']
  | .parentDir => ['.', '.']
  | .normal name => (⟨name⟩ : PathBuf).display

/-- `root.trim_end_matches(['/', '\\'])`. -/
def trimEndSeparators (root : Str) : Str := (root.reverse.dropWhile isSeparator).reverse

/-- `join_windows_path`. -/
def joinWindowsPath (root relative : Str) : Except TransferError Str := do
  let relative ← relativePath relative
  let relative := ['\\'].intercalate (relative.components.map componentText)
  return trimEndSeparators root ++ '\\' :: relative

/-! ## Safe components -/

/-- What makes a component safe, as far as paths are concerned. -/
theorem of_windowsPathComponentIsSafe {component : Str}
    (h : windowsPathComponentIsSafe component = true) :
    IsName '/' '.' component ∧ IsPiece isSeparator component := by
  unfold windowsPathComponentIsSafe at h
  split at h
  · cases h
  · rename_i hplain
    simp only [not_or, Bool.not_eq_true, List.any_eq_false, Bool.or_eq_true, decide_eq_true_eq,
      List.contains_iff_mem] at hplain
    obtain ⟨hne, hdot, hdotDot, -, -, hchars⟩ := hplain
    have hslash : '/' ∉ component := fun hmem => (hchars '/' hmem).2 (by decide)
    have hbackslash : '\\' ∉ component := fun hmem => (hchars '\\' hmem).2 (by decide)
    refine ⟨⟨hne, hslash, hdot, hdotDot⟩, hne, fun c hc => ?_⟩
    rw [isSeparator, Bool.or_eq_false_iff, beq_eq_false_iff_ne, beq_eq_false_iff_ne]
    exact ⟨fun heq => hslash (heq ▸ hc), fun heq => hbackslash (heq ▸ hc)⟩

/-- A path whose components are all safe. -/
def IsSafePath (value : Str) : Prop :=
  ∀ component ∈ value.splitOnP isSeparator, windowsPathComponentIsSafe component = true

/-- The components of a path that names no root. -/
def pathNames (value : Str) : List Str := value.splitOnP isSeparator

/-- The path of this system that is made of some names. -/
def pathOfNames (names : List Str) : PathBuf := .ofStr (['/'].intercalate names)

theorem pathOfNames_join {names : List Str} {name : Str} (h : ∀ other ∈ names, IsName '/' '.' other)
    (hname : IsName '/' '.' name) : (pathOfNames names).join name = pathOfNames (names ++ [name]) := by
  rw [pathOfNames, PathBuf.join_ofStr, joinPath_names h hname, pathOfNames]

/-- The loop of `relative_path` joins the components, when all of them are safe. -/
theorem forEach_pushComponent {value : Str} {components seen : List Str} {path : PathBuf}
    (hseen : ∀ name ∈ seen, IsName '/' '.' name) :
    forEach components (pushComponent value) (pathOfNames seen) = .ok path ↔
      (∀ component ∈ components, windowsPathComponentIsSafe component = true) ∧
        path = pathOfNames (seen ++ components) := by
  induction components generalizing seen with
  | nil => simpa using eq_comm
  | cons component components ih =>
    simp only [forEach_cons, pushComponent, bind_eq_ok, rejectIf_eq_ok, pure_eq_ok_iff,
      Bool.not_eq_false, exists_const, List.forall_mem_cons]
    by_cases hsafe : windowsPathComponentIsSafe component = true
    · have hname := (of_windowsPathComponentIsSafe hsafe).1
      have hnext : ∀ name ∈ seen ++ [component], IsName '/' '.' name := by
        intro name hmem
        rcases List.mem_append.mp hmem with hmem | hmem
        · exact hseen name hmem
        · exact List.mem_singleton.mp hmem ▸ hname
      have hrun := ih hnext
      simp only [hsafe, true_and, exists_eq_left', pathOfNames_join hseen hname]
      rw [hrun, List.append_assoc, List.singleton_append]
    · simp [hsafe]

theorem IsSafePath.isName {value : Str} (h : IsSafePath value) :
    ∀ name ∈ pathNames value, IsName '/' '.' name := fun name hname =>
  (of_windowsPathComponentIsSafe (h name hname)).1

theorem IsSafePath.isPiece {value : Str} (h : IsSafePath value) :
    ∀ name ∈ pathNames value, IsPiece isSeparator name := fun name hname =>
  (of_windowsPathComponentIsSafe (h name hname)).2

/-- `relative_path` accepts the safe paths. -/
theorem relativePath_eq_ok {value : Str} {path : PathBuf} :
    relativePath value = .ok path ↔ IsSafePath value ∧ path = pathOfNames (pathNames value) := by
  have hloop : ∀ path, forEach (pathNames value) (pushComponent value) (.ofStr []) = .ok path ↔
      IsSafePath value ∧ path = pathOfNames (pathNames value) := fun path =>
    @forEach_pushComponent value (pathNames value) [] path (by simp)
  simp only [relativePath, bind_eq_ok, rejectIf_eq_ok, pure_eq_ok_iff]
  constructor
  · rintro ⟨_, hpath, _, -, rfl⟩
    exact (hloop _).mp hpath
  · rintro ⟨hsafe, rfl⟩
    refine ⟨_, (hloop _).mpr ⟨hsafe, rfl⟩, (), ?_, rfl⟩
    have hne : ['/'].intercalate (pathNames value) ≠ [] :=
      intercalate_names_ne_nil (List.splitOnP_ne_nil isSeparator value) hsafe.isName
    simpa [pathOfNames, PathBuf.ofStr] using hne

/-! ## Below a root -/

theorem components_pathOfNames {names : List Str} (h : ∀ name ∈ names, IsName '/' '.' name) :
    (pathOfNames names).components = names.map fun name => .normal (name.map .char) := by
  have hchar : ∀ c a : Char, OsUnit.char a = .char c ↔ a = c := by simp
  have hmap := components_map (hchar '/') (hchar '.') (['/'].intercalate names)
  rw [components_names h] at hmap
  rw [PathBuf.components, pathOfNames, PathBuf.ofStr, hmap, List.map_map]
  rfl

/-- A path is below a directory, by some names. -/
def IsBelow (path directory : PathBuf) (names : List Str) : Prop :=
  names ≠ [] ∧
    path.components = directory.components ++ names.map fun name => .normal (name.map .char)

theorem isName_map_char {name : Str} (h : IsName '/' '.' name) :
    IsName (OsUnit.char '/') (.char '.') (name.map .char) := by
  have hinj : Function.Injective (List.map OsUnit.char) :=
    List.map_injective_iff.mpr fun _ _ heq => OsUnit.char.inj heq
  constructor
  · simpa using h.ne_nil
  · simpa using h.sep_not_mem
  · exact fun heq => h.ne_dot (hinj heq)
  · exact fun heq => h.ne_dotDot (hinj heq)

theorem units_pathOfNames (names : List Str) :
    (pathOfNames names).units = [OsUnit.char '/'].intercalate (names.map (List.map .char)) := by
  change (['/'].intercalate names).map OsUnit.char = _
  induction names with
  | nil => rfl
  | cons name names ih =>
    cases names with
    | nil => simp
    | cons next names =>
      rw [List.intercalate_cons_cons, List.map_append, ih]
      simp

/-- Wherever it is joined to, a safe path stays below, and not at, the directory. -/
theorem isBelow_join {value : Str} (h : IsSafePath value) (directory : PathBuf) :
    IsBelow ⟨joinPath (.char '/') directory.units (pathOfNames (pathNames value)).units⟩ directory
      (pathNames value) := by
  have hne : pathNames value ≠ [] := List.splitOnP_ne_nil isSeparator value
  refine ⟨hne, ?_⟩
  rw [PathBuf.components, units_pathOfNames, components_join (by simpa using hne), List.map_map]
  · rfl
  · intro name hname
    obtain ⟨text, htext, rfl⟩ := List.mem_map.mp hname
    exact isName_map_char (h.isName text htext)

/-- `join_windows_path` accepts the same paths, and writes them below the root. -/
theorem joinWindowsPath_eq_ok {root relative path : Str} :
    joinWindowsPath root relative = .ok path ↔ IsSafePath relative ∧
      path = trimEndSeparators root ++ '\\' :: ['\\'].intercalate (pathNames relative) := by
  have htext : ∀ h : IsSafePath relative,
      (pathOfNames (pathNames relative)).components.map componentText = pathNames relative := by
    intro h
    rw [components_pathOfNames h.isName, List.map_map]
    conv_rhs => rw [← List.map_id (pathNames relative)]
    exact List.map_congr_left fun name _ => PathBuf.display_ofStr name
  simp only [joinWindowsPath, bind_eq_ok, relativePath_eq_ok, pure_eq_ok_iff]
  constructor
  · rintro ⟨_, ⟨hsafe, rfl⟩, rfl⟩
    exact ⟨hsafe, by rw [htext hsafe]⟩
  · rintro ⟨hsafe, rfl⟩
    exact ⟨_, ⟨hsafe, rfl⟩, by rw [htext hsafe]⟩

/-- The components of a joined path are those of the root and then those of the path. -/
theorem namedPieces_joinWindowsPath {root relative path : Str}
    (h : joinWindowsPath root relative = .ok path) :
    namedPieces isSeparator path = namedPieces isSeparator root ++ pathNames relative := by
  obtain ⟨hsafe, rfl⟩ := joinWindowsPath_eq_ok.mp h
  have hback : isSeparator '\\' = true := rfl
  have htrim : namedPieces isSeparator (trimEndSeparators root) = namedPieces isSeparator root := by
    have hroot : root = trimEndSeparators root ++ (root.reverse.takeWhile isSeparator).reverse := by
      rw [trimEndSeparators, ← List.reverse_append, List.takeWhile_append_dropWhile,
        List.reverse_reverse]
    conv_rhs => rw [hroot]
    refine (namedPieces_append_separators ?_ _).symm
    intro c hc
    exact List.all_eq_true.mp List.all_takeWhile c (List.mem_reverse.mp hc)
  rw [namedPieces_append hback, htrim, namedPieces_intercalate hback hsafe.isPiece]

end Lsw.Cli.Transfer
