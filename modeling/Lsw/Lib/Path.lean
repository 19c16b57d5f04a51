import Lsw.Lib.Text

/-!
# Unix Paths

The component view of a path that `std::path` gives on Unix: repeated separators and inner
`.` components do not count, a leading separator is the root.  The functions are generic in
the unit a path is made of, so that they serve paths of characters and paths of raw bytes
alike.
-/

namespace Lsw.Lib

/-- `Component`, for a Unix path. -/
inductive Component (α : Type) where
  | rootDir
  | curDir
  | parentDir
  | normal (name : List α)
  deriving DecidableEq, Repr

section UnixPath

variable {α : Type} [DecidableEq α] (sep dot : α)

/-- A piece between two separators; an empty one and `.` stand for nothing. -/
def pieceComponent (piece : List α) : Option (Component α) :=
  if piece = [] ∨ piece = [dot] then none
  else if piece = [dot, dot] then some .parentDir
  else some (.normal piece)

/-- `Path::components`. -/
def components (path : List α) : List (Component α) :=
  let pieces := path.splitOn sep
  let inner := pieces.filterMap (pieceComponent dot)
  if path.head? = some sep then .rootDir :: inner
  else if pieces.head? = some [dot] then .curDir :: inner
  else inner

/-- `Path::is_absolute`. -/
def isAbsolute (path : List α) : Bool := path.head? == some sep

/-- `path.parent().is_none()`: there is nothing above the root and the empty path. -/
def hasNoParent (path : List α) : Bool :=
  match (components sep dot path).getLast? with
  | none => true
  | some .rootDir => true
  | some _ => false

/-- `Path::starts_with`. -/
def startsWith (path base : List α) : Bool :=
  (components sep dot base).isPrefixOf (components sep dot path)

/-- `Path::file_name`. -/
def fileName (path : List α) : Option (List α) :=
  match (components sep dot path).getLast? with
  | some (.normal name) => some name
  | _ => none

/-- `Path::join`. -/
def joinPath (base rel : List α) : List α :=
  if isAbsolute sep rel then rel
  else if base = [] ∨ base.getLast? = some sep then base ++ rel
  else base ++ sep :: rel

theorem joinPath_of_inner {base rel : List α} (hrel : isAbsolute sep rel = false)
    (hbase : base ≠ []) (hlast : base.getLast? ≠ some sep) :
    joinPath sep base rel = base ++ sep :: rel := by
  rw [joinPath, if_neg (by simp [hrel]), if_neg (by simp [hbase, hlast])]

/-- A joined path has the units of its parts, and separators. -/
theorem mem_joinPath {base rel : List α} {a : α} (ha : a ≠ sep)
    (hrel : isAbsolute sep rel = false) : a ∈ joinPath sep base rel ↔ a ∈ base ∨ a ∈ rel := by
  rw [joinPath, if_neg (by simp [hrel])]
  split <;> simp [ha]

/-- The last unit of a joined path is that of its last part. -/
theorem getLast?_joinPath {base rel : List α} (hne : rel ≠ []) :
    (joinPath sep base rel).getLast? = rel.getLast? := by
  obtain ⟨a, rest, rfl⟩ := List.exists_cons_of_ne_nil hne
  rw [joinPath]
  split
  · rfl
  · split
    · rw [List.getLast?_append_of_ne_nil _ hne]
    · rw [List.getLast?_append_of_ne_nil _ (by simp), List.getLast?_cons_cons]

end UnixPath

/-! ## Paths in other units -/

/-- Change the unit of a component. -/
def Component.map {α β : Type} (f : α → β) : Component α → Component β
  | .rootDir => .rootDir
  | .curDir => .curDir
  | .parentDir => .parentDir
  | .normal name => .normal (name.map f)

section Map

variable {α β : Type} [DecidableEq α] [DecidableEq β] {f : α → β} {sep dot : α} {sep' dot' : β}

theorem pieceComponent_map (hdot : ∀ a, f a = dot' ↔ a = dot) (piece : List α) :
    pieceComponent dot' (piece.map f) = (pieceComponent dot piece).map (Component.map f) := by
  have hone : piece.map f = [dot'] ↔ piece = [dot] := by simp [List.map_eq_singleton_iff, hdot]
  have htwo : piece.map f = [dot', dot'] ↔ piece = [dot, dot] := by
    match piece with
    | [] | [_] | _ :: _ :: _ :: _ => simp
    | [a, b] => simp [hdot]
  simp only [pieceComponent, List.map_eq_nil_iff, hone, htwo]
  split
  · rfl
  · split <;> rfl

/-- A map that keeps apart separators and dots keeps the components. -/
theorem components_map (hsep : ∀ a, f a = sep' ↔ a = sep) (hdot : ∀ a, f a = dot' ↔ a = dot)
    (path : List α) :
    components sep' dot' (path.map f) = (components sep dot path).map (Component.map f) := by
  have hsplit : (path.map f).splitOn sep' = (path.splitOn sep).map (List.map f) := by
    have hcomp : (fun b => b == sep') ∘ f = fun a => a == sep := by
      funext a
      exact Bool.eq_iff_iff.mpr (by simpa using hsep a)
    rw [List.splitOn_eq_splitOnP, splitOnP_map, hcomp, List.splitOn_eq_splitOnP]
  have hinner : ((path.splitOn sep).map (List.map f)).filterMap (pieceComponent dot') =
      ((path.splitOn sep).filterMap (pieceComponent dot)).map (Component.map f) := by
    rw [List.filterMap_map, List.map_filterMap]
    exact List.filterMap_congr fun piece _ => pieceComponent_map hdot piece
  have hhead : (path.map f).head? = some sep' ↔ path.head? = some sep := by
    cases path <;> simp [hsep]
  have hfirst : ((path.splitOn sep).map (List.map f)).head? = some [dot'] ↔
      (path.splitOn sep).head? = some [dot] := by
    cases path.splitOn sep <;> simp [List.map_eq_singleton_iff, hdot]
  simp only [components, hsplit, hinner, hhead, hfirst]
  split
  · rfl
  · split <;> rfl

theorem fileName_map (hsep : ∀ a, f a = sep' ↔ a = sep) (hdot : ∀ a, f a = dot' ↔ a = dot)
    (path : List α) :
    fileName sep' dot' (path.map f) = (fileName sep dot path).map (List.map f) := by
  rw [fileName, fileName, components_map hsep hdot, List.getLast?_map]
  rcases (components sep dot path).getLast? with - | (_ | _ | _ | name) <;> rfl

/-- Joining does not depend on how the units are represented. -/
theorem joinPath_map (hsep : ∀ a, f a = sep' ↔ a = sep) (base rel : List α) :
    joinPath sep' (base.map f) (rel.map f) = (joinPath sep base rel).map f := by
  have habsolute : isAbsolute sep' (rel.map f) = isAbsolute sep rel := by
    refine Bool.eq_iff_iff.mpr ?_
    cases rel <;> simp [isAbsolute, hsep]
  have hlast : (base.map f).getLast? = some sep' ↔ base.getLast? = some sep := by
    rw [List.getLast?_map]
    cases base.getLast? <;> simp [hsep]
  simp only [joinPath, habsolute, List.map_eq_nil_iff, hlast]
  split
  · rfl
  · split
    · rw [List.map_append]
    · rw [List.map_append, List.map_cons, (hsep sep).mpr rfl]

end Map

end Lsw.Lib
