import Lsw.Lib.Path
import Lsw.Lib.Pieces

/-!
# Paths Made of Names

A name is what one directory entry is called: it can stand between two separators and is
neither of the two special entries.  A path that is made of names has exactly these as its
components, and below a directory it has them behind those of the directory.
-/

namespace Lsw.Lib

variable {α : Type} [DecidableEq α] {sep dot : α}

/-- The name of a directory entry. -/
structure IsName (sep dot : α) (name : List α) : Prop where
  ne_nil : name ≠ []
  sep_not_mem : sep ∉ name
  ne_dot : name ≠ [dot]
  ne_dotDot : name ≠ [dot, dot]

theorem IsName.pieceComponent {name : List α} (h : IsName sep dot name) :
    pieceComponent dot name = some (.normal name) := by
  rw [Lib.pieceComponent, if_neg (by simp [h.ne_nil, h.ne_dot]), if_neg h.ne_dotDot]

theorem IsName.isPiece {name : List α} (h : IsName sep dot name) : IsPiece (· == sep) name :=
  ⟨h.ne_nil, fun _ hc => beq_eq_false_iff_ne.mpr fun heq => h.sep_not_mem (heq ▸ hc)⟩

theorem filterMap_pieceComponent {names : List (List α)} (h : ∀ name ∈ names, IsName sep dot name) :
    names.filterMap (pieceComponent dot) = names.map .normal := by
  rw [← List.filterMap_eq_map]
  exact List.filterMap_congr fun name hname => (h name hname).pieceComponent

theorem splitOn_names {names : List (List α)} (hne : names ≠ [])
    (h : ∀ name ∈ names, IsName sep dot name) :
    ([sep].intercalate names).splitOn sep = names :=
  List.splitOn_intercalate sep (fun name hname => (h name hname).sep_not_mem) hne

omit [DecidableEq α] in
/-- A path of names starts with no separator. -/
theorem head?_names {names : List (List α)} (h : ∀ name ∈ names, IsName sep dot name) :
    ([sep].intercalate names).head? ≠ some sep := by
  cases names with
  | nil => simp
  | cons name names =>
    have hname := h name List.mem_cons_self
    obtain ⟨c, rest, rfl⟩ := List.exists_cons_of_ne_nil hname.ne_nil
    have hc : c ≠ sep := fun heq => hname.sep_not_mem (heq ▸ List.mem_cons_self)
    cases names <;> simp [hc]

omit [DecidableEq α] in
theorem intercalate_names_ne_nil {names : List (List α)} (hne : names ≠ [])
    (h : ∀ name ∈ names, IsName sep dot name) : [sep].intercalate names ≠ [] := by
  obtain ⟨name, rest, rfl⟩ := List.exists_cons_of_ne_nil hne
  have hname := (h name List.mem_cons_self).ne_nil
  cases rest <;> simp [hname]

omit [DecidableEq α] in
/-- It ends in no separator. -/
theorem getLast?_names {names : List (List α)} (h : ∀ name ∈ names, IsName sep dot name) :
    ([sep].intercalate names).getLast? ≠ some sep := by
  induction names with
  | nil => simp
  | cons name names ih =>
    cases names with
    | nil =>
      have hname := h name List.mem_cons_self
      intro hlast
      rw [List.intercalate_singleton] at hlast
      exact hname.sep_not_mem (List.mem_of_getLast? hlast)
    | cons next names =>
      have hrest : ∀ other ∈ next :: names, IsName sep dot other := fun other hother =>
        h other (List.mem_cons_of_mem name hother)
      rw [List.intercalate_cons_cons,
        List.getLast?_append_of_ne_nil _ (intercalate_names_ne_nil (by simp) hrest)]
      exact ih hrest

/-- Joining one more name to a path of names. -/
theorem joinPath_names {names : List (List α)} {name : List α}
    (h : ∀ other ∈ names, IsName sep dot other) (hname : IsName sep dot name) :
    joinPath sep ([sep].intercalate names) name = [sep].intercalate (names ++ [name]) := by
  have hrelative : isAbsolute sep name = false := by
    have hhead : ([sep].intercalate [name]).head? ≠ some sep := head?_names (by simpa using hname)
    rw [List.intercalate_singleton] at hhead
    exact beq_eq_false_iff_ne.mpr hhead
  by_cases hne : names = []
  · subst hne
    simp [joinPath, hrelative]
  · rw [joinPath_of_inner sep hrelative (intercalate_names_ne_nil hne h) (getLast?_names h),
      intercalate_append_of_ne_nil hne (by simp), List.intercalate_singleton]

/-- The components of a relative path are the names it is made of. -/
theorem components_names {names : List (List α)} (h : ∀ name ∈ names, IsName sep dot name) :
    components sep dot ([sep].intercalate names) = names.map .normal := by
  cases names with
  | nil => simp [components, Lib.pieceComponent]
  | cons name names =>
    have hname := h name List.mem_cons_self
    rw [components, if_neg (head?_names h), splitOn_names (by simp) h, if_neg (by simp [hname.ne_dot]),
      filterMap_pieceComponent h]

/-- More pieces behind those of a text do not change which is first. -/
theorem head?_splitOn_append (s : List α) (more : List (List α)) :
    (s.splitOn sep ++ more).head? = (s.splitOn sep).head? := by
  obtain ⟨first, rest, hpieces⟩ := List.exists_cons_of_ne_nil (List.splitOn_ne_nil sep s)
  simp [hpieces]

theorem filterMap_empty_piece : [([] : List α)].filterMap (Lib.pieceComponent dot) = [] := by
  simp [Lib.pieceComponent]

/-- The components of what follows a separator stand behind those of what is before it. -/
theorem components_append_sep (s t : List α) :
    components sep dot (s ++ sep :: t) =
      components sep dot (s ++ [sep]) ++ (t.splitOn sep).filterMap (pieceComponent dot) := by
  have hhead : (s ++ sep :: t).head? = (s ++ [sep]).head? := by simp
  simp only [components, hhead, List.splitOn_append_cons_self, List.splitOn_nil,
    head?_splitOn_append, List.filterMap_append, filterMap_empty_piece, List.append_nil]
  split
  · rfl
  · split <;> rfl

/-- A separator at the end names nothing more. -/
theorem components_trailing {s : List α} (hne : s ≠ []) :
    components sep dot (s ++ [sep]) = components sep dot s := by
  have hhead : (s ++ [sep]).head? = s.head? := by
    obtain ⟨c, rest, rfl⟩ := List.exists_cons_of_ne_nil hne
    rfl
  simp only [components, hhead, List.splitOn_append_cons_self, List.splitOn_nil,
    head?_splitOn_append, List.filterMap_append, filterMap_empty_piece, List.append_nil]

/-- A path of names joined to a directory is below it by exactly these names. -/
theorem components_join {names : List (List α)} (hne : names ≠ [])
    (h : ∀ name ∈ names, IsName sep dot name) (base : List α) :
    components sep dot (joinPath sep base ([sep].intercalate names)) =
      components sep dot base ++ names.map .normal := by
  have hinner : (([sep].intercalate names).splitOn sep).filterMap (Lib.pieceComponent dot) =
      names.map .normal := by
    rw [splitOn_names hne h, filterMap_pieceComponent h]
  have hrelative : isAbsolute sep ([sep].intercalate names) = false :=
    beq_eq_false_iff_ne.mpr (head?_names h)
  by_cases hbase : base = []
  · subst hbase
    rw [joinPath, if_neg (by simp [hrelative]), if_pos (.inl rfl), List.nil_append,
      components_names h]
    simp [components, Lib.pieceComponent]
  · by_cases hlast : base.getLast? = some sep
    · obtain ⟨front, rfl⟩ := List.getLast?_eq_some_iff.mp hlast
      rw [joinPath, if_neg (by simp [hrelative]), if_pos (.inr hlast), List.append_assoc,
        List.singleton_append, components_append_sep, hinner]
    · rw [joinPath_of_inner sep hrelative hbase hlast, components_append_sep, hinner,
        components_trailing hbase]

/-- Behind the root of a path come names and parents. -/
theorem components_of_absolute {path : List α} (h : isAbsolute sep path = true) :
    ∃ rest, components sep dot path = .rootDir :: rest ∧
      ∀ component ∈ rest, component = .parentDir ∨ ∃ name, component = .normal name ∧ sep ∉ name := by
  have hhead : path.head? = some sep := by simpa [isAbsolute] using h
  refine ⟨_, by rw [components, if_pos hhead], fun component hmem => ?_⟩
  obtain ⟨piece, hpiece, hcomponent⟩ := List.mem_filterMap.mp hmem
  simp only [Lib.pieceComponent] at hcomponent
  split at hcomponent
  · cases hcomponent
  · split at hcomponent
    · exact .inl (Option.some.inj hcomponent).symm
    · refine .inr ⟨piece, (Option.some.inj hcomponent).symm, fun hmem => ?_⟩
      rw [List.splitOn_eq_splitOnP] at hpiece
      exact absurd (of_mem_splitOnP hpiece hmem) (by simp)

end Lsw.Lib
