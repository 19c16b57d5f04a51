import Lsw.Core.ShareRoots
import Lsw.Core.Store
import Lsw.Lib.PathNames

/-!
# Files on the Live Drive

The live share of an instance is the drive `L:` of its guest.  `lsw run --gui --translate-files`
replaces the arguments that are absolute host paths by their paths on that drive
(`translate_gui_file_arguments` in `guest.rs`): the real path of the file, without that of the live
root, is joined with backslashes.

The components are checked for what Windows could not name, but not for its separators.
-/

namespace Lsw.Cli.LiveFiles

open Lsw.Lib Lsw.Core

/-! ## The program -/

/-- What the translation fails with: a message, or an error of a file system call. -/
inductive LiveFileError where
  | text (message : Message)
  | io
  deriving DecidableEq

/-- A path without links, as `fs::canonicalize` returns it. -/
structure RealPath where
  path : PathBuf
  absolute : path.isAbsolute = true
  deriving DecidableEq

/-- The file system of the host, as far as the translation asks it. -/
structure HostFiles where
  /-- `path.exists()`. -/
  present : PathBuf → Bool
  /-- `fs::canonicalize`. -/
  canonicalize : PathBuf → Except LiveFileError RealPath

/-- `component.as_os_str().to_str()`. -/
def componentStr : Component OsUnit → Option Str
  | .rootDir => some ['/']
  | .curDir => some ['.']
  | .parentDir => some ['.', '.']
  | .normal name => PathBuf.toStr ⟨name⟩

/-- `is_reserved_windows_component`. -/
def isReservedWindowsComponent (value : Str) : Bool :=
  let stem := (value.takeWhile (· ≠ '.')).map toAsciiUppercase
  reservedStems.any fun reserved => reserved.toList == stem

/-- `validate_live_windows_component`. -/
def validateLiveWindowsComponent (value : Str) : Except LiveFileError Unit :=
  rejectIf (value = [] ∨ value.getLast? = some ' ' ∨ value.getLast? = some '.' ∨
      isReservedWindowsComponent value = true ∨
      value.any (fun c => c.toNat ≤ 0x1f || "<>:\"|?*".toList.contains c) = true)
    (.text [.text "host file component ", .debug value,
      .text " cannot be represented through Windows Linux (L:)"])

/-- A component of the path on the live drive. -/
def liveComponent (component : Component OsUnit) : Except LiveFileError Str := do
  let component ← okOr (componentStr component) (.text [.text "host file path is not valid UTF-8"])
  validateLiveWindowsComponent component
  return component

/-- `"L:\\"`, and the components of a path on the live drive. -/
def livePath (components : List Str) : Str :=
  if components = [] then "L:\\".toList else "L:\\".toList ++ ['\\'].intercalate components

section Model

variable (files : HostFiles)

/-- `translate_gui_file_arguments`, one argument. -/
def translateArgument (liveRoot : Option RealPath) (argument : Str) : Except LiveFileError Str := do
  let path := PathBuf.ofStr argument
  if path.isAbsolute = false then return argument
  rejectIf (files.present path = false)
    (.text [.text "host file ", .shown path.display, .text " does not exist"])
  let liveRoot ← okOr liveRoot (.text [.text "host file ", .shown path.display,
    .text " is not available to Windows; run `lsw share` first or omit --translate-files"])
  let canonical ← files.canonicalize path
  let relative ← okOr (canonical.path.stripPrefix liveRoot.path)
    (.text [.text "host file ", .shown path.display, .text " is outside the live folder ",
      .shown liveRoot.path.display, .text "; share a common parent before launching it"])
  let components ← relative.mapM liveComponent
  return livePath components

/-- The real path of the first live share. -/
def liveShareRoot (manifest : InstanceManifest) : Except LiveFileError (Option RealPath) :=
  match manifest.folderShares.find? (·.transport = .liveSmb) with
  | none => .ok none
  | some share => (files.canonicalize share.hostPath).map some

/-- `translate_gui_file_arguments`. -/
def translateGuiFileArguments (manifest : InstanceManifest) (arguments : List Str) :
    Except LiveFileError (List Str) := do
  let liveRoot ← liveShareRoot files manifest
  let translated ← arguments.tail.mapM (translateArgument files liveRoot)
  return arguments.take 1 ++ translated

end Model

/-! ## What a translation should be -/

/-- An argument and what it is translated to.  A path of the host keeps its components below the
    live root, anything else stays as it is. -/
inductive Faithful (files : HostFiles) (root : RealPath) (argument translated : Str) : Prop where
  | kept (relative : (PathBuf.ofStr argument).isAbsolute = false) (same : translated = argument)
  | named (absolute : (PathBuf.ofStr argument).isAbsolute = true) (canonical : RealPath)
      (real : files.canonicalize (.ofStr argument) = .ok canonical) (names : List Str)
      (below : canonical.path.components =
        root.path.components ++ names.map fun name => .normal (name.map .char))
      (onDrive : "L:\\".toList <+: translated)
      (pieces : namedPieces isSeparator translated = "L:".toList :: names)

/-- A whole argument vector and its translation. -/
structure FaithfulArguments (files : HostFiles) (root : RealPath) (arguments translated : List Str) :
    Prop where
  program : translated.head? = arguments.head?
  each : List.Forall₂ (Faithful files root) arguments.tail translated.tail
  apart : ∀ first ∈ arguments.tail.zip translated.tail,
    ∀ second ∈ arguments.tail.zip translated.tail, ∀ left right,
      (PathBuf.ofStr first.1).isAbsolute = true → (PathBuf.ofStr second.1).isAbsolute = true →
        files.canonicalize (.ofStr first.1) = .ok left →
          files.canonicalize (.ofStr second.1) = .ok right →
            left.path.components ≠ right.path.components → first.2 ≠ second.2

/-- The file that an argument names has no backslash in a component below the live root. -/
def PlainFile (files : HostFiles) (root : RealPath) (argument : Str) : Prop :=
  (PathBuf.ofStr argument).isAbsolute = true → ∀ canonical,
    files.canonicalize (.ofStr argument) = .ok canonical → ∀ rest name,
      canonical.path.stripPrefix root.path = some rest → .normal name ∈ rest →
        OsUnit.char '\\' ∉ name

/-- None of the files that the arguments name has one. -/
def NoBackslash (files : HostFiles) (root : RealPath) (arguments : List Str) : Prop :=
  ∀ argument ∈ arguments.tail, PlainFile files root argument

/-! ## Paths on the drive -/

theorem livePath_eq (texts : List Str) :
    livePath texts = "L:".toList ++ '\\' :: ['\\'].intercalate texts := by
  rw [livePath]
  split
  · rename_i hnil
    rw [hnil]
    rfl
  · rfl

/-- A path on the drive has the components it is made of, unless one of them has a backslash. -/
theorem namedPieces_livePath_iff {texts : List Str} (h : ∀ text ∈ texts, text ≠ [] ∧ '/' ∉ text) :
    namedPieces isSeparator (livePath texts) = "L:".toList :: texts ↔
      ∀ text ∈ texts, '\\' ∉ text := by
  have hback : isSeparator '\\' = true := rfl
  have hdrive : namedPieces isSeparator "L:".toList = ["L:".toList] :=
    namedPieces_of_isPiece ⟨by simp, forall_mem_of_all (by decide)⟩
  rw [livePath_eq, namedPieces_append hback, hdrive, List.singleton_append, List.cons.injEq]
  constructor
  · rintro ⟨-, hpieces⟩ text htext hmem
    have hpiece : IsPiece isSeparator text := isPiece_of_mem (hpieces ▸ htext)
    exact absurd (hpiece.unseparated '\\' hmem) (by decide)
  · intro hplain
    refine ⟨rfl, namedPieces_intercalate hback fun text htext => ⟨(h text htext).1, ?_⟩⟩
    intro c hc
    have hslash : c ≠ '/' := fun heq => (h text htext).2 (heq ▸ hc)
    have hbackslash : c ≠ '\\' := fun heq => hplain text htext (heq ▸ hc)
    simp [isSeparator, hslash, hbackslash]

/-! ## One argument -/

/-- Only names are accepted, and they are texts. -/
theorem liveComponent_eq_ok {component : Component OsUnit} {text : Str}
    (hcomponent : component = .parentDir ∨
      ∃ name, component = .normal name ∧ OsUnit.char '/' ∉ name)
    (h : liveComponent component = .ok text) :
    component = .normal (text.map .char) ∧ text ≠ [] ∧ '/' ∉ text := by
  simp only [liveComponent, validateLiveWindowsComponent, bind_eq_ok, okOr_eq_ok, rejectIf_eq_ok,
    pure_eq_ok_iff, exists_const, not_or] at h
  obtain ⟨text, htext, ⟨hne, -, hdot, -⟩, rfl⟩ := h
  rcases hcomponent with rfl | ⟨name, rfl, hslash⟩
  · -- The parent is spelled with dots, which no component may end with.
    obtain rfl := Option.some.inj htext
    exact absurd rfl hdot
  · have hname : (⟨name⟩ : PathBuf) = .ofStr text := PathBuf.toStr_eq_some_iff.mp htext
    obtain rfl : name = text.map .char := congrArg PathBuf.units hname
    exact ⟨rfl, hne, by simpa using hslash⟩

/-- What is below the root consists of names and parents. -/
theorem below_root {canonical root : RealPath} {rest : List (Component OsUnit)}
    (h : canonical.path.components = root.path.components ++ rest) :
    ∀ component ∈ rest, component = .parentDir ∨
      ∃ name, component = .normal name ∧ OsUnit.char '/' ∉ name := by
  obtain ⟨inner, hinner, hall⟩ :=
    @components_of_absolute _ _ (OsUnit.char '/') (.char '.') _ canonical.absolute
  obtain ⟨above, habove, -⟩ :=
    @components_of_absolute _ _ (OsUnit.char '/') (.char '.') _ root.absolute
  change canonical.path.components = _ at hinner
  change root.path.components = _ at habove
  rw [hinner, habove, List.cons_append, List.cons.injEq] at h
  intro component hmem
  exact hall component (h.2 ▸ List.mem_append_right above hmem)

/-- The names below the root, of a path that is accepted. -/
theorem mapM_liveComponent {rest : List (Component OsUnit)} {texts : List Str}
    (hrest : ∀ component ∈ rest, component = .parentDir ∨
      ∃ name, component = .normal name ∧ OsUnit.char '/' ∉ name)
    (h : rest.mapM liveComponent = .ok texts) :
    rest = texts.map (fun text => .normal (text.map .char)) ∧
      ∀ text ∈ texts, text ≠ [] ∧ '/' ∉ text := by
  have hall := mapM_eq_ok_iff.mp h
  induction hall with
  | nil => exact ⟨rfl, by simp⟩
  | @cons component text rest texts hfirst hothers ih =>
    obtain ⟨rfl, hne, hslash⟩ := liveComponent_eq_ok (hrest component List.mem_cons_self) hfirst
    obtain ⟨rfl, htexts⟩ := ih (fun other hother => hrest other (List.mem_cons_of_mem _ hother))
      (mapM_eq_ok_iff.mpr hothers)
    exact ⟨rfl, by simpa using ⟨⟨hne, hslash⟩, htexts⟩⟩

section Argument

variable {files : HostFiles} {root : RealPath}

/-- What an argument is translated to. -/
theorem translateArgument_eq_ok {argument translated : Str}
    (h : translateArgument files (some root) argument = .ok translated) :
    ((PathBuf.ofStr argument).isAbsolute = false ∧ translated = argument) ∨
      (PathBuf.ofStr argument).isAbsolute = true ∧ ∃ canonical texts,
        files.canonicalize (.ofStr argument) = .ok canonical ∧
        canonical.path.components =
          root.path.components ++ texts.map (fun text => .normal (text.map .char)) ∧
        (∀ text ∈ texts, text ≠ [] ∧ '/' ∉ text) ∧ translated = livePath texts := by
  unfold translateArgument at h
  by_cases habsolute : (PathBuf.ofStr argument).isAbsolute = false
  · rw [if_pos habsolute, pure_eq_ok_iff] at h
    exact .inl ⟨habsolute, h.symm⟩
  · rw [if_neg habsolute] at h
    simp only [bind_eq_ok, rejectIf_eq_ok, okOr_eq_ok, pure_eq_ok_iff, exists_const,
      Option.some.injEq, exists_eq_left', PathBuf.stripPrefix_eq_some] at h
    obtain ⟨-, canonical, hreal, rest, hbelow, texts, htexts, rfl⟩ := h
    obtain ⟨rfl, hall⟩ := mapM_liveComponent (below_root hbelow) htexts
    exact .inr ⟨by simpa using habsolute, canonical, texts, hreal, hbelow, hall, rfl⟩

/-- An argument that is no path of the host is left as it is. -/
theorem eq_of_relative {argument translated : Str}
    (h : translateArgument files (some root) argument = .ok translated)
    (hrelative : (PathBuf.ofStr argument).isAbsolute = false) : translated = argument := by
  rcases translateArgument_eq_ok h with ⟨-, hsame⟩ | ⟨habsolute, -⟩
  · exact hsame
  · rw [hrelative] at habsolute
    cases habsolute

/-- The argument of a plain file is translated to the file. -/
theorem faithful_of_plainFile {argument translated : Str}
    (h : translateArgument files (some root) argument = .ok translated)
    (hplain : PlainFile files root argument) : Faithful files root argument translated := by
  rcases translateArgument_eq_ok h with ⟨hrelative, rfl⟩ |
    ⟨habsolute, canonical, texts, hreal, hbelow, htexts, rfl⟩
  · exact .kept hrelative rfl
  · have hnames := hplain habsolute canonical hreal
      (texts.map fun text => .normal (text.map .char))
    refine .named habsolute canonical hreal texts hbelow ?_ ?_
    · rw [livePath_eq]
      exact ⟨['\\'].intercalate texts, rfl⟩
    · refine (namedPieces_livePath_iff htexts).mpr fun text htext hmem => ?_
      exact hnames (text.map .char) (PathBuf.stripPrefix_eq_some.mpr hbelow)
        (List.mem_map_of_mem htext) (List.mem_map_of_mem hmem)

/-- Only the argument of a plain file is. -/
theorem plainFile_of_faithful {argument translated : Str}
    (h : translateArgument files (some root) argument = .ok translated)
    (hfaithful : Faithful files root argument translated) : PlainFile files root argument := by
  intro habsolute canonical hreal rest name hrest hname hmem
  rcases translateArgument_eq_ok h with ⟨hrelative, -⟩ |
    ⟨-, other, texts, hother, hbelow, htexts, rfl⟩
  · rw [hrelative] at habsolute
    cases habsolute
  · obtain rfl := Except.ok.inj (hreal.symm.trans hother)
    cases hfaithful with
    | kept hrelative _ =>
      rw [hrelative] at habsolute
      cases habsolute
    | named _ canonical' hreal' names hnames _ hpieces =>
      obtain rfl := Except.ok.inj (hreal.symm.trans hreal')
      -- Both lists of names are those of the real path.
      obtain rfl : texts = names := by
        have hmap := List.append_cancel_left (hbelow.symm.trans hnames)
        refine List.map_injective_iff.mpr (fun a b heq => ?_) hmap
        exact List.map_injective_iff.mpr (fun _ _ => OsUnit.char.inj) (Component.normal.inj heq)
      rw [PathBuf.stripPrefix_eq_some.mpr hbelow, Option.some.injEq] at hrest
      subst hrest
      obtain ⟨text, htext, heq⟩ := List.mem_map.mp hname
      obtain rfl := Component.normal.inj heq
      have hplain := (namedPieces_livePath_iff htexts).mp hpieces text htext
      exact hplain (by simpa using hmem)

/-- Faithful translations that are spelled the same stand for one file. -/
theorem same_file_of_faithful {first second translated : Str} {left right : RealPath}
    (hfirst : Faithful files root first translated) (hsecond : Faithful files root second translated)
    (habsolute : (PathBuf.ofStr first).isAbsolute = true)
    (habsolute' : (PathBuf.ofStr second).isAbsolute = true)
    (hleft : files.canonicalize (.ofStr first) = .ok left)
    (hright : files.canonicalize (.ofStr second) = .ok right) :
    left.path.components = right.path.components := by
  cases hfirst with
  | kept hrelative _ =>
    rw [habsolute] at hrelative
    cases hrelative
  | named _ canonical hreal names hnames _ hpieces =>
    cases hsecond with
    | kept hrelative _ =>
      rw [habsolute'] at hrelative
      cases hrelative
    | named _ canonical' hreal' names' hnames' _ hpieces' =>
      obtain rfl := Except.ok.inj (hleft.symm.trans hreal)
      obtain rfl := Except.ok.inj (hright.symm.trans hreal')
      obtain ⟨-, rfl⟩ := List.cons.inj (hpieces.symm.trans hpieces')
      rw [hnames, hnames']

end Argument

/-! ## The whole argument vector -/

/-- Related lists, of which the first relation decides the second. -/
theorem forall₂_iff_of_mem {α β : Type} {R S : α → β → Prop} {Q : α → Prop} {xs : List α}
    {ys : List β} (h : List.Forall₂ R xs ys) (hiff : ∀ x y, R x y → (S x y ↔ Q x)) :
    List.Forall₂ S xs ys ↔ ∀ x ∈ xs, Q x := by
  induction h with
  | nil => simp
  | cons hxy _ ih => rw [List.forall₂_cons, ih, hiff _ _ hxy, List.forall_mem_cons]

theorem faithful_iff {files : HostFiles} {root : RealPath} {argument translated : Str}
    (h : translateArgument files (some root) argument = .ok translated) :
    Faithful files root argument translated ↔ PlainFile files root argument :=
  ⟨plainFile_of_faithful h, faithful_of_plainFile h⟩

/-- The program stays, and every other argument is translated by itself. -/
theorem translateGuiFileArguments_eq_ok {files : HostFiles} {manifest : InstanceManifest}
    {root : RealPath} {arguments translated : List Str}
    (hroot : liveShareRoot files manifest = .ok (some root))
    (h : translateGuiFileArguments files manifest arguments = .ok translated) :
    translated.head? = arguments.head? ∧
      List.Forall₂ (fun argument result => translateArgument files (some root) argument = .ok result)
        arguments.tail translated.tail := by
  rw [translateGuiFileArguments, hroot, ok_bind, bind_eq_ok] at h
  obtain ⟨rest, hrest, htranslated⟩ := h
  obtain rfl := (pure_eq_ok_iff _ _).mp htranslated
  rw [mapM_eq_ok_iff] at hrest
  cases arguments with
  | nil =>
    cases hrest
    exact ⟨rfl, .nil⟩
  | cons program others => exact ⟨rfl, hrest⟩

/-- The program and the arguments that are no host paths always stay.  The others keep their
    components, and different files different paths, exactly when no component of theirs has a
    backslash. -/
theorem live_files_are_faithful_iff (files : HostFiles) (manifest : InstanceManifest)
    (root : RealPath) (arguments translated : List Str)
    (hroot : liveShareRoot files manifest = .ok (some root))
    (h : translateGuiFileArguments files manifest arguments = .ok translated) :
    translated.head? = arguments.head? ∧
    List.Forall₂ (fun argument result =>
      (PathBuf.ofStr argument).isAbsolute = false → result = argument)
      arguments.tail translated.tail ∧
    (FaithfulArguments files root arguments translated ↔ NoBackslash files root arguments) := by
  obtain ⟨hprogram, hall⟩ := translateGuiFileArguments_eq_ok hroot h
  have heach : List.Forall₂ (Faithful files root) arguments.tail translated.tail ↔
      NoBackslash files root arguments :=
    forall₂_iff_of_mem hall fun _ _ => faithful_iff
  refine ⟨hprogram, hall.imp fun _ _ => eq_of_relative, fun hfaithful => heach.mp hfaithful.each, ?_⟩
  intro hplain
  have hfaithful := heach.mpr hplain
  refine ⟨hprogram, hfaithful, ?_⟩
  rintro ⟨first, result⟩ hfirst ⟨second, other⟩ hsecond left right habsolute habsolute' hleft
    hright hne rfl
  have hpair := List.forall₂_iff_zip.mp hfaithful
  exact hne (same_file_of_faithful (hpair.2 hfirst) (hpair.2 hsecond) habsolute habsolute' hleft
    hright)

/-! ## Two files -/

/-- A host whose paths are all real. -/
def plainHost : HostFiles where
  present _ := true
  canonicalize path := if h : path.isAbsolute = true then .ok ⟨path, h⟩ else .error .io

def homeRoot : RealPath := ⟨.ofStr "/home".toList, rfl⟩

theorem liveShareRoot_demo :
    liveShareRoot plainHost (demoManifest [Core.demoLiveShare]) = .ok (some homeRoot) := by
  decide

/-- A file whose names below the root are known. -/
theorem plainFile_of_names {files : HostFiles} {root canonical : RealPath} {argument : Str}
    {names : List (List OsUnit)} (hreal : files.canonicalize (.ofStr argument) = .ok canonical)
    (hbelow : canonical.path.stripPrefix root.path = some (names.map .normal))
    (h : ∀ name ∈ names, OsUnit.char '\\' ∉ name) : PlainFile files root argument := by
  intro _ other hother rest name hrest hname
  obtain rfl := Except.ok.inj (hreal.symm.trans hother)
  obtain rfl := Option.some.inj (hbelow.symm.trans hrest)
  obtain ⟨name', hmem, heq⟩ := List.mem_map.mp hname
  exact h name (Component.normal.inj heq ▸ hmem)

/-- Two files in directories, around an option. -/
def plainArguments : List Str :=
  ["a.exe".toList, "/home/n/b.txt".toList, "-v".toList, "/home/n/ü/c d".toList]

def plainTranslated : List Str :=
  ["a.exe".toList, "L:\\n\\b.txt".toList, "-v".toList, "L:\\n\\ü\\c d".toList]

/-- Files without a backslash in their names. -/
theorem plain_files_are_translated :
    FaithfulArguments plainHost homeRoot plainArguments plainTranslated := by
  have htranslate : translateGuiFileArguments plainHost (demoManifest [Core.demoLiveShare])
      plainArguments = .ok plainTranslated := by decide
  refine (live_files_are_faithful_iff _ _ _ _ _ liveShareRoot_demo htranslate).2.2.mpr ?_
  refine List.forall_mem_cons.mpr ⟨?_, List.forall_mem_cons.mpr ⟨?_, List.forall_mem_singleton.mpr ?_⟩⟩
  · exact @plainFile_of_names _ _ ⟨.ofStr "/home/n/b.txt".toList, rfl⟩ _
      [['n'].map .char, "b.txt".toList.map .char] rfl (by decide) (by decide)
  · intro habsolute
    exact absurd habsolute (by decide)
  · exact @plainFile_of_names _ _ ⟨.ofStr "/home/n/ü/c d".toList, rfl⟩ _
      [['n'].map .char, ['ü'].map .char, "c d".toList.map .char] rfl (by decide) (by decide)

/-- A file whose name has a backslash is translated to the path of another file. -/
theorem backslash_names_another_file : ¬ ∀ translated,
    translateGuiFileArguments plainHost (demoManifest [Core.demoLiveShare])
      ["a.exe".toList, "/home/b\\c".toList, "/home/b/c".toList] = .ok translated →
    FaithfulArguments plainHost homeRoot
      ["a.exe".toList, "/home/b\\c".toList, "/home/b/c".toList] translated := by
  intro hall
  have htranslate : translateGuiFileArguments plainHost (demoManifest [Core.demoLiveShare])
      ["a.exe".toList, "/home/b\\c".toList, "/home/b/c".toList] =
      .ok ["a.exe".toList, "L:\\b\\c".toList, "L:\\b\\c".toList] := by decide
  have happart := (hall _ htranslate).apart
  exact happart ("/home/b\\c".toList, "L:\\b\\c".toList) (by decide)
    ("/home/b/c".toList, "L:\\b\\c".toList) (by decide)
    ⟨.ofStr "/home/b\\c".toList, rfl⟩ ⟨.ofStr "/home/b/c".toList, rfl⟩ rfl rfl rfl rfl (by decide) rfl

end Lsw.Cli.LiveFiles
