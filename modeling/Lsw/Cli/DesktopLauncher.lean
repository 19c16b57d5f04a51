import Lsw.Cli.CommandArguments
import Lsw.Core.ManifestChecks
import Lsw.Core.XmlText
import Lsw.Lib.KeyFile

/-!
# Launchers on the Desktop

`lsw app install` (`desktop_launcher.rs`) writes a desktop entry that starts a Windows program with
`lsw run`.  What the desktop reads of the entry should be what was asked for: the keys with their
values, and a command whose arguments `lsw run` reads as the same request.

The command is quoted for its arguments but not escaped as a value, so that a backslash loses its
own.  `Readable` is what a launcher must fulfil to be read as it was meant, by any program that
follows the specification.
-/

namespace Lsw.Cli.DesktopLauncher

open Lsw.Lib Lsw.Protocol Lsw.Core Lsw.Cli.CommandOptions

/-! ## The program -/

/-- What a launcher is refused with. -/
inductive LauncherError where
  | title
  | id
  deriving DecidableEq

/-- `desktop_exec_quote`. -/
def desktopExecQuote (value : Str) : Str :=
  let escaped := replaceChar '$' "\\$" (replaceChar '`' "\\`" (replaceChar '"' "\\\""
    (replaceChar '\\' "\\\\" (replaceChar '%' "%%" value))))
  '"' :: (escaped ++ ['"'])

/-- `desktop_value`. -/
def desktopValue (value : Str) : Str :=
  replaceChar '\r' "" (replaceChar '\n' "\\n" (replaceChar '\\' "\\\\" value))

/-- `default_title`. -/
def defaultTitle (program : Str) : Str :=
  let last := (program.splitOnP fun c => c == '\\' || c == '/').getLastD program
  ((stripSuffix ".exe".toList last) <|> stripSuffix ".EXE".toList program).getD program

/-- `validate_title`. -/
def validateTitle (title : Str) : Except LauncherError Unit :=
  rejectIf (trim title ≠ title ∨ title = [] ∨ (bytes title).length > 128 ∨
    title.any (fun c => c == Char.ofNat 0 || c == '\r' || c == '\n') = true) .title

/-- The loop of `slug`: what is written so far, and whether it ends in a hyphen. -/
def slugStep (state : Str × Bool) (c : Char) : Str × Bool :=
  if c.isAlphanum then (state.1 ++ [c.toLower], false)
  else if state.2 = false ∧ state.1 ≠ [] then (state.1 ++ ['-'], true)
  else state

/-- `slug`. -/
def slug (value : Str) : Str :=
  ((value.foldl slugStep ([], false)).1.reverse.dropWhile (· == '-')).reverse.take 48

/-- A character of an id. -/
def isIdChar (c : Char) : Bool := c.isLower || c.isDigit || c == '-'

/-- `validate_id`. -/
def validateId (id : Str) : Except LauncherError Unit :=
  rejectIf (id = [] ∨ (bytes id).length > 128 ∨ id.all isIdChar = false) .id

/-- What `desktop_entry` is called with. -/
structure Launcher where
  title : Str
  id : Str
  instanceName : Str
  icon : Str
  lsw : Str
  request : StartRequest
  environment : ProcessEnvironment

/-- The id of a launcher in `install`. -/
def launcherId (name title : Str) : Str :=
  let titleSlug := slug title
  "lsw-".toList ++ (name ++ '-' :: if titleSlug = [] then "app".toList else titleSlug)

/-- The launcher of `install`, for an instance; `icons` is where icons are, and `executable` the
    program itself. -/
def installed (parsed : InstallArguments) (name icons executable : Str) :
    Except LauncherError Launcher := do
  let program := (parsed.request.argv.headD "").toList
  let title := parsed.title.getD (defaultTitle program)
  validateTitle title
  let id := launcherId name title
  validateId id
  return { title, id, instanceName := name, icon := joinPath '/' icons (id ++ ".ico".toList),
           lsw := executable, request := parsed.request, environment := parsed.environment }

/-- The variables in the command of `desktop_entry`. -/
def variableWords (vars : List (String × String)) : List Str :=
  vars.flatMap fun (name, value) => ["--env".toList, name.toList ++ '=' :: value.toList]

/-- The first line of `desktop_entry`. -/
def header : Str := "[Desktop Entry]\n".toList

/-- A line of `desktop_entry`. -/
def fieldLine (field : String × Str) : Str := field.1.toList ++ '=' :: field.2 ++ ['\n']

namespace Launcher

variable (launcher : Launcher)

/-- The program that is launched. -/
def program : Str := (launcher.request.argv.headD "").toList

/-- The options of the command in `desktop_entry`. -/
def options : List Str :=
  (launcher.request.workingDirectory.elim [] fun directory => ["--cwd".toList, directory.toList]) ++
    variableWords launcher.environment.vars

/-- What the command gives to `lsw run`, after the name of that command. -/
def runArguments : List Str :=
  [launcher.instanceName, "--gui".toList, "--translate-files".toList] ++ launcher.options ++
    dashes :: texts launcher.request.argv

/-- The command of `desktop_entry`. -/
def command : List Str := [launcher.lsw, "run".toList] ++ launcher.runArguments

/-- The value of `Exec`. -/
def exec : Str := [' '].intercalate (launcher.command.map desktopExecQuote) ++ " %F".toList

/-- The keys of `desktop_entry` in front of `Exec`, with what is written behind them. -/
def front : List (String × Str) :=
  [("Type", "Application".toList),
    ("Version", "1.0".toList),
    ("Name", desktopValue launcher.title),
    ("Comment", "Run ".toList ++ desktopValue launcher.title ++ " in LSW instance ".toList ++
      desktopValue launcher.instanceName),
    ("TryExec", desktopValue launcher.lsw)]

/-- The keys behind `Exec`. -/
def back : List (String × Str) :=
  [("Icon", desktopValue launcher.icon),
    ("Terminal", "false".toList),
    ("StartupNotify", "true".toList),
    ("Categories", "Utility;".toList),
    ("X-LSW-Launcher", desktopValue launcher.id),
    ("X-LSW-Instance", desktopValue launcher.instanceName),
    ("X-LSW-Program", desktopValue launcher.program)]

/-- `desktop_entry`. -/
def desktopEntry : Str :=
  header ++ (launcher.front ++ ("Exec", launcher.exec) :: launcher.back).flatMap fieldLine

end Launcher

/-! ## What is meant -/

/-- What a key is meant to say. -/
inductive Meaning where
  | text (value : Str)
  | command (arguments : List KeyFile.Argument)

/-- A value says what is meant. -/
def Meaning.IsRead (reading : KeyFile.Reading) (raw : Str) : Meaning → Prop
  | text value => KeyFile.unescape reading raw = some value
  | command arguments => KeyFile.readCommand reading raw = some arguments

/-- The group of the keys. -/
def desktopGroup : KeyFile.Line := .group "Desktop Entry".toList

/-- A line gives a key, and its value says what is meant. -/
def Says (reading : KeyFile.Reading) (entry : KeyFile.Line) (meant : String × Meaning) : Prop :=
  ∃ raw, entry = .entry meant.1.toList raw ∧ meant.2.IsRead reading raw

namespace Launcher

variable (launcher : Launcher)

/-- The keys of a launcher, and what they are meant to say. -/
def meanings : List (String × Meaning) :=
  [("Type", .text "Application".toList), ("Version", .text "1.0".toList),
    ("Name", .text launcher.title),
    ("Comment", .text ("Run ".toList ++ launcher.title ++ " in LSW instance ".toList ++
      launcher.instanceName)),
    ("TryExec", .text launcher.lsw),
    ("Exec", .command (launcher.command.map .text ++ [.files])),
    ("Icon", .text launcher.icon), ("Terminal", .text "false".toList),
    ("StartupNotify", .text "true".toList), ("Categories", .text "Utility;".toList),
    ("X-LSW-Launcher", .text launcher.id), ("X-LSW-Instance", .text launcher.instanceName),
    ("X-LSW-Program", .text launcher.program)]

/-- The entry is read as the keys of the launcher, each once, with what they are meant to say. -/
def ReadsBack (reading : KeyFile.Reading) : Prop :=
  ∃ entries, KeyFile.readLines launcher.desktopEntry = some (desktopGroup :: entries) ∧
    List.Forall₂ (Says reading) entries launcher.meanings

/-- `lsw run` reads the command as the request, with any files at its end. -/
def ParsesBack (unicode : UnicodeTables) : Prop :=
  ∀ files, (guestParser unicode .run).parse (launcher.runArguments ++ texts files) = .ok
    { requested := some launcher.instanceName
      request := { launcher.request with argv := launcher.request.argv ++ files }
      environment := launcher.environment
      detached := false
      gui := true
      translateFiles := true }

/-- The arguments of the command have nothing that is escaped or ends the line, the directory is not
    the separator, and no value loses a carriage return or a space. -/
structure Readable : Prop where
  command : ∀ argument ∈ launcher.command, ∀ c ∈ argument, KeyFile.isEscaped c = false ∧ c ≠ '\n'
  directory : launcher.request.workingDirectory ≠ some "--"
  lsw : '\r' ∉ launcher.lsw
  icon : '\r' ∉ launcher.icon
  program : '\r' ∉ launcher.program ∧ launcher.program.head? ≠ some ' '

end Launcher

/-! ## What is written -/

section Written

/-- How a character of an argument is written. -/
def execUnit (c : Char) : Str :=
  if c = '%' then ['%', '%'] else if KeyFile.isEscaped c then ['\\', c] else [c]

/-- A quoted argument, character by character. -/
theorem desktopExecQuote_eq (value : Str) : desktopExecQuote value =
    '"' :: (value.flatMap execUnit ++ ['"']) := by
  have hunits : replaceChar '$' "\\$" (replaceChar '`' "\\`" (replaceChar '"' "\\\""
      (replaceChar '\\' "\\\\" (replaceChar '%' "%%" value)))) = value.flatMap execUnit := by
    simp only [replaceChar, List.flatMap_assoc]
    refine List.flatMap_congr fun c _ => ?_
    by_cases hspecial : c ∈ ['%', '\\', '"', '`', '$']
    · simp only [List.mem_cons, List.not_mem_nil, or_false] at hspecial
      rcases hspecial with rfl | rfl | rfl | rfl | rfl <;> rfl
    · simp only [List.mem_cons, List.not_mem_nil, or_false, not_or] at hspecial
      obtain ⟨hpercent, hbackslash, hquote, htick, hdollar⟩ := hspecial
      have hplain : KeyFile.isEscaped c = false := by
        simp [KeyFile.isEscaped, hquote, htick, hdollar, hbackslash]
      simp [execUnit, hpercent, hbackslash, hquote, htick, hdollar, hplain]
  rw [desktopExecQuote, hunits]

/-- How a character of a value is written. -/
def valueUnit (c : Char) : Str :=
  if c = '\\' then ['\\', '\\'] else if c = '\n' then ['\\', 'n'] else if c = '\r' then [] else [c]

theorem desktopValue_eq (value : Str) : desktopValue value = value.flatMap valueUnit := by
  simp only [desktopValue, replaceChar, List.flatMap_assoc]
  refine List.flatMap_congr fun c _ => ?_
  by_cases hspecial : c ∈ ['\\', '\n', '\r']
  · simp only [List.mem_cons, List.not_mem_nil, or_false] at hspecial
    rcases hspecial with rfl | rfl | rfl <;> rfl
  · simp only [List.mem_cons, List.not_mem_nil, or_false, not_or] at hspecial
    obtain ⟨hbackslash, hnewline, hreturn⟩ := hspecial
    simp [valueUnit, hbackslash, hnewline, hreturn]

theorem newline_not_mem_desktopValue (value : Str) : '\n' ∉ desktopValue value := by
  rw [desktopValue_eq, List.mem_flatMap]
  rintro ⟨c, -, hc⟩
  unfold valueUnit at hc
  split at hc
  · simp at hc
  · split at hc
    · simp at hc
    · split at hc
      · simp at hc
      · rename_i hnewline _
        exact hnewline (List.mem_singleton.mp hc).symm

theorem newline_not_mem_execUnits {value : Str} (h : '\n' ∉ value) :
    '\n' ∉ value.flatMap execUnit := by
  rw [List.mem_flatMap]
  rintro ⟨c, hc, hmem⟩
  have hne : '\n' ≠ c := fun heq => h (heq ▸ hc)
  unfold execUnit at hmem
  split at hmem
  · simp at hmem
  · split at hmem
    · simp [hne] at hmem
    · exact hne (List.mem_singleton.mp hmem)

/-- The arguments of a command, each in front of a space. -/
def execAll (arguments : List Str) : Str :=
  arguments.flatMap fun argument => desktopExecQuote argument ++ [' ']

/-- The command of an entry is its arguments and the place of the files. -/
theorem exec_eq (launcher : Launcher) : launcher.exec = execAll launcher.command ++ ['%', 'F'] := by
  have hjoin : ∀ quoted : List Str, quoted ≠ [] → ∀ s : Str,
      [' '].intercalate quoted ++ ' ' :: s = quoted.flatMap (· ++ [' ']) ++ s := by
    intro quoted hne s
    induction quoted with
    | nil => exact absurd rfl hne
    | cons first rest ih =>
      cases rest with
      | nil => simp
      | cons next rest =>
        have hrest := ih (List.cons_ne_nil next rest)
        rw [List.intercalate_cons_cons, List.append_assoc, hrest]
        simp
  have hcommand : launcher.command.map desktopExecQuote ≠ [] := by simp [Launcher.command]
  exact (hjoin _ hcommand ['%', 'F']).trans (by rw [List.flatMap_map]; rfl)

theorem newline_not_mem_execAll {arguments : List Str}
    (h : ∀ argument ∈ arguments, '\n' ∉ argument) : '\n' ∉ execAll arguments := by
  rw [execAll, List.mem_flatMap]
  rintro ⟨argument, hargument, hmem⟩
  rw [desktopExecQuote_eq] at hmem
  have hunits := newline_not_mem_execUnits (h argument hargument)
  simp [-List.mem_flatMap, hunits] at hmem

/-- Where nothing is escaped, arguments stand between quotes as they are. -/
theorem execAll_eq {arguments : List Str}
    (h : ∀ argument ∈ arguments, ∀ c ∈ argument, KeyFile.isEscaped c = false) :
    execAll arguments = KeyFile.quoteAll arguments := by
  refine List.flatMap_congr fun argument hargument => ?_
  rw [desktopExecQuote_eq, KeyFile.quote, KeyFile.doubled]
  congr 3
  refine List.flatMap_congr fun c hc => ?_
  simp [execUnit, h argument hargument c hc]

end Written

/-! ## What is read of the values -/

section Values

variable {reading : KeyFile.Reading}

/-- What is left of a value. -/
def kept (value : Str) : Str := (value.filter (· ≠ '\r')).dropWhile (· == ' ')

theorem desktopValue_filter (value : Str) :
    desktopValue (value.filter (· ≠ '\r')) = desktopValue value := by
  simp only [desktopValue_eq]
  induction value with
  | nil => rfl
  | cons c value ih =>
    by_cases hc : c = '\r'
    · rw [List.filter_cons_of_neg (by simp [hc]), ih, List.flatMap_cons, hc]
      rfl
    · rw [List.filter_cons_of_pos (by simp [hc]), List.flatMap_cons, ih, List.flatMap_cons]

/-- A value is read back without its carriage returns. -/
theorem unescape_desktopValue (value : Str) : KeyFile.unescape reading (desktopValue value) =
    some (value.filter (· ≠ '\r')) := by
  rw [desktopValue_eq]
  -- Over the value: a backslash and a newline are escaped, and a carriage return is left out.
  induction value with
  | nil => rfl
  | cons c value ih =>
    rw [List.flatMap_cons]
    by_cases hbackslash : c = '\\'
    · subst hbackslash
      have hunit : valueUnit '\\' = ['\\', '\\'] := rfl
      rw [hunit, List.cons_append, List.singleton_append, KeyFile.unescape_escape, ih]
      rfl
    · by_cases hnewline : c = '\n'
      · subst hnewline
        have hunit : valueUnit '\n' = ['\\', 'n'] := rfl
        rw [hunit, List.cons_append, List.singleton_append, KeyFile.unescape_escape, ih]
        rfl
      · by_cases hreturn : c = '\r'
        · subst hreturn
          have hunit : valueUnit '\r' = [] := rfl
          rw [hunit, List.nil_append, ih]
          rfl
        · have hunit : valueUnit c = [c] := by simp [valueUnit, hbackslash, hnewline, hreturn]
          rw [hunit, List.singleton_append, KeyFile.unescape_cons hbackslash, ih,
            List.filter_cons_of_pos (by simp [hreturn])]
          rfl

/-- Blanks in front of a value are not part of what is read. -/
theorem dropWhile_desktopValue (value : Str) :
    (desktopValue value).dropWhile (· == ' ') = desktopValue (kept value) := by
  induction value with
  | nil => rfl
  | cons c value ih =>
    by_cases hspace : c = ' '
    · subst hspace
      exact ih
    · by_cases hreturn : c = '\r'
      · subst hreturn
        exact ih
      · have hkept : kept (c :: value) = c :: value.filter (· ≠ '\r') := by
          rw [kept, List.filter_cons_of_pos (by simp [hreturn]),
            List.dropWhile_cons_of_neg (by simpa using hspace)]
        have hsame := desktopValue_filter value
        rw [desktopValue_eq, desktopValue_eq] at hsame
        rw [hkept, desktopValue_eq, desktopValue_eq, List.flatMap_cons, List.flatMap_cons, hsame]
        -- No other character is written with a space in front.
        have hunit : ∃ d rest, valueUnit c = d :: rest ∧ d ≠ ' ' := by
          unfold valueUnit
          split
          · exact ⟨_, _, rfl, by decide⟩
          · split
            · exact ⟨_, _, rfl, by decide⟩
            · exact ⟨c, [], rfl, hspace⟩
        obtain ⟨d, rest, hunit, hd⟩ := hunit
        rw [hunit, List.cons_append, List.dropWhile_cons_of_neg (by simpa using hd)]

/-- A value is read as it was meant exactly when nothing of it is lost. -/
theorem isRead_text (value : Str) :
    (Meaning.text value).IsRead reading ((desktopValue value).dropWhile (· == ' ')) ↔
      kept value = value := by
  have hfilter : (kept value).filter (· ≠ '\r') = kept value := by
    rw [List.filter_eq_self]
    intro c hc
    exact (List.mem_filter.mp (List.dropWhile_suffix _ |>.mem hc)).2
  rw [Meaning.IsRead, dropWhile_desktopValue, unescape_desktopValue, hfilter, Option.some.injEq]

/-- A value is kept as it is without carriage returns and a blank in front. -/
theorem kept_eq_self_iff {value : Str} :
    kept value = value ↔ '\r' ∉ value ∧ value.head? ≠ some ' ' := by
  constructor
  · intro h
    -- Nothing is left out where the length stays the same.
    have hle := (List.dropWhile_suffix (· == ' ') (l := value.filter (· ≠ '\r'))).length_le
    rw [← kept, h] at hle
    have hfilter : value.filter (· ≠ '\r') = value :=
      (List.filter_sublist).eq_of_length_le hle
    constructor
    · intro hmem
      have hall := List.filter_eq_self.mp hfilter '\r' hmem
      simp at hall
    · intro hhead
      rw [kept, hfilter] at h
      obtain ⟨rest, rfl⟩ : ∃ rest, value = ' ' :: rest := List.head?_eq_some_iff.mp hhead
      rw [List.dropWhile_cons_of_pos (by simp)] at h
      have hlength := (List.dropWhile_suffix (· == ' ') (l := rest)).length_le
      rw [h, List.length_cons] at hlength
      omega
  -- Without a carriage return and a blank in front, nothing is.
  · rintro ⟨hreturn, hhead⟩
    have hfilter : value.filter (· ≠ '\r') = value :=
      List.filter_eq_self.mpr fun c hc => by simpa using ne_of_mem_of_not_mem hc hreturn
    rw [kept, hfilter]
    cases value with
    | nil => rfl
    | cons c value => exact List.dropWhile_cons_of_neg (by simpa using hhead)

end Values

/-! ## What is read of the lines -/

section Lines

variable {reading : KeyFile.Reading}

/-- What a key and a value on one line are read as. -/
def readField (field : String × Str) : KeyFile.Line :=
  .entry field.1.toList (field.2.dropWhile (· == ' '))

/-- A key and a value that stay on one line. -/
def IsField (field : String × Str) : Prop :=
  KeyFile.isKey field.1.toList = true ∧ '\n' ∉ field.2

/-- Lines that are fields are read one after the other. -/
theorem readLines_fields {fields : List (String × Str)} (h : ∀ field ∈ fields, IsField field)
    (rest : Str) : KeyFile.readLines (fields.flatMap fieldLine ++ rest) =
      (KeyFile.readLines rest).map (fields.map readField ++ ·) := by
  induction fields with
  | nil => simp
  | cons field fields ih =>
    obtain ⟨⟨hkey, hvalue⟩, hrest⟩ := List.forall_mem_cons.mp h
    have hline : '\n' ∉ field.1.toList ++ '=' :: field.2 := by
      have hnewline := KeyFile.newline_not_mem_of_isKey hkey
      simp [hnewline, hvalue]
    rw [List.flatMap_cons, fieldLine, List.append_assoc, List.append_assoc, List.singleton_append,
      KeyFile.readLines_cons hline, KeyFile.readLine_entry hkey, ih hrest, Option.bind_some,
      Option.map_map]
    rfl

theorem readLines_header (file : Str) : KeyFile.readLines (header ++ file) =
    (KeyFile.readLines file).map (desktopGroup :: ·) := by
  have hline : '\n' ∉ "[Desktop Entry]".toList := by decide
  exact (KeyFile.readLines_cons hline file).trans rfl

theorem says_readField {field : String × Str} {meant : String × Meaning} :
    Says reading (readField field) meant ↔
      field.1 = meant.1 ∧ meant.2.IsRead reading (field.2.dropWhile (· == ' ')) := by
  constructor
  · rintro ⟨raw, hline, hread⟩
    obtain ⟨hkey, rfl⟩ := KeyFile.Line.entry.inj hline
    exact ⟨String.toList_inj.mp hkey, hread⟩
  · rintro ⟨hkey, hread⟩
    exact ⟨_, by rw [readField, hkey], hread⟩

variable {launcher : Launcher}

/-- The comment is one value, written in pieces. -/
theorem desktopValue_comment (title name : Str) :
    "Run ".toList ++ desktopValue title ++ " in LSW instance ".toList ++ desktopValue name =
      desktopValue ("Run ".toList ++ title ++ " in LSW instance ".toList ++ name) := by
  have hrun : "Run ".toList.flatMap valueUnit = "Run ".toList := by decide
  have hin : " in LSW instance ".toList.flatMap valueUnit = " in LSW instance ".toList := by decide
  simp only [desktopValue_eq, List.flatMap_append, hrun, hin]

theorem isField_front : ∀ field ∈ launcher.front, IsField field := by
  have hvalue := newline_not_mem_desktopValue
  rw [Launcher.front, desktopValue_comment]
  simp only [List.forall_mem_cons, List.not_mem_nil, false_implies, implies_true, and_true, IsField]
  refine ⟨⟨?_, ?_⟩, ⟨?_, ?_⟩, ⟨?_, hvalue _⟩, ⟨?_, hvalue _⟩, ⟨?_, hvalue _⟩⟩ <;> decide

theorem isField_back : ∀ field ∈ launcher.back, IsField field := by
  have hvalue := newline_not_mem_desktopValue
  simp only [Launcher.back, List.forall_mem_cons, List.not_mem_nil, false_implies, implies_true,
    and_true, IsField]
  refine ⟨⟨?_, hvalue _⟩, ⟨?_, ?_⟩, ⟨?_, ?_⟩, ⟨?_, ?_⟩, ⟨?_, hvalue _⟩, ⟨?_, hvalue _⟩,
    ⟨?_, hvalue _⟩⟩ <;> decide

theorem isKey_exec : KeyFile.isKey "Exec".toList = true := by decide

/-- An entry whose command stays on its line is read key by key. -/
theorem readLines_desktopEntry (h : '\n' ∉ launcher.exec) :
    KeyFile.readLines launcher.desktopEntry = some (desktopGroup ::
      (launcher.front ++ ("Exec", launcher.exec) :: launcher.back).map readField) := by
  have hfields : ∀ field ∈ launcher.front ++ ("Exec", launcher.exec) :: launcher.back,
      IsField field := by
    intro field hmem
    rcases List.mem_append.mp hmem with hfront | hback
    · exact isField_front field hfront
    · rcases List.mem_cons.mp hback with rfl | hback
      · exact ⟨isKey_exec, h⟩
      · exact isField_back field hback
  have hread := readLines_fields hfields []
  rw [List.append_nil, KeyFile.readLines_nil, Option.map_some, List.append_nil] at hread
  exact (readLines_header _).trans ((congrArg (Option.map _) hread).trans (Option.map_some _ _))

/-- An entry whose command goes on behind a line break is read up to there. -/
theorem readLines_broken {first rest : Str} (hexec : launcher.exec = first ++ '\n' :: rest)
    (h : '\n' ∉ first) {entries : List KeyFile.Line}
    (hread : KeyFile.readLines launcher.desktopEntry = some (desktopGroup :: entries)) :
    ∃ others, entries = (launcher.front ++ [("Exec", first)]).map readField ++ others := by
  have hfields : ∀ field ∈ launcher.front ++ [("Exec", first)], IsField field := by
    intro field hmem
    rcases List.mem_append.mp hmem with hfront | hlast
    · exact isField_front field hfront
    · obtain rfl := List.mem_singleton.mp hlast
      exact ⟨isKey_exec, h⟩
  have hlines : (launcher.front ++ ("Exec", launcher.exec) :: launcher.back).flatMap fieldLine =
      (launcher.front ++ [("Exec", first)]).flatMap fieldLine ++
        (rest ++ '\n' :: launcher.back.flatMap fieldLine) := by
    rw [List.flatMap_append, List.flatMap_cons, List.flatMap_append, List.flatMap_singleton,
      fieldLine, hexec, fieldLine]
    simp only [List.append_assoc, List.cons_append, List.nil_append]
  rw [Launcher.desktopEntry, hlines] at hread
  have hfront := (readLines_header _).symm.trans hread
  rw [readLines_fields hfields, Option.map_map] at hfront
  obtain ⟨others, -, hothers⟩ := Option.map_eq_some_iff.mp hfront
  exact ⟨others, (List.cons.inj hothers).2.symm⟩

end Lines

/-! ## What is read of the command -/

section Command

/-- Between quotes, a strict reading takes a backslash for a backslash and nothing else that is
    escaped. -/
theorem unescape_execUnits {value rest text : Str}
    (h : KeyFile.unescape KeyFile.strict (value.flatMap execUnit ++ rest) = some text) :
    (∀ c ∈ value, KeyFile.isEscaped c = false ∨ c = '\\') ∧
      ∃ behind, KeyFile.unescape KeyFile.strict rest = some behind ∧
        text = KeyFile.doubled value ++ behind := by
  induction value generalizing text with
  | nil => exact ⟨by simp, text, h, rfl⟩
  | cons c value ih =>
    -- What is in front is read as it is, or as the backslash.
    obtain ⟨hc, next, hnext, htext⟩ : (KeyFile.isEscaped c = false ∨ c = '\\') ∧
        ∃ next, KeyFile.unescape KeyFile.strict (value.flatMap execUnit ++ rest) = some next ∧
          text = (if c = '%' then ['%', '%'] else [c]) ++ next := by
      rw [List.flatMap_cons, List.append_assoc, execUnit] at h
      by_cases hpercent : c = '%'
      · subst hpercent
        rw [if_pos rfl, KeyFile.unescape_plain (by decide)] at h
        obtain ⟨next, hnext, rfl⟩ := Option.map_eq_some_iff.mp h
        exact ⟨.inl rfl, next, hnext, rfl⟩
      · rw [if_neg hpercent] at h ⊢
        by_cases hescaped : KeyFile.isEscaped c = true
        · rw [if_pos hescaped, List.cons_append, List.singleton_append,
            KeyFile.unescape_escape] at h
          obtain ⟨front, hfront, hrest⟩ := Option.bind_eq_some_iff.mp h
          obtain ⟨next, hnext, rfl⟩ := Option.map_eq_some_iff.mp hrest
          obtain ⟨rfl, rfl⟩ := KeyFile.eq_of_strict_escape hescaped hfront
          exact ⟨.inr rfl, next, hnext, rfl⟩
        · rw [Bool.not_eq_true] at hescaped
          have hbackslash : c ≠ '\\' := by
            rintro rfl
            exact absurd hescaped (by decide)
          rw [hescaped, if_neg (by decide), List.singleton_append,
            KeyFile.unescape_cons hbackslash] at h
          obtain ⟨next, hnext, rfl⟩ := Option.map_eq_some_iff.mp h
          exact ⟨.inl hescaped, next, hnext, rfl⟩
    obtain ⟨hrest, behind, hbehind, rfl⟩ := ih hnext
    exact ⟨List.forall_mem_cons.mpr ⟨hc, hrest⟩, behind, hbehind, by
      rw [htext, KeyFile.doubled, KeyFile.doubled, List.flatMap_cons, List.append_assoc]⟩

/-- A command that is read at all has no character that is escaped between quotes, except the
    backslash. -/
theorem unescape_execAll {arguments : List Str} {rest text : Str}
    (h : KeyFile.unescape KeyFile.strict (execAll arguments ++ rest) = some text) :
    (∀ argument ∈ arguments, ∀ c ∈ argument, KeyFile.isEscaped c = false ∨ c = '\\') ∧
      ∃ behind, KeyFile.unescape KeyFile.strict rest = some behind ∧
        text = KeyFile.quoteAll arguments ++ behind := by
  induction arguments generalizing text with
  | nil => exact ⟨by simp, text, h, rfl⟩
  | cons argument arguments ih =>
    have hwritten : execAll (argument :: arguments) ++ rest =
        ['"'] ++ (argument.flatMap execUnit ++ (['"', ' '] ++ (execAll arguments ++ rest))) := by
      simp [execAll, desktopExecQuote_eq]
    rw [hwritten, KeyFile.unescape_plain (by decide)] at h
    obtain ⟨inside, hinside, rfl⟩ := Option.map_eq_some_iff.mp h
    obtain ⟨hfirst, closed, hclosed, rfl⟩ := unescape_execUnits hinside
    rw [KeyFile.unescape_plain (by decide)] at hclosed
    obtain ⟨next, hnext, rfl⟩ := Option.map_eq_some_iff.mp hclosed
    obtain ⟨hrest, behind, hbehind, rfl⟩ := ih hnext
    exact ⟨List.forall_mem_cons.mpr ⟨hfirst, hrest⟩, behind, hbehind, by
      simp [KeyFile.quoteAll, KeyFile.quote]⟩

/-- The texts of the arguments that are meant. -/
theorem sum_meant (c : Char) (arguments : List Str) :
    ((arguments.map KeyFile.Argument.text ++ [KeyFile.Argument.files]).map
        fun argument => argument.value.count c).sum =
      (arguments.map fun argument => argument.count c).sum := by
  rw [List.map_append, List.map_map, List.sum_append]
  simp [KeyFile.Argument.value, Function.comp_def]

/-- Where a strict reading of the command gives the arguments, nothing in them is escaped. -/
theorem plain_of_readCommand {arguments : List Str}
    (h : KeyFile.readCommand KeyFile.strict (execAll arguments ++ ['%', 'F']) =
      some (arguments.map .text ++ [.files])) :
    ∀ argument ∈ arguments, ∀ c ∈ argument, KeyFile.isEscaped c = false := by
  obtain ⟨text, htext, -, hcount⟩ := KeyFile.count_readCommand h
  obtain ⟨hescaped, behind, hbehind, rfl⟩ := unescape_execAll htext
  obtain rfl : ['%', 'F'] = behind := Option.some.inj hbehind
  -- Every backslash that is read has been written as two, and those were read as one.
  have hnone : (arguments.map fun argument => argument.count '\\').sum = 0 := by
    have hcode : ['%', 'F'].count '\\' = 0 := by decide
    rw [sum_meant, List.count_append, KeyFile.count_quoteAll (by decide), hcode] at hcount
    omega
  intro argument hargument c hc
  refine (hescaped argument hargument c hc).resolve_right ?_
  rintro rfl
  have hzero := List.sum_eq_zero_iff_forall_eq_nat.mp hnone _ (List.mem_map_of_mem hargument)
  exact List.count_eq_zero.mp hzero hc

end Command

/-! ## What is read of an entry -/

section Entry

variable {reading : KeyFile.Reading} {launcher : Launcher}

/-- The fields say what is meant, one by one. -/
def FieldSays (reading : KeyFile.Reading) (field : String × Str) (meant : String × Meaning) :
    Prop :=
  field.1 = meant.1 ∧ meant.2.IsRead reading (field.2.dropWhile (· == ' '))

theorem forall₂_says {fields : List (String × Str)} {meanings : List (String × Meaning)} :
    List.Forall₂ (Says reading) (fields.map readField) meanings ↔
      List.Forall₂ (FieldSays reading) fields meanings := by
  rw [List.forall₂_map_left_iff]
  constructor
  · exact List.Forall₂.imp fun _ _ => says_readField.mp
  · exact List.Forall₂.imp fun _ _ => says_readField.mpr

/-- The command starts with a quote, so no space in front of it is passed over. -/
theorem dropWhile_exec (launcher : Launcher) :
    launcher.exec.dropWhile (· == ' ') = launcher.exec := by
  have hstart : ∃ rest, launcher.exec = '"' :: rest := by
    rw [exec_eq, Launcher.command, List.cons_append, execAll, List.flatMap_cons,
      desktopExecQuote_eq]
    exact ⟨_, rfl⟩
  obtain ⟨rest, hrest⟩ := hstart
  rw [hrest]
  exact List.dropWhile_cons_of_neg (by decide)

/-- A field whose value is written by `desktop_value`. -/
theorem fieldSays_text {key : String} {value : Str} :
    FieldSays reading (key, desktopValue value) (key, .text value) ↔ kept value = value := by
  rw [FieldSays, isRead_text]
  exact and_iff_right rfl

theorem fieldSays_exec {arguments : List KeyFile.Argument} :
    FieldSays reading ("Exec", launcher.exec) ("Exec", .command arguments) ↔
      KeyFile.readCommand reading launcher.exec = some arguments := by
  rw [FieldSays, dropWhile_exec]
  exact and_iff_right rfl

/-- A field that is the same in every entry. -/
theorem fieldSays_plain {key : String} {value : Str} (h : '\\' ∉ value)
    (hhead : value.head? ≠ some ' ') : FieldSays reading (key, value) (key, .text value) := by
  have hdrop : value.dropWhile (· == ' ') = value := by
    cases value with
    | nil => rfl
    | cons c value => exact List.dropWhile_cons_of_neg (by simpa using hhead)
  have hread := @KeyFile.unescape_plain reading _ h []
  rw [List.append_nil] at hread
  refine ⟨rfl, ?_⟩
  rw [Meaning.IsRead, hdrop, hread]
  exact congrArg some (List.append_nil value)

/-- An entry whose command stays on its line is read as it was meant exactly when each value is. -/
theorem readsBack_iff (h : '\n' ∉ launcher.exec) : launcher.ReadsBack reading ↔
    (kept launcher.title = launcher.title ∧
      kept ("Run ".toList ++ launcher.title ++ " in LSW instance ".toList ++
          launcher.instanceName) =
        "Run ".toList ++ launcher.title ++ " in LSW instance ".toList ++ launcher.instanceName ∧
      kept launcher.lsw = launcher.lsw) ∧
    KeyFile.readCommand reading launcher.exec =
      some (launcher.command.map .text ++ [.files]) ∧
    kept launcher.icon = launcher.icon ∧ kept launcher.id = launcher.id ∧
      kept launcher.instanceName = launcher.instanceName ∧
      kept launcher.program = launcher.program := by
  have hforall : launcher.ReadsBack reading ↔ List.Forall₂ (FieldSays reading)
      (launcher.front ++ ("Exec", launcher.exec) :: launcher.back) launcher.meanings := by
    rw [Launcher.ReadsBack, readLines_desktopEntry h, ← forall₂_says]
    constructor
    · rintro ⟨entries, hentries, hsays⟩
      obtain rfl := (List.cons.inj (Option.some.inj hentries)).2
      exact hsays
    · exact fun hsays => ⟨_, rfl, hsays⟩
  have hkind := @fieldSays_plain reading "Type" "Application".toList (by decide) (by decide)
  have hversion := @fieldSays_plain reading "Version" "1.0".toList (by decide) (by decide)
  have hterminal := @fieldSays_plain reading "Terminal" "false".toList (by decide) (by decide)
  have hnotify := @fieldSays_plain reading "StartupNotify" "true".toList (by decide) (by decide)
  have hcategories :=
    @fieldSays_plain reading "Categories" "Utility;".toList (by decide) (by decide)
  rw [hforall, Launcher.front, Launcher.back, Launcher.meanings, desktopValue_comment]
  simp only [List.cons_append, List.nil_append, List.forall₂_cons, fieldSays_text, fieldSays_exec,
    hkind, hversion, hterminal, hnotify, hcategories, List.Forall₂.nil, true_and, and_true,
    and_assoc]

/-- The command up to the first line break in an argument. -/
theorem execAll_broken {arguments : List Str} (h : ∃ argument ∈ arguments, '\n' ∈ argument)
    (rest : Str) : ∃ (whole : List Str) (value post : Str),
      (∀ argument ∈ whole, '\n' ∉ argument) ∧ '\n' ∉ value ∧ execAll arguments ++ rest =
        execAll whole ++ ('"' :: value.flatMap execUnit) ++ '\n' :: post := by
  induction arguments with
  | nil => simp at h
  | cons argument arguments ih =>
    by_cases hbreak : '\n' ∈ argument
    · obtain ⟨value, after, rfl, hvalue⟩ := List.eq_append_cons_of_mem hbreak
      have hunit : execUnit '\n' = ['\n'] := rfl
      refine ⟨[], value, after.flatMap execUnit ++ '"' :: ' ' :: (execAll arguments ++ rest),
        by simp, hvalue, ?_⟩
      simp [execAll, desktopExecQuote_eq, hunit]
    · obtain ⟨broken, hmem, hbroken⟩ := h
      have hrest : ∃ argument ∈ arguments, '\n' ∈ argument := by
        rcases List.mem_cons.mp hmem with rfl | hmem
        · exact absurd hbroken hbreak
        · exact ⟨broken, hmem, hbroken⟩
      obtain ⟨whole, value, post, hwhole, hvalue, hexec⟩ := ih hrest
      refine ⟨argument :: whole, value, post, List.forall_mem_cons.mpr ⟨hbreak, hwhole⟩, hvalue, ?_⟩
      rw [execAll, List.flatMap_cons, ← execAll, List.append_assoc, hexec]
      simp [execAll]

/-- A line break in an argument ends the command before the argument does. -/
theorem newline_not_mem_of_readsBack (h : launcher.ReadsBack KeyFile.strict) :
    ∀ argument ∈ launcher.command, '\n' ∉ argument := by
  by_contra hall
  have hbroken : ∃ argument ∈ launcher.command, '\n' ∈ argument := by simpa using hall
  obtain ⟨whole, value, post, hwhole, hvalue, hexec⟩ := execAll_broken hbroken ['%', 'F']
  rw [← exec_eq] at hexec
  have hunits := newline_not_mem_execUnits hvalue
  have hfirst : '\n' ∉ execAll whole ++ '"' :: value.flatMap execUnit := by
    simp [-List.mem_flatMap, newline_not_mem_execAll hwhole, hunits]
  obtain ⟨entries, hentries, hsays⟩ := h
  obtain ⟨others, rfl⟩ := readLines_broken hexec hfirst hentries
  simp only [Launcher.front, Launcher.meanings, List.cons_append, List.nil_append, List.map_cons,
    List.forall₂_cons] at hsays
  obtain ⟨-, -, -, -, -, hcommand, -⟩ := hsays
  have hread := (says_readField.mp hcommand).2
  -- What is read of the command has no line break.
  have hdrop : (execAll whole ++ '"' :: value.flatMap execUnit).dropWhile (· == ' ') =
      execAll whole ++ '"' :: value.flatMap execUnit := by
    cases whole with
    | nil => rfl
    | cons argument whole =>
      rw [execAll, List.flatMap_cons, desktopExecQuote_eq]
      rfl
  rw [Meaning.IsRead, hdrop] at hread
  obtain ⟨text, htext, hcount, -⟩ := KeyFile.count_readCommand hread
  obtain ⟨-, behind, hbehind, rfl⟩ := unescape_execAll htext
  rw [KeyFile.unescape_cons (by decide)] at hbehind
  obtain ⟨inside, hinside, rfl⟩ := Option.map_eq_some_iff.mp hbehind
  rw [← List.append_nil (value.flatMap execUnit)] at hinside
  obtain ⟨-, last, hlast, rfl⟩ := unescape_execUnits hinside
  obtain rfl : [] = last := Option.some.inj hlast
  have hnone : (launcher.command.map fun argument => argument.count '\n').sum = 0 := by
    have hdoubled : '\n' ∉ KeyFile.doubled value := mt KeyFile.mem_doubled.mp hvalue
    have hle := hcount '\n'
    rw [sum_meant, List.count_append, KeyFile.count_quoteAll (by decide),
      List.sum_eq_zero_iff_forall_eq_nat.mpr (List.forall_mem_map.mpr fun argument hargument =>
        List.count_eq_zero_of_not_mem (hwhole argument hargument)),
      List.count_eq_zero_of_not_mem (by simp [hdoubled])] at hle
    omega
  obtain ⟨argument, hargument, hmem⟩ := hbroken
  have hzero := List.sum_eq_zero_iff_forall_eq_nat.mp hnone _ (List.mem_map_of_mem hargument)
  exact List.count_eq_zero.mp hzero hmem

end Entry

/-! ## What is installed -/

section Installed

variable {unicode : UnicodeTables} {parsed : InstallArguments}

/-- What `InstallArguments::parse` has checked of a request and an environment. -/
structure Accepted (unicode : UnicodeTables) (request : StartRequest)
    (environment : ProcessEnvironment) : Prop where
  run : request.kind = .run
  program : ∃ program rest, request.argv = program :: rest ∧ endsInExe program = true
  directory : request.workingDirectory ≠ some ""
  names : ∀ entry ∈ environment.vars, entry.1.toList ≠ [] ∧ '=' ∉ entry.1.toList
  environment : ProcessEnvironment.new unicode environment.vars = .ok environment

theorem not_mem_of_splitOnce {sep : Char} {s before after : Str}
    (h : splitOnce sep s = some (before, after)) : sep ∉ before := by
  induction s generalizing before with
  | nil => cases h
  | cons c s ih =>
    rw [splitOnce] at h
    split at h
    · obtain ⟨rfl, -⟩ := Prod.mk.inj (Option.some.inj h)
      simp
    · rename_i hc
      obtain ⟨⟨before', after'⟩, hrest, heq⟩ := Option.map_eq_some_iff.mp h
      obtain ⟨rfl, rfl⟩ := Prod.mk.inj heq
      simpa [Ne.symm hc] using ih hrest

/-- What every option keeps. -/
def Sane (options : Options) : Prop :=
  options.workingDirectory ≠ some [] ∧
    ∀ entry ∈ options.environment, entry.1 ≠ [] ∧ '=' ∉ entry.1

/-- Setting an option keeps the options sane. -/
theorem sane_setOption {dialect : Dialect} {option : ValueOption} {value : Str}
    {options next : Options} (hoptions : Sane options)
    (h : dialect.setOption option value options = .ok next) : Sane next := by
  obtain ⟨hdirectory, hnames⟩ := hoptions
  cases option with
  | cwd =>
    obtain ⟨hvalue, -, rfl⟩ := setOption_cwd_eq_ok.mp h
    exact ⟨by simpa using hvalue, hnames⟩
  | env =>
    obtain ⟨entry, hentry, rfl⟩ := setOption_env_eq_ok.mp h
    obtain ⟨hsplit, hne⟩ := parseGuestEnvironment_eq_ok.mp hentry
    refine ⟨hdirectory, fun other hother => ?_⟩
    rcases List.mem_append.mp hother with hmem | hmem
    · exact hnames other hmem
    · obtain rfl := List.mem_singleton.mp hmem
      exact ⟨hne, not_mem_of_splitOnce hsplit⟩
  | title =>
    obtain ⟨-, -, rfl⟩ := setOption_title_eq_ok.mp h
    exact ⟨hdirectory, hnames⟩

theorem sane_parseOptions {dialect : Dialect} {words : List Str} {left : Nat} {options : Options}
    (h : dialect.parseOptions words left {} = .ok options) : Sane options := by
  refine parseOptions_rule (P := Sane) ?_ ?_ (fun _ => id) ⟨by simp, by simp⟩ h
  · intro word _ before after hbefore htake
    rcases takeWord_cases htake with ⟨detached, gui, translateFiles, rfl⟩ |
      ⟨option, value, -, hset⟩ | ⟨-, rfl⟩
    · exact hbefore
    · exact sane_setOption hbefore hset
    · exact hbefore
  · exact fun option value _ _ _ hbefore hset => sane_setOption hbefore hset

/-- What is accepted has been checked. -/
theorem accepted_of_parse {arguments : List Str}
    (h : (installParser unicode).parse arguments = .ok parsed) :
    Accepted unicode parsed.request parsed.environment := by
  simp only [CommandParser.parse, bind_eq_ok, rejectIf_eq_ok, exists_const] at h
  obtain ⟨separator, -, -, options, hoptions, hfinish⟩ := h
  have hsane := sane_parseOptions hoptions
  simp only [installParser, finishInstall, bind_eq_ok, mapError_eq_ok, pure_eq_ok_iff] at hfinish
  obtain ⟨environment, henvironment, payload, hpayload, rfl⟩ := hfinish
  obtain ⟨-, hstart, -⟩ := GuiStartRequest.encode_eq_ok.mp hpayload
  obtain ⟨hrun, ⟨program, hprogram, hexe⟩, -⟩ := validateGuiStart_iff.mp hstart
  have hvars := new_eq_ok henvironment
  obtain ⟨rest, hargv⟩ := List.head?_eq_some_iff.mp hprogram
  refine ⟨hrun, ⟨program, rest, hargv, hexe⟩, ?_, ?_, ?_⟩
  · intro hnone
    obtain ⟨directory, hdirectory, hempty⟩ := Option.map_eq_some_iff.mp hnone
    exact hsane.1 (by rw [hdirectory, String.ofList_eq_empty_iff.mp hempty])
  · rw [hvars, Options.vars, List.forall_mem_map]
    intro entry hentry
    simpa using hsane.2 entry hentry
  · rw [hvars]
    exact henvironment

end Installed

/-! ## What `lsw run` reads -/

section Run

variable {unicode : UnicodeTables}

/-- The words of the variables are read as the variables. -/
theorem parseOptions_variables {dialect : Dialect} {vars : List (String × String)}
    (h : ∀ entry ∈ vars, entry.1.toList ≠ [] ∧ '=' ∉ entry.1.toList) (rest : List Str)
    (options : Options) :
    dialect.parseOptions (variableWords vars ++ rest) (variableWords vars).length options =
      .ok { options with environment := options.environment ++ varTexts vars } := by
  induction vars generalizing options with
  | nil => simp [variableWords, varTexts, Dialect.parseOptions]
  | cons entry vars ih =>
    obtain ⟨⟨hne, hname⟩, hvars⟩ := List.forall_mem_cons.mp h
    have htakes : dialect.option? "--env".toList = some .env :=
      @option?_long dialect .env fun henv => by cases henv
    have hset : dialect.setOption .env (entry.1.toList ++ '=' :: entry.2.toList) options =
        .ok { options with
          environment := options.environment ++ [(entry.1.toList, entry.2.toList)] } :=
      setOption_env_eq_ok.mpr
        ⟨_, parseGuestEnvironment_eq_ok.mpr ⟨splitOnce_append hname _, hne⟩, rfl⟩
    have hwords : variableWords (entry :: vars) =
        "--env".toList :: (entry.1.toList ++ '=' :: entry.2.toList) :: variableWords vars := rfl
    rw [hwords, List.cons_append, List.cons_append, List.length_cons, List.length_cons,
      parseOptions_value htakes, hset, ok_bind, Nat.add_sub_cancel, ih hvars]
    simp [varTexts]

/-- A valid name starts with a letter or a digit. -/
theorem exists_of_isName {limit : Nat} {name : Str} (h : isName limit name = true) :
    ∃ c rest, name = c :: rest ∧ c ≠ '-' ∧ c ≠ ' ' := by
  cases name with
  | nil => simp [isName] at h
  | cons c rest =>
    simp only [isName, Bool.and_eq_true] at h
    have hfirst := h.2.1
    refine ⟨c, rest, rfl, ?_, ?_⟩
    all_goals
      rintro rfl
      rw [bytes_cons_of_ascii (by decide), List.head?_cons, Option.any_some] at hfirst
      exact absurd hfirst (by decide)

/-- A valid name is no option. -/
theorem takeWord_name {dialect : Dialect} {limit : Nat} {name : Str}
    (h : isName limit name = true) : name ≠ dashes ∧ dialect.option? name = none ∧
      dialect.takeWord name {} = .ok { requested := some name } := by
  obtain ⟨c, rest, rfl, hc, -⟩ := exists_of_isName h
  refine ⟨by simp [dashes, hc], by simp [Dialect.option?, hc], ?_⟩
  simp [Dialect.takeWord, Dialect.attached?, hc, Ne.symm hc, rejectIf]

variable {launcher : Launcher}

/-- The words in front of the command that `lsw run` reads. -/
def runOptions (launcher : Launcher) : List Str :=
  [launcher.instanceName, "--gui".toList, "--translate-files".toList] ++ launcher.options

/-- What these options say. -/
def runResult (launcher : Launcher) : Options where
  requested := some launcher.instanceName
  workingDirectory := launcher.request.workingDirectory.map String.toList
  environment := varTexts launcher.environment.vars
  gui := true
  translateFiles := true

/-- The words in front of the separator are read as the options of the launcher. -/
theorem parseOptions_run (h : Accepted unicode launcher.request launcher.environment)
    (hname : isName 63 launcher.instanceName = true) (rest : List Str) :
    (guestDialect .run).parseOptions (runOptions launcher ++ rest) (runOptions launcher).length {} =
      .ok (runResult launcher) := by
  -- The two flags are words of the dialect, and are taken once.
  have hgui : (guestDialect .run).option? "--gui".toList = none ∧ ∀ options : Options,
      options.gui = false → (guestDialect .run).takeWord "--gui".toList options =
        .ok { options with gui := true } := by
    refine ⟨by decide, fun options hoptions => ?_⟩
    simp [Dialect.takeWord, rejectIf, hoptions]
  have hfiles : (guestDialect .run).option? "--translate-files".toList = none ∧
      ∀ options : Options, options.translateFiles = false →
        (guestDialect .run).takeWord "--translate-files".toList options =
          .ok { options with translateFiles := true } := by
    refine ⟨by decide, fun options hoptions => ?_⟩
    simp [Dialect.takeWord, rejectIf, hoptions]
  -- So is the name of the instance.
  obtain ⟨-, hplain, htake⟩ := @takeWord_name (guestDialect .run) 63 _ hname
  have hwords : runOptions launcher = launcher.instanceName :: "--gui".toList ::
      "--translate-files".toList :: launcher.options := rfl
  rw [hwords, List.length_cons, List.length_cons, List.length_cons, List.cons_append,
    parseOptions_word hplain, htake, ok_bind, List.cons_append, parseOptions_word hgui.1,
    hgui.2 _ rfl, ok_bind, List.cons_append, parseOptions_word hfiles.1, hfiles.2 _ rfl, ok_bind,
    Launcher.options, runResult]
  cases hdirectory : launcher.request.workingDirectory with
  | none =>
    rw [Option.elim_none, List.nil_append, parseOptions_variables h.names]
    rfl
  -- A directory that was given is not empty, so that it can be the value of its option.
  | some directory =>
    have hne : directory.toList ≠ [] := by
      intro hempty
      exact h.directory (by rw [hdirectory, String.toList_eq_nil_iff.mp hempty])
    have hcwd : (guestDialect .run).option? "--cwd".toList = some .cwd := by decide
    have hset : ∀ options : Options, options.workingDirectory = none →
        (guestDialect .run).setOption .cwd directory.toList options =
          .ok { options with workingDirectory := some directory.toList } :=
      fun options hnone => setOption_cwd_eq_ok.mpr ⟨hne, hnone, rfl⟩
    rw [Option.elim_some, List.cons_append, List.singleton_append, List.length_cons,
      List.length_cons, List.cons_append, List.cons_append, parseOptions_value hcwd, hset _ rfl,
      ok_bind, Nat.add_sub_cancel, parseOptions_variables h.names]
    rfl

/-- The separator stands nowhere in front of itself, unless it is the directory. -/
theorem dashes_not_mem_runOptions (hname : isName 63 launcher.instanceName = true)
    (hdirectory : launcher.request.workingDirectory ≠ some "--") : dashes ∉ runOptions launcher := by
  have hfirst := (@takeWord_name (guestDialect .run) 63 _ hname).1
  -- A variable has an equals sign in its word.
  have hvariables : dashes ∉ variableWords launcher.environment.vars := by
    rw [variableWords, List.mem_flatMap]
    rintro ⟨⟨name, value⟩, -, hmem⟩
    simp only [List.mem_cons, List.not_mem_nil, or_false] at hmem
    rcases hmem with hmem | hmem
    · exact absurd hmem (by decide)
    · have hsep : '=' ∈ dashes := hmem ▸ by simp
      exact absurd hsep (by decide)
  -- The directory is not the separator, by hypothesis.
  have hcwd : dashes ∉ launcher.request.workingDirectory.elim [] fun directory =>
      ["--cwd".toList, directory.toList] := by
    cases hcase : launcher.request.workingDirectory with
    | none => simp
    | some directory =>
      have hne : dashes ≠ directory.toList := by
        intro heq
        have hdashes : "--".toList = dashes := by decide
        rw [hcase, String.toList_inj.mp (hdashes.trans heq)] at hdirectory
        exact hdirectory rfl
      simp only [Option.elim_some, List.mem_cons, List.not_mem_nil, or_false, not_or]
      exact ⟨by decide, hne⟩
  rw [runOptions, Launcher.options]
  simp only [List.mem_append, List.mem_cons, List.not_mem_nil, or_false, not_or]
  exact ⟨⟨Ne.symm hfirst, by decide, by decide⟩, hcwd, hvariables⟩

theorem texts_append (left right : List String) :
    texts left ++ texts right = texts (left ++ right) := by
  rw [texts, texts, texts, List.map_append]

theorem ofList_texts (values : List String) : (texts values).map String.ofList = values := by
  simp [texts, Function.comp_def]

theorem request_runResult (h : launcher.request.kind = .run) (argv : List String) :
    (runResult launcher).request .run (texts argv) = { launcher.request with argv := argv } := by
  rw [Options.request, ofList_texts, ← h]
  simp [runResult, Function.comp_def]

theorem vars_runResult : (runResult launcher).vars = launcher.environment.vars := by
  simp [Options.vars, runResult, varTexts, Function.comp_def]

/-- The command is read as the request, unless its directory is the separator. -/
theorem parsesBack_of_ne (h : Accepted unicode launcher.request launcher.environment)
    (hname : isName 63 launcher.instanceName = true)
    (hdirectory : launcher.request.workingDirectory ≠ some "--") : launcher.ParsesBack unicode := by
  intro files
  obtain ⟨program, rest, hargv, hexe⟩ := h.program
  -- The arguments are the options, the separator and the command.
  have harguments : launcher.runArguments ++ texts files =
      runOptions launcher ++ dashes :: texts (launcher.request.argv ++ files) := by
    rw [Launcher.runArguments, runOptions, ← texts_append]
    exact List.append_assoc _ (dashes :: texts launcher.request.argv) (texts files)
  have hne : texts (launcher.request.argv ++ files) ≠ [] := by simp [texts, hargv]
  -- The files come last, so the program is that of the request.
  have hhead : endsInExe ((launcher.request.argv ++ files).headD "") = true := by
    rw [hargv]
    exact hexe
  rw [harguments, parse_append (dashes_not_mem_runOptions hname hdirectory),
    CommandOptions.readOptions, if_neg hne]
  refine (congrArg (· >>= _) (parseOptions_run h hname _)).trans ?_
  -- The options are read as what was given.
  have hfinish : finishGuest unicode .run (runResult launcher)
      (texts (launcher.request.argv ++ files)) = .ok
        { requested := some launcher.instanceName
          request := { launcher.request with argv := launcher.request.argv ++ files }
          environment := launcher.environment
          detached := false
          gui := true
          translateFiles := true } := by
    simp only [finishGuest, request_runResult h.run, vars_runResult, h.environment, hhead]
    rfl
  exact hfinish

/-- Where the directory is the separator, the command starts right behind it. -/
theorem ne_of_parsesBack (hname : isName 63 launcher.instanceName = true)
    (h : launcher.ParsesBack unicode) : launcher.request.workingDirectory ≠ some "--" := by
  intro hdirectory
  obtain ⟨hfirst, hplain, -⟩ := @takeWord_name (guestDialect .run) 63 _ hname
  -- In front of the option stand three words.
  have hfront : IsComplete (guestDialect .run)
      [launcher.instanceName, "--gui".toList, "--translate-files".toList] :=
    .word hplain (.word (by decide) (.word (by decide) .nil))
  have hdashes : dashes ∉ [launcher.instanceName, "--gui".toList, "--translate-files".toList] := by
    simp only [List.mem_cons, List.not_mem_nil, or_false, not_or]
    exact ⟨Ne.symm hfirst, by decide, by decide⟩
  -- The launcher as it is without files.
  have hread := h []
  have harguments : launcher.runArguments ++ texts [] =
      [launcher.instanceName, "--gui".toList, "--translate-files".toList] ++ "--cwd".toList ::
        dashes :: (variableWords launcher.environment.vars ++
          dashes :: texts launcher.request.argv) := by
    have hword : "--".toList = dashes := by decide
    rw [Launcher.runArguments, Launcher.options, hdirectory, Option.elim_some, hword]
    simp [texts]
  have hcwd : (guestDialect .run).option? "--cwd".toList = some .cwd := by decide
  -- The separator is taken for the value, and what comes behind it for the command.
  rw [harguments, @parse_dangling _ (guestParser unicode .run) _ _ _ .cwd hfront hdashes hcwd,
    CommandOptions.readOptions] at hread
  split at hread
  · cases hread
  · obtain ⟨options, -, hfinish⟩ := bind_eq_ok.mp hread
    -- Then the command that is read is not the one that was meant.
    have htaken := congrArg Taken.argv ((guestParser unicode .run).taken_finish _ _ _ hfinish)
    have hlength := congrArg List.length htaken
    simp [guestParser, texts, Options.taken] at hlength
    omega

end Run

/-! ## Which launchers are read as they were meant -/

section Exact

variable {unicode : UnicodeTables} {launcher : Launcher}

/-- What an installed launcher is made of. -/
structure Formed (unicode : UnicodeTables) (launcher : Launcher) : Prop where
  accepted : Accepted unicode launcher.request launcher.environment
  name : isName 63 launcher.instanceName = true
  title : kept launcher.title = launcher.title
  id : kept launcher.id = launcher.id
  icon : launcher.icon.head? ≠ some ' '
  lsw : launcher.lsw.head? ≠ some ' '

theorem head?_ne_of_isAbsolute {path : Str} (h : isAbsolute '/' path = true) :
    path.head? ≠ some ' ' := by
  rw [isAbsolute, beq_iff_eq] at h
  rw [h]
  decide

theorem isAbsolute_joinPath {base : Str} (h : isAbsolute '/' base = true) (rel : Str) :
    isAbsolute '/' (joinPath '/' base rel) = true := by
  rw [joinPath]
  split
  · assumption
  · obtain ⟨rest, rfl⟩ : ∃ rest, base = '/' :: rest :=
      List.head?_eq_some_iff.mp (by simpa [isAbsolute] using h)
    split <;> rfl

theorem kept_title {title : Str} (h : validateTitle title = .ok ()) : kept title = title := by
  simp only [validateTitle, rejectIf_eq_ok, not_or, not_not, Bool.not_eq_true,
    List.any_eq_false] at h
  obtain ⟨htrim, -, -, hchars⟩ := h
  refine kept_eq_self_iff.mpr ⟨fun hmem => ?_, fun hhead => ?_⟩
  · simpa using hchars '\r' hmem
  · obtain ⟨rest, rfl⟩ := List.head?_eq_some_iff.mp hhead
    have hfront := (trim_eq_self_iff.mp htrim).1
    rw [List.dropWhile_cons_of_pos (by decide)] at hfront
    have hlength := (List.dropWhile_suffix isWhitespace (l := rest)).length_le
    rw [hfront, List.length_cons] at hlength
    omega

theorem kept_id {id : Str} (h : validateId id = .ok ()) : kept id = id := by
  simp only [validateId, rejectIf_eq_ok, not_or, Bool.not_eq_false, List.all_eq_true] at h
  obtain ⟨-, -, hchars⟩ := h
  refine kept_eq_self_iff.mpr ⟨fun hmem => ?_, fun hhead => ?_⟩
  · exact absurd (hchars '\r' hmem) (by decide)
  · exact absurd (hchars ' ' (List.mem_of_head? hhead)) (by decide)

theorem kept_name {limit : Nat} {name : Str} (h : isName limit name = true) : kept name = name := by
  obtain ⟨c, rest, rfl, -, hspace⟩ := exists_of_isName h
  exact kept_eq_self_iff.mpr ⟨(oneLine_of_isName h).2, by simpa using hspace⟩

/-- The comment is as long as the title and the name. -/
theorem kept_comment {title name : Str} (htitle : kept title = title) (hname : kept name = name) :
    kept ("Run ".toList ++ title ++ " in LSW instance ".toList ++ name) =
      "Run ".toList ++ title ++ " in LSW instance ".toList ++ name := by
  have hrun : '\r' ∉ "Run ".toList := by decide
  have hin : '\r' ∉ " in LSW instance ".toList := by decide
  refine kept_eq_self_iff.mpr ⟨?_, ?_⟩
  · simp only [List.mem_append, not_or]
    exact ⟨⟨⟨hrun, (kept_eq_self_iff.mp htitle).1⟩, hin⟩, (kept_eq_self_iff.mp hname).1⟩
  · simp

theorem formed_of_installed {parsed : InstallArguments} {arguments : List Str}
    {name icons executable : Str} (hparse : (installParser unicode).parse arguments = .ok parsed)
    (hname : validateInstanceName name = .ok ()) (hicons : isAbsolute '/' icons = true)
    (hexecutable : isAbsolute '/' executable = true)
    (h : installed parsed name icons executable = .ok launcher) : Formed unicode launcher := by
  simp only [installed, bind_eq_ok, pure_eq_ok_iff] at h
  obtain ⟨_, htitle, _, hid, rfl⟩ := h
  have hvalid : isName 63 name = true := by simpa [validateInstanceName] using hname
  generalize parsed.title.getD (defaultTitle (parsed.request.argv.headD "").toList) = title
    at htitle hid ⊢
  have hicon := isAbsolute_joinPath hicons (launcherId name title ++ ".ico".toList)
  exact ⟨accepted_of_parse hparse, hvalid, kept_title htitle, kept_id hid,
    head?_ne_of_isAbsolute hicon, head?_ne_of_isAbsolute hexecutable⟩

/-- Any program that follows the specification reads a readable launcher as it was meant. -/
theorem readsBack_of_readable (hformed : Formed unicode launcher) (h : launcher.Readable)
    (reading : KeyFile.Reading) : launcher.ReadsBack reading := by
  have hplain : ∀ argument ∈ launcher.command, ∀ c ∈ argument, KeyFile.isEscaped c = false :=
    fun argument hargument c hc => (h.command argument hargument c hc).1
  have hnewline : ∀ argument ∈ launcher.command, '\n' ∉ argument :=
    fun argument hargument hmem => (h.command argument hargument '\n' hmem).2 rfl
  have hexec : '\n' ∉ launcher.exec := by
    rw [exec_eq, List.mem_append, not_or]
    exact ⟨newline_not_mem_execAll hnewline, by decide⟩
  have hname := kept_name hformed.name
  refine (readsBack_iff hexec).mpr ⟨⟨hformed.title, kept_comment hformed.title hname, ?_⟩, ?_, ?_,
    hformed.id, hname, kept_eq_self_iff.mpr h.program⟩
  · exact kept_eq_self_iff.mpr ⟨h.lsw, hformed.lsw⟩
  · rw [exec_eq, execAll_eq hplain, KeyFile.readCommand_quoteAll hplain]
  · exact kept_eq_self_iff.mpr ⟨h.icon, hformed.icon⟩

/-- What is read as it was meant by the rules alone, and by `lsw run`, is readable. -/
theorem readable_of_readsBack (hformed : Formed unicode launcher)
    (h : launcher.ReadsBack KeyFile.strict) (hparse : launcher.ParsesBack unicode) :
    launcher.Readable := by
  have hnewline := newline_not_mem_of_readsBack h
  have hexec : '\n' ∉ launcher.exec := by
    rw [exec_eq, List.mem_append, not_or]
    exact ⟨newline_not_mem_execAll hnewline, by decide⟩
  obtain ⟨⟨-, -, hlsw⟩, hcommand, hicon, -, -, hprogram⟩ := (readsBack_iff hexec).mp h
  rw [exec_eq] at hcommand
  have hplain := plain_of_readCommand hcommand
  refine ⟨fun argument hargument c hc => ⟨hplain argument hargument c hc, ?_⟩,
    ne_of_parsesBack hformed.name hparse, (kept_eq_self_iff.mp hlsw).1,
    (kept_eq_self_iff.mp hicon).1, kept_eq_self_iff.mp hprogram⟩
  rintro rfl
  exact hnewline argument hargument hc

end Exact

/-- An installed launcher is read as it was meant, by every program that follows the specification
    and by `lsw run`, exactly when it is readable. -/
theorem launchers_are_read_back_iff (unicode : UnicodeTables) (arguments : List Str)
    (parsed : InstallArguments) (name icons executable : Str) (launcher : Launcher)
    (hparse : (installParser unicode).parse arguments = .ok parsed)
    (hname : validateInstanceName name = .ok ()) (hicons : isAbsolute '/' icons = true)
    (hexecutable : isAbsolute '/' executable = true)
    (h : installed parsed name icons executable = .ok launcher) :
    ((∀ reading, launcher.ReadsBack reading) ∧ launcher.ParsesBack unicode ↔ launcher.Readable) ∧
      (launcher.meanings.map Prod.fst).Nodup := by
  have hformed := formed_of_installed hparse hname hicons hexecutable h
  refine ⟨⟨fun hread => ?_, fun hreadable => ?_⟩, ?_⟩
  · exact readable_of_readsBack hformed (hread.1 KeyFile.strict) hread.2
  · exact ⟨readsBack_of_readable hformed hreadable,
      parsesBack_of_ne hformed.accepted hformed.name hreadable.directory⟩
  · simp [Launcher.meanings]

/-! ## A launcher in a directory -/

/-- A launcher that starts in a directory. -/
def inDirectory (directory : String) : Launcher where
  title := "viewer".toList
  id := "lsw-win-dev-viewer".toList
  instanceName := "win-dev".toList
  icon := "/icons/lsw-win-dev-viewer.ico".toList
  lsw := "/usr/bin/lsw".toList
  request := { kind := .run, argv := ["viewer.exe"], workingDirectory := some directory }
  environment := { vars := [("MODE", "100%")] }

/-- What is parsed for it. -/
def parsedInDirectory (directory : String) : InstallArguments where
  requested := none
  title := none
  request := (inDirectory directory).request
  environment := (inDirectory directory).environment

/-- The words that ask for it. -/
def wordsInDirectory (directory : String) : List Str :=
  ["--cwd".toList, directory.toList, "-e".toList, "MODE=100%".toList, dashes, "viewer.exe".toList]

/-- With slashes in its directory, the launcher is read as it was meant. -/
theorem launcher_is_read_back : (∀ reading, (inDirectory "C:/Work").ReadsBack reading) ∧
    (inDirectory "C:/Work").ParsesBack plainTables := by
  have hall : ((inDirectory "C:/Work").command.all fun argument =>
      argument.all fun c => !KeyFile.isEscaped c && c != '\n') = true := by
    decide +kernel
  have hcommand : ∀ argument ∈ (inDirectory "C:/Work").command,
      ∀ c ∈ argument, KeyFile.isEscaped c = false ∧ c ≠ '\n' := by
    simpa only [List.all_eq_true, Bool.and_eq_true, Bool.not_eq_true', bne_iff_ne] using hall
  have hreadable : (inDirectory "C:/Work").Readable :=
    ⟨hcommand, by decide, by decide, by decide, by decide⟩
  exact (launchers_are_read_back_iff plainTables (wordsInDirectory "C:/Work")
    (parsedInDirectory "C:/Work") "win-dev".toList "/icons".toList "/usr/bin/lsw".toList
    (inDirectory "C:/Work") rfl rfl rfl rfl rfl).1.mpr hreadable

set_option maxRecDepth 8000 in
/-- The backslash at the end of a drive escapes the quote behind it, for every reading. -/
theorem drive_is_not_read_back :
    (installParser plainTables).parse (wordsInDirectory "C:\\") = .ok (parsedInDirectory "C:\\") ∧
    installed (parsedInDirectory "C:\\") "win-dev".toList "/icons".toList "/usr/bin/lsw".toList =
      .ok (inDirectory "C:\\") ∧
    ∀ reading, ¬ (inDirectory "C:\\").ReadsBack reading := by
  refine ⟨rfl, rfl, fun reading h => ?_⟩
  have hexec : '\n' ∉ (inDirectory "C:\\").exec := by decide +kernel
  have hread := ((readsBack_iff hexec).mp h).2.1
  have hnone : KeyFile.readCommand reading (inDirectory "C:\\").exec = none := by rfl
  rw [hnone] at hread
  cases hread

end Lsw.Cli.DesktopLauncher
