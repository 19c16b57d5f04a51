import Lsw.Cli.CommandOptions
import Lsw.Protocol.GuiMessages

/-!
# The Argument Vectors of `run`, `exec` and `app install`

The two parsers are `CommandParser`s: `GuestCommandArguments::parse` (`guest.rs`) and
`InstallArguments::parse` (`desktop_launcher.rs`).  The words before the first `--` should be the
options and their values, those behind it the command, and both spellings of a value should mean the
same (`Sound`).

An option that stands right before the separator takes the separator as its value, and a value
behind an equals sign loses every repetition of the option.  `Plain` says of a vector that neither
makes a difference: no such option is reached with everything else in order, and no such value
stands in a vector that is accepted in one of its spellings.
-/

namespace Lsw.Cli.CommandOptions

open Lsw.Lib Lsw.Protocol

/-! ## The two parsers -/

/-- `GuestCommandArguments`. -/
structure GuestCommandArguments where
  requested : Option Str
  request : StartRequest
  environment : ProcessEnvironment
  detached : Bool
  gui : Bool
  translateFiles : Bool
  deriving DecidableEq

/-- `InstallArguments`. -/
structure InstallArguments where
  requested : Option Str
  title : Option Str
  request : StartRequest
  environment : ProcessEnvironment
  deriving DecidableEq

/-- The environment that the options name. -/
def Options.vars (options : Options) : List (String × String) :=
  options.environment.map fun (name, value) => (String.ofList name, String.ofList value)

/-- The request for the command. -/
def Options.request (options : Options) (kind : SessionKind) (argv : List Str) : StartRequest where
  kind := kind
  argv := argv.map String.ofList
  workingDirectory := options.workingDirectory.map String.ofList

/-- The `command_name` of a session kind. -/
def commandName : SessionKind → String
  | .run => "run"
  | .exec => "exec"
  | .shell => "shell"

/-- The options of `GuestCommandArguments::parse`. -/
def guestDialect (kind : SessionKind) : Dialect where
  usage := "usage: lsw " ++ commandName kind ++ " [NAME] [--cwd PATH] [--env KEY=VALUE]" ++
    (if kind = .run then " [--detach|--gui] [--translate-files]" else "") ++
    " -- COMMAND [ARG ...]"
  cwdError := "--cwd requires one non-empty path and may appear only once"
  takesTitle := false
  takesFlags := kind = .run

@[simp] theorem takesTitle_guestDialect (kind : SessionKind) :
    (guestDialect kind).takesTitle = false := rfl

@[simp] theorem takesFlags_guestDialect (kind : SessionKind) :
    (guestDialect kind).takesFlags = (kind = .run : Bool) := rfl

/-- The options of `InstallArguments::parse`. -/
def installDialect : Dialect where
  usage := "usage: lsw app install [NAME] [--title TITLE] [--cwd PATH] [-e KEY=VALUE] -- PROGRAM.exe [ARG ...] | lsw app <list|remove ID>"
  cwdError := "--cwd requires one non-empty path"
  takesTitle := true
  takesFlags := false

/-- The end of `GuestCommandArguments::parse`. -/
def finishGuest (unicode : UnicodeTables) (kind : SessionKind) (options : Options)
    (argv : List Str) : Except ArgumentError GuestCommandArguments := do
  rejectIf (options.detached = true ∧ options.gui = true)
    (.text "--detach and --gui are mutually exclusive")
  rejectIf (options.translateFiles = true ∧ options.gui = false)
    (.text "--translate-files requires --gui")
  let request := options.request kind argv
  rejectIf (options.gui = true ∧ endsInExe (request.argv.headD "") = false)
    (.text "--gui requires a PROGRAM.exe command")
  let environment ← (ProcessEnvironment.new unicode options.vars).mapError .protocol
  return { requested := options.requested, request, environment, detached := options.detached,
           gui := options.gui, translateFiles := options.translateFiles }

/-- The end of `InstallArguments::parse`. -/
def finishInstall (unicode : UnicodeTables) (options : Options) (argv : List Str) :
    Except ArgumentError InstallArguments := do
  let request := options.request .run argv
  let environment ← (ProcessEnvironment.new unicode options.vars).mapError .protocol
  let start : GuiStartRequest :=
    { userName := "validation-user", request, environment, mountLiveShare := false }
  let _ ← (start.encode unicode).mapError .protocol
  return { requested := options.requested, title := options.title, request, environment }

/-- The texts of a list of strings. -/
def texts (values : List String) : List Str := values.map String.toList

def varTexts (vars : List (String × String)) : List (Str × Str) :=
  vars.map fun (name, value) => (name.toList, value.toList)

theorem texts_ofList (values : List Str) : texts (values.map String.ofList) = values := by
  simp [texts, Function.comp_def]

theorem varTexts_vars (options : Options) : varTexts options.vars = options.environment := by
  simp [varTexts, Options.vars, Function.comp_def]

theorem workingDirectory_request (options : Options) (kind : SessionKind) (argv : List Str) :
    (options.request kind argv).workingDirectory.map String.toList = options.workingDirectory := by
  simp [Options.request, Function.comp_def]

theorem new_eq_ok {unicode : UnicodeTables} {vars : List (String × String)}
    {environment : ProcessEnvironment} (h : ProcessEnvironment.new unicode vars = .ok environment) :
    environment.vars = vars := by
  simp only [ProcessEnvironment.new, bind_eq_ok, pure_eq_ok_iff] at h
  obtain ⟨-, -, rfl⟩ := h
  rfl

/-- `GuestCommandArguments::parse`. -/
def guestParser (unicode : UnicodeTables) (kind : SessionKind) :
    CommandParser GuestCommandArguments where
  dialect := guestDialect kind
  finish := finishGuest unicode kind
  taken result :=
    { requested := result.requested
      title := none
      workingDirectory := result.request.workingDirectory.map String.toList
      environment := varTexts result.environment.vars
      argv := texts result.request.argv }
  taken_finish options argv result h := by
    simp only [finishGuest, bind_eq_ok, rejectIf_eq_ok, mapError_eq_ok, pure_eq_ok_iff,
      exists_const] at h
    obtain ⟨-, -, -, environment, henvironment, rfl⟩ := h
    simp only [new_eq_ok henvironment, varTexts_vars, workingDirectory_request]
    simp [Options.taken, Options.request, texts_ofList]

/-- `InstallArguments::parse`. -/
def installParser (unicode : UnicodeTables) : CommandParser InstallArguments where
  dialect := installDialect
  finish := finishInstall unicode
  taken result :=
    { requested := result.requested
      title := result.title
      workingDirectory := result.request.workingDirectory.map String.toList
      environment := varTexts result.environment.vars
      argv := texts result.request.argv }
  taken_finish options argv result h := by
    simp only [finishInstall, bind_eq_ok, mapError_eq_ok, pure_eq_ok_iff] at h
    obtain ⟨environment, henvironment, -, -, rfl⟩ := h
    simp only [new_eq_ok henvironment, varTexts_vars, workingDirectory_request]
    simp [Options.taken, Options.request, texts_ofList, installDialect]

/-! ## What a parser should do -/

section Parser

variable {ρ : Type} (parser : CommandParser ρ)

/-- The words before the separator are the options and those behind it the command; both spellings
    mean the same, and an option without a value is refused. -/
structure Sound (arguments : List Str) : Prop where
  drawn : ∀ result, parser.parse arguments = .ok result → ∃ before options, dashes ∉ before ∧
    arguments = before ++ dashes :: (parser.taken result).argv ∧ DrawnFrom before options ∧
    parser.taken result = options.taken parser.dialect (parser.taken result).argv
  attach : ∀ front option value post, arguments = front ++ ValueOption.long option :: value :: post →
    IsComplete parser.dialect front → dashes ∉ front → value ≠ dashes →
      (parser.parse (front ++ (option.attached ++ value) :: post)).toOption =
        (parser.parse arguments).toOption
  detach : ∀ front option value post,
    arguments = front ++ (ValueOption.attached option ++ value) :: post →
    IsComplete parser.dialect front → dashes ∉ front → value ≠ dashes →
      (parser.parse (front ++ option.long :: value :: post)).toOption =
        (parser.parse arguments).toOption
  dangling : ∀ front word after, arguments = front ++ word :: dashes :: after →
    IsComplete parser.dialect front → dashes ∉ front → (parser.dialect.option? word).isSome = true →
      (parser.parse arguments).toOption = none

/-- The vector is accepted: the words before the separator are read, with the separator as a value
    where the last of them lacks one, and the command goes with what they say. -/
def Accepted (arguments : List Str) : Prop :=
  ∃ before after words options, arguments = before ++ dashes :: after ∧ dashes ∉ before ∧
    after ≠ [] ∧ (words = before ∨ words = before ++ [dashes]) ∧
      Reads parser.dialect {} words options ∧ ∃ result, parser.finish options after = .ok result

/-- An option that the loop reaches right before the separator is `--env`, or has a value already,
    or the command does not go with what it would say; and a value starts with its own option only
    where neither spelling is accepted. -/
structure Plain (arguments : List Str) : Prop where
  ended : ∀ front word after option options, arguments = front ++ word :: dashes :: after →
    dashes ∉ front → Reads parser.dialect {} front options →
    parser.dialect.option? word = some option →
      option = .env ∨ options.Given option ∨ after = [] ∨
        ∀ result, parser.finish (options.put option dashes) after ≠ .ok result
  attach : ∀ front option value post, arguments = front ++ ValueOption.long option :: value :: post →
    IsComplete parser.dialect front → dashes ∉ front → value ≠ dashes →
    parser.dialect.Takes option → option.attached <+: value →
      ¬ Accepted parser arguments ∧ ¬ Accepted parser (front ++ (option.attached ++ value) :: post)
  detach : ∀ front option value post,
    arguments = front ++ (ValueOption.attached option ++ value) :: post →
    IsComplete parser.dialect front → dashes ∉ front → value ≠ dashes →
    parser.dialect.Takes option → option.attached <+: value →
      ¬ Accepted parser arguments ∧ ¬ Accepted parser (front ++ option.long :: value :: post)

end Parser

/-! ## Where the command starts -/

section Separator

variable {ρ : Type} {parser : CommandParser ρ}

theorem exists_separator (words : List Str) :
    dashes ∉ words ∨ ∃ before after, words = before ++ dashes :: after ∧ dashes ∉ before := by
  by_cases h : dashes ∈ words
  · exact .inr (List.eq_append_cons_of_mem h)
  · exact .inl h

theorem findIdx?_dashes {before : List Str} (h : dashes ∉ before) (after : List Str) :
    (before ++ dashes :: after).findIdx? (· = dashes) = some before.length := by
  induction before with
  | nil => simp [List.findIdx?_cons]
  | cons word before ih =>
    obtain ⟨hword, hrest⟩ := not_or.mp (mt List.mem_cons.mpr h)
    rw [List.cons_append, List.findIdx?_cons, ih hrest]
    simp [Ne.symm hword]

theorem parse_without {arguments : List Str} (h : dashes ∉ arguments) :
    parser.parse arguments = .error (.text parser.dialect.usage) := by
  have hnone : arguments.findIdx? (· = dashes) = none := by
    rw [List.findIdx?_eq_none_iff]
    intro word hword
    simpa using fun heq : word = dashes => h (heq ▸ hword)
  rw [CommandParser.parse, hnone]
  rfl

/-- What is read once the command is known to be there. -/
def readOptions (parser : CommandParser ρ) (options : Except ArgumentError Options)
    (argv : List Str) : Except ArgumentError ρ :=
  if argv = [] then .error (.text parser.dialect.usage) else options >>= (parser.finish · argv)

theorem parse_append {before : List Str} (h : dashes ∉ before) (after : List Str) :
    parser.parse (before ++ dashes :: after) = readOptions parser
      (parser.dialect.parseOptions (before ++ dashes :: after) before.length {}) after := by
  have hdrop : (before ++ dashes :: after).drop (before.length + 1) = after := by
    rw [← List.drop_drop, List.drop_left, List.drop_one, List.tail_cons]
  rw [CommandParser.parse, findIdx?_dashes h, okOr_some, ok_bind, readOptions, hdrop]
  by_cases hafter : after = []
  · rw [if_pos hafter, rejectIf_of _ (by simp [hafter]), error_bind]
  · have hlength : 0 < after.length := List.length_pos_iff.mpr hafter
    have hcommand : ¬ before.length + 1 ≥ (before ++ dashes :: after).length := by
      rw [List.length_append, List.length_cons]
      omega
    rw [if_neg hafter, rejectIf_of_not _ hcommand, ok_bind]

/-- The options before the separator, where the words are complete up to some point. -/
theorem parse_from {front rest after : List Str} (hfront : IsComplete parser.dialect front)
    (hdashes : dashes ∉ front) (hrest : dashes ∉ rest) :
    parser.parse (front ++ (rest ++ dashes :: after)) = readOptions parser
      (parser.dialect.parseOptions front front.length {} >>=
        parser.dialect.parseOptions (rest ++ dashes :: after) rest.length) after := by
  have hbefore : dashes ∉ front ++ rest := by
    rw [List.mem_append]
    exact not_or.mpr ⟨hdashes, hrest⟩
  have hsplit := @parse_append _ parser _ hbefore after
  rw [List.append_assoc, List.length_append, parseOptions_append hfront] at hsplit
  exact hsplit

/-- The options with one value among them. -/
def ofValue (parser : CommandParser ρ) (front : List Str) (option : ValueOption) (value : Str)
    (mid after : List Str) : Except ArgumentError ρ :=
  readOptions parser (parser.dialect.parseOptions front front.length {} >>= fun options =>
    parser.dialect.setOption option value options >>=
      parser.dialect.parseOptions (mid ++ dashes :: after) mid.length) after

section Site

variable {front mid after : List Str} {option : ValueOption} {value : Str}
  (hfront : IsComplete parser.dialect front) (hdashes : dashes ∉ front)
  (htakes : parser.dialect.Takes option) (hmid : dashes ∉ mid)

include hfront hdashes htakes hmid

theorem parse_long (hvalue : value ≠ dashes) :
    parser.parse (front ++ option.long :: value :: (mid ++ dashes :: after)) =
      ofValue parser front option value mid after := by
  have hlong : option.long ≠ dashes := by cases option <;> decide
  have hrest : dashes ∉ option.long :: value :: mid := by
    simp [hmid, Ne.symm hlong, Ne.symm hvalue]
  refine (parse_from hfront hdashes hrest).trans ?_
  rw [ofValue]
  congr 2
  funext options
  exact parseOptions_value (option?_long htakes)

theorem parse_attached :
    parser.parse (front ++ (option.attached ++ value) :: (mid ++ dashes :: after)) =
      ofValue parser front option (trimStartMatches option.attached value) mid after := by
  have hattached : option.attached ++ value ≠ dashes := by
    cases option <;> simp [ValueOption.attached, dashes]
  have hrest : dashes ∉ (option.attached ++ value) :: mid := by
    simp [hmid, Ne.symm hattached]
  refine (parse_from hfront hdashes hrest).trans ?_
  rw [ofValue]
  congr 2
  funext options
  rw [← takeWord_attached htakes]
  exact parseOptions_word (option?_attached value)

end Site

/-- An option that the parser does not have is refused, in both spellings. -/
theorem parse_unknown {front post : List Str} {option : ValueOption} {value : Str}
    (hfront : IsComplete parser.dialect front) (hdashes : dashes ∉ front)
    (htakes : ¬ parser.dialect.Takes option) :
    (parser.parse (front ++ option.long :: post)).toOption = none ∧
      (parser.parse (front ++ (option.attached ++ value) :: post)).toOption = none := by
  -- In front of any command, the loop comes to the word and refuses it.
  have hword : ∀ word, word ≠ dashes → parser.dialect.option? word = none →
      (∀ options, ∃ error, parser.dialect.takeWord word options = .error error) →
        (parser.parse (front ++ word :: post)).toOption = none := by
    intro word hne hplain hrefused
    rcases exists_separator post with hpost | ⟨mid, after, rfl, hmid⟩
    · have hall : dashes ∉ front ++ word :: post := by
        simp [hdashes, hpost, Ne.symm hne]
      rw [parse_without hall]
      rfl
    · have hrest : dashes ∉ word :: mid := by simp [hmid, Ne.symm hne]
      rw [← List.cons_append, parse_from hfront hdashes hrest, readOptions]
      split
      · rfl
      · rw [Option.eq_none_iff_forall_not_mem]
        intro result hresult
        rw [Option.mem_def, toOption_eq_some, bind_eq_ok] at hresult
        obtain ⟨options, hoptions, -⟩ := hresult
        obtain ⟨start, -, hloop⟩ := bind_eq_ok.mp hoptions
        rw [List.cons_append, List.length_cons, parseOptions_word hplain] at hloop
        obtain ⟨error, herror⟩ := hrefused start
        rw [herror] at hloop
        cases hloop
  have hlong : option.long ≠ dashes := by cases option <;> decide
  have hattached : option.attached ++ value ≠ dashes := by
    cases option <;> simp [ValueOption.attached, dashes]
  constructor
  · exact hword _ hlong (takeWord_of_not_takes htakes value {}).1 fun options =>
      (takeWord_of_not_takes htakes value options).2.1
  · exact hword _ hattached (option?_attached value) fun options =>
      (takeWord_of_not_takes htakes value options).2.2

/-- The two spellings of a value that does not start with its option mean the same. -/
theorem spellings_eq {front post : List Str} {option : ValueOption} {value : Str}
    (hfront : IsComplete parser.dialect front) (hdashes : dashes ∉ front)
    (hvalue : value ≠ dashes) (hplain : parser.dialect.Takes option → ¬ option.attached <+: value) :
    (parser.parse (front ++ (option.attached ++ value) :: post)).toOption =
      (parser.parse (front ++ option.long :: value :: post)).toOption := by
  by_cases htakes : parser.dialect.Takes option
  · rcases exists_separator post with hpost | ⟨mid, after, rfl, hmid⟩
    · have hlong : option.long ≠ dashes := by cases option <;> decide
      have hattached : option.attached ++ value ≠ dashes := by
        cases option <;> simp [ValueOption.attached, dashes]
      rw [parse_without (by simp [hdashes, hpost, Ne.symm hattached]),
        parse_without (by simp [hdashes, hpost, Ne.symm hlong, Ne.symm hvalue])]
    · rw [parse_attached hfront hdashes htakes hmid, parse_long hfront hdashes htakes hmid hvalue,
        trimStartMatches_of_not_isPrefix (hplain htakes)]
  · rw [(@parse_unknown _ parser front (value :: post) option value hfront hdashes htakes).1,
      (@parse_unknown _ parser front post option value hfront hdashes htakes).2]

/-- The value can be told from the result. -/
theorem ofValue_inj {front mid after : List Str} {option : ValueOption} {left right : Str}
    {result : ρ} (htakes : parser.dialect.Takes option)
    (hleft : ofValue parser front option left mid after = .ok result)
    (hright : ofValue parser front option right mid after = .ok result) : left = right := by
  have hread : ∀ value, ofValue parser front option value mid after = .ok result →
      ∃ start next options, parser.dialect.parseOptions front front.length {} = .ok start ∧
        parser.dialect.setOption option value start = .ok next ∧ Kept next options ∧
        parser.taken result = options.taken parser.dialect after := by
    intro value h
    rw [ofValue, readOptions] at h
    split at h
    · cases h
    · obtain ⟨options, hoptions, hfinish⟩ := bind_eq_ok.mp h
      obtain ⟨start, hstart, hrest⟩ := bind_eq_ok.mp hoptions
      obtain ⟨next, hset, hloop⟩ := bind_eq_ok.mp hrest
      exact ⟨start, next, options, hstart, hset, parseOptions_kept hloop,
        parser.taken_finish options after result hfinish⟩
  obtain ⟨start, next, options, hstart, hset, hkept, htaken⟩ := hread left hleft
  obtain ⟨start', next', options', hstart', hset', hkept', htaken'⟩ := hread right hright
  obtain rfl := Except.ok.inj (hstart.symm.trans hstart')
  have hsame := htaken.symm.trans htaken'
  cases option with
  | cwd =>
    obtain ⟨-, -, rfl⟩ := setOption_cwd_eq_ok.mp hset
    obtain ⟨-, -, rfl⟩ := setOption_cwd_eq_ok.mp hset'
    have hcwd : options.workingDirectory = options'.workingDirectory :=
      congrArg Taken.workingDirectory hsame
    rw [hkept.workingDirectory left rfl, hkept'.workingDirectory right rfl] at hcwd
    exact Option.some.inj hcwd
  | env =>
    obtain ⟨entry, hentry, rfl⟩ := setOption_env_eq_ok.mp hset
    obtain ⟨entry', hentry', rfl⟩ := setOption_env_eq_ok.mp hset'
    have henv : options.environment = options'.environment := congrArg Taken.environment hsame
    -- The entry stands at one place in both.
    have hboth := hkept.environment
    rw [henv] at hboth
    have hentries : start.environment ++ [entry] = start.environment ++ [entry'] :=
      (List.prefix_of_prefix_length_le hboth hkept'.environment (by simp)).eq_of_length (by simp)
    obtain rfl := List.cons.inj (List.append_cancel_left hentries)|>.1
    rw [eq_append_of_splitOnce (parseGuestEnvironment_eq_ok.mp hentry).1,
      eq_append_of_splitOnce (parseGuestEnvironment_eq_ok.mp hentry').1]
  | title =>
    obtain ⟨-, -, rfl⟩ := setOption_title_eq_ok.mp hset
    obtain ⟨-, -, rfl⟩ := setOption_title_eq_ok.mp hset'
    have htitle : options.title = options'.title := by
      simpa [Options.taken, htakes rfl] using congrArg Taken.title hsame
    rw [hkept.title left rfl, hkept'.title right rfl] at htitle
    exact Option.some.inj htitle

/-- A value that starts with its option means something else behind an equals sign. -/
theorem not_prefix_of_spellings_eq {front post : List Str} {option : ValueOption} {value : Str}
    {result : ρ} (hfront : IsComplete parser.dialect front) (hdashes : dashes ∉ front)
    (hvalue : value ≠ dashes) (htakes : parser.dialect.Takes option)
    (hattached : parser.parse (front ++ (option.attached ++ value) :: post) = .ok result)
    (hlong : parser.parse (front ++ option.long :: value :: post) = .ok result) :
    ¬ option.attached <+: value := by
  rcases exists_separator post with hpost | ⟨mid, after, rfl, hmid⟩
  · have hne : option.long ≠ dashes := by cases option <;> decide
    rw [parse_without (by simp [hdashes, hpost, Ne.symm hne, Ne.symm hvalue])] at hlong
    cases hlong
  · rw [parse_attached hfront hdashes htakes hmid] at hattached
    rw [parse_long hfront hdashes htakes hmid hvalue] at hlong
    rw [← ofValue_inj htakes hattached hlong]
    exact (trimStartMatches_spec attached_ne_nil value).1

end Separator

/-! ## Which vectors are read as they should be -/

section Exact

variable {ρ : Type} {parser : CommandParser ρ} {arguments : List Str}

theorem option?_dashes (dialect : Dialect) : dialect.option? dashes = none := by
  simp [Dialect.option?, dashes]

/-- An option right before the separator takes it for its value. -/
theorem parse_dangling {front after : List Str} {word : Str} {option : ValueOption}
    (hfront : IsComplete parser.dialect front) (hdashes : dashes ∉ front)
    (hword : parser.dialect.option? word = some option) :
    parser.parse (front ++ word :: dashes :: after) = readOptions parser
      (parser.dialect.parseOptions front front.length {} >>=
        parser.dialect.setOption option dashes) after := by
  have hne : word ≠ dashes := by
    rintro rfl
    rw [option?_dashes] at hword
    cases hword
  refine (@parse_from _ parser front [word] after hfront hdashes (by simp [Ne.symm hne])).trans ?_
  congr 2
  funext options
  refine (parseOptions_value hword).trans ?_
  cases parser.dialect.setOption option dashes options with
  | error error => rfl
  | ok options => simp [Dialect.parseOptions]

/-- Where the words before the separator are complete, everything is taken from them. -/
theorem drawn_of_complete {before after : List Str} {result : ρ}
    (hbefore : IsComplete parser.dialect before) (hdashes : dashes ∉ before)
    (h : parser.parse (before ++ dashes :: after) = .ok result) :
    ∃ options, DrawnFrom before options ∧
      parser.taken result = options.taken parser.dialect after := by
  have hread := (@parse_from _ parser before [] after hbefore hdashes (by simp)).symm.trans h
  rw [readOptions] at hread
  split at hread
  · cases hread
  · obtain ⟨options, hoptions, hfinish⟩ := bind_eq_ok.mp hread
    obtain ⟨start, hstart, hend⟩ := bind_eq_ok.mp hoptions
    rw [List.length_nil, Dialect.parseOptions, Except.ok.injEq] at hend
    subst hend
    exact ⟨start, parseOptions_drawn (drawnFrom_default before) hstart,
      parser.taken_finish start after result hfinish⟩

theorem takeWord_dashes (dialect : Dialect) (options next : Options) :
    dialect.takeWord dashes options ≠ .ok next := by
  simp [Dialect.takeWord, Dialect.attached?, dashes, rejectIf]

/-- The separator can only be read as the value of the option in front of it. -/
theorem reads_concat_dashes {dialect : Dialect} {start after : Options} {words : List Str}
    (h : Reads dialect start (words ++ [dashes]) after) : ∃ front word option next,
      words = front ++ [word] ∧ Reads dialect start front next ∧
        dialect.option? word = some option ∧ dialect.setOption option dashes next = .ok after := by
  generalize hall : words ++ [dashes] = all at h
  induction h generalizing words with
  | nil => simp at hall
  | @word options next after word rest plain takes hrest ih =>
    rcases List.append_eq_cons_iff.mp hall with ⟨rfl, hword⟩ | ⟨words, rfl, hrest'⟩
    · obtain ⟨rfl, -⟩ := List.cons.inj hword
      exact absurd takes (takeWord_dashes dialect options next)
    · obtain ⟨front, last, option, middle, rfl, hfront, hlast, hset⟩ := ih hrest'.symm
      exact ⟨word :: front, last, option, middle, rfl, .word plain takes hfront, hlast, hset⟩
  | @value options next after word value rest option takes sets hrest ih =>
    rcases List.append_eq_cons_iff.mp hall with ⟨rfl, hword⟩ | ⟨words, rfl, hrest'⟩
    · simp at hword
    · rcases List.append_eq_cons_iff.mp hrest'.symm with ⟨rfl, hvalue⟩ | ⟨words, rfl, hrest'⟩
      · obtain ⟨rfl, rfl⟩ := List.cons.inj hvalue
        cases hrest
        exact ⟨[], word, option, options, rfl, .nil, takes, sets⟩
      · obtain ⟨front, last, other, middle, rfl, hfront, hlast, hset⟩ :=
          ih (List.cons.inj hrest').2.symm
        exact ⟨word :: value :: front, last, other, middle, rfl, .value takes sets hfront, hlast,
          hset⟩

/-- An option other than `--env` takes the separator where it has no value yet. -/
theorem setOption_dashes_iff {option : ValueOption} {options next : Options} :
    parser.dialect.setOption option dashes options = .ok next ↔
      option ≠ .env ∧ ¬ options.Given option ∧ options.put option dashes = next := by
  have hne : dashes ≠ [] := by decide
  cases option with
  | cwd => simp [setOption_cwd_eq_ok, Options.Given, Options.put, hne]
  | title => simp [setOption_title_eq_ok, Options.Given, Options.put, hne]
  | env =>
    have hrefused : ∀ entry, parseGuestEnvironment dashes ≠ .ok entry := fun entry hentry => by
      cases hentry
    simp [setOption_env_eq_ok, hrefused]

/-- An option right before the separator is accepted where everything else is in order. -/
theorem parse_dangling_eq_ok {front after : List Str} {word : Str} {option : ValueOption}
    {result : ρ} (hfront : IsComplete parser.dialect front) (hdashes : dashes ∉ front)
    (hword : parser.dialect.option? word = some option) :
    parser.parse (front ++ word :: dashes :: after) = .ok result ↔
      after ≠ [] ∧ ∃ options, Reads parser.dialect {} front options ∧ option ≠ .env ∧
        ¬ options.Given option ∧ parser.finish (options.put option dashes) after = .ok result := by
  rw [parse_dangling hfront hdashes hword, readOptions]
  by_cases hafter : after = []
  · simp [hafter]
  · rw [if_neg hafter]
    simp only [bind_eq_ok, setOption_dashes_iff, reads_iff, hfront, true_and, ne_eq, hafter,
      not_false_eq_true]
    constructor
    · rintro ⟨next, ⟨options, hread, henv, hgiven, rfl⟩, hfinish⟩
      exact ⟨options, hread, henv, hgiven, hfinish⟩
    · rintro ⟨options, hread, henv, hgiven, hfinish⟩
      exact ⟨_, ⟨options, hread, henv, hgiven, rfl⟩, hfinish⟩

/-- A vector is accepted if and only if the parser has a result for it. -/
theorem accepted_iff : Accepted parser arguments ↔ ∃ result, parser.parse arguments = .ok result := by
  constructor
  · rintro ⟨before, after, words, options, rfl, hdashes, hafter, hwords, hreads, result, hfinish⟩
    refine ⟨result, ?_⟩
    -- The words are those before the separator, or end with it.
    rcases hwords with rfl | rfl
    · obtain ⟨hcomplete, hloop⟩ := reads_iff.mp hreads
      have hparse := @parse_from _ parser words [] after hcomplete hdashes (by simp)
      rw [List.nil_append, hloop, readOptions, if_neg hafter, ok_bind] at hparse
      exact hparse.trans hfinish
    · -- The separator is no option, so that it can only be the value of one.
      obtain ⟨front, word, option, start, rfl, hfront, hword, hset⟩ := reads_concat_dashes hreads
      have hfree : dashes ∉ front := fun hmem => hdashes (List.mem_append_left _ hmem)
      obtain ⟨henv, hgiven, rfl⟩ := setOption_dashes_iff.mp hset
      rw [List.append_assoc, List.singleton_append]
      exact (parse_dangling_eq_ok (reads_iff.mp hfront).1 hfree hword).mpr
        ⟨hafter, start, hfront, henv, hgiven, hfinish⟩
  · rintro ⟨result, hparse⟩
    rcases exists_separator arguments with hnone | ⟨before, after, rfl, hdashes⟩
    · rw [parse_without hnone] at hparse
      cases hparse
    -- Conversely: before the separator every option has its value, or the last one lacks it.
    · rcases complete_or_dangling parser.dialect before with hcomplete |
        ⟨front, word, option, rfl, hfront, hword⟩
      · have hread := (@parse_from _ parser before [] after hcomplete hdashes (by simp)).symm.trans
          hparse
        rw [readOptions] at hread
        split at hread
        · cases hread
        · rename_i hafter
          obtain ⟨options, hoptions, hfinish⟩ := bind_eq_ok.mp hread
          obtain ⟨start, hstart, hend⟩ := bind_eq_ok.mp hoptions
          rw [List.length_nil, Dialect.parseOptions, Except.ok.injEq] at hend
          subst hend
          exact ⟨before, after, before, start, rfl, hdashes, hafter, .inl rfl,
            reads_iff.mpr ⟨hcomplete, hstart⟩, result, hfinish⟩
      · have hfree : dashes ∉ front := fun hmem => hdashes (List.mem_append_left _ hmem)
        rw [List.append_assoc, List.singleton_append,
          parse_dangling_eq_ok hfront hfree hword] at hparse
        obtain ⟨hafter, options, hreads, henv, hgiven, hfinish⟩ := hparse
        refine ⟨front ++ [word], after, front ++ [word] ++ [dashes], options.put option dashes, rfl,
          hdashes, hafter, .inr rfl, ?_, result, hfinish⟩
        rw [List.append_assoc]
        exact hreads.append (.value hword (setOption_dashes_iff.mpr ⟨henv, hgiven, rfl⟩) .nil)

theorem toOption_eq_none_of_not_accepted (h : ¬ Accepted parser arguments) :
    (parser.parse arguments).toOption = none := by
  rw [Option.eq_none_iff_forall_not_mem]
  intro result hresult
  rw [Option.mem_def, toOption_eq_some] at hresult
  exact h (accepted_iff.mpr ⟨result, hresult⟩)

/-- An option that lacks its value before the separator is refused. -/
theorem Plain.refused (h : Plain parser arguments) {front after : List Str} {word : Str}
    {option : ValueOption} (harguments : arguments = front ++ word :: dashes :: after)
    (hfront : IsComplete parser.dialect front) (hdashes : dashes ∉ front)
    (hword : parser.dialect.option? word = some option) (result : ρ) :
    parser.parse arguments ≠ .ok result := by
  intro hparse
  rw [harguments, parse_dangling_eq_ok hfront hdashes hword] at hparse
  obtain ⟨hafter, options, hreads, henv, hgiven, hfinish⟩ := hparse
  rcases h.ended front word after option options harguments hdashes hreads hword with
    henv' | hgiven' | hafter' | hfinish'
  · exact henv henv'
  · exact hgiven hgiven'
  · exact hafter hafter'
  · exact hfinish' result hfinish

/-- Plain arguments are read as they are written. -/
theorem sound_of_plain (h : Plain parser arguments) : Sound parser arguments where
  drawn result hparse := by
    -- Without a separator nothing is accepted.
    rcases exists_separator arguments with hnone | ⟨before, after, rfl, hdashes⟩
    · rw [parse_without hnone] at hparse
      cases hparse
    -- Before it every option has its value, or the last one lacks it.
    · rcases complete_or_dangling parser.dialect before with hcomplete |
        ⟨front, word, option, rfl, hfront, hword⟩
      · obtain ⟨options, hdrawn, htaken⟩ := drawn_of_complete hcomplete hdashes hparse
        have hargv : (parser.taken result).argv = after := congrArg Taken.argv htaken
        exact ⟨before, options, hdashes, by rw [hargv], hdrawn, by rw [hargv, htaken]⟩
      · have hfree : dashes ∉ front := fun hmem => hdashes (List.mem_append_left _ hmem)
        have hlist : front ++ [word] ++ dashes :: after = front ++ word :: dashes :: after := by simp
        exact absurd hparse (h.refused hlist hfront hfree hword result)
  -- A value that begins like an attached one is refused in both spellings.
  attach front option value post harguments hfront hdashes hvalue := by
    by_cases hown : parser.dialect.Takes option ∧ option.attached <+: value
    · obtain ⟨hleft, hright⟩ :=
        h.attach front option value post harguments hfront hdashes hvalue hown.1 hown.2
      rw [toOption_eq_none_of_not_accepted hleft, toOption_eq_none_of_not_accepted hright]
    -- Any other one is read alike in both.
    · rw [harguments]
      exact spellings_eq hfront hdashes hvalue fun htakes hpre => hown ⟨htakes, hpre⟩
  detach front option value post harguments hfront hdashes hvalue := by
    by_cases hown : parser.dialect.Takes option ∧ option.attached <+: value
    · obtain ⟨hleft, hright⟩ :=
        h.detach front option value post harguments hfront hdashes hvalue hown.1 hown.2
      rw [toOption_eq_none_of_not_accepted hleft, toOption_eq_none_of_not_accepted hright]
    · rw [harguments]
      exact (spellings_eq hfront hdashes hvalue fun htakes hpre => hown ⟨htakes, hpre⟩).symm
  -- An option without its value is refused.
  dangling front word after harguments hfront hdashes hword := by
    obtain ⟨option, hoption⟩ := Option.isSome_iff_exists.mp hword
    refine toOption_eq_none_of_not_accepted fun haccepted => ?_
    obtain ⟨result, hparse⟩ := accepted_iff.mp haccepted
    exact h.refused harguments hfront hdashes hoption result hparse

/-- Arguments that are read as they are written are plain. -/
theorem plain_of_sound (h : Sound parser arguments) : Plain parser arguments where
  ended front word after option options harguments hdashes hreads hword := by
    by_contra hbad
    simp only [not_or, not_forall, not_not] at hbad
    obtain ⟨henv, hgiven, hafter, result, hfinish⟩ := hbad
    have hfront := (reads_iff.mp hreads).1
    have hrefused := h.dangling front word after harguments hfront hdashes (by simp [hword])
    rw [harguments, (parse_dangling_eq_ok hfront hdashes hword).mpr
      ⟨hafter, options, hreads, henv, hgiven, hfinish⟩] at hrefused
    cases hrefused
  attach front option value post harguments hfront hdashes hvalue htakes hpre := by
    have hsame := h.attach front option value post harguments hfront hdashes hvalue
    -- Where one of them is accepted, so is the other, with the same result.
    have hnone : ∀ result, (parser.parse arguments).toOption ≠ some result := by
      intro result hresult
      rw [hresult] at hsame
      exact not_prefix_of_spellings_eq hfront hdashes hvalue htakes (toOption_eq_some.mp hsame)
        (harguments ▸ toOption_eq_some.mp hresult) hpre
    constructor
    · rintro haccepted
      obtain ⟨result, hparse⟩ := accepted_iff.mp haccepted
      exact hnone result (toOption_eq_some.mpr hparse)
    · rintro haccepted
      obtain ⟨result, hparse⟩ := accepted_iff.mp haccepted
      exact hnone result (hsame.symm.trans (toOption_eq_some.mpr hparse))
  detach front option value post harguments hfront hdashes hvalue htakes hpre := by
    have hsame := h.detach front option value post harguments hfront hdashes hvalue
    have hnone : ∀ result, (parser.parse arguments).toOption ≠ some result := by
      intro result hresult
      rw [hresult] at hsame
      exact not_prefix_of_spellings_eq hfront hdashes hvalue htakes
        (harguments ▸ toOption_eq_some.mp hresult) (toOption_eq_some.mp hsame) hpre
    constructor
    · rintro haccepted
      obtain ⟨result, hparse⟩ := accepted_iff.mp haccepted
      exact hnone result (toOption_eq_some.mpr hparse)
    · rintro haccepted
      obtain ⟨result, hparse⟩ := accepted_iff.mp haccepted
      exact hnone result (hsame.symm.trans (toOption_eq_some.mpr hparse))

/-- Where the options do not end in an option, and no word in front of which an option could stand
    starts with it, a vector is plain. -/
theorem plain_of_separated {before after : List Str} {last : Str}
    (hdashes : dashes ∉ before ++ [last]) (hlast : parser.dialect.option? last = none)
    (hown : ∀ option : ValueOption, option.long ∈ before ++ last :: dashes :: after →
      ∀ word ∈ before ++ last :: dashes :: after, ¬ option.attached <+: word)
    (htwice : ∀ option : ValueOption, ∀ word ∈ before ++ last :: dashes :: after,
      ¬ option.attached ++ option.attached <+: word) :
    Plain parser (before ++ last :: dashes :: after) where
  ended front word rest option options harguments hfree hreads hword := by
    have hne : word ≠ dashes := by
      rintro rfl
      rw [option?_dashes] at hword
      cases hword
    have hboth : (before ++ [last]) ++ dashes :: after = (front ++ [word]) ++ dashes :: rest := by
      rw [List.append_assoc, List.append_assoc]
      exact harguments
    have hsep := congrArg (List.findIdx? (· = dashes)) hboth
    rw [findIdx?_dashes hdashes, findIdx?_dashes (by simp [hfree, Ne.symm hne]),
      Option.some.injEq] at hsep
    have hsame := (List.append_inj hboth hsep).1
    obtain ⟨-, rfl⟩ := List.append_inj' hsame rfl |>.imp_right List.singleton_inj.mp
    rw [hlast] at hword
    cases hword
  attach front option value post harguments _ _ _ _ hpre := by
    rw [harguments] at hown
    exact absurd hpre (hown option (by simp) value (by simp))
  detach front option value post harguments _ _ _ _ hpre := by
    rw [harguments] at htwice
    refine absurd ?_ (htwice option (option.attached ++ value) (by simp))
    exact (List.prefix_append_right_inj _).mpr hpre

end Exact

/-- Both parsers take the options from the words before the separator, and read both spellings
    alike, exactly where the vector is plain. -/
theorem argument_vectors_are_read_plainly (unicode : UnicodeTables) (kind : SessionKind)
    (arguments : List Str) :
    (Sound (guestParser unicode kind) arguments ↔ Plain (guestParser unicode kind) arguments) ∧
      (Sound (installParser unicode) arguments ↔ Plain (installParser unicode) arguments) :=
  ⟨⟨plain_of_sound, sound_of_plain⟩, plain_of_sound, sound_of_plain⟩

/-- Tables of no language. -/
def plainTables : UnicodeTables := { uppercase := fun c => [c], printable := fun _ => false }

/-- Options in both spellings, and a command in which there are such words, too. -/
def plainWords : List Str :=
  ["dev".toList, "--cwd".toList, "C:/Work".toList] ++ "--env=MODE=fast".toList :: dashes ::
    ["tool.exe".toList, "--cwd".toList, dashes]

/-- The parser of `lsw run` reads them as it should, and takes all of them. -/
theorem plain_words_are_read :
    Sound (guestParser plainTables .run) plainWords ∧
      ((guestParser plainTables .run).parse plainWords).toOption.isSome = true := by
  refine ⟨(argument_vectors_are_read_plainly plainTables .run plainWords).1.mpr ?_, by decide +kernel⟩
  refine plain_of_separated (by decide) (by decide) (fun option => ?_) fun option => ?_
  · cases option <;> decide
  · cases option <;> decide

/-- `lsw run --cwd -- tool` is accepted, with `--` as its working directory. -/
theorem separator_is_taken_for_a_directory :
    ¬ Sound (guestParser plainTables .run) ["--cwd".toList, dashes, "tool".toList] := by
  intro h
  have hrefused := h.dangling [] "--cwd".toList ["tool".toList] rfl .nil (by simp) rfl
  have haccepted : ((guestParser plainTables .run).parse
      ["--cwd".toList, dashes, "tool".toList]).toOption.isSome = true := by decide
  rw [hrefused] at haccepted
  cases haccepted

end Lsw.Cli.CommandOptions
