import Lsw.Lib.Pieces
import Lsw.Protocol.Session

/-!
# Options before a Guest Command

`lsw run`, `lsw exec` and `lsw app install` read options up to a word `--` and take the words behind
it as the command for the guest (`guest.rs`, `desktop_launcher.rs`).  The parsers share their loop:
an option takes the next word as its value, or has it behind an equals sign.  A `Dialect` is what
they do not share.

The loop takes values by their position in the whole vector.  `IsComplete` tells the words after
which it looks for the next option, and `parseOptions_append` that it then goes on from there.
-/

namespace Lsw.Cli.CommandOptions

open Lsw.Lib Lsw.Protocol

/-! ## The program -/

/-- What an argument vector is refused with. -/
inductive ArgumentError where
  | text (message : String)
  | protocol (error : ProtocolError)
  deriving DecidableEq

/-- The options that take a value. -/
inductive ValueOption where
  | cwd
  | env
  | title
  deriving DecidableEq, Repr

namespace ValueOption

/-- How an option is written in full. -/
def long : ValueOption → Str
  | cwd => "--cwd".toList
  | env => "--env".toList
  | title => "--title".toList

@[simp] theorem long_cwd : cwd.long = "--cwd".toList := rfl

@[simp] theorem long_env : env.long = "--env".toList := rfl

@[simp] theorem long_title : title.long = "--title".toList := rfl

/-- How an option is written before a value in the same word. -/
def attached (option : ValueOption) : Str := option.long ++ ['=']

end ValueOption

/-- What the parsers do not share. -/
structure Dialect where
  usage : String
  cwdError : String
  takesTitle : Bool
  takesFlags : Bool

/-- What the options say. -/
structure Options where
  requested : Option Str := none
  title : Option Str := none
  workingDirectory : Option Str := none
  environment : List (Str × Str) := []
  detached : Bool := false
  gui : Bool := false
  translateFiles : Bool := false
  deriving DecidableEq

/-- `parse_guest_environment`. -/
def parseGuestEnvironment (value : Str) : Except ArgumentError (Str × Str) := do
  let (name, value) ← okOr (splitOnce '=' value) (.text "--env requires KEY=VALUE")
  rejectIf (name = []) (.text "--env requires a non-empty variable name")
  return (name, value)

namespace Dialect

variable (dialect : Dialect)

/-- The option that takes the word behind it as its value. -/
def option? (word : Str) : Option ValueOption :=
  if dialect.takesTitle = true ∧ word = "--title".toList then some .title
  else if word = "--cwd".toList ∨ word = "-C".toList then some .cwd
  else if word = "--env".toList ∨ word = "-e".toList then some .env
  else none

/-- The option whose value the word itself contains. -/
def attached? (word : Str) : Option (ValueOption × Str) :=
  if dialect.takesTitle = true ∧ "--title=".toList.isPrefixOf word = true then
    some (.title, trimStartMatches "--title=".toList word)
  else if "--cwd=".toList.isPrefixOf word then some (.cwd, trimStartMatches "--cwd=".toList word)
  else if "--env=".toList.isPrefixOf word then some (.env, trimStartMatches "--env=".toList word)
  else none

/-- A value of an option. -/
def setOption (option : ValueOption) (value : Str) (options : Options) :
    Except ArgumentError Options :=
  match option with
  | .cwd => do
    rejectIf (value = [] ∨ options.workingDirectory ≠ none) (.text dialect.cwdError)
    return { options with workingDirectory := some value }
  | .env => do
    let entry ← parseGuestEnvironment value
    return { options with environment := options.environment ++ [entry] }
  | .title => do
    rejectIf (value = [] ∨ options.title ≠ none) (.text "--title requires one non-empty value")
    return { options with title := some value }

/-- A word that takes no value. -/
def takeWord (word : Str) (options : Options) : Except ArgumentError Options :=
  if dialect.takesFlags = true ∧ word = "--detach".toList then do
    rejectIf (options.detached = true) (.text "--detach was supplied more than once")
    return { options with detached := true }
  else if dialect.takesFlags = true ∧ word = "--gui".toList then do
    rejectIf (options.gui = true) (.text "--gui was supplied more than once")
    return { options with gui := true }
  else if dialect.takesFlags = true ∧ word = "--translate-files".toList then do
    rejectIf (options.translateFiles = true) (.text "--translate-files was supplied more than once")
    return { options with translateFiles := true }
  else
    match dialect.attached? word with
    | some (option, value) => dialect.setOption option value options
    | none => do
      rejectIf (word.head? = some '-') (.text dialect.usage)
      rejectIf (options.requested ≠ none) (.text dialect.usage)
      return { options with requested := some word }

/-- The loop over the options: `words` is what is left of the whole vector, and `left` how far away
    the separator is.  A value is taken from the vector, wherever the separator is. -/
def parseOptions : List Str → Nat → Options → Except ArgumentError Options
  | _, 0, options => .ok options
  | [], _ + 1, _ => .error (.text dialect.usage)
  | word :: words, left + 1, options =>
    match dialect.option? word with
    | some option =>
      match words with
      | [] => .error (.text dialect.usage)
      | value :: words => do
        let options ← dialect.setOption option value options
        parseOptions words (left - 1) options
    | none => do
      let options ← dialect.takeWord word options
      parseOptions words left options

end Dialect

/-- `--`. -/
def dashes : Str := ['-', '-']

/-- An option that can be given once has its value. -/
def Options.Given (options : Options) : ValueOption → Prop
  | .cwd => options.workingDirectory ≠ none
  | .title => options.title ≠ none
  | .env => False

/-- The options with a value for one of them. -/
def Options.put (options : Options) (option : ValueOption) (value : Str) : Options :=
  match option with
  | .cwd => { options with workingDirectory := some value }
  | .title => { options with title := some value }
  | .env => options

/-- What is taken from an argument vector. -/
structure Taken where
  requested : Option Str
  title : Option Str
  workingDirectory : Option Str
  environment : List (Str × Str)
  argv : List Str
  deriving DecidableEq

/-- What a parser takes from the options and the command. -/
def Options.taken (dialect : Dialect) (options : Options) (argv : List Str) : Taken where
  requested := options.requested
  title := if dialect.takesTitle = true then options.title else none
  workingDirectory := options.workingDirectory
  environment := options.environment
  argv := argv

/-- A parser: its dialect, and what it makes of the options and the command. -/
structure CommandParser (ρ : Type) where
  dialect : Dialect
  finish : Options → List Str → Except ArgumentError ρ
  /-- The result, as far as it comes from the words. -/
  taken : ρ → Taken
  taken_finish : ∀ options argv result, finish options argv = .ok result →
    taken result = options.taken dialect argv

/-- `parse`. -/
def CommandParser.parse {ρ : Type} (parser : CommandParser ρ) (arguments : List Str) :
    Except ArgumentError ρ := do
  let separator ← okOr (arguments.findIdx? (· = dashes)) (.text parser.dialect.usage)
  rejectIf (separator + 1 ≥ arguments.length) (.text parser.dialect.usage)
  let options ← parser.dialect.parseOptions arguments separator {}
  parser.finish options (arguments.drop (separator + 1))

/-! ## The loop -/

section Loop

variable {dialect : Dialect}

/-- Words after which the loop looks for the next option. -/
inductive IsComplete (dialect : Dialect) : List Str → Prop where
  | nil : IsComplete dialect []
  | word {word : Str} {words : List Str} (plain : dialect.option? word = none)
      (rest : IsComplete dialect words) : IsComplete dialect (word :: words)
  | option {word value : Str} {words : List Str} {option : ValueOption}
      (takes : dialect.option? word = some option) (rest : IsComplete dialect words) :
      IsComplete dialect (word :: value :: words)

theorem parseOptions_word {word : Str} {words : List Str} {left : Nat} {options : Options}
    (h : dialect.option? word = none) : dialect.parseOptions (word :: words) (left + 1) options =
      dialect.takeWord word options >>= dialect.parseOptions words left := by
  rw [Dialect.parseOptions, h]

theorem parseOptions_value {word value : Str} {words : List Str} {left : Nat} {options : Options}
    {option : ValueOption} (h : dialect.option? word = some option) :
    dialect.parseOptions (word :: value :: words) (left + 1) options =
      dialect.setOption option value options >>= dialect.parseOptions words (left - 1) := by
  rw [Dialect.parseOptions, h]

/-- What the loop makes of complete words: each is a word of its own, or an option with the value
    behind it. -/
inductive Reads (dialect : Dialect) : Options → List Str → Options → Prop where
  | nil {options : Options} : Reads dialect options [] options
  | word {options next after : Options} {word : Str} {words : List Str}
      (plain : dialect.option? word = none) (takes : dialect.takeWord word options = .ok next)
      (rest : Reads dialect next words after) : Reads dialect options (word :: words) after
  | value {options next after : Options} {word value : Str} {words : List Str}
      {option : ValueOption} (takes : dialect.option? word = some option)
      (sets : dialect.setOption option value options = .ok next)
      (rest : Reads dialect next words after) : Reads dialect options (word :: value :: words) after

theorem Reads.append {options next after : Options} {words rest : List Str}
    (h : Reads dialect options words next) (hrest : Reads dialect next rest after) :
    Reads dialect options (words ++ rest) after := by
  induction h with
  | nil => exact hrest
  | word plain takes _ ih => exact .word plain takes (ih hrest)
  | value takes sets _ ih => exact .value takes sets (ih hrest)

/-- The loop comes through complete words with what they are read as, and through no others. -/
theorem reads_iff {options after : Options} {words : List Str} :
    Reads dialect options words after ↔
      IsComplete dialect words ∧ dialect.parseOptions words words.length options = .ok after := by
  constructor
  · intro h
    -- Word by word, or option by option.
    induction h with
    | nil => exact ⟨.nil, rfl⟩
    | word plain takes _ ih =>
      refine ⟨.word plain ih.1, ?_⟩
      rw [List.length_cons, parseOptions_word plain, takes, ok_bind, ih.2]
    | value takes sets _ ih =>
      refine ⟨.option takes ih.1, ?_⟩
      rw [List.length_cons, List.length_cons, parseOptions_value takes, sets, ok_bind,
        Nat.add_sub_cancel, ih.2]
  · rintro ⟨hcomplete, hloop⟩
    induction hcomplete generalizing options with
    | nil =>
      obtain rfl := Except.ok.inj hloop
      exact .nil
    | word plain _ ih =>
      rw [List.length_cons, parseOptions_word plain, bind_eq_ok] at hloop
      obtain ⟨next, htakes, hrest⟩ := hloop
      exact .word plain htakes (ih hrest)
    | option takes _ ih =>
      rw [List.length_cons, List.length_cons, parseOptions_value takes, bind_eq_ok] at hloop
      obtain ⟨next, hsets, hrest⟩ := hloop
      exact .value takes hsets (ih hrest)

/-- The loop over complete words, and from there. -/
theorem parseOptions_append {words : List Str} (h : IsComplete dialect words) (rest : List Str)
    (left : Nat) (options : Options) :
    dialect.parseOptions (words ++ rest) (words.length + left) options =
      dialect.parseOptions words words.length options >>= dialect.parseOptions rest left := by
  induction h generalizing options with
  | nil => simp [Dialect.parseOptions]
  | @word word words plain _ ih =>
    have hlength : (word :: words).length + left = words.length + left + 1 := by
      rw [List.length_cons, Nat.add_right_comm]
    rw [hlength, List.cons_append, parseOptions_word plain, List.length_cons,
      parseOptions_word plain, bind_assoc]
    exact bind_congr ih
  | @option word value words option takes _ ih =>
    have hlength : (word :: value :: words).length + left = words.length + left + 1 + 1 := by
      simp only [List.length_cons]
      omega
    rw [hlength, List.cons_append, List.cons_append, parseOptions_value takes, List.length_cons,
      List.length_cons, parseOptions_value takes, bind_assoc]
    exact bind_congr ih

/-- Words are complete, or the last one of them lacks its value. -/
theorem complete_or_dangling (dialect : Dialect) (words : List Str) : IsComplete dialect words ∨
    ∃ front word option, words = front ++ [word] ∧ IsComplete dialect front ∧
      dialect.option? word = some option := by
  -- By the length, since an option takes two words at once.
  induction hlength : words.length using Nat.strongRecOn generalizing words with
  | _ length ih =>
    cases words with
    | nil => exact .inl .nil
    | cons word words =>
      cases htakes : dialect.option? word with
      | none =>
        rcases ih words.length (by simp [← hlength]) words rfl with hrest |
          ⟨front, last, option, rfl, hfront, hlast⟩
        · exact .inl (.word htakes hrest)
        · exact .inr ⟨word :: front, last, option, rfl, .word htakes hfront, hlast⟩
      | some option =>
        cases words with
        -- The last word is an option.
        | nil => exact .inr ⟨[], word, option, rfl, .nil, htakes⟩
        | cons value words =>
          have hshorter : words.length < length := by
            rw [← hlength, List.length_cons, List.length_cons]
            omega
          rcases ih words.length hshorter words rfl with hrest |
            ⟨front, last, other, rfl, hfront, hlast⟩
          · exact .inl (.option htakes hrest)
          · exact .inr ⟨word :: value :: front, last, other, rfl, .option htakes hfront, hlast⟩

end Loop

/-! ## The two spellings -/

section Spelling

variable {dialect : Dialect} {option : ValueOption}

/-- The dialect has the option. -/
def Dialect.Takes (dialect : Dialect) (option : ValueOption) : Prop :=
  option = .title → dialect.takesTitle = true

theorem option?_long (h : dialect.Takes option) : dialect.option? option.long = some option := by
  cases option with
  | cwd => simp [Dialect.option?]
  | env => simp [Dialect.option?]
  | title => simp [Dialect.option?, h rfl]

/-- A word with a value in it takes no other word. -/
theorem option?_attached (value : Str) : dialect.option? (option.attached ++ value) = none := by
  cases option <;> simp [Dialect.option?, ValueOption.attached]

theorem attached_ne_nil : option.attached ≠ [] := by
  cases option <;> simp [ValueOption.attached]

/-- A word with an attached value sets its option. -/
theorem takeWord_attached (h : dialect.Takes option) (value : Str) (options : Options) :
    dialect.takeWord (option.attached ++ value) options =
      dialect.setOption option (trimStartMatches option.attached value) options := by
  have htrim : trimStartMatches option.attached (option.attached ++ value) =
      trimStartMatches option.attached value := trimStartMatches_append attached_ne_nil value
  have hattached : dialect.attached? (option.attached ++ value) =
      some (option, trimStartMatches option.attached value) := by
    rw [← htrim]
    cases option with
    | cwd => simp [Dialect.attached?, ValueOption.attached]
    | env => simp [Dialect.attached?, ValueOption.attached]
    | title => simp [Dialect.attached?, ValueOption.attached, h rfl]
  have hflag : ∀ flag ∈ ["--detach".toList, "--gui".toList, "--translate-files".toList],
      option.attached ++ value ≠ flag := by
    cases option <;> simp [ValueOption.attached]
  simp only [List.forall_mem_cons, List.not_mem_nil, false_implies, forall_const, and_true] at hflag
  simp only [Dialect.takeWord, hflag.1, hflag.2.1, hflag.2.2, and_false, if_false, hattached]

/-- An option that the dialect does not have is refused, in both spellings. -/
theorem takeWord_of_not_takes (h : ¬ dialect.Takes option) (value : Str) (options : Options) :
    dialect.option? option.long = none ∧
      (∃ error, dialect.takeWord option.long options = .error error) ∧
      ∃ error, dialect.takeWord (option.attached ++ value) options = .error error := by
  have hboth : option = .title ∧ dialect.takesTitle = false := by
    simpa [Dialect.Takes] using h
  obtain ⟨rfl, htitle⟩ := hboth
  refine ⟨?_, ⟨.text dialect.usage, ?_⟩, .text dialect.usage, ?_⟩
  · simp [Dialect.option?, htitle]
  · simp [Dialect.takeWord, Dialect.attached?, htitle, rejectIf]
  · simp [Dialect.takeWord, Dialect.attached?, ValueOption.attached, htitle,
      rejectIf]

end Spelling

/-! ## What options are made of -/

/-- A value is a word, or the end of a word that starts with the option. -/
def Drawn (words : List Str) (option : ValueOption) (value : Str) : Prop :=
  value ∈ words ∨ ∃ word ∈ words, option.attached <+: word ∧ value <:+ word

/-- Everything that is taken comes from some words. -/
structure DrawnFrom (words : List Str) (options : Options) : Prop where
  requested : ∀ name, options.requested = some name → name ∈ words
  title : ∀ value, options.title = some value → Drawn words .title value
  workingDirectory : ∀ value, options.workingDirectory = some value → Drawn words .cwd value
  environment : ∀ entry ∈ options.environment, Drawn words .env (entry.1 ++ '=' :: entry.2)

theorem drawnFrom_default (words : List Str) : DrawnFrom words {} :=
  ⟨by simp, by simp, by simp, by simp⟩

/-- What a later state has kept of an earlier one. -/
structure Kept (before after : Options) : Prop where
  title : ∀ value, before.title = some value → after.title = some value
  workingDirectory : ∀ value, before.workingDirectory = some value →
    after.workingDirectory = some value
  environment : before.environment <+: after.environment

theorem Kept.refl (options : Options) : Kept options options :=
  ⟨fun _ => id, fun _ => id, List.prefix_refl _⟩

theorem Kept.trans {first second third : Options} (h : Kept first second) (h' : Kept second third) :
    Kept first third :=
  ⟨fun value hvalue => h'.title value (h.title value hvalue),
    fun value hvalue => h'.workingDirectory value (h.workingDirectory value hvalue),
    h.environment.trans h'.environment⟩

theorem parseGuestEnvironment_eq_ok {value : Str} {entry : Str × Str} :
    parseGuestEnvironment value = .ok entry ↔
      splitOnce '=' value = some entry ∧ entry.1 ≠ [] := by
  simp only [parseGuestEnvironment, bind_eq_ok, okOr_eq_ok, rejectIf_eq_ok, pure_eq_ok_iff,
    exists_const]
  constructor
  · rintro ⟨split, hsplit, hne, rfl⟩
    exact ⟨hsplit, hne⟩
  · rintro ⟨hsplit, hne⟩
    exact ⟨entry, hsplit, hne, rfl⟩

section Values

variable {dialect : Dialect} {words : List Str} {options after : Options}

theorem setOption_cwd_eq_ok {value : Str} :
    dialect.setOption .cwd value options = .ok after ↔ value ≠ [] ∧
      options.workingDirectory = none ∧ { options with workingDirectory := some value } = after := by
  simp only [Dialect.setOption, bind_eq_ok, rejectIf_eq_ok, pure_eq_ok_iff, exists_const, not_or,
    not_not, and_assoc]

theorem setOption_title_eq_ok {value : Str} :
    dialect.setOption .title value options = .ok after ↔ value ≠ [] ∧
      options.title = none ∧ { options with title := some value } = after := by
  simp only [Dialect.setOption, bind_eq_ok, rejectIf_eq_ok, pure_eq_ok_iff, exists_const, not_or,
    not_not, and_assoc]

theorem setOption_env_eq_ok {value : Str} :
    dialect.setOption .env value options = .ok after ↔ ∃ entry,
      parseGuestEnvironment value = .ok entry ∧
        { options with environment := options.environment ++ [entry] } = after := by
  simp only [Dialect.setOption, bind_eq_ok, pure_eq_ok_iff]

theorem setOption_kept {option : ValueOption} {value : Str}
    (h : dialect.setOption option value options = .ok after) : Kept options after := by
  cases option with
  | cwd =>
    obtain ⟨-, hnone, rfl⟩ := setOption_cwd_eq_ok.mp h
    exact ⟨fun _ => id, by simp [hnone], List.prefix_refl _⟩
  | env =>
    obtain ⟨entry, -, rfl⟩ := setOption_env_eq_ok.mp h
    exact ⟨fun _ => id, fun _ => id, List.prefix_append _ _⟩
  | title =>
    obtain ⟨-, hnone, rfl⟩ := setOption_title_eq_ok.mp h
    exact ⟨by simp [hnone], fun _ => id, List.prefix_refl _⟩

/-- A value that is drawn from the words leaves the options drawn from them. -/
theorem setOption_drawn {option : ValueOption} {value : Str} (hvalue : Drawn words option value)
    (hoptions : DrawnFrom words options)
    (h : dialect.setOption option value options = .ok after) : DrawnFrom words after := by
  obtain ⟨hrequested, htitle, hcwd, henv⟩ := hoptions
  cases option with
  | cwd =>
    obtain ⟨-, -, rfl⟩ := setOption_cwd_eq_ok.mp h
    exact ⟨hrequested, htitle, by simpa using hvalue, henv⟩
  | env =>
    obtain ⟨entry, hentry, rfl⟩ := setOption_env_eq_ok.mp h
    have htext := eq_append_of_splitOnce (parseGuestEnvironment_eq_ok.mp hentry).1
    rw [htext] at hvalue
    refine ⟨hrequested, htitle, hcwd, fun other hother => ?_⟩
    rcases List.mem_append.mp hother with hmem | hmem
    · exact henv other hmem
    · exact List.mem_singleton.mp hmem ▸ hvalue
  | title =>
    obtain ⟨-, -, rfl⟩ := setOption_title_eq_ok.mp h
    exact ⟨hrequested, by simpa using hvalue, hcwd, henv⟩

/-- What a word without a value of its own can do. -/
theorem takeWord_cases {word : Str} (h : dialect.takeWord word options = .ok after) :
    (∃ detached gui translateFiles, after = { options with detached, gui, translateFiles }) ∨
      (∃ option value, dialect.attached? word = some (option, value) ∧
        dialect.setOption option value options = .ok after) ∨
      options.requested = none ∧ after = { options with requested := some word } := by
  unfold Dialect.takeWord at h
  split at h
  · simp only [bind_eq_ok, rejectIf_eq_ok, pure_eq_ok_iff, exists_const] at h
    exact .inl ⟨_, _, _, h.2.symm⟩
  · split at h
    · simp only [bind_eq_ok, rejectIf_eq_ok, pure_eq_ok_iff, exists_const] at h
      exact .inl ⟨_, _, _, h.2.symm⟩
    · split at h
      · simp only [bind_eq_ok, rejectIf_eq_ok, pure_eq_ok_iff, exists_const] at h
        exact .inl ⟨_, _, _, h.2.symm⟩
      · split at h
        · rename_i option value hattached
          exact .inr (.inl ⟨option, value, hattached, h⟩)
        · simp only [bind_eq_ok, rejectIf_eq_ok, pure_eq_ok_iff, exists_const, not_not] at h
          exact .inr (.inr ⟨h.2.1, h.2.2.symm⟩)

/-- An attached value is the rest of its word. -/
theorem attached?_drawn {word value : Str} {option : ValueOption}
    (h : dialect.attached? word = some (option, value)) :
    option.attached <+: word ∧ value <:+ word := by
  have htrim : ∀ pattern : Str, pattern ≠ [] → trimStartMatches pattern word <:+ word :=
    fun pattern hne => (trimStartMatches_spec hne word).2
  unfold Dialect.attached? at h
  split at h
  · rename_i htitle
    obtain ⟨rfl, rfl⟩ := Prod.mk.inj (Option.some.inj h)
    exact ⟨List.isPrefixOf_iff_prefix.mp htitle.2, htrim _ (by simp)⟩
  · split at h
    · rename_i hcwd
      obtain ⟨rfl, rfl⟩ := Prod.mk.inj (Option.some.inj h)
      exact ⟨List.isPrefixOf_iff_prefix.mp hcwd, htrim _ (by simp)⟩
    · split at h
      · rename_i henv
        obtain ⟨rfl, rfl⟩ := Prod.mk.inj (Option.some.inj h)
        exact ⟨List.isPrefixOf_iff_prefix.mp henv, htrim _ (by simp)⟩
      · cases h

theorem takeWord_kept {word : Str} (h : dialect.takeWord word options = .ok after) :
    Kept options after := by
  rcases takeWord_cases h with ⟨detached, gui, translateFiles, rfl⟩ | ⟨option, value, -, hset⟩ |
    ⟨-, rfl⟩
  · exact ⟨fun _ => id, fun _ => id, List.prefix_refl _⟩
  · exact setOption_kept hset
  · exact ⟨fun _ => id, fun _ => id, List.prefix_refl _⟩

theorem takeWord_drawn {word : Str} (hword : word ∈ words) (hoptions : DrawnFrom words options)
    (h : dialect.takeWord word options = .ok after) : DrawnFrom words after := by
  rcases takeWord_cases h with ⟨detached, gui, translateFiles, rfl⟩ |
    ⟨option, value, hattached, hset⟩ | ⟨-, rfl⟩
  · exact ⟨hoptions.requested, hoptions.title, hoptions.workingDirectory, hoptions.environment⟩
  · exact setOption_drawn (.inr ⟨word, hword, attached?_drawn hattached⟩) hoptions hset
  · exact ⟨by simpa using hword, hoptions.title, hoptions.workingDirectory, hoptions.environment⟩

/-- One turn of the loop: a word, and its value if it takes one. -/
theorem parseOptions_cases {rest : List Str} {left : Nat}
    (h : dialect.parseOptions rest (left + 1) options = .ok after) :
    ∃ word words, rest = word :: words ∧
      ((∃ next, dialect.takeWord word options = .ok next ∧
          dialect.parseOptions words left next = .ok after) ∨
        ∃ option value others next, words = value :: others ∧
          dialect.option? word = some option ∧
          dialect.setOption option value options = .ok next ∧
          dialect.parseOptions others (left - 1) next = .ok after) := by
  cases rest with
  | nil => cases h
  | cons word words =>
    refine ⟨word, words, rfl, ?_⟩
    cases htakes : dialect.option? word with
    | none =>
      rw [parseOptions_word htakes] at h
      exact .inl (bind_eq_ok.mp h)
    | some option =>
      cases words with
      | nil =>
        rw [Dialect.parseOptions, htakes] at h
        cases h
      | cons value others =>
        rw [parseOptions_value htakes] at h
        obtain ⟨next, hset, hrest⟩ := bind_eq_ok.mp h
        exact .inr ⟨option, value, others, next, rfl, rfl, hset, hrest⟩

/-- The rule of the loop: what every turn keeps, of the words of a vector, the loop keeps. -/
theorem parseOptions_rule {P : Options → Prop} {rest : List Str} {left : Nat}
    (htake : ∀ word ∈ words, ∀ options next, P options →
      dialect.takeWord word options = .ok next → P next)
    (hset : ∀ option, ∀ value ∈ words, ∀ options next, P options →
      dialect.setOption option value options = .ok next → P next)
    (hrest : ∀ word ∈ rest, word ∈ words) (hoptions : P options)
    (h : dialect.parseOptions rest left options = .ok after) : P after := by
  induction hlength : rest.length using Nat.strongRecOn generalizing rest left options with
  | _ length ih =>
    cases left with
    | zero =>
      rw [Dialect.parseOptions, Except.ok.injEq] at h
      exact h ▸ hoptions
    | succ left =>
      obtain ⟨word, others, rfl, hturn⟩ := parseOptions_cases h
      have hothers : ∀ other ∈ others, other ∈ words := fun other hother =>
        hrest other (List.mem_cons_of_mem word hother)
      rcases hturn with ⟨next, hword, hloop⟩ | ⟨option, value, more, next, rfl, -, hvalue, hloop⟩
      · have hnext := htake word (hrest word List.mem_cons_self) options next hoptions hword
        exact ih others.length (by simp [← hlength]) hothers hnext hloop rfl
      · have hmem := hothers value List.mem_cons_self
        have hnext := hset option value hmem options next hoptions hvalue
        have hmore : ∀ other ∈ more, other ∈ words := fun other hother =>
          hothers other (List.mem_cons_of_mem value hother)
        have hshorter : more.length < length := by
          rw [← hlength, List.length_cons, List.length_cons]
          omega
        exact ih more.length hshorter hmore hnext hloop rfl

/-- The loop takes everything from its words. -/
theorem parseOptions_drawn {left : Nat} (hoptions : DrawnFrom words options)
    (h : dialect.parseOptions words left options = .ok after) : DrawnFrom words after := by
  refine parseOptions_rule ?_ ?_ (fun _ => id) hoptions h
  · exact fun word hword _ _ hbefore htake => takeWord_drawn hword hbefore htake
  · exact fun option value hvalue _ _ hbefore hset => setOption_drawn (.inl hvalue) hbefore hset

/-- It keeps what was set before. -/
theorem parseOptions_kept {left : Nat} (h : dialect.parseOptions words left options = .ok after) :
    Kept options after := by
  refine parseOptions_rule (P := Kept options) ?_ ?_ (fun _ => id) (.refl options) h
  · exact fun word _ _ _ hbefore htake => hbefore.trans (takeWord_kept htake)
  · exact fun option value _ _ _ hbefore hset => hbefore.trans (setOption_kept hset)

end Values

end Lsw.Cli.CommandOptions
