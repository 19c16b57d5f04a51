import Lsw.Core.Qemu
import Lsw.Lib.ShellWords

/-!
# Commands for a Shell

`display_command` (`qemu.rs`) shows a program and its arguments as a command that can be given
to a shell, and the command of the private SMB server is given to one by QEMU.  Both join
words that `shell_quote` has made safe.  `yields_shellQuote` says what a shell reads of such a
word: the word itself, and of the empty one nothing.
-/

namespace Lsw.Core

open Lsw.Lib Lsw.Lib.ShellWords

/-- `display_command`. -/
def displayCommand (program : PathBuf) (arguments : List PathBuf) : Str :=
  [' '].intercalate ((program :: arguments).map fun value => shellQuote value.display)

/-- `CommandInvocation::display_command`. -/
def CommandInvocation.displayCommand (invocation : CommandInvocation) : Str :=
  Core.displayCommand invocation.program invocation.arguments

/-- `CommandPlan::display_command`. -/
def CommandPlan.displayCommand (plan : CommandPlan) : Str :=
  Core.displayCommand plan.program plan.arguments

/-! ## Quoted words -/

/-- A byte that `shell_quote` leaves as it is. -/
def isShellSafe (b : UInt8) : Bool :=
  isAsciiAlphanumeric b || (bytes "_+-./:=,@".toList).contains b

/-- A byte that is left as it is is a character that needs no quotes. -/
theorem isPlain_of_isShellSafe {b : UInt8} (h : isShellSafe b = true) :
    b.toNat < 128 ∧ IsPlain (Char.ofNat b.toNat) := by
  have hascii : b.toNat < 128 := by
    rcases Bool.or_eq_true _ _ ▸ h with halphanumeric | hlisted
    · simp only [isAsciiAlphanumeric, Bool.or_eq_true, Bool.and_eq_true, decide_eq_true_eq,
        UInt8.le_iff_toNat_le] at halphanumeric
      have h122 : (122 : UInt8).toNat = 122 := rfl
      have h90 : (90 : UInt8).toNat = 90 := rfl
      have h57 : (57 : UInt8).toNat = 57 := rfl
      omega
    · have hlist : ∀ b ∈ bytes "_+-./:=,@".toList, b.toNat < 128 :=
        forall_mem_of_all (by decide)
      exact hlist b (List.contains_iff_mem.mp hlisted)
  have hall : ∀ n < 128, isShellSafe (UInt8.ofNat n) = true →
      Char.ofNat n ≠ '\'' ∧ Char.ofNat n ≠ '"' ∧ Char.ofNat n ≠ '\\' ∧
        ShellWords.isBlank (Char.ofNat n) = false ∧ isSpecial (Char.ofNat n) = false := by decide
  obtain ⟨hsingle, hdouble, hbackslash, hblank, hspecial⟩ :=
    hall b.toNat hascii (by rwa [UInt8.ofNat_toNat])
  exact ⟨hascii, hsingle, hdouble, hbackslash, hblank, hspecial⟩

theorem isPlain_of_safe {c : Char} (h : ∀ b ∈ String.utf8EncodeChar c, isShellSafe b = true) :
    IsPlain c := by
  obtain ⟨b, others, hencode⟩ := List.exists_cons_of_ne_nil (@String.utf8EncodeChar_ne_nil c)
  have hmem : b ∈ String.utf8EncodeChar c := hencode ▸ List.mem_cons_self
  obtain ⟨hascii, hplain⟩ := isPlain_of_isShellSafe (h b hmem)
  rwa [← (utf8EncodeChar_of_ascii hmem hascii).2, Char.ofNat_toNat] at hplain

theorem shellQuote_eq (value : Str) :
    shellQuote value = if (bytes value).all isShellSafe then value else singleQuoted value := rfl

/-- What a shell reads of a quoted word. -/
theorem yields_shellQuote (value : Str) :
    reader.Yields (shellQuote value) (if value = [] then [] else [value]) := by
  rw [shellQuote_eq]
  split
  · rename_i hsafe
    split
    · rename_i hempty
      rw [hempty]
      exact WordReader.yields_nil
    · rename_i hne
      refine (reads_plain hne fun c hc => isPlain_of_safe fun b hb => ?_).yields
      exact List.all_eq_true.mp hsafe b (List.mem_flatMap.mpr ⟨c, hc, hb⟩)
  · rename_i hunsafe
    have hne : value ≠ [] := by
      rintro rfl
      exact hunsafe rfl
    rw [if_neg hne]
    exact (reads_singleQuoted value).yields

/-- A shell reads the words that are not empty. -/
theorem words_shellQuote (values : List Str) :
    reader.words ([' '].intercalate (values.map shellQuote)) =
      some (values.filter fun value => !value.isEmpty) := by
  have hspace : reader.isBlank ' ' = true := rfl
  have hyields : List.Forall₂ reader.Yields (values.map shellQuote)
      (values.map fun value => if value = [] then [] else [value]) := by
    induction values with
    | nil => exact .nil
    | cons value values ih => exact .cons (yields_shellQuote value) ih
  rw [WordReader.words_intercalate hspace hyields]
  congr 1
  clear hyields
  induction values with
  | nil => rfl
  | cons value values ih =>
    rw [List.map_cons, List.flatten_cons, ih]
    by_cases hne : value = []
    · simp [hne]
    · simp [hne]

/-- The words of the command that starts the private SMB server. -/
def liveSmbWords (smbd instanceDir : PathBuf) : List Str :=
  let runtime := (instanceDir.join "run".toList).join "live-smb".toList
  [smbd.display, "-l".toList, runtime.display, "-s".toList, (runtime.join "smb.conf".toList).display]

theorem display_join_ne_nil (base : PathBuf) {name : Str} (hne : name ≠ []) :
    (base.join name).display ≠ [] := by
  have hunits : (PathBuf.ofStr name).units ≠ [] := by simpa [PathBuf.ofStr] using hne
  have hlast : (joinPath (.char '/') base.units (PathBuf.ofStr name).units).getLast? = _ :=
    getLast?_joinPath _ hunits
  intro hempty
  have hjoin : (base.join name).units = [] := List.map_eq_nil_iff.mp hempty
  rw [PathBuf.join] at hjoin
  simp only at hjoin
  rw [hjoin] at hlast
  exact hunits (List.getLast?_eq_none_iff.mp hlast.symm)

/-- A command shown for a shell is read as the program and its arguments when none of them is
    empty, and the command of the SMB server is when the path of the server is not. -/
theorem display_command_reads_back_iff (program : Str) (arguments : List Str)
    (smbd instanceDir : Str) :
    (reader.words (displayCommand (.ofStr program) (arguments.map .ofStr)) =
        some (program :: arguments) ↔ ∀ word ∈ program :: arguments, word ≠ []) ∧
      (reader.words (liveSmbGuestForwardCommand (.ofStr smbd) (.ofStr instanceDir)) =
        some (liveSmbWords (.ofStr smbd) (.ofStr instanceDir)) ↔ smbd ≠ []) := by
  constructor
  · have hwords : displayCommand (.ofStr program) (arguments.map .ofStr) =
        [' '].intercalate ((program :: arguments).map shellQuote) := by
      simp [displayCommand, Function.comp_def]
    rw [hwords, words_shellQuote, Option.some.injEq, List.filter_eq_self]
    simp
  · have hwords : reader.words (liveSmbGuestForwardCommand (.ofStr smbd) (.ofStr instanceDir)) =
        some ((liveSmbWords (.ofStr smbd) (.ofStr instanceDir)).filter fun word => !word.isEmpty) :=
      words_shellQuote (liveSmbWords (.ofStr smbd) (.ofStr instanceDir))
    rw [hwords, Option.some.injEq, List.filter_eq_self]
    simp [liveSmbWords, display_join_ne_nil]

/-- An empty argument is lost. -/
theorem empty_argument_is_lost :
    reader.words (displayCommand (.ofStr "tool".toList) ([[], "x".toList].map .ofStr)) ≠
      some ["tool".toList, [], "x".toList] := by
  decide

end Lsw.Core
