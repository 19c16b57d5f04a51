import Lsw.Cli.DesktopLauncher
import Lsw.Lib.Lossy

/-!
# Launcher Ids

The id of a launcher is made from the name of its instance and a slug of its title, and then names
the two files of the launcher.  `validate_id` is asked before a file is written, and never refuses:
whether a launcher is installed is up to its title alone.
-/

namespace Lsw.Cli.DesktopLauncher

open Lsw.Lib Lsw.Core Lsw.Protocol Lsw.Cli.CommandOptions

/-! ## Characters of an id -/

theorem toNat_lt_of_isAlphanum {c : Char} (h : c.isAlphanum = true) : c.toNat < 128 := by
  have hranges : ((decide ('A'.val ≤ c.val ∧ c.val ≤ 'Z'.val) ||
      decide ('a'.val ≤ c.val) && decide (c.val ≤ 'z'.val)) ||
        decide ('0'.val ≤ c.val) && decide (c.val ≤ '9'.val)) = true := h
  simp only [Bool.or_eq_true, Bool.and_eq_true, decide_eq_true_eq, UInt32.le_iff_toNat_le] at hranges
  have hvalue : c.val.toNat = c.toNat := rfl
  have h90 : 'Z'.val.toNat = 90 := rfl
  have h122 : 'z'.val.toNat = 122 := rfl
  have h57 : '9'.val.toNat = 57 := rfl
  omega

/-- What `slug` writes for a letter or a digit may stand in an id. -/
theorem isIdChar_toLower {c : Char} (h : c.isAlphanum = true) : isIdChar c.toLower = true := by
  have hall : ((List.range 128).all fun n =>
      !(Char.ofNat n).isAlphanum || isIdChar (Char.ofNat n).toLower) = true := by
    decide
  have hn := List.all_eq_true.mp hall c.toNat (List.mem_range.mpr (toNat_lt_of_isAlphanum h))
  rw [Char.ofNat_toNat, h] at hn
  exact hn

theorem toNat_lt_of_isIdChar {c : Char} (h : isIdChar c = true) : c.toNat < 128 := by
  rw [isIdChar, Bool.or_eq_true, Bool.or_eq_true, beq_iff_eq] at h
  rcases h with (hlower | hdigit) | rfl
  · have halphanum : (c.isUpper || c.isLower || c.isDigit) = true := by rw [hlower]; simp
    exact toNat_lt_of_isAlphanum halphanum
  · have halphanum : (c.isUpper || c.isLower || c.isDigit) = true := by rw [hdigit]; simp
    exact toNat_lt_of_isAlphanum halphanum
  · decide

/-- The characters of a valid name may stand in an id. -/
theorem isIdChar_of_isName {limit : Nat} {name : Str} (h : isName limit name = true) :
    ∀ c ∈ name, isIdChar c = true := by
  intro c hc
  simp only [isName, Bool.and_eq_true, List.all_eq_true] at h
  have hall : ((List.range 256).all fun n =>
      !isNameByte (UInt8.ofNat n) || (decide (n < 128) && isIdChar (Char.ofNat n))) = true := by
    decide +kernel
  obtain ⟨b, others, hencode⟩ := List.exists_cons_of_ne_nil (@String.utf8EncodeChar_ne_nil c)
  have hb : b ∈ String.utf8EncodeChar c := hencode ▸ List.mem_cons_self
  have hname : isNameByte b = true := h.1.2 b (List.mem_flatMap.mpr ⟨c, hc, hb⟩)
  have hn := List.all_eq_true.mp hall b.toNat (List.mem_range.mpr b.toNat_lt)
  rw [UInt8.ofNat_toNat, hname, Bool.not_true, Bool.false_or, Bool.and_eq_true,
    decide_eq_true_eq] at hn
  rw [← Char.ofNat_toNat c, (utf8EncodeChar_of_ascii hb hn.1).2]
  exact hn.2

/-! ## Slugs -/

/-- The loop of `slug` writes characters of an id only. -/
theorem isIdChar_foldl_slugStep (value : Str) {state : Str × Bool}
    (h : ∀ c ∈ state.1, isIdChar c = true) :
    ∀ c ∈ (value.foldl slugStep state).1, isIdChar c = true := by
  induction value generalizing state with
  | nil => exact h
  | cons c value ih =>
    rw [List.foldl_cons]
    apply ih
    rw [slugStep]
    split
    · rename_i halphanum
      simpa [or_imp, forall_and] using ⟨h, isIdChar_toLower halphanum⟩
    · split
      · simpa [or_imp, forall_and] using ⟨h, (by decide : isIdChar '-' = true)⟩
      · exact h

theorem isIdChar_slug (value : Str) : ∀ c ∈ slug value, isIdChar c = true := by
  intro c hc
  have hnil : ∀ d ∈ (([], false) : Str × Bool).1, isIdChar d = true := by simp
  have hmem := List.mem_of_mem_take hc
  rw [List.mem_reverse] at hmem
  have hloop := List.mem_reverse.mp ((List.dropWhile_sublist _).mem hmem)
  exact isIdChar_foldl_slugStep value hnil c hloop

theorem length_slug_le (value : Str) : (slug value).length ≤ 48 := List.length_take_le _ _

/-! ## Ids -/

/-- The part of an id that stands for the title. -/
theorem isIdChar_titlePart (title : Str) :
    (∀ c ∈ (if slug title = [] then "app".toList else slug title), isIdChar c = true) ∧
      (if slug title = [] then "app".toList else slug title).length ≤ 48 := by
  by_cases hslug : slug title = []
  · rw [if_pos hslug]
    exact ⟨forall_mem_of_all (by decide), by decide⟩
  · rw [if_neg hslug]
    exact ⟨isIdChar_slug title, length_slug_le title⟩

theorem isIdChar_launcherId {name : Str} (h : isName 63 name = true) (title : Str) :
    ∀ c ∈ launcherId name title, isIdChar c = true := by
  intro c hc
  rw [launcherId, List.mem_append, List.mem_append, List.mem_cons] at hc
  rcases hc with hstart | hname | rfl | htitle
  · exact forall_mem_of_all (p := fun c => isIdChar c = true) (by decide) c hstart
  · exact isIdChar_of_isName h c hname
  · decide
  · exact (isIdChar_titlePart title).1 c htitle

theorem length_bytes_of_ascii {s : Str} (h : ∀ c ∈ s, c.toNat < 128) :
    (bytes s).length = s.length := by
  rw [bytes_of_ascii h, List.length_map]

/-- An id that `install` makes is one that it accepts. -/
theorem validateId_launcherId {name : Str} (h : isName 63 name = true) (title : Str) :
    validateId (launcherId name title) = .ok () := by
  have hchars := isIdChar_launcherId h title
  have hlength : (bytes (launcherId name title)).length ≤ 128 := by
    have hname : name.length ≤ 63 := by
      have hbytes := length_bytes_of_ascii fun c hc => toNat_lt_of_isIdChar (isIdChar_of_isName h c hc)
      simp only [isName, Bool.and_eq_true, decide_eq_true_eq] at h
      rw [← hbytes]
      exact h.1.1.2
    have htitle := (isIdChar_titlePart title).2
    have hstart : "lsw-".toList.length = 4 := rfl
    rw [length_bytes_of_ascii fun c hc => toNat_lt_of_isIdChar (hchars c hc), launcherId,
      List.length_append, List.length_append, List.length_cons]
    omega
  rw [validateId, rejectIf_eq_ok]
  rintro (hnil | hlong | hall)
  · simp [launcherId] at hnil
  · omega
  · rw [List.all_eq_true.mpr hchars] at hall
    cases hall

/-- The title of a launcher, given or from its program. -/
def titleOf (parsed : InstallArguments) : Str :=
  parsed.title.getD (defaultTitle (parsed.request.argv.headD "").toList)

/-- A launcher is installed if and only if its title is valid, and its id then names files of the
    launcher directories themselves. -/
theorem launchers_are_refused_for_titles_only (parsed : InstallArguments)
    (name icons executable : Str) (h : isName 63 name = true) :
    ((∃ launcher, installed parsed name icons executable = .ok launcher) ↔
        validateTitle (titleOf parsed) = .ok ()) ∧
      ∀ launcher, installed parsed name icons executable = .ok launcher →
        launcher.id ≠ [] ∧ '/' ∉ launcher.id ∧ '.' ∉ launcher.id := by
  -- The identifier made from a name and a title is always valid.
  have hid := validateId_launcherId h (titleOf parsed)
  constructor
  · constructor
    · rintro ⟨launcher, hinstalled⟩
      simp only [installed, bind_eq_ok] at hinstalled
      obtain ⟨_, htitle, -⟩ := hinstalled
      exact htitle
    · intro htitle
      rw [titleOf] at htitle hid
      cases hinstalled : installed parsed name icons executable with
      | ok launcher => exact ⟨launcher, rfl⟩
      | error refusal =>
        rw [installed, htitle, ok_bind] at hinstalled
        dsimp only at hinstalled
        rw [hid, ok_bind] at hinstalled
        cases hinstalled
  -- It has neither a slash nor a point in it.
  · intro launcher hinstalled
    simp only [installed, bind_eq_ok, pure_eq_ok_iff] at hinstalled
    obtain ⟨_, -, _, -, rfl⟩ := hinstalled
    have hchars := isIdChar_launcherId h (titleOf parsed)
    refine ⟨by simp [launcherId], fun hmem => ?_, fun hmem => ?_⟩
    · exact absurd (hchars '/' hmem) (by decide)
    · exact absurd (hchars '.' hmem) (by decide)

/-- A title of which nothing is left in the slug. -/
theorem nameless_title_is_installed : ∃ launcher,
    installed { parsedInDirectory "C:/Work" with title := some "...".toList } "win-dev".toList
      "/icons".toList "/usr/bin/lsw".toList = .ok launcher :=
  (launchers_are_refused_for_titles_only
    { parsedInDirectory "C:/Work" with title := some "...".toList } "win-dev".toList
    "/icons".toList "/usr/bin/lsw".toList rfl).1.mpr rfl

end Lsw.Cli.DesktopLauncher
