import Lsw.Cli.TransferPaths

/-!
# The Listing of a Guest Directory

A guest lists a directory tree as lines of text, and the paths in them are hexadecimal
(`parse_remote_tree` in `transfer.rs`).  The guest is not trusted: the paths are checked,
repeated ones are refused, and the entries are sorted so that directories can be made before
what they hold.

Checks look at the components of a path, at either separator; repetition and order look at
how it is spelled.  `SpelledAlike` is what a listing must fulfil for that to come to the same.
-/

namespace Lsw.Cli.Transfer

open Lsw.Lib Lsw.Core

/-! ## The program -/

/-- `LocalEntryKind`. -/
inductive EntryKind where
  | directory
  | file
  deriving DecidableEq, Repr

/-- `RemoteEntry`. -/
structure RemoteEntry where
  relative : Str
  kind : EntryKind
  deriving DecidableEq

/-- `u8::is_ascii_hexdigit`. -/
def isHexDigit (b : UInt8) : Bool :=
  (48 ≤ b && b ≤ 57) || (65 ≤ b && b ≤ 70) || (97 ≤ b && b ≤ 102)

/-- The value of a hexadecimal digit. -/
def hexValue (b : UInt8) : UInt8 :=
  if b ≤ 57 then b - 48 else if b ≤ 70 then b - 55 else b - 87

/-- `chunks_exact(2)`, each pair read as a number. -/
def hexPairs : List UInt8 → List UInt8
  | high :: low :: rest => (hexValue high * 16 + hexValue low) :: hexPairs rest
  | _ => []

/-- `decode_hex`. -/
def decodeHex (value : Str) : Except TransferError (List UInt8) := do
  rejectIf ((bytes value).length % 2 ≠ 0 ∨ (bytes value).all isHexDigit = false)
    (.text [.text "guest returned invalid hexadecimal path data"])
  return hexPairs (bytes value)

/-- A line of the listing: its kind and its path. -/
def parseTreeLine (line : Str) : Except TransferError RemoteEntry := do
  let (kind, encoded) ← match line.splitOn '\t' with
    | [['D'], encoded] => pure (EntryKind.directory, encoded)
    | [['F'], length, encoded] => do
      let _ ← (parseUnsigned (2 ^ 64) length).mapError TransferError.number
      pure (EntryKind.file, encoded)
    | _ => .error (.text [.text "guest returned an invalid tree entry"])
  let relative ← okOr (fromUtf8 (← decodeHex encoded)) .utf8
  return { relative, kind }

/-- One line in the loop of `parse_remote_tree`; the entries are also the paths seen before. -/
def addTreeLine (entries : List RemoteEntry) (line : Str) :
    Except TransferError (List RemoteEntry) := do
  let entry ← parseTreeLine line
  let _ ← relativePath entry.relative
  rejectIf (entry.relative ∈ entries.map (·.relative))
    (.text [.text "guest returned duplicate tree path ", .debug entry.relative])
  return entries ++ [entry]

/-- `left.relative.cmp(&right.relative)` is not `Greater`; strings compare by their bytes. -/
def comesFirst (left right : RemoteEntry) : Bool := decide (bytes left.relative ≤ bytes right.relative)

/-- `output.lines().filter(|line| !line.is_empty())`. -/
def listedLines (output : Str) : List Str := (lines output).filter fun line => !line.isEmpty

/-- `parse_remote_tree`. -/
def parseRemoteTree (output : List UInt8) : Except TransferError (List RemoteEntry) := do
  let output ← okOr (fromUtf8 output) .utf8
  let entries ← forEach (listedLines output) addTreeLine []
  return entries.mergeSort comesFirst

/-! ## What an accepted listing should be -/

/-- An entry that is a directory, and another one below it. -/
def IsParent (parent child : RemoteEntry) : Prop :=
  parent.kind = .directory ∧ pathNames parent.relative <+: pathNames child.relative ∧
    pathNames parent.relative ≠ pathNames child.relative

/-- The entries can be made below any directory, one after the other. -/
structure SoundTree (entries : List RemoteEntry) : Prop where
  safe : ∀ entry ∈ entries, IsSafePath entry.relative
  below : ∀ entry ∈ entries, ∀ directory, ∃ path, relativePath entry.relative = .ok path ∧
    IsBelow ⟨joinPath (.char '/') directory.units path.units⟩ directory (pathNames entry.relative)
  distinct : entries.Pairwise fun first second => pathNames first.relative ≠ pathNames second.relative
  parentsFirst : entries.Pairwise fun first second => ¬ IsParent second first

/-! ## Listings that spell alike -/

/-- A listed entry. -/
def IsListed (output : List UInt8) (entry : RemoteEntry) : Prop :=
  ∃ text, fromUtf8 output = some text ∧
    ∃ line ∈ listedLines text, parseTreeLine line = .ok entry

/-- A directory is spelled with a backslash where the path of another entry, which goes on below
    it, has a slash. -/
def Overtakes (directory entry : RemoteEntry) : Prop :=
  directory.kind = .directory ∧ ∃ front more rest, directory.relative = front ++ '\\' :: more ∧
    entry.relative = front ++ '/' :: rest ∧ forwardSlashes more ++ ['/'] <+: forwardSlashes rest

/-- No path of the listing is spelled in two ways, and none overtakes its directory by its
    spelling. -/
structure SpelledAlike (output : List UInt8) : Prop where
  once : ∀ first second, IsListed output first → IsListed output second →
    forwardSlashes first.relative = forwardSlashes second.relative →
      first.relative = second.relative
  ordered : ∀ directory entry, IsListed output directory → IsListed output entry →
    ¬ Overtakes directory entry

/-! ## How components and spelling compare -/

/-- The components of a path, and the path with slashes, say the same. -/
theorem forwardSlashes_eq (value : Str) :
    forwardSlashes value = ['/'].intercalate (pathNames value) := by
  rw [pathNames, ← splitOnP_forwardSlashes, ← splitOn_slash (backslash_not_mem_forwardSlashes value),
    List.intercalate_splitOn]

theorem pathNames_eq_iff {left right : Str} :
    pathNames left = pathNames right ↔ forwardSlashes left = forwardSlashes right := by
  constructor
  · intro h
    rw [forwardSlashes_eq, forwardSlashes_eq, h]
  · intro h
    rw [pathNames, pathNames, ← splitOnP_forwardSlashes, h, splitOnP_forwardSlashes]

/-- Below a path are those that go on behind it with a separator. -/
theorem pathNames_prefix_iff {parent child : Str} :
    (pathNames parent <+: pathNames child ∧ pathNames parent ≠ pathNames child) ↔
      ∃ rest, forwardSlashes child = forwardSlashes parent ++ '/' :: rest := by
  have hsplit : ∀ value, pathNames value = (forwardSlashes value).splitOn '/' := fun value => by
    rw [splitOn_slash (backslash_not_mem_forwardSlashes value), splitOnP_forwardSlashes, pathNames]
  rw [ne_eq, pathNames_eq_iff, hsplit, hsplit, splitOn_prefix_iff]
  constructor
  · rintro ⟨heq | hrest, hne⟩
    · exact absurd heq.symm hne
    · exact hrest
  · rintro ⟨rest, hrest⟩
    refine ⟨.inr ⟨rest, hrest⟩, fun heq => ?_⟩
    have hlength := congrArg List.length (heq.trans hrest)
    simp at hlength

/-- What comes first of two paths, the second of which goes on behind the first: the first one,
    unless the second has a slash where the first has its first differing separator. -/
theorem lt_or_overtakes {parent child rest : Str}
    (h : forwardSlashes child = forwardSlashes parent ++ '/' :: rest) :
    bytes parent < bytes child ∨ ∃ front more tail, parent = front ++ '\\' :: more ∧
      child = front ++ '/' :: tail ∧ forwardSlashes more ++ ['/'] <+: forwardSlashes tail := by
  induction parent generalizing child with
  | nil =>
    cases child with
    | nil => simp [forwardSlashes] at h
    | cons c child =>
      left
      obtain ⟨b, others, hencode⟩ := List.exists_cons_of_ne_nil (@String.utf8EncodeChar_ne_nil c)
      rw [bytes_cons, hencode, bytes_nil]
      exact List.nil_lt_cons _ _
  | cons c parent ih =>
    cases child with
    | nil => simp [forwardSlashes] at h
    | cons d child =>
      simp only [forwardSlashes, List.map_cons, List.cons_append, List.cons.injEq] at h
      obtain ⟨hhead, htail⟩ := h
      by_cases heq : d = c
      · -- The same character: look further.
        subst heq
        rcases ih htail with hlt | ⟨front, more, tail, rfl, rfl, hbelow⟩
        · left
          rw [bytes_cons, bytes_cons]
          exact List.append_left_lt hlt
        · exact .inr ⟨d :: front, more, tail, rfl, rfl, hbelow⟩
      · -- Characters that differ are the two separators.
        by_cases hc : c = '\\'
        · subst hc
          obtain rfl : d = '/' := by simpa [heq] using hhead
          exact .inr ⟨[], parent, child, rfl, rfl, rest, by simpa [forwardSlashes] using htail.symm⟩
        · by_cases hd : d = '\\'
          · subst hd
            obtain rfl : '/' = c := by simpa [hc] using hhead
            left
            rw [bytes_cons, bytes_cons]
            exact List.cons_lt_cons_iff.mpr (.inl (by decide))
          · simp [hc, hd, heq] at hhead

theorem lt_of_overtakes {directory entry : RemoteEntry} (h : Overtakes directory entry) :
    bytes entry.relative < bytes directory.relative := by
  obtain ⟨-, front, more, rest, hdirectory, hentry, -⟩ := h
  rw [hdirectory, hentry, bytes_append, bytes_append, bytes_cons, bytes_cons]
  exact List.append_left_lt (List.cons_lt_cons_iff.mpr (.inl (by decide)))

theorem isParent_of_overtakes {directory entry : RemoteEntry} (h : Overtakes directory entry) :
    IsParent directory entry := by
  obtain ⟨hkind, front, more, rest, hdirectory, hentry, tail, htail⟩ := h
  refine ⟨hkind, pathNames_prefix_iff.mpr ⟨tail, ?_⟩⟩
  have hback : ∀ s t : Str, forwardSlashes (s ++ t) = forwardSlashes s ++ forwardSlashes t :=
    fun s t => List.map_append
  have hslash : ∀ s : Str, forwardSlashes ('/' :: s) = '/' :: forwardSlashes s := fun _ => rfl
  have hbackslash : ∀ s : Str, forwardSlashes ('\\' :: s) = '/' :: forwardSlashes s := fun _ => rfl
  rw [hdirectory, hentry, hback, hback, hslash, hbackslash, ← htail]
  simp

/-! ## The entries of a listing -/

theorem addTreeLine_eq_ok {entries next : List RemoteEntry} {line : Str} :
    addTreeLine entries line = .ok next ↔ ∃ entry, parseTreeLine line = .ok entry ∧
      IsSafePath entry.relative ∧ entry.relative ∉ entries.map (·.relative) ∧
      next = entries ++ [entry] := by
  simp only [addTreeLine, bind_eq_ok, relativePath_eq_ok, rejectIf_eq_ok, pure_eq_ok_iff,
    exists_const]
  constructor
  · rintro ⟨entry, hline, path, ⟨hsafe, -⟩, hnew, rfl⟩
    exact ⟨entry, hline, hsafe, hnew, rfl⟩
  · rintro ⟨entry, hline, hsafe, hnew, rfl⟩
    exact ⟨entry, hline, _, ⟨hsafe, rfl⟩, hnew, rfl⟩

/-- What the loop has collected: the entries of the lines so far, safe and spelled apart. -/
structure Collected (lines : List Str) (entries : List RemoteEntry) : Prop where
  listed : ∀ entry, entry ∈ entries ↔ ∃ line ∈ lines, parseTreeLine line = .ok entry
  safe : ∀ entry ∈ entries, IsSafePath entry.relative
  apart : (entries.map (·.relative)).Nodup

theorem collected_nil : Collected [] [] := ⟨by simp, by simp, by simp⟩

/-- The loop over the lines, one line further. -/
theorem Collected.add {lines : List Str} {entries next : List RemoteEntry} {line : Str}
    (h : Collected lines entries) (hline : addTreeLine entries line = .ok next) :
    Collected (lines ++ [line]) next := by
  obtain ⟨entry, hparse, hsafe, hnew, rfl⟩ := addTreeLine_eq_ok.mp hline
  constructor
  · intro other
    simp only [List.mem_append, h.listed other, List.mem_singleton, or_and_right, exists_or,
      exists_eq_left, hparse, Except.ok.injEq]
    exact or_congr_right eq_comm
  · intro other hother
    rcases List.mem_append.mp hother with hmem | hmem
    · exact h.safe other hmem
    · exact List.mem_singleton.mp hmem ▸ hsafe
  · rw [List.map_append, List.nodup_append]
    refine ⟨h.apart, by simp, ?_⟩
    rintro first hfirst second hsecond rfl
    simp at hsecond
    exact hnew (hsecond ▸ hfirst)

theorem Collected.run {lines rest : List Str} {entries out : List RemoteEntry}
    (h : Collected lines entries) (hrun : forEach rest addTreeLine entries = .ok out) :
    Collected (lines ++ rest) out := by
  induction rest generalizing lines entries with
  | nil =>
    obtain rfl : entries = out := by simpa using hrun
    simpa using h
  | cons line rest ih =>
    obtain ⟨next, hline, hrest⟩ := bind_eq_ok.mp hrun
    simpa using ih (h.add hline) hrest

/-- An accepted listing: its entries, sorted. -/
theorem parseRemoteTree_eq_ok {output : List UInt8} {entries : List RemoteEntry}
    (h : parseRemoteTree output = .ok entries) : ∃ text collected, fromUtf8 output = some text ∧
      Collected (listedLines text) collected ∧ entries = collected.mergeSort comesFirst := by
  simp only [parseRemoteTree, bind_eq_ok, okOr_eq_ok, pure_eq_ok_iff] at h
  obtain ⟨text, htext, collected, hrun, rfl⟩ := h
  exact ⟨text, collected, htext, collected_nil.run hrun, rfl⟩

theorem comesFirst_trans (a b c : RemoteEntry) (hab : comesFirst a b = true)
    (hbc : comesFirst b c = true) : comesFirst a c = true := by
  simp only [comesFirst, decide_eq_true_eq] at *
  exact List.le_trans hab hbc

theorem comesFirst_total (a b : RemoteEntry) : (comesFirst a b || comesFirst b a) = true := by
  simp only [comesFirst, Bool.or_eq_true, decide_eq_true_eq]
  exact List.le_total _ _

/-- What is known of the entries before the listing is looked at: they are those listed, safe,
    spelled apart and sorted. -/
structure Listing (output : List UInt8) (entries : List RemoteEntry) : Prop where
  listed : ∀ entry, entry ∈ entries ↔ IsListed output entry
  safe : ∀ entry ∈ entries, IsSafePath entry.relative
  apart : entries.Pairwise fun first second => first.relative ≠ second.relative
  sorted : entries.Pairwise fun first second => bytes first.relative ≤ bytes second.relative

/-- What is parsed is a listing. -/
theorem listing_of_parse {output : List UInt8} {entries : List RemoteEntry}
    (h : parseRemoteTree output = .ok entries) : Listing output entries := by
  obtain ⟨text, collected, htext, hcollected, rfl⟩ := parseRemoteTree_eq_ok h
  have hperm := List.mergeSort_perm collected comesFirst
  constructor
  · intro entry
    rw [hperm.mem_iff, hcollected.listed]
    constructor
    · exact fun hline => ⟨text, htext, hline⟩
    · rintro ⟨other, hother, hline⟩
      obtain rfl : text = other := Option.some.inj (htext.symm.trans hother)
      exact hline
  · exact fun entry hentry => hcollected.safe entry (hperm.mem_iff.mp hentry)
  · have hnodup : ((collected.mergeSort comesFirst).map (·.relative)).Nodup :=
      (hperm.map _).nodup_iff.mpr hcollected.apart
    exact List.pairwise_map.mp hnodup
  · have hsorted := List.pairwise_mergeSort comesFirst_trans comesFirst_total collected
    exact hsorted.imp fun hfirst => of_decide_eq_true hfirst

/-! ## Which listings are sound -/

/-- Of two different members of a sorted list one comes first. -/
theorem first_of_pairwise {α : Type} {R : α → α → Prop} {xs : List α} (h : xs.Pairwise R) {a b : α}
    (ha : a ∈ xs) (hb : b ∈ xs) (hne : a ≠ b) : R a b ∨ R b a := by
  induction h with
  | nil => cases ha
  | cons hfirst _ ih =>
    rcases List.mem_cons.mp ha with rfl | ha'
    · rcases List.mem_cons.mp hb with rfl | hb'
      · exact absurd rfl hne
      · exact .inl (hfirst b hb')
    · rcases List.mem_cons.mp hb with rfl | hb'
      · exact .inr (hfirst a ha')
      · exact ih ha' hb'

/-- Every listing that is accepted is safe, and stays below the directory it is joined to. -/
theorem Listing.contained {output : List UInt8} {entries : List RemoteEntry}
    (h : Listing output entries) {entry : RemoteEntry} (hentry : entry ∈ entries)
    (directory : PathBuf) : ∃ path, relativePath entry.relative = .ok path ∧
      IsBelow ⟨joinPath (.char '/') directory.units path.units⟩ directory
        (pathNames entry.relative) :=
  ⟨_, relativePath_eq_ok.mpr ⟨h.safe entry hentry, rfl⟩, isBelow_join (h.safe entry hentry) directory⟩

/-- A listing whose paths are spelled alike is a sound tree. -/
theorem Listing.sound {output : List UInt8} {entries : List RemoteEntry}
    (h : Listing output entries) (halike : SpelledAlike output) : SoundTree entries where
  safe := h.safe
  below _ hentry := h.contained hentry
  distinct := by
    refine h.apart.imp_of_mem ?_
    intro first second hfirst hsecond hne heq
    exact hne (halike.once first second ((h.listed first).mp hfirst) ((h.listed second).mp hsecond)
      (pathNames_eq_iff.mp heq))
  parentsFirst := by
    refine h.sorted.imp_of_mem ?_
    rintro child parent hchild hparent hle ⟨hkind, hbelow⟩
    obtain ⟨rest, hrest⟩ := pathNames_prefix_iff.mp hbelow
    rcases lt_or_overtakes hrest with hlt | hovertakes
    · exact hle hlt
    · exact halike.ordered parent child ((h.listed parent).mp hparent)
        ((h.listed child).mp hchild) ⟨hkind, hovertakes⟩

/-- The paths of a sound tree are spelled alike. -/
theorem Listing.spelledAlike {output : List UInt8} {entries : List RemoteEntry}
    (h : Listing output entries) (hsound : SoundTree entries) : SpelledAlike output where
  once first second hfirst hsecond heq := by
    by_contra hne
    have hentries : first ≠ second := fun heq => hne (congrArg _ heq)
    rcases first_of_pairwise hsound.distinct ((h.listed first).mpr hfirst)
      ((h.listed second).mpr hsecond) hentries with happart | happart
    · exact happart (pathNames_eq_iff.mpr heq)
    · exact happart (pathNames_eq_iff.mpr heq.symm)
  ordered directory entry hdirectory hentry hovertakes := by
    have hlt := lt_of_overtakes hovertakes
    have hne : directory ≠ entry := by
      rintro rfl
      exact List.lt_irrefl _ hlt
    have hboth := h.sorted.and hsound.parentsFirst
    rcases first_of_pairwise hboth ((h.listed directory).mpr hdirectory)
      ((h.listed entry).mpr hentry) hne with ⟨hle, -⟩ | ⟨-, hfirst⟩
    · exact hle hlt
    · exact hfirst (isParent_of_overtakes hovertakes)

/-- An accepted listing never leaves the directory it is joined to.  Its entries can be made in
    their order exactly when the listing spells its paths alike. -/
theorem remote_tree_is_sound_iff (output : List UInt8) (entries : List RemoteEntry)
    (h : parseRemoteTree output = .ok entries) :
    (∀ entry ∈ entries, IsSafePath entry.relative ∧ ∀ directory, ∃ path,
      relativePath entry.relative = .ok path ∧
        IsBelow ⟨joinPath (.char '/') directory.units path.units⟩ directory
          (pathNames entry.relative)) ∧
      (SoundTree entries ↔ SpelledAlike output) := by
  have hlisting := listing_of_parse h
  refine ⟨fun entry hentry => ⟨hlisting.safe entry hentry, hlisting.contained hentry⟩, ?_⟩
  exact ⟨hlisting.spelledAlike, hlisting.sound⟩

/-! ## Two listings -/

/-- A listing without backslashes spells its paths alike. -/
theorem spelledAlike_of_not_mem {output : List UInt8}
    (h : ∀ entry, IsListed output entry → '\\' ∉ entry.relative) : SpelledAlike output where
  once first second hfirst hsecond heq := by
    rwa [forwardSlashes_of_not_mem (h first hfirst), forwardSlashes_of_not_mem (h second hsecond)]
      at heq
  ordered directory entry hdirectory _ hovertakes := by
    obtain ⟨-, front, more, rest, hspelled, -⟩ := hovertakes
    exact h directory hdirectory (by simp [hspelled])

/-- The line of a directory. -/
theorem parseTreeLine_directory {line relative : Str} (encoded : Str)
    (hline : line.splitOn '\t' = [['D'], encoded])
    (hencoded : decodeHex encoded = .ok (bytes relative)) :
    parseTreeLine line = .ok ⟨relative, .directory⟩ := by
  simp only [parseTreeLine, hline, hencoded, ok_bind, pure_bind, fromUtf8_bytes, okOr_some]
  rfl

/-- The line of a file. -/
theorem parseTreeLine_file {line relative : Str} (length encoded : Str) (n : Nat)
    (hline : line.splitOn '\t' = [['F'], length, encoded])
    (hlength : parseUnsigned (2 ^ 64) length = .ok n)
    (hencoded : decodeHex encoded = .ok (bytes relative)) :
    parseTreeLine line = .ok ⟨relative, .file⟩ := by
  simp only [parseTreeLine, hline, hlength, hencoded, Except.mapError, ok_bind, pure_bind,
    fromUtf8_bytes, okOr_some]
  rfl

theorem isListed_of_line {text line : Str} {entry : RemoteEntry} (hline : line ∈ listedLines text)
    (hentry : parseTreeLine line = .ok entry) : IsListed (bytes text) entry :=
  ⟨text, fromUtf8_bytes text, line, hline, hentry⟩

theorem parseRemoteTree_of_lines {text : Str} {entries : List RemoteEntry}
    (h : forEach (listedLines text) addTreeLine [] = .ok entries) :
    parseRemoteTree (bytes text) = .ok (entries.mergeSort comesFirst) := by
  rw [parseRemoteTree, fromUtf8_bytes, okOr_some, ok_bind, h]
  rfl

/-- The file `a/b`, as a guest lists it and as it does not. -/
def slashFile : RemoteEntry := ⟨"a/b".toList, .file⟩

def backslashFile : RemoteEntry := ⟨"a\\b".toList, .file⟩

/-- The directory of it, and a file beside that. -/
def topDirectory : RemoteEntry := ⟨['a'], .directory⟩

def topFile : RemoteEntry := ⟨['c'], .file⟩

theorem parseTreeLine_slashFile : parseTreeLine "F\t1\t612F62".toList = .ok slashFile :=
  parseTreeLine_file ['1'] "612F62".toList 1 (by decide) (by decide) (by decide)

theorem parseTreeLine_backslashFile : parseTreeLine "F\t1\t615C62".toList = .ok backslashFile :=
  parseTreeLine_file ['1'] "615C62".toList 1 (by decide) (by decide) (by decide)

theorem parseTreeLine_topDirectory : parseTreeLine "D\t61".toList = .ok topDirectory :=
  parseTreeLine_directory ['6', '1'] (by decide) (by decide)

theorem parseTreeLine_topFile : parseTreeLine "F\t2\t63".toList = .ok topFile :=
  parseTreeLine_file ['2'] ['6', '3'] 2 (by decide) (by decide) (by decide)

theorem addTreeLine_slashFile :
    addTreeLine [] "F\t1\t612F62".toList = .ok [slashFile] :=
  addTreeLine_eq_ok.mpr ⟨slashFile, parseTreeLine_slashFile, by unfold IsSafePath; decide, by simp, rfl⟩

theorem addTreeLine_backslashFile :
    addTreeLine [slashFile] "F\t1\t615C62".toList = .ok [slashFile, backslashFile] :=
  addTreeLine_eq_ok.mpr
    ⟨backslashFile, parseTreeLine_backslashFile, by unfold IsSafePath; decide, by decide, rfl⟩

theorem addTreeLine_topDirectory :
    addTreeLine [slashFile] "D\t61".toList = .ok [slashFile, topDirectory] :=
  addTreeLine_eq_ok.mpr
    ⟨topDirectory, parseTreeLine_topDirectory, by unfold IsSafePath; decide, by decide, rfl⟩

theorem addTreeLine_topFile : addTreeLine [slashFile, topDirectory] "F\t2\t63".toList =
    .ok [slashFile, topDirectory, topFile] :=
  addTreeLine_eq_ok.mpr
    ⟨topFile, parseTreeLine_topFile, by unfold IsSafePath; decide, by decide, rfl⟩

/-- A file that is listed before its directory, and another file. -/
def treeListing : Str := "F\t1\t612F62\n\nD\t61\nF\t2\t63\n".toList

/-- The entries are sorted. -/
theorem parseRemoteTree_treeListing :
    parseRemoteTree (bytes treeListing) = .ok [topDirectory, slashFile, topFile] := by
  have hlines : listedLines treeListing =
      ["F\t1\t612F62".toList, "D\t61".toList, "F\t2\t63".toList] := by decide
  have hrun : forEach (listedLines treeListing) addTreeLine [] =
      .ok [slashFile, topDirectory, topFile] := by
    rw [hlines, forEach_cons, addTreeLine_slashFile, ok_bind, forEach_cons,
      addTreeLine_topDirectory, ok_bind, forEach_cons, addTreeLine_topFile]
    rfl
  have hbehind : comesFirst slashFile topDirectory = false := by decide
  have hfile : comesFirst slashFile topFile = true := by decide
  have hdirectory : comesFirst topDirectory topFile = true := by decide
  rw [parseRemoteTree_of_lines hrun]
  simp [List.mergeSort, List.MergeSort.Internal.splitInTwo, hbehind, hfile, hdirectory]

/-- A directory with a file in it and a file beside it can be made one after the other. -/
theorem listing_is_sound : SoundTree [topDirectory, slashFile, topFile] := by
  refine (remote_tree_is_sound_iff _ _ parseRemoteTree_treeListing).2.mpr
    (spelledAlike_of_not_mem fun entry hlisted => ?_)
  have hentry := ((listing_of_parse parseRemoteTree_treeListing).listed entry).mpr hlisted
  have hall : ∀ entry ∈ [topDirectory, slashFile, topFile], '\\' ∉ entry.relative := by decide
  exact hall entry hentry

/-- A listing that names one file twice, with either separator, is accepted. -/
theorem path_is_listed_twice : ¬ ∀ entries,
    parseRemoteTree (bytes "F\t1\t612F62\nF\t1\t615C62\n".toList) = .ok entries →
      SoundTree entries := by
  intro hall
  have hlines : listedLines "F\t1\t612F62\nF\t1\t615C62\n".toList =
      ["F\t1\t612F62".toList, "F\t1\t615C62".toList] := by decide
  have hrun : forEach (listedLines "F\t1\t612F62\nF\t1\t615C62\n".toList) addTreeLine [] =
      .ok [slashFile, backslashFile] := by
    rw [hlines, forEach_cons, addTreeLine_slashFile, ok_bind, forEach_cons,
      addTreeLine_backslashFile]
    rfl
  have hparse := parseRemoteTree_of_lines hrun
  have halike := (listing_of_parse hparse).spelledAlike (hall _ hparse)
  have hsame := halike.once slashFile backslashFile
    (isListed_of_line (hlines ▸ List.mem_cons_self) parseTreeLine_slashFile)
    (isListed_of_line (hlines ▸ by simp) parseTreeLine_backslashFile) (by decide)
  exact absurd hsame (by decide)

end Lsw.Cli.Transfer
