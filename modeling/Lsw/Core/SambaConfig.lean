import Lsw.Core.ManifestText
import Lsw.Core.InstanceIdentity

/-!
# The Configuration of the File Server

`samba.rs` writes the files that a private `smbd` reads: a configuration with the runtime directory,
the shared directory and the account of the user in it, and a map from the account to the name that
the guest uses.  The texts come from the host, and `samba_value` and `account_name_for_uid` refuse
those that would be read as something else.

`readConf` is the reader of such files: lines of sections and parameters, with comments, white space
around what is said, and nothing continued from line to line.  What is read is what was meant, for
every directory and every account that is accepted.
-/

namespace Lsw.Core.Samba

open Lsw.Lib

/-! ## What is written -/

/-- `LIVE_SMB_PASSWORD_FILE`. -/
def livePasswordFile : Str := "smbpasswd".toList

/-- `LIVE_SMB_USERNAME_MAP_FILE`. -/
def liveUsernameMapFile : Str := "username.map".toList

/-- `LIVE_SMB_CLIENT_USER`. -/
def liveClientUser : Str := "lsw".toList

/-- The characters that `samba_value` refuses. -/
def refused : List Char := ['\r', '\n', Char.ofNat 0, '%', '#', ';', '"', '\\']

/-- `samba_value`. -/
def sambaValue (path : PathBuf) : Result Str := do
  let value ← okOr path.toStr (.invalidValue "live folder Samba path"
    [.shown path.display, .text " is not valid UTF-8"])
  rejectIf (trim value ≠ value ∨ value.any refused.contains = true)
    (.invalidValue "live folder Samba path" [.shown path.display,
      .text " contains syntax that is unsafe in a private Samba configuration"])
  return value

/-- A byte of an account name that is safe. -/
def isAccountByte (b : UInt8) : Bool := isAsciiAlphanumeric b || b == 95 || b == 46 || b == 45

/-- One line of `/etc/passwd` in `account_name_for_uid`. -/
def accountOf (uid : UInt32) (line : Str) : Option Str :=
  match line.splitOn ':' with
  | name :: _ :: candidate :: _ =>
    (parseU32 candidate).toOption.bind fun found => if found = uid then some name else none
  | _ => none

/-- `account_name_for_uid`, of the text of `/etc/passwd`. -/
def accountNameForUid (passwd : Str) (uid : UInt32) : Result Str := do
  let account ← okOr ((lines passwd).findSome? (accountOf uid))
    (.invalidValue "live folder host account" [.text "could not resolve uid ",
      .shown (decimal uid.toNat), .text " through /etc/passwd"])
  rejectIf (account = [] ∨ (bytes account).all isAccountByte = false)
    (.invalidValue "live folder host account"
      [.text "the resolved Unix account name is not safe for a private Samba mapping"])
  return account

/-- The parameters of `[global]`. -/
def globalParameters (runtime : Str) : List (String × Str) :=
  [("private dir", runtime),
    ("pid directory", runtime),
    ("lock directory", runtime),
    ("state directory", runtime),
    ("cache directory", runtime),
    ("ncalrpc dir", runtime ++ "/ncalrpc".toList),
    ("log file", runtime ++ "/log.smbd".toList),
    ("max log size", "1024".toList),
    ("log level", "1 auth:2".toList),
    ("server role", "standalone server".toList),
    ("security", "user".toList),
    ("map to guest", "Never".toList),
    ("passdb backend", "smbpasswd:".toList ++ (runtime ++ '/' :: livePasswordFile)),
    ("username map", runtime ++ '/' :: liveUsernameMapFile),
    ("server min protocol", "SMB2_10".toList),
    ("server signing", "mandatory".toList),
    ("server smb encrypt", "required".toList),
    ("load printers", "no".toList),
    ("printing", "bsd".toList),
    ("disable spoolss", "yes".toList),
    ("usershare max shares", "0".toList),
    ("dns proxy", "no".toList),
    ("local master", "no".toList)]

/-- The parameters of `[qemu]`. -/
def shareParameters (shareRoot unixUser : Str) : List (String × Str) :=
  [("path", shareRoot),
    ("read only", "no".toList),
    ("guest ok", "no".toList),
    ("browseable", "no".toList),
    ("valid users", unixUser),
    ("force user", unixUser),
    ("follow symlinks", "no".toList),
    ("wide links", "no".toList),
    ("smb encrypt", "required".toList)]

/-- A line that sets a parameter. -/
def parameterText (key value : Str) : Str := key ++ ' ' :: '=' :: ' ' :: value

/-- A line of a section. -/
def parameterLine (parameter : String × Str) : Str :=
  '\t' :: parameterText parameter.1.toList parameter.2

/-- The lines of `samba_config`. -/
def configLines (runtime shareRoot unixUser : Str) : List Str :=
  ("[global]".toList :: (globalParameters runtime).map parameterLine) ++
    [] :: "[qemu]".toList :: (shareParameters shareRoot unixUser).map parameterLine

/-- `samba_config`. -/
def sambaConfig (runtime shareRoot : PathBuf) (unixUser : Str) : Result Str := do
  let runtime ← sambaValue runtime
  let shareRoot ← sambaValue shareRoot
  return (configLines runtime shareRoot unixUser).flatMap (· ++ ['\n'])

/-- The username map of `prepare_live_share_runtime`. -/
def usernameMap (unixUser : Str) : Str := parameterText unixUser liveClientUser ++ ['\n']

/-! ## What is read -/

/-- What a line of a configuration says. -/
inductive ConfLine where
  | nothing
  | startOf (name : Str)
  | parameter (key value : Str)
  | invalid
  deriving DecidableEq

/-- A line of a configuration is read.  A line that goes on in the next one is not expected. -/
def readLine (line : Str) : ConfLine :=
  let text := trim line
  if text = [] ∨ text.head? = some '#' ∨ text.head? = some ';' then .nothing
  else if text.getLast? = some '\\' then .invalid
  else if text.head? = some '[' then
    (splitOnce ']' text.tail).elim .invalid fun (name, _) => .startOf (trim name)
  else (splitOnce '=' text).elim .invalid fun (key, value) => .parameter (trim key) (trim value)

/-- What the lines of a file say. -/
def readConf (contents : Str) : List ConfLine :=
  ((lines contents).map readLine).filter (· ≠ .nothing)

/-- What the configuration is meant to say. -/
def meant (runtime shareRoot unixUser : Str) : List ConfLine :=
  (.startOf "global".toList ::
      (globalParameters runtime).map fun (key, value) => .parameter key.toList value) ++
    .startOf "qemu".toList ::
      (shareParameters shareRoot unixUser).map fun (key, value) => .parameter key.toList value

/-! ## A parameter is read back -/

/-- A text that can stand for itself behind the sign of a parameter. -/
structure IsValue (value : Str) : Prop where
  trimmed : trim value = value
  plain : ∀ c ∈ value, c ∉ refused

/-- A text that can stand for itself in front of it. -/
structure IsKey (key : Str) : Prop where
  nonempty : key ≠ []
  trimmed : trim key = key
  plain : ∀ c ∈ key, c ∉ refused ∧ c ≠ '=' ∧ c ≠ '['

theorem head?_eq_of_dropWhile {p : Char → Bool} {s : Str} (h : s.dropWhile p = s) :
    ∀ c, s.head? = some c → p c = false := by
  intro c hc
  cases s with
  | nil => cases hc
  | cons d s =>
    obtain rfl : d = c := by simpa using hc
    by_contra hp
    rw [List.dropWhile_cons_of_pos (by simpa using hp)] at h
    have hlength := (List.dropWhile_sublist p (l := s)).length_le
    rw [h, List.length_cons] at hlength
    omega

/-- Both ends of a trimmed text are no white space. -/
theorem trim_eq_self_iff_ends {s : Str} : trim s = s ↔
    (∀ c, s.head? = some c → isWhitespace c = false) ∧
      ∀ c, s.getLast? = some c → isWhitespace c = false := by
  rw [trim_eq_self_iff]
  have hfront : ∀ {t : Str}, (∀ c, t.head? = some c → isWhitespace c = false) →
      t.dropWhile isWhitespace = t := by
    intro t ht
    cases t with
    | nil => rfl
    | cons c t => exact List.dropWhile_cons_of_neg (by simp [ht c rfl])
  constructor
  · rintro ⟨hhead, hlast⟩
    refine ⟨head?_eq_of_dropWhile hhead, fun c hc => head?_eq_of_dropWhile hlast c ?_⟩
    rw [List.head?_reverse]
    exact hc
  · rintro ⟨hhead, hlast⟩
    exact ⟨hfront hhead, hfront fun c hc => hlast c (by rwa [List.head?_reverse] at hc)⟩

/-- White space in front of a text is trimmed away. -/
theorem trim_cons {c : Char} (h : isWhitespace c = true) (s : Str) : trim (c :: s) = trim s := by
  rw [trim, List.dropWhile_cons_of_pos h]
  rfl

/-- White space behind a trimmed text is trimmed away. -/
theorem trim_concat {c : Char} {s : Str} (h : isWhitespace c = true) (hs : trim s = s) :
    trim (s ++ [c]) = s := by
  cases s with
  | nil =>
    rw [List.nil_append, trim_cons h]
    exact hs
  | cons d s =>
    obtain ⟨hhead, hlast⟩ := trim_eq_self_iff.mp hs
    have hd := (trim_eq_self_iff_ends.mp hs).1 d rfl
    rw [trim, List.cons_append, List.dropWhile_cons_of_neg (by simp [hd]), ← List.cons_append,
      List.reverse_append, List.reverse_singleton, List.singleton_append,
      List.dropWhile_cons_of_pos h, hlast, List.reverse_reverse]

/-- The line of a parameter is read as the parameter. -/
theorem readLine_parameterText {key value : Str} (hkey : IsKey key) (hvalue : IsValue value) :
    readLine (parameterText key value) = .parameter key value := by
  obtain ⟨c, rest, rfl⟩ := List.exists_cons_of_ne_nil hkey.nonempty
  obtain ⟨hrefused, hequal, hbracket⟩ := hkey.plain c List.mem_cons_self
  have hspace : isWhitespace ' ' = true := by decide
  have hends := trim_eq_self_iff_ends.mp hvalue.trimmed
  have hsignLast : ((c :: rest) ++ [' ', '=']).getLast? = some '=' :=
    List.getLast?_append_of_ne_nil _ (List.cons_ne_nil _ _)
  -- What is left of the line begins with the key, and ends in the value or in the sign.
  obtain ⟨last, htext, hlast, hback⟩ : ∃ back, trim (parameterText (c :: rest) value) =
      (c :: rest) ++ ' ' :: '=' :: back ∧ ((c :: rest) ++ ' ' :: '=' :: back).getLast? ≠ some '\\' ∧
        trim back = value := by
    cases hv : value with
    | nil =>
      refine ⟨[], ?_, by rw [hsignLast]; decide, rfl⟩
      have hsign : trim ((c :: rest) ++ [' ', '=']) = (c :: rest) ++ [' ', '='] :=
        trim_eq_self_iff_ends.mpr
          ⟨(trim_eq_self_iff_ends.mp hkey.trimmed).1, fun d hd => by
            rw [hsignLast] at hd
            obtain rfl : '=' = d := Option.some.inj hd
            decide⟩
      have hline : parameterText (c :: rest) [] = ((c :: rest) ++ [' ', '=']) ++ [' '] := by
        simp [parameterText]
      rw [hline, trim_concat hspace hsign]
    | cons d value' =>
      rw [hv] at hvalue hends
      have hvalueLast : ((c :: rest) ++ ' ' :: '=' :: ' ' :: d :: value').getLast? =
          (d :: value').getLast? := by
        have hassoc : (c :: rest) ++ ' ' :: '=' :: ' ' :: d :: value' =
            ((c :: rest) ++ [' ', '=', ' ']) ++ d :: value' := by simp
        rw [hassoc, List.getLast?_append_of_ne_nil _ (List.cons_ne_nil _ _)]
      refine ⟨' ' :: d :: value', ?_, ?_, ?_⟩
      · rw [parameterText]
        refine trim_eq_self_iff_ends.mpr
          ⟨(trim_eq_self_iff_ends.mp hkey.trimmed).1, fun e he => hends.2 e ?_⟩
        rw [← hvalueLast]
        exact he
      · intro hbad
        rw [hvalueLast] at hbad
        exact hvalue.plain _ (List.mem_of_getLast? hbad) (by decide)
      · rw [trim_cons hspace, hvalue.trimmed]
  have hsplit : splitOnce '=' ((c :: rest) ++ ' ' :: '=' :: last) = some (c :: rest ++ [' '], last) := by
    have hassoc : (c :: rest) ++ ' ' :: '=' :: last = (c :: rest ++ [' ']) ++ '=' :: last := by simp
    rw [hassoc, splitOnce_append]
    intro hmem
    rcases List.mem_append.mp hmem with hmem | hmem
    · exact (hkey.plain _ hmem).2.1 rfl
    · exact absurd hmem (by decide)
  have hcomment : c ≠ '#' ∧ c ≠ ';' := by
    constructor
    · rintro rfl
      exact hrefused (by decide)
    · rintro rfl
      exact hrefused (by decide)
  rw [readLine, htext, if_neg (by simp [hcomment]), if_neg hlast, if_neg (by simp [hbracket]),
    hsplit, Option.elim_some]
  dsimp only
  rw [trim_concat hspace hkey.trimmed, hback]

theorem readLine_parameterLine {parameter : String × Str} (hkey : IsKey parameter.1.toList)
    (hvalue : IsValue parameter.2) :
    readLine (parameterLine parameter) = .parameter parameter.1.toList parameter.2 := by
  have htab : readLine (parameterLine parameter) =
      readLine (parameterText parameter.1.toList parameter.2) := by
    rw [readLine, readLine, parameterLine, trim_cons (by decide)]
  rw [htab, readLine_parameterText hkey hvalue]

/-! ## The values that are accepted -/

theorem isValue_sambaValue {path : PathBuf} {value : Str} (h : sambaValue path = .ok value) :
    IsValue value := by
  simp only [sambaValue, bind_eq_ok, okOr_eq_ok, rejectIf_eq_ok, exists_const, pure_eq_ok_iff,
    not_or, not_not, List.any_eq_true, not_exists, not_and] at h
  obtain ⟨found, -, ⟨htrim, hplain⟩, rfl⟩ := h
  refine ⟨htrim, fun c hc hmem => hplain c hc ?_⟩
  exact List.contains_iff_mem.mpr hmem

theorem ofStr_of_sambaValue {path : PathBuf} {value : Str} (h : sambaValue path = .ok value) :
    path = .ofStr value := by
  simp only [sambaValue, bind_eq_ok, okOr_eq_ok, rejectIf_eq_ok, exists_const, pure_eq_ok_iff] at h
  obtain ⟨found, hfound, -, rfl⟩ := h
  exact PathBuf.toStr_eq_some_iff.mp hfound

/-- A text of safe bytes says what it says on either side of the sign. -/
theorem isKey_of_isAccountByte {account : Str} (hne : account ≠ [])
    (h : (bytes account).all isAccountByte = true) : IsKey account ∧ IsValue account := by
  -- Every safe byte is graphic, one by one.
  have hgraphic : (bytes account).all isAsciiGraphic = true := by
    refine List.all_eq_true.mpr fun b hb => ?_
    have hall : ((List.range 256).all fun n =>
        !isAccountByte (UInt8.ofNat n) || isAsciiGraphic (UInt8.ofNat n)) = true := by
      decide +kernel
    have hn := List.all_eq_true.mp hall b.toNat (List.mem_range.mpr b.toNat_lt)
    rw [UInt8.ofNat_toNat, List.all_eq_true.mp h b hb] at hn
    exact hn
  -- No refused character has safe bytes only.
  have hchars : ∀ c ∈ account, c ∉ refused ∧ c ≠ '=' ∧ c ≠ '[' := by
    intro c hc
    have hall : (('=' :: '[' :: refused).all fun d =>
        (String.utf8EncodeChar d).any fun b => !isAccountByte b) = true := by decide
    have hsafe : c ∉ '=' :: '[' :: refused := by
      intro hmem
      obtain ⟨b, hb, hbad⟩ := List.any_eq_true.mp (List.all_eq_true.mp hall c hmem)
      rw [List.all_eq_true.mp h b (List.mem_flatMap.mpr ⟨c, hc, hb⟩)] at hbad
      cases hbad
    simp only [List.mem_cons, not_or] at hsafe
    exact ⟨hsafe.2.2, hsafe.1, hsafe.2.1⟩
  -- A graphic byte is no blank, so nothing is trimmed.
  have htrim : trim account = account := by
    refine trim_eq_self_iff_ends.mpr ⟨fun c hc => ?_, fun c hc => ?_⟩
    · simpa using not_isWhitespace_of_graphic hgraphic (List.mem_of_head? hc)
    · simpa using not_isWhitespace_of_graphic hgraphic (List.mem_of_getLast? hc)
  exact ⟨⟨hne, htrim, hchars⟩, ⟨htrim, fun c hc => (hchars c hc).1⟩⟩

theorem safe_accountNameForUid {passwd account : Str} {uid : UInt32}
    (h : accountNameForUid passwd uid = .ok account) : IsKey account ∧ IsValue account := by
  simp only [accountNameForUid, bind_eq_ok, okOr_eq_ok, rejectIf_eq_ok, exists_const,
    pure_eq_ok_iff, not_or, Bool.not_eq_false] at h
  obtain ⟨found, -, ⟨hne, hall⟩, rfl⟩ := h
  exact isKey_of_isAccountByte hne hall

/-! ## The files are read back -/

theorem isValue_of_check {value : Str}
    (h : (decide (trim value = value) && value.all fun c => !refused.contains c) = true) :
    IsValue value := by
  rw [Bool.and_eq_true, decide_eq_true_eq, List.all_eq_true] at h
  refine ⟨h.1, fun c hc hmem => ?_⟩
  have hc := h.2 c hc
  rw [List.contains_iff_mem.mpr hmem] at hc
  cases hc

theorem isKey_of_check {key : Str}
    (h : (decide (key ≠ [] ∧ trim key = key) &&
      key.all fun c => !refused.contains c && c != '=' && c != '[') = true) : IsKey key := by
  rw [Bool.and_eq_true, decide_eq_true_eq, List.all_eq_true] at h
  refine ⟨h.1.1, h.1.2, fun c hc => ?_⟩
  have hc := h.2 c hc
  simp only [Bool.and_eq_true, Bool.not_eq_true', bne_iff_ne] at hc
  refine ⟨fun hmem => ?_, hc.1.2, hc.2⟩
  rw [List.contains_iff_mem.mpr hmem] at hc
  cases hc.1.1

/-- A value goes on with another. -/
theorem IsValue.append {front back : Str} (hfront : IsValue front) (hback : IsValue back)
    (hne : back ≠ []) : IsValue (front ++ back) := by
  have hf := trim_eq_self_iff_ends.mp hfront.trimmed
  have hb := trim_eq_self_iff_ends.mp hback.trimmed
  refine ⟨trim_eq_self_iff_ends.mpr ⟨fun c hc => ?_, fun c hc => hb.2 c ?_⟩, fun c hc => ?_⟩
  · cases front with
    | nil => exact hb.1 c hc
    | cons d front => exact hf.1 c hc
  · rwa [List.getLast?_append_of_ne_nil _ hne] at hc
  · rcases List.mem_append.mp hc with hc | hc
    · exact hfront.plain c hc
    · exact hback.plain c hc

/-- The parameters of a section: they are known, and their values are accepted ones. -/
def AllRead (parameters : List (String × Str)) : Prop :=
  ∀ parameter ∈ parameters, IsKey parameter.1.toList ∧ IsValue parameter.2

/-- The keys of a section do not depend on what it says. -/
theorem isKey_of_mem {parameters : List (String × Str)} {keys : List String}
    (hkeys : parameters.map Prod.fst = keys)
    (h : (keys.all fun key => decide (key.toList ≠ [] ∧ trim key.toList = key.toList) &&
      key.toList.all fun c => !refused.contains c && c != '=' && c != '[') = true) :
    ∀ parameter ∈ parameters, IsKey parameter.1.toList := by
  intro parameter hmem
  have hkey : parameter.1 ∈ keys := hkeys ▸ List.mem_map_of_mem hmem
  exact isKey_of_check (List.all_eq_true.mp h _ hkey)

/-- All parameters of the first section are read back. -/
theorem allRead_globalParameters {runtime : Str} (h : IsValue runtime) :
    AllRead (globalParameters runtime) := by
  -- The keys do not depend on the directory.
  have hkeys : ∀ parameter ∈ globalParameters runtime, IsKey parameter.1.toList :=
    @isKey_of_mem _ ((globalParameters []).map Prod.fst) rfl (by decide +kernel)
  -- A value that is made of the directory is one as the directory is.
  have hncalrpc : IsValue (runtime ++ "/ncalrpc".toList) :=
    h.append (isValue_of_check (by decide)) (by decide)
  have hlog : IsValue (runtime ++ "/log.smbd".toList) :=
    h.append (isValue_of_check (by decide)) (by decide)
  have hpasswords : IsValue (runtime ++ '/' :: livePasswordFile) :=
    h.append (isValue_of_check (by decide)) (List.cons_ne_nil _ _)
  have hpassdb : IsValue ("smbpasswd:".toList ++ (runtime ++ '/' :: livePasswordFile)) :=
    (isValue_of_check (by decide)).append hpasswords (by simp)
  have hmap : IsValue (runtime ++ '/' :: liveUsernameMapFile) :=
    h.append (isValue_of_check (by decide)) (List.cons_ne_nil _ _)
  -- The others are fixed texts.
  have hvalues : ∀ parameter ∈ globalParameters runtime, IsValue parameter.2 := by
    rw [globalParameters]
    simp only [List.forall_mem_cons]
    exact ⟨h, h, h, h, h, hncalrpc, hlog, isValue_of_check (by decide),
      isValue_of_check (by decide), isValue_of_check (by decide), isValue_of_check (by decide),
      isValue_of_check (by decide), hpassdb, hmap,
      isValue_of_check (by decide), isValue_of_check (by decide), isValue_of_check (by decide),
      isValue_of_check (by decide), isValue_of_check (by decide), isValue_of_check (by decide),
      isValue_of_check (by decide), isValue_of_check (by decide), isValue_of_check (by decide),
      by simp⟩
  exact fun parameter hmem => ⟨hkeys parameter hmem, hvalues parameter hmem⟩

theorem allRead_shareParameters {shareRoot unixUser : Str} (hroot : IsValue shareRoot)
    (huser : IsValue unixUser) : AllRead (shareParameters shareRoot unixUser) := by
  have hkeys : ∀ parameter ∈ shareParameters shareRoot unixUser, IsKey parameter.1.toList :=
    @isKey_of_mem _ ((shareParameters [] []).map Prod.fst) rfl (by decide +kernel)
  have hvalues : ∀ parameter ∈ shareParameters shareRoot unixUser, IsValue parameter.2 := by
    rw [shareParameters]
    simp only [List.forall_mem_cons]
    exact ⟨hroot, isValue_of_check (by decide), isValue_of_check (by decide),
      isValue_of_check (by decide), huser, huser, isValue_of_check (by decide),
      isValue_of_check (by decide), isValue_of_check (by decide), by simp⟩
  exact fun parameter hmem => ⟨hkeys parameter hmem, hvalues parameter hmem⟩

/-- A line that sets a parameter is a line. -/
theorem oneLine_parameterText {key value : Str} (hkey : IsKey key) (hvalue : IsValue value) :
    '\n' ∉ parameterText key value ∧ '\r' ∉ parameterText key value := by
  have hnewline : '\n' ∈ refused := by decide
  have hreturn : '\r' ∈ refused := by decide
  constructor
  · intro hmem
    rcases List.mem_append.mp hmem with hmem | hmem
    · exact (hkey.plain _ hmem).1 hnewline
    · simp only [List.mem_cons, false_or, Char.reduceEq] at hmem
      exact hvalue.plain _ hmem hnewline
  · intro hmem
    rcases List.mem_append.mp hmem with hmem | hmem
    · exact (hkey.plain _ hmem).1 hreturn
    · simp only [List.mem_cons, false_or, Char.reduceEq] at hmem
      exact hvalue.plain _ hmem hreturn

theorem oneLine_parameterLine {parameters : List (String × Str)} (h : AllRead parameters) :
    ∀ line ∈ parameters.map parameterLine, '\n' ∉ line ∧ '\r' ∉ line := by
  intro line hline
  obtain ⟨parameter, hmem, rfl⟩ := List.mem_map.mp hline
  obtain ⟨hnewline, hreturn⟩ := oneLine_parameterText (h _ hmem).1 (h _ hmem).2
  simp [parameterLine, hnewline, hreturn]

/-- The parameters of a section are read back. -/
theorem readLine_section {parameters : List (String × Str)} (h : AllRead parameters) :
    (parameters.map parameterLine).map readLine =
      parameters.map fun (key, value) => .parameter key.toList value := by
  rw [List.map_map]
  exact List.map_congr_left fun parameter hmem =>
    readLine_parameterLine (h parameter hmem).1 (h parameter hmem).2

/-- The configuration is read as it was meant. -/
theorem readConf_configLines {runtime shareRoot unixUser : Str} (hruntime : IsValue runtime)
    (hroot : IsValue shareRoot) (huser : IsValue unixUser) :
    readConf ((configLines runtime shareRoot unixUser).flatMap (· ++ ['\n'])) =
      meant runtime shareRoot unixUser := by
  have hglobal := allRead_globalParameters hruntime
  have hshare := allRead_shareParameters hroot huser
  -- Every line is one line of the file.
  have hlines : ∀ line ∈ configLines runtime shareRoot unixUser, '\n' ∉ line ∧ '\r' ∉ line := by
    intro line hline
    rw [configLines, List.mem_append, List.mem_cons, List.mem_cons, List.mem_cons] at hline
    rcases hline with (rfl | hline) | rfl | rfl | hline
    · decide
    · exact oneLine_parameterLine hglobal line hline
    · simp
    · decide
    · exact oneLine_parameterLine hshare line hline
  -- Each is read as what it was made of: a section, nothing, or a parameter.
  have hread : (configLines runtime shareRoot unixUser).map readLine =
      (.startOf "global".toList ::
        (globalParameters runtime).map fun (key, value) => .parameter key.toList value) ++
      .nothing :: .startOf "qemu".toList ::
        (shareParameters shareRoot unixUser).map fun (key, value) =>
          .parameter key.toList value := by
    have hheader : readLine "[global]".toList = .startOf "global".toList := by decide
    have hempty : readLine [] = .nothing := by decide
    have hqemu : readLine "[qemu]".toList = .startOf "qemu".toList := by decide
    rw [configLines, List.map_append, List.map_cons, List.map_cons, List.map_cons, hheader, hempty,
      hqemu, readLine_section hglobal, readLine_section hshare]
  -- Only the empty line between the sections is dropped.
  have hkept : ∀ parameters : List (String × Str),
      (parameters.map fun (key, value) => ConfLine.parameter key.toList value).filter
        (· ≠ .nothing) = parameters.map fun (key, value) => .parameter key.toList value := by
    intro parameters
    refine List.filter_eq_self.mpr fun line hline => ?_
    obtain ⟨parameter, -, rfl⟩ := List.mem_map.mp hline
    simp
  rw [readConf, lines_flatMap hlines, hread, meant, List.filter_append,
    List.filter_cons_of_pos (by simp), List.filter_cons_of_neg (by simp),
    List.filter_cons_of_pos (by simp), hkept, hkept]

/-- For every directory and every account that is accepted, the files say to their reader what was
    meant: two sections with their parameters, each with the text that was put there, none of which
    is one that Samba would replace; and the account that the name of the guest stands for. -/
theorem configuration_is_read_as_meant (passwd account config : Str) (uid : UInt32)
    (runtime shareRoot : PathBuf) (haccount : accountNameForUid passwd uid = .ok account)
    (hconfig : sambaConfig runtime shareRoot account = .ok config) :
    ∃ runtimeText rootText, runtime = .ofStr runtimeText ∧ shareRoot = .ofStr rootText ∧
      readConf config = meant runtimeText rootText account ∧
      readConf (usernameMap account) = [.parameter account liveClientUser] ∧
      ∀ key value, .parameter key value ∈ readConf config → '%' ∉ value := by
  simp only [sambaConfig, bind_eq_ok, pure_eq_ok_iff] at hconfig
  obtain ⟨runtimeText, hruntime, rootText, hroot, rfl⟩ := hconfig
  -- Every check of the source makes a text that can be a value.
  have hruntimeValue := isValue_sambaValue hruntime
  have hrootValue := isValue_sambaValue hroot
  obtain ⟨hkey, huser⟩ := safe_accountNameForUid haccount
  have hread := readConf_configLines hruntimeValue hrootValue huser
  refine ⟨runtimeText, rootText, ofStr_of_sambaValue hruntime, ofStr_of_sambaValue hroot, hread,
    ?_, ?_⟩
  -- The map of the names has one line.
  · have hclient : IsValue liveClientUser := isValue_of_check (by decide)
    have hlines := @lines_flatMap [parameterText account liveClientUser]
      (by simpa using oneLine_parameterText hkey hclient)
    rw [List.flatMap_singleton] at hlines
    rw [readConf, usernameMap, hlines, List.map_singleton, readLine_parameterText hkey hclient]
    rfl
  -- Samba would replace what a percent sign begins; no value has one.
  · intro key value hmem hpercent
    rw [hread, meant] at hmem
    -- Every parameter that is read is one of those that were written.
    have hvalue : ∃ parameters : List (String × Str), AllRead parameters ∧
        .parameter key value ∈ parameters.map
          fun (key, value) => ConfLine.parameter key.toList value := by
      rcases List.mem_append.mp hmem with hmem | hmem
      · refine ⟨_, allRead_globalParameters hruntimeValue, ?_⟩
        simpa only [List.mem_cons, reduceCtorEq, false_or] using hmem
      · refine ⟨_, allRead_shareParameters hrootValue huser, ?_⟩
        simpa only [List.mem_cons, reduceCtorEq, false_or] using hmem
    obtain ⟨parameters, hall, hmem⟩ := hvalue
    obtain ⟨parameter, hparameter, heq⟩ := List.mem_map.mp hmem
    simp only [ConfLine.parameter.injEq] at heq
    exact (hall _ hparameter).2.plain '%' (heq.2 ▸ hpercent) (by decide)

/-- The users of a host. -/
def demoPasswd : Str := "root:x:0:0::/root:/bin/sh\nada:x:1000:100::/home/ada:/bin/sh\n".toList

/-- The runtime directory of an instance, and a directory that is shared. -/
def demoRuntime : Str := "/lsw/win/run/live-smb".toList
def demoShare : Str := "/home/ada/My Files".toList

/-- What is written for them. -/
def demoConfig : Str :=
  (configLines demoRuntime demoShare "ada".toList).flatMap (· ++ ['\n'])

/-- A shared directory with a space in its name is read as it was meant. -/
theorem shared_home_is_read_as_meant :
    readConf demoConfig = meant demoRuntime demoShare "ada".toList := by
  have hruntime : sambaValue (.ofStr demoRuntime) = .ok demoRuntime := by decide +kernel
  have hshare : sambaValue (.ofStr demoShare) = .ok demoShare := by decide +kernel
  have haccount : accountNameForUid demoPasswd 1000 = .ok "ada".toList := by decide +kernel
  have hconfig : sambaConfig (.ofStr demoRuntime) (.ofStr demoShare) "ada".toList =
      .ok demoConfig := by
    rw [sambaConfig, hruntime, ok_bind, hshare, ok_bind]
    rfl
  obtain ⟨runtimeText, rootText, hr, hs, hread, -⟩ :=
    configuration_is_read_as_meant demoPasswd "ada".toList demoConfig 1000 (.ofStr demoRuntime)
      (.ofStr demoShare) haccount hconfig
  have hruntimeText := congrArg PathBuf.toStr hr
  have hrootText := congrArg PathBuf.toStr hs
  rw [PathBuf.toStr_ofStr, PathBuf.toStr_ofStr, Option.some.injEq] at hruntimeText hrootText
  rw [hruntimeText, hrootText]
  exact hread

end Lsw.Core.Samba
