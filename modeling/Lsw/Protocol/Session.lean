import Lsw.Lib.Text
import Lsw.Protocol.Codec

/-!
# Session Messages

The messages that open a connection and start a process (`session.rs`): the two hellos, the
start requests, the process environment and the control options of a session, with the account
requests that share their checks (`role.rs`).

Encoders and decoders are written separately and validate on different sides.  For each message
`decode_eq_ok` says that the decoder accepts exactly what the encoder produces, so a payload has
one value and a value one payload.
-/

namespace Lsw.Protocol

open Lsw.Lib

/-! ## Hello -/

/-- `AGENT_PROTOCOL_VERSION`. -/
def agentProtocolVersion : UInt16 := 1

/-- `ClientHello`. -/
structure ClientHello where
  version : UInt16
  token : String
  deriving DecidableEq, Repr

/-- `ServerHello`. -/
structure ServerHello where
  version : UInt16
  capabilities : List String
  deriving DecidableEq, Repr

namespace ClientHello

/-- `ClientHello::encode`. -/
def encode (hello : ClientHello) : Except ProtocolError Bytes :=
  pushString (u16Bytes hello.version) hello.token

/-- `ClientHello::decode`. -/
def decode (payload : Bytes) : Except ProtocolError ClientHello :=
  Decoder.of payload do
    let version ← Decoder.u16
    let token ← Decoder.string
    Decoder.finish
    return { version, token }

end ClientHello

namespace ServerHello

/-- `ServerHello::encode`. -/
def encode (hello : ServerHello) : Except ProtocolError Bytes :=
  pushStrings (u16Bytes hello.version) hello.capabilities

/-- `ServerHello::decode`. -/
def decode (payload : Bytes) : Except ProtocolError ServerHello :=
  Decoder.of payload do
    let version ← Decoder.u16
    let capabilities ← Decoder.strings
    Decoder.finish
    return { version, capabilities }

end ServerHello

/-! ## Start requests -/

/-- `SessionKind`. -/
inductive SessionKind where
  | shell
  | exec
  | run
  deriving DecidableEq, Repr

/-- `SessionKind::encode`. -/
def SessionKind.encode : SessionKind → UInt8
  | .shell => 1
  | .exec => 2
  | .run => 3

/-- `SessionKind::decode`. -/
def SessionKind.decode (value : UInt8) : Except ProtocolError SessionKind :=
  match value with
  | 1 => .ok .shell
  | 2 => .ok .exec
  | 3 => .ok .run
  | _ => .error (.protocol s!"unknown session kind {value}")

/-- `StartRequest`. -/
structure StartRequest where
  kind : SessionKind
  argv : List String
  workingDirectory : Option String
  deriving DecidableEq, Repr

namespace StartRequest

/-- The working-directory flag and text of `StartRequest::encode`. -/
def pushWorkingDirectory (payload : Bytes) : Option String → Except ProtocolError Bytes
  | some directory => pushString (payload ++ [1]) directory
  | none => .ok (payload ++ [0])

/-- `StartRequest::encode`. -/
def encode (request : StartRequest) : Except ProtocolError Bytes := do
  let payload ← pushWorkingDirectory [request.kind.encode] request.workingDirectory
  pushStrings payload request.argv

/-- The working-directory field of `StartRequest::decode`. -/
def readWorkingDirectory : Reader ProtocolError (Option String) := do
  match ← Decoder.u8 with
  | 0 => return none
  | 1 => return some (← Decoder.string)
  | other => liftM (Except.error (ProtocolError.protocol s!"invalid working-directory flag {other}"))

/-- `StartRequest::decode`. -/
def decode (payload : Bytes) : Except ProtocolError StartRequest :=
  Decoder.of payload do
    let kind ← liftM (SessionKind.decode (← Decoder.u8))
    let workingDirectory ← readWorkingDirectory
    let argv ← Decoder.strings
    Decoder.finish
    liftM (rejectIf (argv = [])
      (ProtocolError.protocol "a start request needs at least one command"))
    return { kind, argv, workingDirectory }

end StartRequest

/-! ## Terminals -/

/-- `MAX_TERMINAL_DIMENSION`. -/
def maxTerminalDimension : Nat := 32767

/-- `TerminalSize`. -/
structure TerminalSize where
  rows : UInt16
  columns : UInt16
  deriving DecidableEq, Repr

namespace TerminalSize

/-- `TerminalSize::DEFAULT`. -/
def default : TerminalSize := { rows := 24, columns := 80 }

/-- `TerminalSize::new`. -/
def new (rows columns : UInt16) : Except ProtocolError TerminalSize := do
  rejectIf (rows = 0 ∨ columns = 0) (.protocol "terminal dimensions must be non-zero")
  rejectIf (rows.toNat > maxTerminalDimension ∨ columns.toNat > maxTerminalDimension)
    (.protocol s!"terminal dimensions must not exceed {maxTerminalDimension}")
  return { rows, columns }

/-- `TerminalSize::encode`, which is `encode_resize`. -/
def encode (size : TerminalSize) : Bytes := u16Bytes size.rows ++ u16Bytes size.columns

/-- `decode_resize`. -/
def decodeResize (payload : Bytes) : Except ProtocolError (UInt16 × UInt16) := do
  rejectIf (payload.length ≠ 4) (.protocol "resize payload must contain four bytes")
  return (UInt16.ofNat (ofBeBytes (payload.take 2)), UInt16.ofNat (ofBeBytes (payload.drop 2)))

/-- `TerminalSize::decode`. -/
def decode (payload : Bytes) : Except ProtocolError TerminalSize := do
  let (rows, columns) ← decodeResize payload
  new rows columns

end TerminalSize

/-- `TerminalStartRequest`. -/
structure TerminalStartRequest where
  size : TerminalSize
  request : StartRequest
  deriving DecidableEq, Repr

namespace TerminalStartRequest

/-- `TerminalStartRequest::encode`. -/
def encode (start : TerminalStartRequest) : Except ProtocolError Bytes := do
  return start.size.encode ++ (← start.request.encode)

/-- `TerminalStartRequest::decode`. -/
def decode (payload : Bytes) : Except ProtocolError TerminalStartRequest := do
  rejectIf (payload.length < 4) (.protocol "terminal start payload is truncated")
  let size ← TerminalSize.decode (payload.take 4)
  let request ← StartRequest.decode (payload.drop 4)
  return { size, request }

end TerminalStartRequest

/-! ## Process environment -/

/-- `ProcessEnvironment`. -/
structure ProcessEnvironment where
  vars : List (String × String)
  deriving DecidableEq, Repr

namespace ProcessEnvironment

/-- `ProcessEnvironment::default`. -/
def default : ProcessEnvironment := { vars := [] }

/-- `ProcessEnvironment::is_empty`. -/
def isEmpty (environment : ProcessEnvironment) : Bool := environment.vars.isEmpty

/-- One iteration of the loop of `validate_environment`; `names` is the set of upper-cased names
    seen so far. -/
def validateVariable (unicode : UnicodeTables) (names : List Str) (entry : String × String) :
    Except ProtocolError (List Str) := do
  let (name, value) := entry
  let nul := Char.ofNat 0
  rejectIf (name = "" ∨ '=' ∈ name.toList ∨ nul ∈ name.toList) (.protocol
    "environment variable names must be non-empty and contain neither '=' nor NUL")
  rejectIf (nul ∈ value.toList) (.protocol "environment variable values must not contain NUL")
  let key := toUppercase unicode name.toList
  let shown := debugText unicode name
  rejectIf (key ∈ names) (.protocol s!"environment variable {shown} was supplied more than once")
  return names ++ [key]

/-- `validate_environment`. -/
def validateEnvironment (unicode : UnicodeTables) (vars : List (String × String)) :
    Except ProtocolError Unit := do
  let limit := maxArguments / 2
  rejectIf (vars.length > limit) (.protocol s!"more than {limit} environment variables")
  let _ ← forEach vars (validateVariable unicode) []
  return ()

/-- `ProcessEnvironment::new`. -/
def new (unicode : UnicodeTables) (vars : List (String × String)) :
    Except ProtocolError ProcessEnvironment := do
  validateEnvironment unicode vars
  return { vars }

/-- The name/value list that `ProcessEnvironment::encode` writes. -/
def flattened (vars : List (String × String)) : List String :=
  vars.flatMap fun (name, value) => [name, value]

/-- `flattened.chunks_exact(2)` as pairs. -/
def pairs : List String → List (String × String)
  | name :: value :: rest => (name, value) :: pairs rest
  | _ => []

/-- `ProcessEnvironment::encode`. -/
def encode (unicode : UnicodeTables) (environment : ProcessEnvironment) :
    Except ProtocolError Bytes := do
  validateEnvironment unicode environment.vars
  pushStrings [] (flattened environment.vars)

/-- `ProcessEnvironment::decode`. -/
def decode (unicode : UnicodeTables) (payload : Bytes) :
    Except ProtocolError ProcessEnvironment := do
  let values ← Decoder.of payload do
    let values ← Decoder.strings
    Decoder.finish
    return values
  rejectIf (values.length % 2 ≠ 0)
    (.protocol "process environment must contain name/value pairs")
  new unicode (pairs values)

end ProcessEnvironment

/-! ## Session control -/

/-- `SessionOptions`. -/
structure SessionOptions where
  cancelOnDisconnect : Bool
  deriving DecidableEq, Repr

namespace SessionOptions

/-- `SessionOptions::CANCEL_ON_DISCONNECT`. -/
def cancelOnDisconnectFlag : UInt8 := 1

/-- `SessionOptions::encode`. -/
def encode (options : SessionOptions) : Bytes :=
  [if options.cancelOnDisconnect then cancelOnDisconnectFlag else 0]

/-- `0x{flags:02x}`. -/
def flagsText (flags : UInt8) : String :=
  "0x" ++ String.ofList [Nat.digitChar (flags.toNat / 16), Nat.digitChar (flags.toNat % 16)]

/-- `SessionOptions::decode`. -/
def decode (payload : Bytes) : Except ProtocolError SessionOptions :=
  match payload with
  | [flags] =>
    if flags &&& ~~~cancelOnDisconnectFlag ≠ 0 then
      .error (.protocol ("session options contain unknown flags " ++ flagsText flags))
    else .ok { cancelOnDisconnect := flags &&& cancelOnDisconnectFlag ≠ 0 }
  | _ => .error (.protocol "session options payload must contain one byte")

end SessionOptions

/-- `MIN_SESSION_LEASE_TIMEOUT_MILLIS`. -/
def minSessionLeaseTimeoutMillis : Nat := 1000

/-- `MAX_SESSION_LEASE_TIMEOUT_MILLIS`. -/
def maxSessionLeaseTimeoutMillis : Nat := 300000

/-- `SessionLease`: its field is private, so only a timeout within the bounds can be held. -/
structure SessionLease where
  timeoutMillis : UInt32
  bounded : minSessionLeaseTimeoutMillis ≤ timeoutMillis.toNat ∧
    timeoutMillis.toNat ≤ maxSessionLeaseTimeoutMillis
  deriving DecidableEq

namespace SessionLease

/-- `SessionLease::new`. -/
def new (timeoutMillis : UInt32) : Except ProtocolError SessionLease :=
  if h : minSessionLeaseTimeoutMillis ≤ timeoutMillis.toNat ∧
      timeoutMillis.toNat ≤ maxSessionLeaseTimeoutMillis then
    .ok ⟨timeoutMillis, h⟩
  else
    let least := minSessionLeaseTimeoutMillis
    let most := maxSessionLeaseTimeoutMillis
    .error (.protocol s!"session lease timeout must be between {least} and {most} milliseconds")

/-- `SessionLease::standard`. -/
def standard : SessionLease := ⟨120000, by decide⟩

/-- `SessionLease::encode`. -/
def encode (lease : SessionLease) : Bytes := u32Bytes lease.timeoutMillis

/-- `SessionLease::decode`. -/
def decode (payload : Bytes) : Except ProtocolError SessionLease := do
  rejectIf (payload.length ≠ 4) (.protocol "session lease payload must contain four bytes")
  new (UInt32.ofNat (ofBeBytes payload))

end SessionLease

/-! ## Account requests -/

/-- `validate_windows_user_name`. -/
def validateWindowsUserName (name : String) : Except ProtocolError Unit :=
  let forbidden := "\"/\\[]:;|=,+*?<>@".toList
  let valid := name ≠ "" ∧ utf16Units name.toList ≤ 20 ∧ name ≠ "." ∧ name ≠ ".." ∧
    ¬ (name.toList.getLast? = some ' ' ∨ name.toList.getLast? = some '.') ∧
    ¬ (name.toList.any fun c => isControl c || forbidden.contains c) = true
  rejectIf (¬ valid) (.protocol
    "Windows user name must be 1-20 UTF-16 code units and contain no account-name separators or trailing space/dot")

/-- `DesktopUserRequest`. -/
structure DesktopUserRequest where
  userName : String
  deriving DecidableEq, Repr

namespace DesktopUserRequest

/-- `DesktopUserRequest::encode`. -/
def encode (request : DesktopUserRequest) : Except ProtocolError Bytes := do
  validateWindowsUserName request.userName
  pushString [] request.userName

/-- `DesktopUserRequest::decode`. -/
def decode (payload : Bytes) : Except ProtocolError DesktopUserRequest :=
  Decoder.of payload do
    let userName ← Decoder.string
    Decoder.finish
    liftM (validateWindowsUserName userName)
    return { userName }

end DesktopUserRequest

/-- A byte that stands for one of two values, `e` otherwise. -/
def readFlag {α : Type} (zero one : α) (e : ProtocolError) : Reader ProtocolError α := do
  match ← Decoder.u8 with
  | 0 => return zero
  | 1 => return one
  | _ => liftM (Except.error e : Except ProtocolError α)

/-- `u8::from(flag)`. -/
def flagByte (flag : Bool) : UInt8 := if flag then 1 else 0

/-- `DesktopLiveShareRequest`. -/
structure DesktopLiveShareRequest where
  userName : String
  enable : Bool
  deriving DecidableEq, Repr

namespace DesktopLiveShareRequest

/-- `DesktopLiveShareRequest::encode`. -/
def encode (request : DesktopLiveShareRequest) : Except ProtocolError Bytes := do
  validateWindowsUserName request.userName
  let payload ← pushString [] request.userName
  return payload ++ [flagByte request.enable]

/-- `DesktopLiveShareRequest::decode`. -/
def decode (payload : Bytes) : Except ProtocolError DesktopLiveShareRequest :=
  Decoder.of payload do
    let userName ← Decoder.string
    let enable ← readFlag false true (.protocol "desktop live-share flag must be zero or one")
    Decoder.finish
    liftM (validateWindowsUserName userName)
    return { userName, enable }

end DesktopLiveShareRequest

/-! ## The decoders accept exactly what the encoders produce -/

theorem string_run (bytes : Bytes) (value : String) (rest : Bytes) :
    Decoder.string.run bytes = .ok (value, rest) ↔
      FitsString value ∧ bytes = stringBytes value ++ rest :=
  spells_string bytes value rest

theorem strings_run (bytes : Bytes) (values : List String) (rest : Bytes) :
    Decoder.strings.run bytes = .ok (values, rest) ↔
      (values.length ≤ maxArguments ∧ ∀ value ∈ values, FitsString value) ∧
        bytes = (beBytes 2 values.length ++ values.flatMap stringBytes) ++ rest :=
  spells_strings bytes values rest

theorem pushString_iff {payload out : Bytes} {value : String} :
    pushString payload value = .ok out ↔
      FitsString value ∧ out = payload ++ stringBytes value :=
  pushString_eq_ok

theorem ClientHello.decode_eq_ok {payload : Bytes} {hello : ClientHello} :
    decode payload = .ok hello ↔ hello.encode = .ok payload := by
  simp only [decode, encode, of_eq_ok, run_bind_eq_ok, u16_run, string_run, finish_run,
    run_pure_eq_ok, pushString_iff]
  constructor
  · rintro ⟨_, version, _, rfl, token, _, ⟨hfits, rfl⟩, _, _, ⟨rfl, rfl⟩, rfl, rfl⟩
    exact ⟨hfits, by simp⟩
  · rintro ⟨hfits, rfl⟩
    exact ⟨[], hello.version, _, rfl, hello.token, [], ⟨hfits, by simp⟩, (), [], ⟨rfl, rfl⟩, rfl, rfl⟩

theorem ServerHello.decode_eq_ok {payload : Bytes} {hello : ServerHello} :
    decode payload = .ok hello ↔ hello.encode = .ok payload := by
  simp only [decode, encode, of_eq_ok, run_bind_eq_ok, u16_run, strings_run, finish_run,
    run_pure_eq_ok, pushStrings_eq_ok]
  constructor
  · rintro ⟨_, version, _, rfl, capabilities, _, ⟨hfits, rfl⟩, _, _, ⟨rfl, rfl⟩, rfl, rfl⟩
    exact ⟨hfits, by simp⟩
  · rintro ⟨hfits, rfl⟩
    exact ⟨[], hello.version, _, rfl, hello.capabilities, [], ⟨hfits, by simp⟩, (), [],
      ⟨rfl, rfl⟩, rfl, rfl⟩

theorem SessionKind.decode_eq_ok {value : UInt8} {kind : SessionKind} :
    decode value = .ok kind ↔ value = kind.encode := by
  constructor
  · intro h
    unfold decode at h
    split at h <;> cases h <;> rfl
  · rintro rfl
    cases kind <;> rfl

/-- The working directory on the wire. -/
def StartRequest.directoryBytes : Option String → Bytes
  | some directory => 1 :: stringBytes directory
  | none => [0]

theorem StartRequest.pushWorkingDirectory_eq_ok {payload out : Bytes}
    {directory : Option String} :
    pushWorkingDirectory payload directory = .ok out ↔
      (∀ text ∈ directory, FitsString text) ∧ out = payload ++ directoryBytes directory := by
  cases directory with
  | none => simp [pushWorkingDirectory, directoryBytes, eq_comm]
  | some text => simp [pushWorkingDirectory, directoryBytes, pushString_iff]

theorem StartRequest.readWorkingDirectory_run (bytes : Bytes) (directory : Option String)
    (rest : Bytes) :
    readWorkingDirectory.run bytes = .ok (directory, rest) ↔
      (∀ text ∈ directory, FitsString text) ∧ bytes = directoryBytes directory ++ rest := by
  simp only [readWorkingDirectory, run_bind_eq_ok, u8_run]
  constructor
  · rintro ⟨flag, _, rfl, h⟩
    split at h
    · obtain ⟨rfl, rfl⟩ := run_pure_eq_ok.mp h
      exact ⟨by simp, rfl⟩
    · simp only [run_bind_eq_ok, string_run, run_pure_eq_ok] at h
      obtain ⟨text, _, ⟨hfits, rfl⟩, rfl, rfl⟩ := h
      exact ⟨by simpa using hfits, rfl⟩
    · simp only [run_lift_eq_ok, reduceCtorEq, false_and] at h
  · rintro ⟨hfits, rfl⟩
    cases directory with
    | none => exact ⟨0, rest, rfl, rfl⟩
    | some text =>
      refine ⟨1, stringBytes text ++ rest, rfl, ?_⟩
      show (Decoder.string >>= fun text => pure (some text)).run _ = _
      simp only [run_bind_eq_ok, string_run, run_pure_eq_ok]
      exact ⟨text, rest, ⟨hfits text rfl, rfl⟩, rfl, rfl⟩

/-- A start request without a command is encoded and then refused; all others are read back. -/
theorem StartRequest.decode_eq_ok {payload : Bytes} {request : StartRequest} :
    decode payload = .ok request ↔ request.argv ≠ [] ∧ request.encode = .ok payload := by
  simp only [decode, encode, of_eq_ok, run_bind_eq_ok, u8_run, run_lift_eq_ok,
    SessionKind.decode_eq_ok, readWorkingDirectory_run, strings_run, finish_run, rejectIf_eq_ok,
    run_pure_eq_ok, bind_eq_ok, pushWorkingDirectory_eq_ok, pushStrings_eq_ok]
  constructor
  · rintro ⟨_, _, _, rfl, kind, _, ⟨rfl, rfl⟩, directory, _, ⟨hdirectory, rfl⟩, argv, _,
      ⟨hargv, rfl⟩, _, _, ⟨rfl, rfl⟩, _, _, ⟨hne, rfl⟩, rfl, rfl⟩
    exact ⟨hne, _, ⟨hdirectory, rfl⟩, hargv, by simp⟩
  · rintro ⟨hne, _, ⟨hdirectory, rfl⟩, hargv, rfl⟩
    rw [List.singleton_append, List.cons_append]
    exact ⟨[], _, _, rfl, request.kind, _, ⟨rfl, rfl⟩, request.workingDirectory, _,
      ⟨hdirectory, rfl⟩, request.argv, [], ⟨hargv, by simp⟩, (), [], ⟨rfl, rfl⟩, (), [],
      ⟨hne, rfl⟩, rfl, rfl⟩

/-- A size `TerminalSize::new` returns. -/
def TerminalSize.Built (size : TerminalSize) : Prop := new size.rows size.columns = .ok size

theorem TerminalSize.new_eq_ok {rows columns : UInt16} {size : TerminalSize} :
    new rows columns = .ok size ↔ size.Built ∧ size = { rows, columns } := by
  constructor
  · intro h
    have hsize : size = { rows, columns } := by
      simp only [new, bind_eq_ok, pure_eq_ok_iff] at h
      obtain ⟨_, _, _, _, rfl⟩ := h
      rfl
    subst hsize
    exact ⟨h, rfl⟩
  · rintro ⟨h, rfl⟩
    exact h

theorem TerminalSize.built_default : TerminalSize.default.Built := rfl

theorem u16_ofBeBytes_eq {bytes : Bytes} (h : bytes.length = 2) {value : UInt16} :
    UInt16.ofNat (ofBeBytes bytes) = value ↔ bytes = u16Bytes value := by
  have hrun := u16_run bytes value []
  simp only [Decoder.u16, Decoder.take, run_bind_eq_ok, run_takeBytes_eq_ok, run_pure_eq_ok,
    List.append_nil] at hrun
  rw [← hrun]
  constructor
  · rintro rfl
    exact ⟨bytes, [], ⟨h, by simp⟩, rfl, rfl⟩
  · rintro ⟨front, _, ⟨-, hfront⟩, rfl, rfl⟩
    rw [hfront, List.append_nil]

theorem TerminalSize.length_encode (size : TerminalSize) : size.encode.length = 4 := by
  simp [encode, u16Bytes]

theorem TerminalSize.decode_eq_ok {payload : Bytes} {size : TerminalSize} :
    decode payload = .ok size ↔ size.Built ∧ payload = size.encode := by
  simp only [decode, decodeResize, bind_eq_ok, rejectIf_eq_ok, not_not, pure_eq_ok_iff,
    exists_const, new_eq_ok, Prod.exists, Prod.mk.injEq]
  constructor
  · rintro ⟨rows, columns, ⟨hlen, hrows, hcolumns⟩, hbuilt, rfl⟩
    rw [u16_ofBeBytes_eq (by simp [hlen])] at hrows hcolumns
    refine ⟨hbuilt, ?_⟩
    rw [encode, ← hrows, ← hcolumns, List.take_append_drop]
  · rintro ⟨hbuilt, rfl⟩
    have hrows : size.encode.take 2 = u16Bytes size.rows := List.take_left' (by simp [u16Bytes])
    have hcolumns : size.encode.drop 2 = u16Bytes size.columns :=
      List.drop_left' (by simp [u16Bytes])
    refine ⟨size.rows, size.columns, ⟨size.length_encode, ?_, ?_⟩, hbuilt, rfl⟩
    · rw [hrows]
      exact (u16_ofBeBytes_eq (by simp [u16Bytes])).mpr rfl
    · rw [hcolumns]
      exact (u16_ofBeBytes_eq (by simp [u16Bytes])).mpr rfl

theorem TerminalStartRequest.decode_eq_ok {payload : Bytes} {start : TerminalStartRequest} :
    decode payload = .ok start ↔
      start.size.Built ∧ start.request.argv ≠ [] ∧ start.encode = .ok payload := by
  simp only [decode, encode, bind_eq_ok, rejectIf_eq_ok, exists_const, TerminalSize.decode_eq_ok,
    StartRequest.decode_eq_ok, pure_eq_ok_iff]
  constructor
  · rintro ⟨-, size, ⟨hbuilt, htake⟩, request, ⟨hargv, hrequest⟩, rfl⟩
    exact ⟨hbuilt, hargv, _, hrequest, by rw [← htake, List.take_append_drop]⟩
  · rintro ⟨hbuilt, hargv, bytes, hrequest, rfl⟩
    have hlen := start.size.length_encode
    have hdrop : (start.size.encode ++ bytes).drop 4 = bytes := List.drop_left' hlen
    refine ⟨by simp [hlen], start.size, ⟨hbuilt, List.take_left' hlen⟩, start.request,
      ⟨hargv, ?_⟩, rfl⟩
    rw [hdrop]
    exact hrequest

theorem ProcessEnvironment.pairs_flattened (vars : List (String × String)) :
    pairs (flattened vars) = vars := by
  induction vars with
  | nil => rfl
  | cons entry vars ih =>
    show entry :: pairs (flattened vars) = entry :: vars
    rw [ih]

theorem ProcessEnvironment.flattened_pairs (values : List String) (h : values.length % 2 = 0) :
    flattened (pairs values) = values := by
  induction values using pairs.induct with
  | case1 name value rest ih =>
    have hrest : rest.length % 2 = 0 := by
      simp only [List.length_cons] at h
      omega
    show name :: value :: flattened (pairs rest) = name :: value :: rest
    rw [ih hrest]
  | case2 values hpair =>
    match values with
    | [] => rfl
    | [value] => simp at h
    | name :: value :: rest => exact absurd rfl (hpair name value rest)

theorem ProcessEnvironment.length_flattened (vars : List (String × String)) :
    (flattened vars).length = 2 * vars.length := by
  induction vars with
  | nil => rfl
  | cons entry vars ih =>
    show (flattened vars).length + 1 + 1 = _
    rw [ih, List.length_cons]
    omega

theorem ProcessEnvironment.decode_eq_ok {unicode : UnicodeTables} {payload : Bytes}
    {environment : ProcessEnvironment} :
    decode unicode payload = .ok environment ↔ environment.encode unicode = .ok payload := by
  simp only [decode, encode, new, bind_eq_ok, of_eq_ok, run_bind_eq_ok, strings_run, finish_run,
    run_pure_eq_ok, rejectIf_eq_ok, not_not, exists_const, pure_eq_ok_iff, pushStrings_eq_ok,
    List.nil_append]
  constructor
  · rintro ⟨_, ⟨_, values, _, ⟨hfits, rfl⟩, _, ⟨rfl, rfl⟩, rfl, rfl⟩, heven, _, hvalid, rfl⟩
    rw [flattened_pairs values heven]
    exact ⟨_, hvalid, hfits, by simp⟩
  · rintro ⟨_, hvalid, hfits, rfl⟩
    refine ⟨flattened environment.vars, ⟨[], _, [], ⟨hfits, by simp⟩, [], ⟨rfl, rfl⟩, rfl, rfl⟩,
      ?_, (), ?_, ?_⟩
    · rw [length_flattened]
      omega
    · rw [pairs_flattened]
      exact hvalid
    · rw [pairs_flattened]

theorem SessionOptions.decode_encode (options : SessionOptions) :
    decode options.encode = .ok options := by
  obtain ⟨cancel⟩ := options
  cases cancel <;> rfl

theorem SessionLease.decode_encode (lease : SessionLease) :
    decode lease.encode = .ok lease := by
  have hlen : lease.encode.length = 4 := by simp [encode, u32Bytes]
  have hlt : lease.timeoutMillis.toNat < 256 ^ 4 := by simpa using lease.timeoutMillis.toNat_lt
  have hword : UInt32.ofNat (ofBeBytes lease.encode) = lease.timeoutMillis := by
    rw [encode, u32Bytes, ofBeBytes_beBytes_of_lt hlt, UInt32.ofNat_toNat]
  rw [decode, rejectIf_of_not _ (by simp [hlen]), ok_bind, hword, new, dif_pos lease.bounded]

theorem readFlag_run {α : Type} {zero one : α} {e : ProtocolError} (bytes : Bytes) (value : α)
    (rest : Bytes) :
    (readFlag zero one e).run bytes = .ok (value, rest) ↔
      (value = zero ∧ bytes = 0 :: rest) ∨ (value = one ∧ bytes = 1 :: rest) := by
  simp only [readFlag, run_bind_eq_ok, u8_run]
  constructor
  · rintro ⟨flag, _, rfl, h⟩
    split at h
    · obtain ⟨rfl, rfl⟩ := run_pure_eq_ok.mp h
      exact Or.inl ⟨rfl, rfl⟩
    · obtain ⟨rfl, rfl⟩ := run_pure_eq_ok.mp h
      exact Or.inr ⟨rfl, rfl⟩
    · simp only [run_lift_eq_ok, reduceCtorEq, false_and] at h
  · rintro (⟨rfl, rfl⟩ | ⟨rfl, rfl⟩)
    · exact ⟨0, rest, rfl, rfl⟩
    · exact ⟨1, rest, rfl, rfl⟩

/-- A flag read as a Boolean is spelled by `u8::from`. -/
theorem readFlag_bool_run {e : ProtocolError} (bytes : Bytes) (flag : Bool) (rest : Bytes) :
    (readFlag false true e).run bytes = .ok (flag, rest) ↔ bytes = flagByte flag :: rest := by
  rw [readFlag_run]
  cases flag <;> simp [flagByte]

theorem DesktopUserRequest.decode_eq_ok {payload : Bytes} {request : DesktopUserRequest} :
    decode payload = .ok request ↔ request.encode = .ok payload := by
  simp only [decode, encode, of_eq_ok, run_bind_eq_ok, string_run, finish_run, run_lift_eq_ok,
    run_pure_eq_ok, bind_eq_ok, pushString_iff, List.nil_append]
  constructor
  · rintro ⟨_, name, _, ⟨hfits, rfl⟩, _, _, ⟨rfl, rfl⟩, _, _, ⟨hvalid, rfl⟩, rfl, rfl⟩
    exact ⟨_, hvalid, hfits, by simp⟩
  · rintro ⟨_, hvalid, hfits, rfl⟩
    exact ⟨[], request.userName, [], ⟨hfits, by simp⟩, (), [], ⟨rfl, rfl⟩, (), [], ⟨hvalid, rfl⟩,
      rfl, rfl⟩

theorem DesktopLiveShareRequest.decode_eq_ok {payload : Bytes}
    {request : DesktopLiveShareRequest} :
    decode payload = .ok request ↔ request.encode = .ok payload := by
  simp only [decode, encode, of_eq_ok, run_bind_eq_ok, string_run, readFlag_bool_run, finish_run,
    run_lift_eq_ok, run_pure_eq_ok, bind_eq_ok, pushString_iff, pure_eq_ok_iff, List.nil_append]
  constructor
  · rintro ⟨_, name, _, ⟨hfits, rfl⟩, flag, _, rfl, _, _, ⟨rfl, rfl⟩, _, _, ⟨hvalid, rfl⟩, rfl, rfl⟩
    exact ⟨_, hvalid, _, ⟨hfits, rfl⟩, rfl⟩
  · rintro ⟨_, hvalid, _, ⟨hfits, rfl⟩, rfl⟩
    exact ⟨[], request.userName, _, ⟨hfits, rfl⟩, request.enable, [], rfl, (), [], ⟨rfl, rfl⟩,
      (), [], ⟨hvalid, rfl⟩, rfl, rfl⟩

end Lsw.Protocol
