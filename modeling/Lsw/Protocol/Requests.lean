import Lsw.Protocol.Session

/-!
# File and Account Requests

The requests a client sends in place of a start request (`transfer.rs`, `user.rs`), and the
result for all length-prefixed messages of the protocol: what `encode` accepts `decode` reads
back, and no payload that `decode` accepts is spelled differently by `encode`.
-/

namespace Lsw.Protocol

open Lsw.Lib

/-! ## File transfer -/

/-- `FilePutRequest`. -/
structure FilePutRequest where
  destination : String
  length : UInt64
  deriving DecidableEq, Repr

namespace FilePutRequest

/-- `FilePutRequest::encode`. -/
def encode (request : FilePutRequest) : Except ProtocolError Bytes :=
  pushString (u64Bytes request.length) request.destination

/-- `FilePutRequest::decode`. -/
def decode (payload : Bytes) : Except ProtocolError FilePutRequest :=
  Decoder.of payload do
    let length ← Decoder.u64
    let destination ← Decoder.string
    Decoder.finish
    liftM (rejectIf (destination = "")
      (ProtocolError.protocol "file destination must not be empty"))
    return { destination, length }

theorem decode_eq_ok {payload : Bytes} {request : FilePutRequest} :
    decode payload = .ok request ↔ request.destination ≠ "" ∧ request.encode = .ok payload := by
  simp only [decode, encode, of_eq_ok, run_bind_eq_ok, u64_run, string_run, finish_run,
    run_lift_eq_ok, rejectIf_eq_ok, run_pure_eq_ok, pushString_iff]
  constructor
  · rintro ⟨_, length, _, rfl, destination, _, ⟨hfits, rfl⟩, _, _, ⟨rfl, rfl⟩, _, _, ⟨hne, rfl⟩,
      rfl, rfl⟩
    exact ⟨hne, hfits, by simp⟩
  · rintro ⟨hne, hfits, rfl⟩
    exact ⟨[], request.length, _, rfl, request.destination, [], ⟨hfits, by simp⟩, (), [],
      ⟨rfl, rfl⟩, (), [], ⟨hne, rfl⟩, rfl, rfl⟩

end FilePutRequest

/-- `FileGetRequest`. -/
structure FileGetRequest where
  source : String
  deriving DecidableEq, Repr

namespace FileGetRequest

/-- `FileGetRequest::encode`. -/
def encode (request : FileGetRequest) : Except ProtocolError Bytes :=
  pushString [] request.source

/-- `FileGetRequest::decode`. -/
def decode (payload : Bytes) : Except ProtocolError FileGetRequest :=
  Decoder.of payload do
    let source ← Decoder.string
    Decoder.finish
    liftM (rejectIf (source = "") (ProtocolError.protocol "file source must not be empty"))
    return { source }

theorem decode_eq_ok {payload : Bytes} {request : FileGetRequest} :
    decode payload = .ok request ↔ request.source ≠ "" ∧ request.encode = .ok payload := by
  simp only [decode, encode, of_eq_ok, run_bind_eq_ok, string_run, finish_run, run_lift_eq_ok,
    rejectIf_eq_ok, run_pure_eq_ok, pushString_iff, List.nil_append]
  constructor
  · rintro ⟨_, source, _, ⟨hfits, rfl⟩, _, _, ⟨rfl, rfl⟩, _, _, ⟨hne, rfl⟩, rfl, rfl⟩
    exact ⟨hne, hfits, by simp⟩
  · rintro ⟨hne, hfits, rfl⟩
    exact ⟨[], request.source, [], ⟨hfits, by simp⟩, (), [], ⟨rfl, rfl⟩, (), [], ⟨hne, rfl⟩,
      rfl, rfl⟩

end FileGetRequest

/-- `encode_file_length`. -/
def encodeFileLength (length : UInt64) : Bytes := u64Bytes length

/-- `decode_file_length`. -/
def decodeFileLength (payload : Bytes) : Except ProtocolError UInt64 :=
  if payload.length = 8 then .ok (.ofNat (ofBeBytes payload))
  else .error (.protocol "file length must contain eight bytes")

/-! ## Accounts -/

/-- `WindowsUserRole`. -/
inductive WindowsUserRole where
  | standard
  | administrator
  deriving DecidableEq, Repr

/-- `validate_password`. -/
def validatePassword (password : Bytes) : Except ProtocolError Unit := do
  rejectIf (password = []) (.protocol "password must not be empty")
  rejectIf (password.length > 1024) (.protocol "password exceeds the 1024 byte protocol limit")
  let text ← okOr (String.fromUTF8? password.toByteArray)
    (.protocol "password must be valid UTF-8")
  rejectIf (Char.ofNat 0 ∈ text.toList ∨ utf16Units text.toList > 256)
    (.protocol "password must contain at most 256 UTF-16 code units and no NUL")

/-- `UserCreateRequest`. -/
structure UserCreateRequest where
  userName : String
  password : Bytes
  administrator : Bool
  deriving DecidableEq, Repr

namespace UserCreateRequest

/-- `UserCreateRequest::encode`. -/
def encode (request : UserCreateRequest) : Except ProtocolError Bytes := do
  validateWindowsUserName request.userName
  validatePassword request.password
  let payload ← pushString [] request.userName
  rejectIf (request.password.length ≥ u32Size) (.protocol "password is too long")
  let payload := payload ++ beBytes 4 request.password.length
  let payload := payload ++ request.password
  return payload ++ [flagByte request.administrator]

/-- `UserCreateRequest::decode`; the overwriting of the password on a failure is not observable. -/
def decode (payload : Bytes) : Except ProtocolError UserCreateRequest :=
  Decoder.of payload do
    let userName ← Decoder.string
    let length ← Decoder.u32
    liftM (rejectIf (length.toNat > 1024)
      (ProtocolError.protocol "password exceeds the 1024 byte protocol limit"))
    let password ← Decoder.take length.toNat
    let administrator ← readFlag false true (.protocol "administrator flag must be zero or one")
    Decoder.finish
    liftM (validateWindowsUserName userName)
    liftM (validatePassword password)
    return { userName, password, administrator }

theorem length_le_of_validatePassword {password : Bytes} {u : Unit}
    (h : validatePassword password = .ok u) : password.length ≤ 1024 := by
  simp only [validatePassword, bind_eq_ok, rejectIf_eq_ok, exists_const] at h
  omega

theorem decode_eq_ok {payload : Bytes} {request : UserCreateRequest} :
    decode payload = .ok request ↔ request.encode = .ok payload := by
  simp only [decode, encode, of_eq_ok, run_bind_eq_ok, string_run, u32_run, Decoder.take,
    run_takeBytes_eq_ok, readFlag_bool_run, finish_run, run_lift_eq_ok, rejectIf_eq_ok,
    run_pure_eq_ok, bind_eq_ok, pushString_iff, pure_eq_ok_iff, List.nil_append]
  constructor
  · rintro ⟨_, name, _, ⟨hfits, rfl⟩, length, _, rfl, _, _, ⟨hmax, rfl⟩, password, _, ⟨hlen, rfl⟩,
      flag, _, rfl, _, _, ⟨rfl, rfl⟩, _, _, ⟨hname, rfl⟩, _, _, ⟨hpassword, rfl⟩, rfl, rfl⟩
    have hsmall : ¬ password.length ≥ u32Size := by
      have : 1024 < u32Size := by decide
      omega
    exact ⟨_, hname, _, hpassword, _, ⟨hfits, rfl⟩, (), hsmall, by simp [hlen, u32Bytes]⟩
  · rintro ⟨_, hname, _, hpassword, _, ⟨hfits, rfl⟩, _, -, rfl⟩
    have hmax := length_le_of_validatePassword hpassword
    have hlen : (UInt32.ofNat request.password.length).toNat = request.password.length :=
      UInt32.toNat_ofNat_of_lt' (lt_of_le_of_lt hmax (by decide))
    refine ⟨[], request.userName, _, ⟨hfits, ?_⟩, UInt32.ofNat request.password.length,
      request.password ++ [flagByte request.administrator], rfl, (), _, ⟨by omega, rfl⟩,
      request.password, _, ⟨hlen.symm, rfl⟩, request.administrator, [], rfl, (), [], ⟨rfl, rfl⟩,
      (), [], ⟨hname, rfl⟩, (), [], ⟨hpassword, rfl⟩, rfl, rfl⟩
    simp [u32Bytes, hlen]

end UserCreateRequest

/-- `UserSetRoleRequest`. -/
structure UserSetRoleRequest where
  userName : String
  role : WindowsUserRole
  deriving DecidableEq, Repr

namespace UserSetRoleRequest

/-- The role byte of `UserSetRoleRequest::encode`. -/
def roleByte : WindowsUserRole → UInt8
  | .standard => 0
  | .administrator => 1

/-- `UserSetRoleRequest::encode`. -/
def encode (request : UserSetRoleRequest) : Except ProtocolError Bytes := do
  validateWindowsUserName request.userName
  let payload ← pushString [] request.userName
  return payload ++ [roleByte request.role]

/-- `UserSetRoleRequest::decode`. -/
def decode (payload : Bytes) : Except ProtocolError UserSetRoleRequest :=
  Decoder.of payload do
    let userName ← Decoder.string
    let role ← readFlag WindowsUserRole.standard WindowsUserRole.administrator
      (.protocol "Windows user role must be zero or one")
    Decoder.finish
    liftM (validateWindowsUserName userName)
    return { userName, role }

theorem readRole_run {e : ProtocolError} (bytes : Bytes) (role : WindowsUserRole) (rest : Bytes) :
    (readFlag WindowsUserRole.standard WindowsUserRole.administrator e).run bytes =
        .ok (role, rest) ↔ bytes = roleByte role :: rest := by
  rw [readFlag_run]
  cases role <;> simp [roleByte]

theorem decode_eq_ok {payload : Bytes} {request : UserSetRoleRequest} :
    decode payload = .ok request ↔ request.encode = .ok payload := by
  simp only [decode, encode, of_eq_ok, run_bind_eq_ok, string_run, readRole_run, finish_run,
    run_lift_eq_ok, run_pure_eq_ok, bind_eq_ok, pushString_iff, pure_eq_ok_iff, List.nil_append]
  constructor
  · rintro ⟨_, name, _, ⟨hfits, rfl⟩, role, _, rfl, _, _, ⟨rfl, rfl⟩, _, _, ⟨hvalid, rfl⟩, rfl,
      rfl⟩
    exact ⟨_, hvalid, _, ⟨hfits, rfl⟩, rfl⟩
  · rintro ⟨_, hvalid, _, ⟨hfits, rfl⟩, rfl⟩
    exact ⟨[], request.userName, _, ⟨hfits, rfl⟩, request.role, [], rfl, (), [], ⟨rfl, rfl⟩,
      (), [], ⟨hvalid, rfl⟩, rfl, rfl⟩

end UserSetRoleRequest

/-! ## One payload per message -/

/-- `decode` undoes `encode` on the messages that are `sent`, and `encode` undoes `decode` on
    every payload that is accepted. -/
def Canonical {α : Type} (sent : α → Prop) (encode : α → Except ProtocolError Bytes)
    (decode : Bytes → Except ProtocolError α) : Prop :=
  (∀ message payload, sent message → encode message = .ok payload →
    decode payload = .ok message) ∧
  ∀ payload message, decode payload = .ok message → encode message = .ok payload

theorem canonical_of_iff {α : Type} {sent : α → Prop} {encode : α → Except ProtocolError Bytes}
    {decode : Bytes → Except ProtocolError α}
    (h : ∀ {payload message},
      decode payload = .ok message ↔ sent message ∧ encode message = .ok payload) :
    Canonical sent encode decode := by
  refine ⟨?_, ?_⟩
  · intro message payload hsent hencode
    exact h.mpr ⟨hsent, hencode⟩
  · intro payload message hdecode
    exact (h.mp hdecode).2

theorem canonical_of_decode_iff {α : Type} {encode : α → Except ProtocolError Bytes}
    {decode : Bytes → Except ProtocolError α}
    (h : ∀ {payload message}, decode payload = .ok message ↔ encode message = .ok payload) :
    Canonical (fun _ => True) encode decode := by
  apply canonical_of_iff
  intro payload message
  rw [true_and]
  exact h

/-- Every session, transfer and account message has one payload and every accepted payload is
    the payload of its message. -/
theorem session_messages_canonical (unicode : UnicodeTables) :
    Canonical (fun _ => True) ClientHello.encode ClientHello.decode ∧
    Canonical (fun _ => True) ServerHello.encode ServerHello.decode ∧
    Canonical (fun request => request.argv ≠ []) StartRequest.encode StartRequest.decode ∧
    Canonical
      (fun start => ((∃ rows columns, TerminalSize.new rows columns = .ok start.size) ∨
        start.size = TerminalSize.default) ∧ start.request.argv ≠ [])
      TerminalStartRequest.encode TerminalStartRequest.decode ∧
    Canonical (fun _ => True) (ProcessEnvironment.encode unicode)
      (ProcessEnvironment.decode unicode) ∧
    Canonical (fun request => request.destination ≠ "") FilePutRequest.encode
      FilePutRequest.decode ∧
    Canonical (fun request => request.source ≠ "") FileGetRequest.encode FileGetRequest.decode ∧
    Canonical (fun _ => True) UserCreateRequest.encode UserCreateRequest.decode ∧
    Canonical (fun _ => True) UserSetRoleRequest.encode UserSetRoleRequest.decode ∧
    Canonical (fun _ => True) DesktopUserRequest.encode DesktopUserRequest.decode ∧
    Canonical (fun _ => True) DesktopLiveShareRequest.encode DesktopLiveShareRequest.decode := by
  -- Each by the lemma that says which payloads its message is decoded from.
  refine ⟨canonical_of_decode_iff ClientHello.decode_eq_ok,
    canonical_of_decode_iff ServerHello.decode_eq_ok, canonical_of_iff StartRequest.decode_eq_ok,
    ⟨?terminal, ?terminalCanonical⟩, canonical_of_decode_iff ProcessEnvironment.decode_eq_ok,
    canonical_of_iff FilePutRequest.decode_eq_ok, canonical_of_iff FileGetRequest.decode_eq_ok,
    canonical_of_decode_iff UserCreateRequest.decode_eq_ok,
    canonical_of_decode_iff UserSetRoleRequest.decode_eq_ok,
    canonical_of_decode_iff DesktopUserRequest.decode_eq_ok,
    canonical_of_decode_iff DesktopLiveShareRequest.decode_eq_ok⟩
  -- A size is one that `new` makes or the default; both are built alike.
  case terminal =>
    rintro start payload ⟨hsize, hargv⟩ hencode
    have hbuilt : start.size.Built := by
      obtain ⟨rows, columns, hnew⟩ | hdefault := hsize
      · exact (TerminalSize.new_eq_ok.mp hnew).1
      · rw [hdefault]
        exact TerminalSize.built_default
    exact TerminalStartRequest.decode_eq_ok.mpr ⟨hbuilt, hargv, hencode⟩
  case terminalCanonical =>
    intro payload start hdecode
    exact (TerminalStartRequest.decode_eq_ok.mp hdecode).2.2

end Lsw.Protocol
