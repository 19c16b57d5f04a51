import Lsw.Lib.Traced
import Lsw.Protocol.Frame
import Lsw.Protocol.Session
import Mathlib.Data.Nat.Bitwise

/-!
# Connections of the Guest Agent

`handle_connection` of the guest agent (`requests.rs`): a client authenticates with a Hello, and
then sends one request, or session options followed by up to three optional frames and a start
request.  The function is a chain of reads in which each optional frame is recognised by looking
at the frame that would have come next; `Accepts` states the grammar it implements without any
lookahead, and the two are shown to agree on every stream of frames.
-/

namespace Lsw.Agent

open Lsw.Lib Lsw.Protocol

/-! ## Tokens -/

/-- `constant_time_token_eq`. -/
def constantTimeTokenEq (left right : String) : Bool :=
  let left := utf8Bytes left
  let right := utf8Bytes right
  let maximum := max left.length right.length
  let difference := (List.range maximum).foldl
    (fun difference index => difference ||| (left.getD index 0 ^^^ right.getD index 0).toNat)
    (left.length ^^^ right.length)
  difference == 0

/-! ## Reading and answering -/

/-- The error a connection handler returns: one of the protocol, or a text. -/
inductive AgentError where
  | protocol (error : ProtocolError)
  | text (reason : String)
  deriving DecidableEq, Repr

/-- A conversation with one client: the state is what the client has sent and the agent has not
    read, the events are the frames the agent sends. -/
abbrev Conversation := Traced Bytes Protocol.Frame AgentError

/-- `read_frame(&mut stream)?`. -/
def nextFrame : Conversation Protocol.Frame := fun inbound =>
  match readFrame.run inbound with
  | .ok (frame, rest) => ⟨.ok frame, rest, []⟩
  | .error e => ⟨.error (.protocol e), inbound, []⟩

/-- `write_frame(&mut stream, &frame)?`. -/
def sendFrame (frame : Protocol.Frame) : Conversation Unit :=
  match writeFrame [] frame with
  | .ok _ => Traced.emit fun _ => frame
  | .error e => Traced.fail (.protocol e)

/-- `send_error`. -/
def sendError (message : String) : Conversation Unit :=
  sendFrame { kind := .error, payload := utf8Bytes message }

/-- `send_error(message)?; return Err(reason.into())`. -/
def refuse {α : Type} (message reason : String) : Conversation α := do
  sendError message
  Traced.fail (.text reason)

/-- `ProtocolError`'s `Display`. -/
def display : ProtocolError → String
  | .io .unexpectedEof => "I/O error: failed to fill whole buffer"
  | .protocol reason => s!"protocol error: {reason}"

/-- A payload that is decoded, or whose error is sent to the client and returned. -/
def decodeOrRefuse {α : Type} : Except ProtocolError α → Conversation α
  | .ok value => pure value
  | .error e => do
    sendError (display e)
    Traced.fail (.protocol e)

/-! ## Authentication -/

/-- The first part of `handle_connection`: the Hello and its checks. -/
def authenticate (expectedToken : String) : Conversation Unit := do
  let helloFrame ← nextFrame
  if helloFrame.kind ≠ .hello then
    refuse "the first frame must be HELLO" "client did not send HELLO first"
  else
    let hello ← Traced.ofExcept ((ClientHello.decode helloFrame.payload).mapError .protocol)
    if hello.version ≠ agentProtocolVersion then
      refuse s!"unsupported protocol {hello.version}; server requires {agentProtocolVersion}"
        "client protocol version is not supported"
    else if constantTimeTokenEq hello.token expectedToken = false then
      refuse "authentication failed" "client authentication failed"
    else
      pure ()

/-- `agent_capabilities`. -/
def agentCapabilities (windows : Bool) : List String :=
  ["exec-pipes-v1", "shell-fallback-v1", "stderr-v1", "file-transfer-v1", "session-control-v1",
    "session-lease-v1", "process-environment-v1", "detached-run-v1", "session-signal-v1"] ++
  if windows then
    ["conpty-v1", "terminal-resize-v1", "power-hibernate-v1", "user-account-v1",
      "user-account-role-v1", "maintenance-trim-v1", "maintenance-shutdown-v1", "windows-sudo-v1",
      "live-share-v1", "gui-launch-v1", "gui-icon-v1", "gui-window-v3", "desktop-live-share-v1"]
  else []

/-- The answer to an accepted Hello. -/
def greet (windows : Bool) : Conversation Unit := do
  let hello : ServerHello :=
    { version := agentProtocolVersion, capabilities := agentCapabilities windows }
  let payload ← Traced.ofExcept (hello.encode.mapError .protocol)
  sendFrame { kind := .helloOk, payload }

/-! ## The session preamble -/

/-- `SessionMode`. -/
inductive SessionMode where
  | legacy
  | controlled (options : SessionOptions) (lease : Option SessionLease)
  deriving DecidableEq

/-- What precedes a request: the request itself and the options collected on the way. -/
structure Preamble where
  requestFrame : Protocol.Frame
  sessionMode : SessionMode
  environment : ProcessEnvironment
  detached : Bool
  deriving DecidableEq

/-- An optional frame of the preamble and the frame behind it: a frame of the given kind is
    accepted and the next one read, any other frame is left for what follows. -/
def optionalFrame {α : Type} (kind : FrameKind) (accept : Bytes → Conversation α) (absent : α)
    (requestFrame : Protocol.Frame) : Conversation (α × Protocol.Frame) :=
  if requestFrame.kind = kind then do
    let value ← accept requestFrame.payload
    return (value, ← nextFrame)
  else
    pure (absent, requestFrame)

/-- An optional `SESSION_LEASE`. -/
def readLease : Protocol.Frame → Conversation (Option SessionLease × Protocol.Frame) :=
  optionalFrame .sessionLease
    (fun payload => do return some (← decodeOrRefuse (SessionLease.decode payload))) none

/-- An optional `PROCESS_ENVIRONMENT`. -/
def readEnvironment (unicode : UnicodeTables) :
    Protocol.Frame → Conversation (ProcessEnvironment × Protocol.Frame) :=
  optionalFrame .processEnvironment
    (fun payload => decodeOrRefuse (ProcessEnvironment.decode unicode payload))
    ProcessEnvironment.default

/-- An optional `SESSION_DETACH`. -/
def readDetach : Protocol.Frame → Conversation (Bool × Protocol.Frame) :=
  optionalFrame .sessionDetach
    (fun payload =>
      if payload ≠ [] then
        refuse "SESSION_DETACH payload must be empty"
          "client sent an invalid SESSION_DETACH payload"
      else pure true)
    false

/-- What follows `SESSION_OPTIONS`, up to the start request. -/
def readControlled (unicode : UnicodeTables) (options : SessionOptions) :
    Conversation Preamble := do
  let requestFrame ← nextFrame
  let (lease, requestFrame) ← readLease requestFrame
  if requestFrame.kind = .sessionLease then
    refuse "SESSION_OPTIONS accepts only one SESSION_LEASE"
      "client sent duplicate SESSION_LEASE frames"
  else
    let (environment, requestFrame) ← readEnvironment unicode requestFrame
    let (detached, requestFrame) ← readDetach requestFrame
    if requestFrame.kind ≠ .start ∧ requestFrame.kind ≠ .terminalStart then
      refuse
        "SESSION_OPTIONS must be followed by optional SESSION_LEASE, PROCESS_ENVIRONMENT, and SESSION_DETACH frames, then START or TERMINAL_START"
        "client sent an invalid controlled-session request"
    else
      pure { requestFrame, sessionMode := .controlled options lease, environment, detached }

/-- The preamble that starts with `requestFrame`. -/
def readPreamble (unicode : UnicodeTables) (requestFrame : Protocol.Frame) : Conversation Preamble :=
  if requestFrame.kind = .sessionOptions then do
    let options ← decodeOrRefuse (SessionOptions.decode requestFrame.payload)
    readControlled unicode options
  else
    pure { requestFrame, sessionMode := .legacy, environment := .default, detached := false }

/-! ## Dispatch -/

/-- The request handlers, with what they are called with. -/
inductive Handler where
  | runProcessRequest (payload : Bytes) (sessionMode : SessionMode)
      (environment : ProcessEnvironment) (detached : Bool)
  | runTerminalRequest (payload : Bytes) (sessionMode : SessionMode)
  | receiveFile (payload : Bytes)
  | sendFile (payload : Bytes)
  | hibernateGuest (payload : Bytes) (expectedToken : String)
  | createUser (payload : Bytes) (expectedToken : String)
  | setUserRole (payload : Bytes) (expectedToken : String)
  | maintenanceTrim (payload : Bytes) (expectedToken : String)
  | maintenanceShutdown (payload : Bytes) (expectedToken : String)
  | windowsSudoQuery (payload : Bytes) (expectedToken : String)
  | windowsSudoConfigure (payload : Bytes) (expectedToken : String)
  | liveShareQuery (payload : Bytes) (expectedToken : String)
  | liveShareConfigure (payload : Bytes) (expectedToken : String)
  | guiStart (payload : Bytes) (expectedToken : String)
  | guiWindow (payload : Bytes) (expectedToken : String)
  | guiIcon (payload : Bytes) (expectedToken : String)
  | desktopLiveShareConfigure (payload : Bytes) (expectedToken : String)
  deriving DecidableEq

/-- How `handle_connection` serves a client: it answers a Ping itself, or calls a handler. -/
inductive Served where
  | pong
  | handled (handler : Handler)
  deriving DecidableEq

/-- The `match request_frame.kind` of `handle_connection`. -/
def dispatch (expectedToken : String) (preamble : Preamble) : Conversation Handler :=
  let payload := preamble.requestFrame.payload
  match preamble.requestFrame.kind with
  | .start =>
    pure (.runProcessRequest payload preamble.sessionMode preamble.environment preamble.detached)
  | .terminalStart =>
    if preamble.detached ∨ ¬ preamble.environment.isEmpty then
      refuse "terminal sessions do not accept detached mode or environment injection"
        "client sent invalid terminal-session options"
    else
      pure (.runTerminalRequest payload preamble.sessionMode)
  | .filePut => pure (.receiveFile payload)
  | .fileGet => pure (.sendFile payload)
  | .powerHibernate => pure (.hibernateGuest payload expectedToken)
  | .userCreate => pure (.createUser payload expectedToken)
  | .userSetRole => pure (.setUserRole payload expectedToken)
  | .maintenanceTrim => pure (.maintenanceTrim payload expectedToken)
  | .maintenanceShutdown => pure (.maintenanceShutdown payload expectedToken)
  | .windowsSudoQuery => pure (.windowsSudoQuery payload expectedToken)
  | .windowsSudoConfigure => pure (.windowsSudoConfigure payload expectedToken)
  | .liveShareQuery => pure (.liveShareQuery payload expectedToken)
  | .liveShareConfigure => pure (.liveShareConfigure payload expectedToken)
  | .guiStart => pure (.guiStart payload expectedToken)
  | .guiWindowOpen => pure (.guiWindow payload expectedToken)
  | .guiIcon => pure (.guiIcon payload expectedToken)
  | .desktopLiveShareConfigure => pure (.desktopLiveShareConfigure payload expectedToken)
  | _ =>
    refuse "unsupported request after HELLO"
      "client sent an unsupported request after authentication"

/-- `handle_connection`, up to the call of the request handler. -/
def handleConnection (unicode : UnicodeTables) (windows : Bool) (expectedToken : String) :
    Conversation Served := do
  authenticate expectedToken
  greet windows
  let requestFrame ← nextFrame
  if requestFrame.kind = .ping then
    sendFrame { kind := .pong, payload := [] }
    return .pong
  else
    let preamble ← readPreamble unicode requestFrame
    return .handled (← dispatch expectedToken preamble)

/-! ## The accepted sequences -/

/-- A first frame that proves knowledge of the token. -/
def Authentic (expectedToken : String) (hello : Protocol.Frame) : Prop :=
  hello.kind = .hello ∧ ClientHello.decode hello.payload =
    .ok { version := agentProtocolVersion, token := expectedToken }

/-- The requests served without session options, and what their handlers receive. -/
inductive Serves (expectedToken : String) : Protocol.Frame → Handler → Prop where
  | start (payload : Bytes) :
      Serves expectedToken ⟨.start, payload⟩ (.runProcessRequest payload .legacy .default false)
  | terminalStart (payload : Bytes) :
      Serves expectedToken ⟨.terminalStart, payload⟩ (.runTerminalRequest payload .legacy)
  | filePut (payload : Bytes) : Serves expectedToken ⟨.filePut, payload⟩ (.receiveFile payload)
  | fileGet (payload : Bytes) : Serves expectedToken ⟨.fileGet, payload⟩ (.sendFile payload)
  | powerHibernate (payload : Bytes) :
      Serves expectedToken ⟨.powerHibernate, payload⟩ (.hibernateGuest payload expectedToken)
  | userCreate (payload : Bytes) :
      Serves expectedToken ⟨.userCreate, payload⟩ (.createUser payload expectedToken)
  | userSetRole (payload : Bytes) :
      Serves expectedToken ⟨.userSetRole, payload⟩ (.setUserRole payload expectedToken)
  | maintenanceTrim (payload : Bytes) :
      Serves expectedToken ⟨.maintenanceTrim, payload⟩ (.maintenanceTrim payload expectedToken)
  | maintenanceShutdown (payload : Bytes) :
      Serves expectedToken ⟨.maintenanceShutdown, payload⟩
        (.maintenanceShutdown payload expectedToken)
  | windowsSudoQuery (payload : Bytes) :
      Serves expectedToken ⟨.windowsSudoQuery, payload⟩ (.windowsSudoQuery payload expectedToken)
  | windowsSudoConfigure (payload : Bytes) :
      Serves expectedToken ⟨.windowsSudoConfigure, payload⟩
        (.windowsSudoConfigure payload expectedToken)
  | liveShareQuery (payload : Bytes) :
      Serves expectedToken ⟨.liveShareQuery, payload⟩ (.liveShareQuery payload expectedToken)
  | liveShareConfigure (payload : Bytes) :
      Serves expectedToken ⟨.liveShareConfigure, payload⟩
        (.liveShareConfigure payload expectedToken)
  | guiStart (payload : Bytes) :
      Serves expectedToken ⟨.guiStart, payload⟩ (.guiStart payload expectedToken)
  | guiWindowOpen (payload : Bytes) :
      Serves expectedToken ⟨.guiWindowOpen, payload⟩ (.guiWindow payload expectedToken)
  | guiIcon (payload : Bytes) :
      Serves expectedToken ⟨.guiIcon, payload⟩ (.guiIcon payload expectedToken)
  | desktopLiveShareConfigure (payload : Bytes) :
      Serves expectedToken ⟨.desktopLiveShareConfigure, payload⟩
        (.desktopLiveShareConfigure payload expectedToken)

/-- At most one frame of a kind: none, which stands for `absent`, or one with a payload that
    decodes. -/
inductive AtMostOne {α : Type} (kind : FrameKind) (Decodes : Bytes → α → Prop) (absent : α) :
    List Protocol.Frame → α → Prop where
  | none : AtMostOne kind Decodes absent [] absent
  | one (payload : Bytes) (value : α) (h : Decodes payload value) :
      AtMostOne kind Decodes absent [⟨kind, payload⟩] value

/-- `SESSION_OPTIONS` and the optional frames behind it, in their order. -/
def Opens (unicode : UnicodeTables) (frames : List Protocol.Frame) (options : SessionOptions)
    (lease : Option SessionLease) (environment : ProcessEnvironment) (detached : Bool) : Prop :=
  ∃ payload leases environments detaches,
    frames = ⟨.sessionOptions, payload⟩ :: (leases ++ environments ++ detaches) ∧
    SessionOptions.decode payload = .ok options ∧
    AtMostOne .sessionLease
      (fun payload lease => ∃ found, SessionLease.decode payload = .ok found ∧ lease = some found)
      none leases lease ∧
    AtMostOne .processEnvironment
      (fun payload environment => ProcessEnvironment.decode unicode payload = .ok environment)
      ProcessEnvironment.default environments environment ∧
    AtMostOne .sessionDetach (fun payload detached => payload = [] ∧ detached = true) false
      detaches detached

/-- The frame sequences that reach a request handler, whatever is sent `later`. -/
inductive Accepts (unicode : UnicodeTables) (expectedToken : String) :
    List Protocol.Frame → Handler → Prop where
  | request (hello request : Protocol.Frame) (later : List Protocol.Frame) (handler : Handler)
      (hhello : Authentic expectedToken hello) (hrequest : Serves expectedToken request handler) :
      Accepts unicode expectedToken (hello :: request :: later) handler
  | process (hello : Protocol.Frame) (preamble later : List Protocol.Frame) (payload : Bytes)
      {options : SessionOptions} {lease : Option SessionLease} {environment : ProcessEnvironment}
      {detached : Bool} (hhello : Authentic expectedToken hello)
      (hopens : Opens unicode preamble options lease environment detached) :
      Accepts unicode expectedToken (hello :: (preamble ++ ⟨.start, payload⟩ :: later))
        (.runProcessRequest payload (.controlled options lease) environment detached)
  | terminal (hello : Protocol.Frame) (preamble later : List Protocol.Frame) (payload : Bytes)
      {options : SessionOptions} {lease : Option SessionLease} {environment : ProcessEnvironment}
      (hhello : Authentic expectedToken hello)
      (hopens : Opens unicode preamble options lease environment false)
      (hempty : environment.vars = []) :
      Accepts unicode expectedToken (hello :: (preamble ++ ⟨.terminalStart, payload⟩ :: later))
        (.runTerminalRequest payload (.controlled options lease))

/-! ## Tokens are compared by value -/

theorem foldl_or_eq_zero {α : Type} (f : α → Nat) (xs : List α) (acc : Nat) :
    xs.foldl (fun difference x => difference ||| f x) acc = 0 ↔
      acc = 0 ∧ ∀ x ∈ xs, f x = 0 := by
  induction xs generalizing acc with
  | nil => simp
  | cons x xs ih => simp [ih, Nat.or_eq_zero_iff, and_assoc]

theorem utf8Bytes_injective : Function.Injective utf8Bytes := by
  intro left right h
  have hleft := fromUtf8_utf8Bytes left
  rw [h, fromUtf8_utf8Bytes right] at hleft
  exact (Except.ok.inj hleft).symm

/-- The comparison of tokens that takes the same time for all is an equality. -/
theorem constantTimeTokenEq_iff {left right : String} :
    constantTimeTokenEq left right = true ↔ left = right := by
  rw [← utf8Bytes_injective.eq_iff]
  simp only [constantTimeTokenEq, beq_iff_eq, foldl_or_eq_zero, Nat.xor_eq_zero_iff,
    List.mem_range]
  constructor
  · rintro ⟨hlength, hbytes⟩
    apply List.ext_getElem hlength
    intro index hl hr
    have hindex := hbytes index (by omega)
    simp only [List.getD_eq_getElem?_getD, List.getElem?_eq_getElem hl,
      List.getElem?_eq_getElem hr, Option.getD_some] at hindex
    exact UInt8.xor_eq_zero_iff.mp (UInt8.toNat_inj.mp hindex)
  · intro h
    rw [h]
    simp

/-! ## What each part of the conversation reads -/

open Traced

theorem returns_nextFrame {inbound rest : Bytes} {frame : Protocol.Frame} :
    Returns nextFrame inbound frame rest ↔ frame.Fits ∧ inbound = frame.wire ++ rest := by
  rw [← spells_frame inbound frame rest]
  simp only [Returns, nextFrame]
  cases hrun : readFrame.run inbound with
  | error e => simp
  | ok result => simp [Prod.ext_iff]

/-- A stream of frames. -/
def stream (frames : List Protocol.Frame) : Bytes := frames.flatMap Protocol.Frame.wire

/-- From a stream of frames the first one is read. -/
theorem returns_nextFrame_stream {frames : List Protocol.Frame} (hfits : ∀ frame ∈ frames, frame.Fits)
    {frame : Protocol.Frame} {rest : Bytes} :
    Returns nextFrame (stream frames) frame rest ↔
      ∃ later, frames = frame :: later ∧ rest = stream later := by
  rw [returns_nextFrame, ← spells_frame _ frame rest]
  cases frames with
  | nil => simp [stream, readFrame_nil]
  | cons first later =>
    have hrun := spells_frame.reads (hfits first List.mem_cons_self) (stream later)
    rw [stream, List.flatMap_cons, ← stream, hrun]
    simp only [Except.ok.injEq, Prod.mk.injEq, List.cons.injEq]
    constructor
    · rintro ⟨rfl, rfl⟩
      exact ⟨later, ⟨rfl, rfl⟩, rfl⟩
    · rintro ⟨_, ⟨rfl, rfl⟩, rfl⟩
      exact ⟨rfl, rfl⟩

theorem returns_refuse {α : Type} {message reason : String} {s s' : Bytes} {a : α} :
    Returns (refuse message reason : Conversation α) s a s' ↔ False := by
  simp [refuse, returns_bind, returns_fail]

theorem returns_decodeOrRefuse {α : Type} {r : Except ProtocolError α} {s s' : Bytes} {a : α} :
    Returns (decodeOrRefuse r) s a s' ↔ r = .ok a ∧ s = s' := by
  cases r with
  | ok value => simp [decodeOrRefuse, returns_pure]
  | error e => simp [decodeOrRefuse, returns_bind, returns_fail]

/-- The first frame authenticates, or the connection ends. -/
theorem returns_authenticate {token : String} {frames : List Protocol.Frame}
    (hfits : ∀ frame ∈ frames, frame.Fits) {u : Unit} {rest : Bytes} :
    Returns (authenticate token) (stream frames) u rest ↔
      ∃ hello later, frames = hello :: later ∧ Authentic token hello ∧ rest = stream later := by
  simp only [authenticate, returns_bind, returns_nextFrame_stream hfits, returns_ite,
    returns_refuse, returns_ofExcept, mapError_eq_ok, returns_pure, and_false, false_or,
    Authentic, ne_eq, not_not, Bool.not_eq_false, constantTimeTokenEq_iff]
  constructor
  · rintro ⟨hello, _, ⟨later, rfl, rfl⟩, hkind, decoded, _, ⟨hdecode, rfl⟩, hversion, htoken,
      -, rfl⟩
    obtain ⟨version, token⟩ := decoded
    simp only at hversion htoken
    subst hversion htoken
    exact ⟨hello, later, rfl, ⟨hkind, hdecode⟩, rfl⟩
  · rintro ⟨hello, later, rfl, ⟨hkind, hdecode⟩, rfl⟩
    exact ⟨hello, _, ⟨later, rfl, rfl⟩, hkind, _, _, ⟨hdecode, rfl⟩, rfl, rfl, trivial, rfl⟩

theorem returns_sendFrame {frame : Protocol.Frame} {s s' : Bytes} {u : Unit} :
    Returns (sendFrame frame) s u s' ↔ frame.Fits ∧ s = s' := by
  unfold sendFrame
  cases hwrite : writeFrame [] frame with
  | ok out =>
    have hfits := (writeFrame_eq_ok.mp hwrite).1
    simp [Returns, Traced.emit, hfits]
  | error e =>
    have hfits : ¬ frame.Fits := fun h => by
      rw [writeFrame_eq_ok.mpr ⟨h, rfl⟩] at hwrite
      cases hwrite
    simp [returns_fail, hfits]

/-- The answer to a Hello is always sent: the capabilities are few and short. -/
theorem returns_greet {windows : Bool} {s s' : Bytes} {u : Unit} :
    Returns (greet windows) s u s' ↔ s = s' := by
  have hvalues : (agentCapabilities windows).length ≤ maxArguments ∧
      ∀ value ∈ agentCapabilities windows, FitsString value := by
    cases windows <;> decide
  have hencode := pushStrings_eq_ok.mpr
    (show _ ∧ _ = u16Bytes agentProtocolVersion ++ _ from ⟨hvalues, rfl⟩)
  simp only [greet, returns_bind, returns_ofExcept, mapError_eq_ok, ServerHello.encode, hencode,
    returns_sendFrame, Except.ok.injEq]
  have hfits : Protocol.Frame.Fits ⟨.helloOk, u16Bytes agentProtocolVersion ++
      (beBytes 2 (agentCapabilities windows).length ++
        (agentCapabilities windows).flatMap stringBytes)⟩ := by
    cases windows <;> decide +kernel
  constructor
  · rintro ⟨_, _, ⟨rfl, rfl⟩, -, rfl⟩
    rfl
  · rintro rfl
    exact ⟨_, _, ⟨rfl, rfl⟩, hfits, rfl⟩

/-- The lookahead: what is accepted is at most one frame of the kind, and a frame of the kind is
    never passed over. -/
theorem returns_optionalFrame {α : Type} {kind : FrameKind} {accept : Bytes → Conversation α}
    {absent : α} {Decodes : Bytes → α → Prop}
    (haccept : ∀ {payload s a s'}, Returns (accept payload) s a s' ↔ Decodes payload a ∧ s = s')
    {request : Protocol.Frame} {frames : List Protocol.Frame} (hfits : ∀ frame ∈ frames, frame.Fits) {value : α}
    {next : Protocol.Frame} {rest : Bytes} :
    Returns (optionalFrame kind accept absent request) (stream frames) (value, next) rest ↔
      ∃ front later, AtMostOne kind Decodes absent front value ∧
        request :: frames = front ++ next :: later ∧ rest = stream later ∧
        (front = [] → next.kind ≠ kind) := by
  simp only [optionalFrame, returns_ite, returns_bind, haccept, returns_pure, Prod.mk.injEq]
  constructor
  -- A frame of the kind is taken, and the next one is read.
  · rintro (⟨hkind, found, _, ⟨hdecodes, rfl⟩, second, _, hsecond, ⟨rfl, rfl⟩, rfl⟩ |
      ⟨hkind, ⟨rfl, rfl⟩, rfl⟩)
    · obtain ⟨later, rfl, rfl⟩ := (returns_nextFrame_stream hfits).mp hsecond
      obtain ⟨requestKind, payload⟩ := request
      simp only at hkind
      subst hkind
      exact ⟨_, later, .one payload found hdecodes, rfl, rfl, by simp⟩
    -- Any other one is the next one itself.
    · exact ⟨[], frames, .none, rfl, rfl, fun _ => hkind⟩
  -- Conversely, what is in front decides which of both happens.
  · rintro ⟨front, later, hfront, hframes, rfl, hkind⟩
    cases hfront with
    | none =>
      simp only [List.nil_append, List.cons.injEq] at hframes
      obtain ⟨rfl, rfl⟩ := hframes
      exact .inr ⟨hkind rfl, ⟨rfl, rfl⟩, rfl⟩
    | one payload value hdecodes =>
      simp only [List.singleton_append, List.cons.injEq] at hframes
      obtain ⟨rfl, rfl⟩ := hframes
      exact .inl ⟨rfl, value, _, ⟨hdecodes, rfl⟩, next, _,
        (returns_nextFrame_stream hfits).mpr ⟨later, rfl, rfl⟩, ⟨rfl, rfl⟩, rfl⟩

theorem AtMostOne.head {α : Type} {kind : FrameKind} {Decodes : Bytes → α → Prop} {absent value : α}
    {front : List Protocol.Frame} (h : AtMostOne kind Decodes absent front value) (next : Protocol.Frame)
    (later : List Protocol.Frame) :
    ∃ first tail, front ++ next :: later = first :: tail ∧ (first.kind = kind ∨ first = next) := by
  cases h with
  | none => exact ⟨next, later, rfl, .inr rfl⟩
  | one payload value _ => exact ⟨⟨kind, payload⟩, next :: later, rfl, .inl rfl⟩

/-- Behind the options there is at most one lease. -/
theorem returns_readLease {request : Protocol.Frame} {frames : List Protocol.Frame}
    (hfits : ∀ frame ∈ frames, frame.Fits) {lease : Option SessionLease} {next : Protocol.Frame}
    {rest : Bytes} :
    Returns (readLease request) (stream frames) (lease, next) rest ↔
      ∃ front later, AtMostOne .sessionLease
          (fun payload lease => ∃ found, SessionLease.decode payload = .ok found ∧
            lease = some found) none front lease ∧
        request :: frames = front ++ next :: later ∧ rest = stream later ∧
        (front = [] → next.kind ≠ .sessionLease) := by
  apply returns_optionalFrame ?_ hfits
  intro payload s lease s'
  simp only [returns_bind, returns_decodeOrRefuse, returns_pure]
  constructor
  · rintro ⟨found, _, ⟨hfound, rfl⟩, rfl, rfl⟩
    exact ⟨⟨found, hfound, rfl⟩, rfl⟩
  · rintro ⟨⟨found, hfound, rfl⟩, rfl⟩
    exact ⟨found, s, ⟨hfound, rfl⟩, rfl, rfl⟩

theorem returns_readEnvironment {unicode : UnicodeTables} {request : Protocol.Frame} {frames : List Protocol.Frame}
    (hfits : ∀ frame ∈ frames, frame.Fits) {environment : ProcessEnvironment} {next : Protocol.Frame}
    {rest : Bytes} :
    Returns (readEnvironment unicode request) (stream frames) (environment, next) rest ↔
      ∃ front later, AtMostOne .processEnvironment
          (fun payload environment => ProcessEnvironment.decode unicode payload = .ok environment)
          ProcessEnvironment.default front environment ∧
        request :: frames = front ++ next :: later ∧ rest = stream later ∧
        (front = [] → next.kind ≠ .processEnvironment) :=
  returns_optionalFrame returns_decodeOrRefuse hfits

/-- And at most one frame that detaches the session. -/
theorem returns_readDetach {request : Protocol.Frame} {frames : List Protocol.Frame}
    (hfits : ∀ frame ∈ frames, frame.Fits) {detached : Bool} {next : Protocol.Frame} {rest : Bytes} :
    Returns (readDetach request) (stream frames) (detached, next) rest ↔
      ∃ front later, AtMostOne .sessionDetach
          (fun payload detached => payload = [] ∧ detached = true) false front detached ∧
        request :: frames = front ++ next :: later ∧ rest = stream later ∧
        (front = [] → next.kind ≠ .sessionDetach) := by
  apply returns_optionalFrame ?_ hfits
  intro payload s detached s'
  simp only [returns_ite, returns_refuse, and_false, false_or, ne_eq, not_not, returns_pure]
  constructor
  · rintro ⟨rfl, rfl, rfl⟩
    exact ⟨⟨rfl, rfl⟩, rfl⟩
  · rintro ⟨⟨rfl, rfl⟩, rfl⟩
    exact ⟨rfl, rfl, rfl⟩

/-- What follows the options: the optional frames in their order and a start request. -/
theorem returns_readControlled {unicode : UnicodeTables} {options : SessionOptions}
    {frames : List Protocol.Frame} (hfits : ∀ frame ∈ frames, frame.Fits) {preamble : Preamble}
    {rest : Bytes} :
    Returns (readControlled unicode options) (stream frames) preamble rest ↔
      ∃ leases environments detaches start later lease environment detached,
        frames = leases ++ (environments ++ (detaches ++ start :: later)) ∧
        AtMostOne .sessionLease (fun payload lease => ∃ found,
          SessionLease.decode payload = .ok found ∧ lease = some found) none leases lease ∧
        AtMostOne .processEnvironment
          (fun payload environment => ProcessEnvironment.decode unicode payload = .ok environment)
          ProcessEnvironment.default environments environment ∧
        AtMostOne .sessionDetach (fun payload detached => payload = [] ∧ detached = true) false
          detaches detached ∧
        (start.kind = .start ∨ start.kind = .terminalStart) ∧
        preamble = ⟨start, .controlled options lease, environment, detached⟩ ∧
        rest = stream later := by
  simp only [readControlled, returns_bind, Prod.exists, returns_ite, returns_refuse, and_false,
    false_or, returns_pure, not_and_or, not_not]
  constructor
  · rintro ⟨first, _, hfirst, lease, second, _, hlease, hsecond, environment, third, _,
      henvironment, detached, start, _, hdetached, hstart, rfl, rfl⟩
    obtain ⟨later, rfl, rfl⟩ := (returns_nextFrame_stream hfits).mp hfirst
    have hlater : ∀ frame ∈ later, frame.Fits := fun f hf => hfits f (List.mem_cons_of_mem _ hf)
    obtain ⟨leases, later₁, hleases, heq₁, rfl, -⟩ := (returns_readLease hlater).mp hlease
    rw [heq₁] at hfits ⊢
    obtain ⟨environments, later₂, henvironments, heq₂, rfl, -⟩ :=
      (returns_readEnvironment fun f hf => hfits f (by simp [hf])).mp henvironment
    rw [heq₂] at hfits ⊢
    obtain ⟨detaches, later₃, hdetaches, heq₃, rfl, -⟩ :=
      (returns_readDetach fun f hf => hfits f (by simp [hf])).mp hdetached
    rw [heq₃]
    exact ⟨leases, environments, detaches, start, later₃, lease, environment, detached, rfl,
      hleases, henvironments, hdetaches, hstart, rfl, rfl⟩
  · rintro ⟨leases, environments, detaches, start, later, lease, environment, detached, rfl,
      hleases, henvironments, hdetaches, hstart, rfl, rfl⟩
    -- Behind each optional part stands the head of the next one, of another kind.
    obtain ⟨third, later₂, hthird, hthirdKind⟩ := hdetaches.head start later
    obtain ⟨second, later₁, hsecond, hsecondKind⟩ := henvironments.head third later₂
    obtain ⟨first, later₀, hfirst, -⟩ := hleases.head second later₁
    rw [hthird, hsecond, hfirst] at hfits ⊢
    have hdetach : start.kind ≠ .sessionDetach := by
      rcases hstart with h | h <;> simp [h]
    have hthirdNe : third.kind ≠ .processEnvironment := by
      rcases hthirdKind with h | rfl
      · simp [h]
      · rcases hstart with h | h <;> simp [h]
    have hsecondNe : second.kind ≠ .sessionLease := by
      rcases hsecondKind with h | rfl
      · simp [h]
      · rcases hthirdKind with h | rfl
        · simp [h]
        · rcases hstart with h | h <;> simp [h]
    have hfits₀ : ∀ frame ∈ later₀, frame.Fits := fun f hf => hfits f (List.mem_cons_of_mem _ hf)
    have hfits₁ : ∀ frame ∈ second :: later₁, frame.Fits := fun f hf =>
      hfits f (by rw [← hfirst]; exact List.mem_append_right _ hf)
    have hfits₂ : ∀ frame ∈ third :: later₂, frame.Fits := fun f hf =>
      hfits₁ f (by rw [← hsecond]; exact List.mem_append_right _ hf)
    refine ⟨first, _, (returns_nextFrame_stream hfits).mpr ⟨later₀, rfl, rfl⟩, lease, second, _,
      (returns_readLease hfits₀).mpr ⟨leases, later₁, hleases, hfirst.symm, rfl, fun _ => hsecondNe⟩,
      hsecondNe, environment, third, _, (returns_readEnvironment fun f hf =>
        hfits₁ f (List.mem_cons_of_mem _ hf)).mpr ⟨environments, later₂, henvironments,
          hsecond.symm, rfl, fun _ => hthirdNe⟩, detached, start, _, (returns_readDetach fun f hf =>
        hfits₂ f (List.mem_cons_of_mem _ hf)).mpr ⟨detaches, later, hdetaches, hthird.symm, rfl,
          fun _ => hdetach⟩, hstart, rfl, rfl⟩

/-! ## Dispatch -/

/-- A request without session options goes to the handler that serves its kind. -/
theorem returns_dispatch_legacy {token : String} {request : Protocol.Frame} {s s' : Bytes}
    {handler : Handler} :
    Returns (dispatch token ⟨request, .legacy, .default, false⟩) s handler s' ↔
      Serves token request handler ∧ s = s' := by
  constructor
  · intro h
    obtain ⟨kind, payload⟩ := request
    -- One case per kind: the supported ones return their handler, the others are refused.
    cases kind <;> first
      | exact absurd (returns_refuse.mp h) id
      | (obtain ⟨rfl, rfl⟩ := returns_pure.mp h
         exact ⟨by constructor, rfl⟩)
  · rintro ⟨hserves, rfl⟩
    cases hserves <;> exact returns_pure.mpr ⟨rfl, rfl⟩

theorem returns_dispatch_start {token : String} {payload : Bytes} {mode : SessionMode}
    {environment : ProcessEnvironment} {detached : Bool} {s s' : Bytes} {handler : Handler} :
    Returns (dispatch token ⟨⟨.start, payload⟩, mode, environment, detached⟩) s handler s' ↔
      handler = .runProcessRequest payload mode environment detached ∧ s = s' := by
  simp only [dispatch, returns_pure]
  exact and_congr_left fun _ => eq_comm

theorem returns_dispatch_terminalStart {token : String} {payload : Bytes} {mode : SessionMode}
    {environment : ProcessEnvironment} {detached : Bool} {s s' : Bytes} {handler : Handler} :
    Returns (dispatch token ⟨⟨.terminalStart, payload⟩, mode, environment, detached⟩) s handler
        s' ↔
      (detached = false ∧ environment.vars = []) ∧
        handler = .runTerminalRequest payload mode ∧ s = s' := by
  simp only [dispatch, returns_ite, returns_refuse, and_false, false_or, returns_pure, not_or,
    Bool.not_eq_true, not_not, ProcessEnvironment.isEmpty, List.isEmpty_iff]
  exact and_congr_right fun _ => and_congr_left fun _ => eq_comm

/-- A preamble of the grammar is read as what it opens. -/
theorem Opens.returns {unicode : UnicodeTables} {frames : List Protocol.Frame} {options : SessionOptions}
    {lease : Option SessionLease} {environment : ProcessEnvironment} {detached : Bool}
    (h : Opens unicode frames options lease environment detached) {start : Protocol.Frame}
    {later : List Protocol.Frame} (hstart : start.kind = .start ∨ start.kind = .terminalStart)
    (hfits : ∀ frame ∈ frames ++ start :: later, frame.Fits) :
    ∃ first rest, frames ++ start :: later = first :: rest ∧ first.kind ≠ .ping ∧
      Returns (readPreamble unicode first) (stream rest)
        ⟨start, .controlled options lease, environment, detached⟩ (stream later) := by
  obtain ⟨payload, leases, environments, detaches, rfl, hoptions, hleases, henvironments,
    hdetaches⟩ := h
  refine ⟨_, _, rfl, by simp, ?_⟩
  simp only [readPreamble, returns_ite, returns_bind, returns_decodeOrRefuse]
  have hrest : ∀ frame ∈ leases ++ environments ++ detaches ++ start :: later, frame.Fits :=
    fun f hf => hfits f (List.mem_cons_of_mem _ hf)
  refine .inl ⟨trivial, options, _, ⟨hoptions, rfl⟩, (returns_readControlled hrest).mpr ?_⟩
  exact ⟨leases, environments, detaches, start, later, lease, environment, detached, by simp,
    hleases, henvironments, hdetaches, hstart, rfl, rfl⟩

/-- A connection is handed to a handler exactly on the sequences of the grammar. -/
theorem returns_handleConnection {unicode : UnicodeTables} {windows : Bool} {token : String}
    {frames : List Protocol.Frame} (hfits : ∀ frame ∈ frames, frame.Fits) {handler : Handler} :
    (∃ rest, Returns (handleConnection unicode windows token) (stream frames) (.handled handler)
      rest) ↔ Accepts unicode token frames handler := by
  -- The phases of a connection, each as the frames it takes.
  simp only [handleConnection, returns_bind, returns_authenticate hfits, returns_greet,
    returns_ite, returns_pure, reduceCtorEq, false_and, and_false, exists_false, false_or,
    Served.handled.injEq]
  constructor
  -- Whatever is handled has sent a greeting, a request and, with options, a preamble.
  · rintro ⟨_, _, _, ⟨hello, sent, rfl, hhello, rfl⟩, _, _, rfl, request, _, hrequest, hping,
      preamble, _, hpreamble, _, _, hdispatch, rfl, rfl⟩
    have hsent : ∀ frame ∈ sent, frame.Fits := fun f hf => hfits f (List.mem_cons_of_mem _ hf)
    obtain ⟨later, rfl, rfl⟩ := (returns_nextFrame_stream hsent).mp hrequest
    have hlater : ∀ frame ∈ later, frame.Fits := fun f hf => hsent f (List.mem_cons_of_mem _ hf)
    simp only [readPreamble, returns_ite, returns_bind, returns_decodeOrRefuse,
      returns_pure] at hpreamble
    -- Either the request carries session options, or it is dispatched as it is.
    obtain ⟨hkind, options, _, ⟨hoptions, rfl⟩, hcontrolled⟩ | ⟨-, rfl, rfl⟩ := hpreamble
    · obtain ⟨leases, environments, detaches, start, final, lease, environment, detached, rfl,
        hleases, henvironments, hdetaches, hstart, rfl, rfl⟩ :=
        (returns_readControlled hlater).mp hcontrolled
      obtain ⟨optionsKind, optionsPayload⟩ := request
      simp only at hkind hoptions
      subst hkind
      have hopens : Opens unicode
          (⟨.sessionOptions, optionsPayload⟩ :: (leases ++ environments ++ detaches)) options lease
          environment detached :=
        ⟨optionsPayload, leases, environments, detaches, rfl, hoptions, hleases, henvironments,
          hdetaches⟩
      obtain ⟨startKind, payload⟩ := start
      simp only at hstart
      -- After a preamble there are two requests that start something.
      obtain rfl | rfl := hstart
      · obtain ⟨rfl, rfl⟩ := returns_dispatch_start.mp hdispatch
        simpa using Accepts.process hello _ final payload hhello hopens
      · obtain ⟨⟨rfl, hempty⟩, rfl, rfl⟩ := returns_dispatch_terminalStart.mp hdispatch
        simpa using Accepts.terminal hello _ final payload hhello hopens hempty
    -- A request without session options.
    · exact .request hello request later _ hhello (returns_dispatch_legacy.mp hdispatch).1
  -- Conversely, every sequence of the grammar is read to its end.
  · intro haccepts
    cases haccepts with
    | request hello request later handler hhello hserves =>
      have hlater : ∀ frame ∈ request :: later, frame.Fits :=
        fun f hf => hfits f (List.mem_cons_of_mem _ hf)
      -- No request of this rule is a ping or opens a preamble.
      have hping : request.kind ≠ .ping := by cases hserves <;> simp
      have hoptions : request.kind ≠ .sessionOptions := by cases hserves <;> simp
      refine ⟨_, (), _, ⟨hello, _, rfl, hhello, rfl⟩, (), _, rfl, request, _,
        (returns_nextFrame_stream hlater).mpr ⟨later, rfl, rfl⟩, hping,
        ⟨request, .legacy, .default, false⟩, stream later, ?_, handler, stream later,
        returns_dispatch_legacy.mpr ⟨hserves, rfl⟩, rfl, rfl⟩
      rw [readPreamble, if_neg hoptions]
      exact returns_pure.mpr ⟨rfl, rfl⟩
    -- The preamble is read frame by frame; the start is what remains.
    | process hello preamble later payload hhello hopens =>
      have hlater := fun f hf => hfits f (List.mem_cons_of_mem _ hf)
      obtain ⟨first, rest, heq, hping, hpreamble⟩ := hopens.returns (.inl rfl) hlater
      rw [heq] at hlater ⊢
      exact ⟨_, (), _, ⟨hello, _, rfl, hhello, rfl⟩, (), _, rfl, first, _,
        (returns_nextFrame_stream hlater).mpr ⟨rest, rfl, rfl⟩, hping, _, _, hpreamble, _, _,
        returns_dispatch_start.mpr ⟨rfl, rfl⟩, rfl, rfl⟩
    | terminal hello preamble later payload hhello hopens hempty =>
      have hlater := fun f hf => hfits f (List.mem_cons_of_mem _ hf)
      obtain ⟨first, rest, heq, hping, hpreamble⟩ := hopens.returns (.inr rfl) hlater
      rw [heq] at hlater ⊢
      exact ⟨_, (), _, ⟨hello, _, rfl, hhello, rfl⟩, (), _, rfl, first, _,
        (returns_nextFrame_stream hlater).mpr ⟨rest, rfl, rfl⟩, hping, _, _, hpreamble, _, _,
        returns_dispatch_terminalStart.mpr ⟨⟨rfl, hempty⟩, rfl, rfl⟩, rfl, rfl⟩

/-! ## Before authentication only errors are sent -/

theorem refuse_sends_error {α : Type} {message reason : String} :
    Sat (fun _ => True) (fun frame => frame.kind = .error) (fun _ => True)
      (refuse message reason : Conversation α) (fun _ _ => True) fun _ => True := by
  refine .bind (Q := fun _ _ => True) ?_ fun _ => .fail fun _ => id
  unfold sendError sendFrame
  split
  · exact .emit fun _ _ _ => ⟨rfl, trivial⟩
  · exact .fail fun _ => id

theorem authenticate_sends_error (token : String) :
    Sat (fun _ => True) (fun frame => frame.kind = .error) (fun _ => True) (authenticate token)
      (fun _ _ => True) fun _ => True := by
  have hnext : Sat (fun _ => True) (fun frame => frame.kind = .error) (fun _ => True) nextFrame
      (fun _ _ => True) fun _ => True := by
    intro inbound _ _
    unfold nextFrame
    split <;> simp
  refine .bind hnext fun hello => .ite (fun _ => refuse_sends_error) fun _ => ?_
  refine .bind (.ofExcept (fun _ _ _ => id) fun _ => id) fun decoded => ?_
  refine .ite (fun _ => refuse_sends_error) fun _ => ?_
  exact .ite (fun _ => refuse_sends_error) fun _ => .pure fun _ => id

/-- A client that is not authenticated is sent nothing but errors. -/
theorem handleConnection_sends_error {unicode : UnicodeTables} {windows : Bool} {token : String}
    {frames : List Protocol.Frame} (hfits : ∀ frame ∈ frames, frame.Fits)
    (hunknown : ¬ ∃ hello later, frames = hello :: later ∧ Authentic token hello) :
    ∀ frame ∈ (handleConnection unicode windows token (stream frames)).events,
      frame.kind = .error := by
  have hsent := (authenticate_sends_error token (stream frames) trivial fun _ _ => trivial).1
  cases hresult : (authenticate token (stream frames)).result with
  | error e =>
    simp only [handleConnection, Bind.bind, hresult]
    exact hsent
  | ok u =>
    obtain ⟨hello, later, hframes, hhello, -⟩ :=
      (returns_authenticate hfits).mp ⟨hresult, rfl⟩
    exact absurd ⟨hello, later, hframes, hhello⟩ hunknown

/-- On every sequence of frames a client can send, `handle_connection` calls a request handler
    exactly if the sequence is one of the grammar, with the values the grammar assigns to it,
    and a client that is not authenticated is sent nothing but errors. -/
theorem handle_connection_follows_grammar (unicode : UnicodeTables) (windows : Bool)
    (expectedToken : String) (frames : List Protocol.Frame) (inbound : Bytes)
    (hsent : writeFrames frames = .ok inbound) :
    (∀ handler, (handleConnection unicode windows expectedToken inbound).result =
        .ok (.handled handler) ↔ Accepts unicode expectedToken frames handler) ∧
    ((¬ ∃ hello later, frames = hello :: later ∧ Authentic expectedToken hello) →
      ∀ frame ∈ (handleConnection unicode windows expectedToken inbound).events,
        frame.kind = .error) := by
  obtain ⟨hfits, rfl⟩ := writeFrames_eq_ok.mp hsent
  refine ⟨?_, handleConnection_sends_error hfits⟩
  intro handler
  rw [← returns_handleConnection hfits]
  constructor
  · intro hresult
    exact ⟨_, hresult, rfl⟩
  · rintro ⟨rest, hresult, -⟩
    exact hresult

/-- Tables that know no characters beyond ASCII. -/
def asciiTables : UnicodeTables := { uppercase := fun c => [c], printable := fun _ => false }

/-- A detached run of `a` with token `t`. -/
def demoFrames : List Protocol.Frame :=
  [⟨.hello, [0, 1, 0, 0, 0, 1, 116]⟩, ⟨.sessionOptions, [0]⟩,
    ⟨.sessionLease, SessionLease.standard.encode⟩, ⟨.sessionDetach, []⟩,
    ⟨.start, [3, 0, 0, 1, 0, 0, 0, 1, 97]⟩]

theorem demo_connection_is_handled :
    writeFrames demoFrames = .ok (stream demoFrames) ∧
    (handleConnection asciiTables true "t" (stream demoFrames)).result =
      .ok (.handled (.runProcessRequest [3, 0, 0, 1, 0, 0, 0, 1, 97]
        (.controlled ⟨false⟩ (some SessionLease.standard)) .default true)) := by
  have hsent : writeFrames demoFrames = .ok (stream demoFrames) :=
    writeFrames_eq_ok.mpr ⟨by decide, rfl⟩
  have hhello : Authentic "t" ⟨.hello, [0, 1, 0, 0, 0, 1, 116]⟩ :=
    ⟨rfl, ClientHello.decode_eq_ok.mpr (by decide)⟩
  have hopens : Opens asciiTables [⟨.sessionOptions, [0]⟩,
      ⟨.sessionLease, SessionLease.standard.encode⟩, ⟨.sessionDetach, []⟩] ⟨false⟩
      (some SessionLease.standard) .default true :=
    ⟨[0], _, [], _, rfl, rfl, .one _ _ ⟨_, SessionLease.decode_encode _, rfl⟩, .none,
      .one [] true ⟨rfl, rfl⟩⟩
  refine ⟨hsent, ?_⟩
  apply ((handle_connection_follows_grammar asciiTables true "t" demoFrames _ hsent).1 _).mpr
  exact .process _ _ [] [3, 0, 0, 1, 0, 0, 0, 1, 97] hhello hopens

end Lsw.Agent
