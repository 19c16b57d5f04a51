import Lsw.Agent.Requests

/-!
# Process Requests of the Host

The host side of a process session (`agent/mod.rs`, `agent/process.rs`): `connect` authenticates
and learns the agent's capabilities, and one of three calls writes the frames of a session chosen
by these capabilities, the terminal and the environment.

Every sequence of frames that a call writes with its request is one the agent's grammar accepts,
and the handler that the agent then calls receives the request, the environment and the mode the
caller asked for.
-/

namespace Lsw.Host

open Lsw.Lib Lsw.Protocol

/-! ## Sending -/

/-- The error a client call returns. -/
inductive ClientError where
  | protocol (error : ProtocolError)
  /-- The connection broke. -/
  | io
  /-- The guest agent did not announce what the call needs. -/
  | missingCapability (reason : String)
  /-- The agent answered with an Error frame. -/
  | refused (payload : Bytes)
  /-- The agent answered with another frame. -/
  | unexpected (kind : FrameKind)
  | text (reason : String)
  deriving DecidableEq, Repr

/-- A call of the client: the events are the frames it writes, the state is the number of frames
    the connection still takes before it breaks. -/
abbrev Sending := Traced Nat Protocol.Frame ClientError

/-- `write_frame(&mut self.stream, &frame)?`. -/
def sendFrame (frame : Protocol.Frame) : Sending Unit := fun room =>
  match writeFrame [] frame, room with
  | .error e, room => ⟨.error (.protocol e), room, []⟩
  | .ok _, 0 => ⟨.error .io, 0, []⟩
  | .ok _, room + 1 => ⟨.ok (), room, [frame]⟩

/-- `encode()?` and the frame of what is encoded. -/
def sendEncoded (kind : FrameKind) (payload : Except ProtocolError Bytes) : Sending Unit := do
  let payload ← Traced.ofExcept (payload.mapError .protocol)
  sendFrame { kind, payload }

/-! ## Connecting -/

/-- `AgentClient::connect` with the frame the agent answers: the announced capabilities. -/
def connect (token : String) (response : Protocol.Frame) : Sending (List String) := do
  let hello : ClientHello := { version := agentProtocolVersion, token }
  sendEncoded .hello hello.encode
  match response.kind with
  | .helloOk => do
    let hello ← Traced.ofExcept ((ServerHello.decode response.payload).mapError .protocol)
    if hello.version ≠ agentProtocolVersion then
      Traced.fail (.text s!"agent negotiated unsupported protocol {hello.version}")
    else pure hello.capabilities
  | .error => Traced.fail (.refused response.payload)
  | kind => Traced.fail (.unexpected kind)

/-- `has_capability`. -/
def hasCapability (capabilities : List String) (capability : String) : Bool :=
  capabilities.any (· == capability)

/-- `require_capability`. -/
def requireCapability (capabilities : List String) (capability : String) : Sending Unit :=
  if hasCapability capabilities capability then pure ()
  else Traced.fail (.missingCapability s!"guest agent does not support {capability}")

/-! ## The three calls -/

/-- What `TerminalModeGuard::enter` finds: an error of `stty`, no terminal, or a terminal with the
    dimensions that `stty size` prints. -/
abbrev TerminalMode := Except ClientError (Option (Option (UInt16 × UInt16)))

/-- `terminal_size`: dimensions that `TerminalSize::new` refuses count as none. -/
def terminalSize (dimensions : Option (UInt16 × UInt16)) : Option TerminalSize :=
  dimensions.bind fun (rows, columns) => (TerminalSize.new rows columns).toOption

/-- The `PROCESS_ENVIRONMENT` of a controlled session, when there are variables. -/
def sendEnvironment (unicode : UnicodeTables) (capabilities : List String)
    (environment : ProcessEnvironment) : Sending Unit :=
  if ¬ environment.isEmpty then do
    requireCapability capabilities "process-environment-v1"
    sendEncoded .processEnvironment (environment.encode unicode)
  else pure ()

/-- The optional `SESSION_LEASE`. -/
def sendLease : Option SessionLease → Sending Unit
  | some lease => sendFrame { kind := .sessionLease, payload := lease.encode }
  | none => pure ()

/-- What precedes the request of an attached session. -/
def sendPreamble (unicode : UnicodeTables) (capabilities : List String)
    (lease : Option SessionLease) (environment : ProcessEnvironment) : Sending Unit :=
  if hasCapability capabilities "session-control-v1" then do
    let options : SessionOptions := { cancelOnDisconnect := true }
    sendFrame { kind := .sessionOptions, payload := options.encode }
    sendLease lease
    sendEnvironment unicode capabilities environment
  else if ¬ environment.isEmpty then
    Traced.fail (.missingCapability "guest agent does not support process environment injection")
  else pure ()

/-- The terminal of an interactive shell. -/
def enterTerminal (capabilities : List String) (terminalMode : TerminalMode)
    (request : StartRequest) (connectStdin : Bool) :
    Sending (Option (Option (UInt16 × UInt16))) :=
  if request.kind = .shell ∧ hasCapability capabilities "conpty-v1" ∧ connectStdin then
    Traced.ofExcept terminalMode
  else pure none

/-- The start request, in a terminal if there is one. -/
def sendStart (terminal : Option (Option (UInt16 × UInt16))) (request : StartRequest) :
    Sending Unit :=
  match terminal with
  | some dimensions =>
    let start : TerminalStartRequest :=
      { size := (terminalSize dimensions).getD .default, request }
    sendEncoded .terminalStart start.encode
  | none => sendEncoded .start request.encode

/-- `AgentClient::run_with_environment`, up to its request frame; what the bridging threads send
    afterwards follows it. -/
def runWithEnvironment (unicode : UnicodeTables) (capabilities : List String)
    (terminalMode : TerminalMode) (connectStdin : Bool) (request : StartRequest)
    (environment : ProcessEnvironment) : Sending Unit := do
  let controlledSession := hasCapability capabilities "session-control-v1"
  let sessionLease :=
    if controlledSession && hasCapability capabilities "session-lease-v1" then
      some SessionLease.standard
    else none
  let terminal ← enterTerminal capabilities terminalMode request connectStdin
  sendPreamble unicode capabilities sessionLease environment
  sendStart terminal request

/-- `AgentClient::run_detached`, up to its request frame. -/
def runDetached (unicode : UnicodeTables) (capabilities : List String) (request : StartRequest)
    (environment : ProcessEnvironment) : Sending Unit :=
  if request.kind ≠ .run then
    Traced.fail (.text "detached mode requires a run request")
  else do
    requireCapability capabilities "session-control-v1"
    requireCapability capabilities "detached-run-v1"
    let options : SessionOptions := { cancelOnDisconnect := false }
    sendFrame { kind := .sessionOptions, payload := options.encode }
    sendEnvironment unicode capabilities environment
    sendFrame { kind := .sessionDetach, payload := [] }
    sendEncoded .start request.encode

/-- The input of a captured session. -/
def sendStdin (input : Bytes) : Sending Unit :=
  if input ≠ [] then sendFrame { kind := .stdin, payload := input } else pure ()

/-- The end of the input: a frame in a controlled session, else a shutdown of the socket. -/
def closeStdin (capabilities : List String) : Sending Unit :=
  if hasCapability capabilities "session-control-v1" then
    sendFrame { kind := .stdinClose, payload := [] }
  else pure ()

/-- `AgentClient::run_capture_with_environment`, up to the reading of its output. -/
def runCaptureWithEnvironment (unicode : UnicodeTables) (capabilities : List String)
    (request : StartRequest) (input : Bytes) (environment : ProcessEnvironment) :
    Sending Unit :=
  if request.kind = .shell then
    Traced.fail (.text "captured sessions cannot be interactive shells")
  else do
    sendPreamble unicode capabilities none environment
    sendEncoded .start request.encode
    sendStdin input
    closeStdin capabilities

/-- The calls that start a process, with the arguments in which they differ. -/
inductive ProcessCall where
  | runWithEnvironment (terminalMode : TerminalMode) (connectStdin : Bool)
  | runDetached
  | runCaptureWithEnvironment (input : Bytes)

/-- One of the calls on a connected client. -/
def ProcessCall.perform (unicode : UnicodeTables) (call : ProcessCall) (request : StartRequest)
    (environment : ProcessEnvironment) (capabilities : List String) : Sending Unit :=
  match call with
  | .runWithEnvironment terminalMode connectStdin =>
    Host.runWithEnvironment unicode capabilities terminalMode connectStdin request environment
  | .runDetached => Host.runDetached unicode capabilities request environment
  | .runCaptureWithEnvironment input =>
    Host.runCaptureWithEnvironment unicode capabilities request input environment

/-- Whether the caller asked for a detached process. -/
def ProcessCall.detached : ProcessCall → Bool
  | .runDetached => true
  | .runWithEnvironment .. | .runCaptureWithEnvironment .. => false

/-- A whole client session: the connection and one call. -/
def session (unicode : UnicodeTables) (token : String) (response : Protocol.Frame) (call : ProcessCall)
    (request : StartRequest) (environment : ProcessEnvironment) : Sending Unit := do
  let capabilities ← connect token response
  call.perform unicode request environment capabilities

/-! ## What each part writes -/

open Traced Lsw.Agent

theorem yields_sendFrame {frame : Protocol.Frame} {room room' : Nat} {u : Unit} {events : List Protocol.Frame} :
    Yields (Host.sendFrame frame) room u room' events ↔
      frame.Fits ∧ room = room' + 1 ∧ events = [frame] := by
  unfold Host.sendFrame Yields
  cases hwrite : writeFrame [] frame with
  | error e =>
    have hfits : ¬ frame.Fits := fun h => by
      rw [writeFrame_eq_ok.mpr ⟨h, rfl⟩] at hwrite
      cases hwrite
    simp [hfits]
  | ok out =>
    have hfits := (writeFrame_eq_ok.mp hwrite).1
    cases room <;> simp [hfits, eq_comm]

theorem yields_sendEncoded {kind : FrameKind} {payload : Except ProtocolError Bytes}
    {room room' : Nat} {u : Unit} {events : List Protocol.Frame} :
    Yields (sendEncoded kind payload) room u room' events ↔
      ∃ bytes, payload = .ok bytes ∧ Protocol.Frame.Fits ⟨kind, bytes⟩ ∧ room = room' + 1 ∧
        events = [⟨kind, bytes⟩] := by
  simp only [sendEncoded, yields_bind, yields_ofExcept, mapError_eq_ok, yields_sendFrame]
  constructor
  · rintro ⟨bytes, _, _, _, ⟨hpayload, rfl, rfl⟩, ⟨hfits, hroom, rfl⟩, rfl⟩
    exact ⟨bytes, hpayload, hfits, hroom, rfl⟩
  · rintro ⟨bytes, hpayload, hfits, hroom, rfl⟩
    exact ⟨bytes, _, _, _, ⟨hpayload, rfl, rfl⟩, ⟨hfits, hroom, rfl⟩, rfl⟩

/-- A frame is written whole or not at all. -/
theorem sendEncoded_events {kind : FrameKind} {payload : Except ProtocolError Bytes} {room : Nat}
    {frame : Protocol.Frame} (h : frame ∈ (sendEncoded kind payload room).events) :
    ∃ bytes, payload = .ok bytes ∧ (sendEncoded kind payload room).events = [⟨kind, bytes⟩] := by
  cases payload with
  | error e =>
    have hnone : (sendEncoded kind (.error e) room).events = [] := rfl
    rw [hnone] at h
    cases h
  | ok bytes =>
    refine ⟨bytes, rfl, ?_⟩
    have heq : (sendEncoded kind (.ok bytes) room).events =
        (Host.sendFrame ⟨kind, bytes⟩ room).events := rfl
    rw [heq] at h ⊢
    unfold Host.sendFrame at h ⊢
    split at h <;> simp_all

theorem yields_requireCapability {capabilities : List String} {capability : String}
    {room room' : Nat} {u : Unit} {events : List Protocol.Frame}
    (h : Yields (requireCapability capabilities capability) room u room' events) : events = [] := by
  unfold requireCapability at h
  split at h
  · exact (yields_pure.mp h).2.2
  · exact absurd (yields_fail.mp h) id

/-- The variables are written in at most one frame, which decodes to them. -/
theorem yields_sendEnvironment {unicode : UnicodeTables} {capabilities : List String}
    {environment : ProcessEnvironment} {room room' : Nat} {u : Unit} {events : List Protocol.Frame}
    (h : Yields (sendEnvironment unicode capabilities environment) room u room' events) :
    AtMostOne .processEnvironment
      (fun payload environment => ProcessEnvironment.decode unicode payload = .ok environment)
      ProcessEnvironment.default events environment := by
  obtain ⟨vars⟩ := environment
  rw [sendEnvironment, yields_ite] at h
  rcases h with ⟨-, h⟩ | ⟨hempty, h⟩
  · obtain ⟨_, _, first, second, hfirst, hsecond, rfl⟩ := yields_bind.mp h
    obtain ⟨bytes, hencode, -, -, rfl⟩ := yields_sendEncoded.mp hsecond
    rw [yields_requireCapability hfirst]
    exact .one bytes _ (ProcessEnvironment.decode_eq_ok.mpr hencode)
  · obtain rfl : vars = [] := by
      simpa [ProcessEnvironment.isEmpty] using hempty
    obtain ⟨-, -, rfl⟩ := yields_pure.mp h
    exact .none

theorem yields_sendLease {lease : Option SessionLease} {room room' : Nat} {u : Unit}
    {events : List Protocol.Frame} (h : Yields (sendLease lease) room u room' events) :
    AtMostOne .sessionLease
      (fun payload lease => ∃ found, SessionLease.decode payload = .ok found ∧ lease = some found)
      none events lease := by
  cases lease with
  | none =>
    obtain ⟨-, -, rfl⟩ := yields_pure.mp h
    exact .none
  | some lease =>
    obtain ⟨-, -, rfl⟩ := yields_sendFrame.mp h
    exact .one _ _ ⟨lease, lease.decode_encode, rfl⟩

/-- An attached session opens with its options, or has neither options nor variables. -/
theorem yields_sendPreamble {unicode : UnicodeTables} {capabilities : List String}
    {lease : Option SessionLease} {environment : ProcessEnvironment} {room room' : Nat} {u : Unit}
    {events : List Protocol.Frame}
    (h : Yields (sendPreamble unicode capabilities lease environment) room u room' events) :
    (events = [] ∧ environment.vars = []) ∨
      ∃ options, Opens unicode events options lease environment false := by
  simp only [sendPreamble, yields_ite, yields_bind, yields_fail, yields_pure, and_false,
    false_or] at h
  rcases h with ⟨-, _, _, _, _, hoptions, ⟨_, _, leases, environments, hlease, henvironment, rfl⟩,
    rfl⟩ | ⟨-, hempty, -, -, rfl⟩
  · obtain ⟨-, -, rfl⟩ := yields_sendFrame.mp hoptions
    exact .inr ⟨⟨true⟩, _, leases, environments, [], by simp, SessionOptions.decode_encode _,
      yields_sendLease hlease, yields_sendEnvironment henvironment, .none⟩
  · exact .inl ⟨rfl, by simpa [ProcessEnvironment.isEmpty] using hempty⟩

/-! ## Frames that carry a request -/

/-- The frames behind the Hello that ask for `request` in `environment`, with anything after the
    request itself. -/
inductive Carries (unicode : UnicodeTables) (request : StartRequest)
    (environment : ProcessEnvironment) (detached : Bool) : List Protocol.Frame → Prop where
  | start (payload : Bytes) (after : List Protocol.Frame) (hempty : environment.vars = [])
      (hattached : detached = false) (hpayload : StartRequest.decode payload = .ok request) :
      Carries unicode request environment detached (⟨.start, payload⟩ :: after)
  | terminalStart (payload : Bytes) (size : TerminalSize) (after : List Protocol.Frame)
      (hempty : environment.vars = []) (hattached : detached = false)
      (hpayload : TerminalStartRequest.decode payload = .ok ⟨size, request⟩) :
      Carries unicode request environment detached (⟨.terminalStart, payload⟩ :: after)
  | controlledStart (preamble : List Protocol.Frame) (payload : Bytes) (after : List Protocol.Frame)
      {options : SessionOptions} {lease : Option SessionLease}
      (hopens : Opens unicode preamble options lease environment detached)
      (hpayload : StartRequest.decode payload = .ok request) :
      Carries unicode request environment detached (preamble ++ ⟨.start, payload⟩ :: after)
  | controlledTerminalStart (preamble : List Protocol.Frame) (payload : Bytes) (size : TerminalSize)
      (after : List Protocol.Frame) {options : SessionOptions} {lease : Option SessionLease}
      (hopens : Opens unicode preamble options lease environment false)
      (hempty : environment.vars = []) (hattached : detached = false)
      (hpayload : TerminalStartRequest.decode payload = .ok ⟨size, request⟩) :
      Carries unicode request environment detached
        (preamble ++ ⟨.terminalStart, payload⟩ :: after)

/-- The handler is called for `request` with the environment and the mode that were asked for. -/
def Receives (handler : Handler) (request : StartRequest) (environment : ProcessEnvironment)
    (detached : Bool) : Prop :=
  match handler with
  | .runProcessRequest payload _ received mode =>
    StartRequest.decode payload = .ok request ∧ received = environment ∧ mode = detached
  | .runTerminalRequest payload _ =>
    (∃ size, TerminalStartRequest.decode payload = .ok ⟨size, request⟩) ∧
      environment.vars = [] ∧ detached = false
  | _ => False

theorem eq_default_of_vars {environment : ProcessEnvironment} (h : environment.vars = []) :
    environment = .default := by
  obtain ⟨vars⟩ := environment
  simp only at h
  rw [h]
  rfl

/-- Frames that carry a request are accepted, whatever is sent later. -/
theorem Carries.accepts {unicode : UnicodeTables} {request : StartRequest}
    {environment : ProcessEnvironment} {detached : Bool} {frames : List Protocol.Frame}
    (h : Carries unicode request environment detached frames) {token : String} {hello : Protocol.Frame}
    (hhello : Authentic token hello) (later : List Protocol.Frame) :
    ∃ handler, Accepts unicode token (hello :: (frames ++ later)) handler ∧
      Receives handler request environment detached := by
  cases h with
  | start payload after hempty hattached hpayload =>
    refine ⟨_, .request hello _ (after ++ later) _ hhello (.start payload), ?_⟩
    exact ⟨hpayload, (eq_default_of_vars hempty).symm, hattached.symm⟩
  | terminalStart payload size after hempty hattached hpayload =>
    refine ⟨_, .request hello _ (after ++ later) _ hhello (.terminalStart payload), ?_⟩
    exact ⟨⟨size, hpayload⟩, hempty, hattached⟩
  | controlledStart preamble payload after hopens hpayload =>
    rw [List.append_assoc, List.cons_append]
    refine ⟨_, .process hello preamble (after ++ later) payload hhello hopens, ?_⟩
    exact ⟨hpayload, rfl, rfl⟩
  | controlledTerminalStart preamble payload size after hopens hempty hattached hpayload =>
    rw [List.append_assoc, List.cons_append]
    refine ⟨_, .terminal hello preamble (after ++ later) payload hhello hopens hempty, ?_⟩
    exact ⟨⟨size, hpayload⟩, hempty, hattached⟩

/-! ## The calls carry their request -/

/-- The frames that start a process. -/
def IsStart (frame : Protocol.Frame) : Prop := frame.kind = .start ∨ frame.kind = .terminalStart

/-- A part of a call all of whose frames meet `G`. -/
def Writes {α : Type} (G : Protocol.Frame → Prop) (x : Sending α) : Prop :=
  Sat (fun _ => True) G (fun _ => True) x (fun _ _ => True) fun _ => True

/-- A part of a call that writes no start frame. -/
def Quiet {α : Type} (x : Sending α) : Prop :=
  Writes (fun frame => frame.Fits ∧ ¬ IsStart frame) x

section Quiet

variable {α β : Type}

variable {G : Protocol.Frame → Prop} {x y : Sending α} {room : Nat}

theorem Writes.bind {f : α → Sending β} (hx : Writes G x) (hf : ∀ a, Writes G (f a)) :
    Writes G (x >>= f) :=
  Sat.bind hx hf

theorem Writes.pure (a : α) : Writes G (Pure.pure a) := Sat.pure fun _ => id

theorem Writes.fail (e : ClientError) : Writes G (Traced.fail e : Sending α) :=
  Sat.fail fun _ => id

theorem Writes.ofExcept (r : Except ClientError α) : Writes G (Traced.ofExcept r) :=
  Sat.ofExcept (fun _ _ _ => id) fun _ => id

theorem Writes.ite {c : Prop} [Decidable c] (hx : Writes G x) (hy : Writes G y) :
    Writes G (if c then x else y) :=
  Sat.ite (fun _ => hx) fun _ => hy

theorem Writes.of_mem (h : Writes G x) {frame : Protocol.Frame} (hframe : frame ∈ (x room).events) :
    G frame :=
  (h room trivial fun _ _ => trivial).1 frame hframe

theorem Quiet.not_mem (h : Quiet x) {frame : Protocol.Frame} (hframe : frame ∈ (x room).events) :
    ¬ IsStart frame :=
  (Writes.of_mem h hframe).2

theorem Quiet.fits (h : Quiet x) : Writes Protocol.Frame.Fits x := by
  intro s _ _
  obtain ⟨hframes, hresult⟩ := h s trivial fun _ _ => trivial
  exact ⟨fun frame hframe => (hframes frame hframe).1, hresult⟩

/-- Only frames within the limit are written. -/
theorem writes_sendFrame {frame : Protocol.Frame} (h : frame.Fits → G frame) :
    Writes G (Host.sendFrame frame) := by
  intro room _ hassumed
  clear hassumed
  unfold Host.sendFrame
  split
  · simp
  · simp
  · next hwrite => simp [h (writeFrame_eq_ok.mp hwrite).1]

theorem writes_sendEncoded {kind : FrameKind} {payload : Except ProtocolError Bytes}
    (h : ∀ bytes, Protocol.Frame.Fits ⟨kind, bytes⟩ → G ⟨kind, bytes⟩) :
    Writes G (sendEncoded kind payload) :=
  .bind (.ofExcept _) fun bytes => writes_sendFrame (h bytes)

theorem quiet_sendFrame {frame : Protocol.Frame} (h : ¬ IsStart frame) : Quiet (Host.sendFrame frame) :=
  writes_sendFrame fun hfits => ⟨hfits, h⟩

theorem quiet_sendEncoded {kind : FrameKind} {payload : Except ProtocolError Bytes}
    (h : kind ≠ .start ∧ kind ≠ .terminalStart) : Quiet (sendEncoded kind payload) :=
  writes_sendEncoded fun _ hfits => ⟨hfits, by simp [IsStart, h]⟩

theorem quiet_requireCapability {capabilities : List String} {capability : String} :
    Quiet (requireCapability capabilities capability) :=
  Writes.ite (.pure _) (.fail _)

theorem quiet_sendEnvironment {unicode : UnicodeTables} {capabilities : List String}
    {environment : ProcessEnvironment} :
    Quiet (sendEnvironment unicode capabilities environment) :=
  Writes.ite (.bind quiet_requireCapability fun _ => quiet_sendEncoded (by decide)) (.pure _)

theorem quiet_sendLease {lease : Option SessionLease} : Quiet (sendLease lease) := by
  cases lease with
  | none => exact Writes.pure _
  | some lease => exact quiet_sendFrame (by simp [IsStart])

theorem quiet_sendPreamble {unicode : UnicodeTables} {capabilities : List String}
    {lease : Option SessionLease} {environment : ProcessEnvironment} :
    Quiet (sendPreamble unicode capabilities lease environment) := by
  refine Writes.ite (.bind (quiet_sendFrame (by simp [IsStart])) fun _ => ?_)
    (.ite (.fail _) (.pure _))
  exact Writes.bind quiet_sendLease fun _ => quiet_sendEnvironment

/-- If a start frame is written behind a quiet part, that part returned before. -/
theorem Quiet.of_start {f : α → Sending β} (hx : Quiet x)
    (h : ∃ frame ∈ ((x >>= f) room).events, IsStart frame) :
    ∃ a room' first, Yields x room a room' first ∧
      ((x >>= f) room).events = first ++ (f a room').events ∧
      ∃ frame ∈ (f a room').events, IsStart frame := by
  obtain ⟨frame, hframe, hstart⟩ := h
  rcases events_bind room with heq | ⟨a, hyields, heq⟩
  · rw [heq] at hframe
    exact absurd hstart (hx.not_mem hframe)
  · refine ⟨a, _, _, hyields, heq, frame, ?_, hstart⟩
    rw [heq, List.mem_append] at hframe
    exact hframe.resolve_left fun hfirst => hx.not_mem hfirst hstart

end Quiet

/-- The request of a process is read back by the agent. -/
theorem sendEncoded_start {request : StartRequest} (hargv : request.argv ≠ []) {room : Nat}
    (h : ∃ frame ∈ (sendEncoded .start request.encode room).events, IsStart frame) :
    ∃ payload, (sendEncoded .start request.encode room).events = [⟨.start, payload⟩] ∧
      StartRequest.decode payload = .ok request := by
  obtain ⟨frame, hframe, -⟩ := h
  obtain ⟨payload, hencode, hevents⟩ := sendEncoded_events hframe
  exact ⟨payload, hevents, StartRequest.decode_eq_ok.mpr ⟨hargv, hencode⟩⟩

theorem built_terminalSize (dimensions : Option (UInt16 × UInt16)) :
    ((terminalSize dimensions).getD .default).Built := by
  cases dimensions with
  | none => exact TerminalSize.built_default
  | some dimensions =>
    obtain ⟨rows, columns⟩ := dimensions
    cases hnew : TerminalSize.new rows columns with
    | ok size =>
      simp only [terminalSize, Option.bind_some, hnew]
      exact (TerminalSize.new_eq_ok.mp hnew).1
    | error e =>
      simp only [terminalSize, Option.bind_some, hnew]
      exact TerminalSize.built_default

/-- Only a shell enters a terminal. -/
theorem yields_enterTerminal {capabilities : List String} {terminalMode : TerminalMode}
    {request : StartRequest} {connectStdin : Bool} {room room' : Nat}
    {terminal : Option (Option (UInt16 × UInt16))} {events : List Protocol.Frame}
    (h : Yields (enterTerminal capabilities terminalMode request connectStdin) room terminal room'
      events) : events = [] ∧ (terminal ≠ none → request.kind = .shell) := by
  rw [enterTerminal, yields_ite] at h
  rcases h with ⟨⟨hshell, -⟩, h⟩ | ⟨-, h⟩
  · exact ⟨(yields_ofExcept.mp h).2.2, fun _ => hshell⟩
  · obtain ⟨rfl, -, rfl⟩ := yields_pure.mp h
    exact ⟨rfl, fun hnone => absurd rfl hnone⟩

section Calls

variable {unicode : UnicodeTables} {capabilities : List String} {request : StartRequest}
  {environment : ProcessEnvironment} {room : Nat}

/-- A run that is started carries its request and environment. -/
theorem runWithEnvironment_carries {terminalMode : TerminalMode} {connectStdin : Bool}
    (hargv : request.argv ≠ []) (hshell : request.kind = .shell → environment.vars = [])
    (h : ∃ frame ∈ (runWithEnvironment unicode capabilities terminalMode connectStdin request
      environment room).events, IsStart frame) :
    Carries unicode request environment false (runWithEnvironment unicode capabilities
      terminalMode connectStdin request environment room).events := by
  -- Before the start only the preamble is sent.
  have hquiet : Quiet (enterTerminal capabilities terminalMode request connectStdin) :=
    Writes.ite (.ofExcept _) (.pure _)
  obtain ⟨terminal, _, first, hterminal, hevents, h⟩ := hquiet.of_start h
  obtain ⟨_, _, preamble, hpreamble, hevents', h⟩ := quiet_sendPreamble.of_start h
  obtain ⟨rfl, hkind⟩ := yields_enterTerminal hterminal
  rw [runWithEnvironment, hevents, List.nil_append, hevents']
  cases terminal with
  -- Without a terminal: a plain start.
  | none =>
    obtain ⟨payload, hstart, hpayload⟩ := sendEncoded_start hargv h
    rw [sendStart, hstart]
    rcases yields_sendPreamble hpreamble with ⟨rfl, hempty⟩ | ⟨options, hopens⟩
    · exact .start payload [] hempty rfl hpayload
    · exact .controlledStart preamble payload [] hopens hpayload
  -- With one: the size goes along, and a shell has no environment.
  | some dimensions =>
    have hempty := hshell (hkind (by simp))
    obtain ⟨frame, hframe, -⟩ := h
    obtain ⟨payload, hencode, hstart⟩ := sendEncoded_events hframe
    have hpayload := TerminalStartRequest.decode_eq_ok.mpr
      ⟨built_terminalSize dimensions, hargv, hencode⟩
    rw [sendStart, hstart]
    rcases yields_sendPreamble hpreamble with ⟨rfl, -⟩ | ⟨options, hopens⟩
    · exact .terminalStart payload _ [] hempty rfl hpayload
    · exact .controlledTerminalStart preamble payload _ [] hopens hempty rfl hpayload

/-- So does a detached one. -/
theorem runDetached_carries (hargv : request.argv ≠ [])
    (h : ∃ frame ∈ (runDetached unicode capabilities request environment room).events,
      IsStart frame) :
    Carries unicode request environment true
      (runDetached unicode capabilities request environment room).events := by
  unfold runDetached at h ⊢
  split at h
  · obtain ⟨frame, hframe, -⟩ := h
    cases hframe
  · next hrun =>
    rw [if_neg hrun]
    -- Five quiet parts come before the request; all of them returned.
    obtain ⟨_, _, control, hcontrol, hevents₁, h⟩ := quiet_requireCapability.of_start h
    obtain ⟨_, _, detachable, hdetachable, hevents₂, h⟩ := quiet_requireCapability.of_start h
    obtain ⟨_, _, options, hoptions, hevents₃, h⟩ :=
      (quiet_sendFrame (by simp [IsStart])).of_start h
    obtain ⟨_, _, environments, henvironments, hevents₄, h⟩ := quiet_sendEnvironment.of_start h
    obtain ⟨_, _, detach, hdetach, hevents₅, h⟩ :=
      (quiet_sendFrame (by simp [IsStart])).of_start h
    obtain ⟨payload, hstart, hpayload⟩ := sendEncoded_start hargv h
    obtain rfl := yields_requireCapability hcontrol
    obtain rfl := yields_requireCapability hdetachable
    obtain ⟨-, -, rfl⟩ := yields_sendFrame.mp hoptions
    obtain ⟨-, -, rfl⟩ := yields_sendFrame.mp hdetach
    have hopens : Opens unicode (⟨.sessionOptions, SessionOptions.encode ⟨false⟩⟩ ::
        ([] ++ environments ++ [⟨.sessionDetach, []⟩])) ⟨false⟩ none environment true :=
      ⟨_, [], environments, _, rfl, SessionOptions.decode_encode _, .none,
        yields_sendEnvironment henvironments, .one [] true ⟨rfl, rfl⟩⟩
    rw [hevents₁, hevents₂, hevents₃, hevents₄, hevents₅, hstart]
    simpa using Carries.controlledStart _ payload [] hopens hpayload

/-- So does one that is captured. -/
theorem runCaptureWithEnvironment_carries {input : Bytes} (hargv : request.argv ≠ [])
    (h : ∃ frame ∈ (runCaptureWithEnvironment unicode capabilities request input environment
      room).events, IsStart frame) :
    Carries unicode request environment false
      (runCaptureWithEnvironment unicode capabilities request input environment room).events := by
  unfold runCaptureWithEnvironment at h ⊢
  split at h
  · obtain ⟨frame, hframe, -⟩ := h
    cases hframe
  · next hshell =>
    rw [if_neg hshell]
    obtain ⟨_, room', preamble, hpreamble, hevents, h⟩ := quiet_sendPreamble.of_start h
    -- The request is the first frame behind the preamble; its input may follow.
    obtain ⟨payload, after, hstart, hpayload⟩ : ∃ payload after,
        ((sendEncoded .start request.encode >>= fun _ => sendStdin input >>= fun _ =>
          closeStdin capabilities) room').events = ⟨.start, payload⟩ :: after ∧
        StartRequest.decode payload = .ok request := by
      rcases events_bind room' with heq | ⟨_, hyields, heq⟩
      · rw [heq] at h ⊢
        obtain ⟨payload, hstart, hpayload⟩ := sendEncoded_start hargv h
        exact ⟨payload, [], hstart, hpayload⟩
      · obtain ⟨payload, hencode, -, -, hstart⟩ := yields_sendEncoded.mp hyields
        rw [heq, hstart]
        exact ⟨payload, _, rfl, StartRequest.decode_eq_ok.mpr ⟨hargv, hencode⟩⟩
    rw [hevents, hstart]
    rcases yields_sendPreamble hpreamble with ⟨rfl, hempty⟩ | ⟨options, hopens⟩
    · exact .start payload after hempty rfl hpayload
    · exact .controlledStart preamble payload after hopens hpayload

/-! ## Missing capabilities -/

/-- A part of a call that never fails for a missing capability. -/
def NeverMissing {α : Type} (x : Sending α) : Prop :=
  ∀ room reason, (x room).result ≠ .error (.missingCapability reason)

theorem NeverMissing.bind {α β : Type} {x : Sending α} {f : α → Sending β} (hx : NeverMissing x)
    (hf : ∀ a, NeverMissing (f a)) : NeverMissing (x >>= f) := by
  intro room reason
  have hfirst := hx room reason
  simp only [Bind.bind]
  cases hresult : (x room).result with
  | error e =>
    rw [hresult] at hfirst
    simpa using hfirst
  | ok a => exact hf a _ reason

theorem neverMissing_sendFrame (frame : Protocol.Frame) : NeverMissing (Host.sendFrame frame) := by
  intro room reason
  unfold Host.sendFrame
  split <;> simp

theorem neverMissing_sendEncoded (kind : FrameKind) (payload : Except ProtocolError Bytes) :
    NeverMissing (sendEncoded kind payload) := by
  refine .bind ?_ fun bytes => neverMissing_sendFrame _
  intro room reason
  cases payload <;> simp [Except.mapError, Traced.ofExcept, Traced.fail, Pure.pure]

theorem neverMissing_sendStart (terminal : Option (Option (UInt16 × UInt16)))
    (request : StartRequest) : NeverMissing (sendStart terminal request) := by
  cases terminal with
  | none => exact neverMissing_sendEncoded _ _
  | some dimensions => exact neverMissing_sendEncoded _ _

theorem NeverMissing.ite_pure {c : Prop} [Decidable c] {x : Sending Unit} (hx : NeverMissing x) :
    NeverMissing (if c then x else Pure.pure ()) := by
  split
  · exact hx
  · intro room reason
    simp [Pure.pure]

/-- A part of a call that has written no start frame when it fails for a missing capability. -/
def RefusesBefore {α : Type} (x : Sending α) : Prop :=
  ∀ room reason, (x room).result = .error (.missingCapability reason) →
    ∀ frame ∈ (x room).events, ¬ IsStart frame

theorem RefusesBefore.of_never {α : Type} {x : Sending α} (h : NeverMissing x) : RefusesBefore x :=
  fun room reason hresult => absurd hresult (h room reason)

theorem RefusesBefore.of_quiet {α : Type} {x : Sending α} (h : Quiet x) : RefusesBefore x :=
  fun _ _ _ _ hframe => h.not_mem hframe

theorem RefusesBefore.bind {α β : Type} {x : Sending α} {f : α → Sending β} (hx : Quiet x)
    (hf : ∀ a, RefusesBefore (f a)) : RefusesBefore (x >>= f) := by
  intro room reason hresult frame hframe
  simp only [Bind.bind] at hresult hframe
  cases hfirst : (x room).result with
  | error e =>
    rw [hfirst] at hframe
    exact hx.not_mem hframe
  | ok a =>
    rw [hfirst] at hresult hframe
    rcases List.mem_append.mp hframe with hbefore | hafter
    · exact hx.not_mem hbefore
    · exact hf a _ reason hresult frame hafter

/-- A missing capability is found out before anything is started. -/
theorem perform_refusesBefore (call : ProcessCall) :
    RefusesBefore (call.perform unicode request environment capabilities) := by
  -- In each call every capability is asked for before the start is sent.
  cases call with
  | runWithEnvironment terminalMode connectStdin =>
    refine .bind (Writes.ite (.ofExcept _) (.pure _)) fun terminal => ?_
    exact .bind quiet_sendPreamble fun _ => .of_never (neverMissing_sendStart _ _)
  | runDetached =>
    simp only [ProcessCall.perform, runDetached]
    split
    · exact .of_quiet (Writes.fail _)
    · refine .bind quiet_requireCapability fun _ => .bind quiet_requireCapability fun _ => ?_
      refine .bind (quiet_sendFrame (by simp [IsStart])) fun _ => ?_
      refine .bind quiet_sendEnvironment fun _ => ?_
      refine .bind (quiet_sendFrame (by simp [IsStart])) fun _ => ?_
      exact .of_never (neverMissing_sendEncoded _ _)
  | runCaptureWithEnvironment input =>
    simp only [ProcessCall.perform, runCaptureWithEnvironment]
    split
    · exact .of_quiet (Writes.fail _)
    · refine .bind quiet_sendPreamble fun _ => .of_never ?_
      refine .bind (neverMissing_sendEncoded _ _) fun _ => ?_
      exact .bind (.ite_pure (neverMissing_sendFrame _)) fun _ =>
        .ite_pure (neverMissing_sendFrame _)

/-- Every frame that is written fits. -/
theorem perform_fits (call : ProcessCall) :
    Writes Protocol.Frame.Fits (call.perform unicode request environment capabilities) := by
  have hencoded : ∀ kind payload, Writes Protocol.Frame.Fits (sendEncoded kind payload) :=
    fun _ _ => writes_sendEncoded fun _ => id
  have hframe : ∀ frame, Writes Protocol.Frame.Fits (Host.sendFrame frame) := fun _ => writes_sendFrame id
  cases call with
  | runWithEnvironment terminalMode connectStdin =>
    refine .bind (.ite (.ofExcept _) (.pure _)) fun terminal => ?_
    refine .bind quiet_sendPreamble.fits fun _ => ?_
    cases terminal <;> exact hencoded _ _
  | runDetached =>
    refine .ite (.fail _) (.bind quiet_requireCapability.fits fun _ => ?_)
    refine .bind quiet_requireCapability.fits fun _ => .bind (hframe _) fun _ => ?_
    exact .bind quiet_sendEnvironment.fits fun _ => .bind (hframe _) fun _ => hencoded _ _
  | runCaptureWithEnvironment input =>
    refine .ite (.fail _) (.bind quiet_sendPreamble.fits fun _ => .bind (hencoded _ _) fun _ => ?_)
    exact .bind (.ite (hframe _) (.pure _)) fun _ => .ite (hframe _) (.pure _)

/-! ## Whole sessions -/

theorem perform_carries (call : ProcessCall) (hargv : request.argv ≠ [])
    (hshell : request.kind = .shell → environment.vars = [])
    (h : ∃ frame ∈ (call.perform unicode request environment capabilities room).events,
      IsStart frame) :
    Carries unicode request environment call.detached
      (call.perform unicode request environment capabilities room).events := by
  cases call with
  | runWithEnvironment terminalMode connectStdin => exact runWithEnvironment_carries hargv hshell h
  | runDetached => exact runDetached_carries hargv h
  | runCaptureWithEnvironment input => exact runCaptureWithEnvironment_carries hargv h

theorem quiet_connect {token : String} {response : Protocol.Frame} : Quiet (connect token response) := by
  refine Writes.bind (quiet_sendEncoded (by decide)) fun _ => ?_
  split
  · exact .bind (.ofExcept _) fun _ => .ite (.fail _) (.pure _)
  · exact .fail _
  · exact .fail _

/-- A client that is connected has sent a Hello the agent accepts. -/
theorem yields_connect {token : String} {response : Protocol.Frame} {room' : Nat} {events : List Protocol.Frame}
    (h : Yields (connect token response) room capabilities room' events) :
    ∃ hello, events = [hello] ∧ Authentic token hello := by
  obtain ⟨_, _, first, second, hfirst, hsecond, rfl⟩ := yields_bind.mp h
  obtain ⟨payload, hencode, -, -, rfl⟩ := yields_sendEncoded.mp hfirst
  have hrest : second = [] := by
    split at hsecond
    · simp only [yields_bind, yields_ofExcept, yields_ite, yields_fail, yields_pure, and_false,
        false_or] at hsecond
      obtain ⟨_, _, _, _, ⟨-, -, rfl⟩, ⟨-, -, -, rfl⟩, rfl⟩ := hsecond
      rfl
    · exact absurd (yields_fail.mp hsecond) id
    · exact absurd (yields_fail.mp hsecond) id
  rw [hrest]
  exact ⟨_, rfl, rfl, ClientHello.decode_eq_ok.mpr hencode⟩

end Calls

/-- Whenever a client session writes its request frame, the agent accepts everything the client
    has written, whatever follows, and its handler receives the request, the environment and the
    mode of the call; and a session that ends for a missing capability has started nothing. -/
theorem client_sessions_are_dispatched (unicode : UnicodeTables) (windows : Bool) (token : String)
    (response : Protocol.Frame) (call : ProcessCall) (request : StartRequest)
    (environment : ProcessEnvironment) (room : Nat) (hargv : request.argv ≠ [])
    (hshell : request.kind = .shell → environment.vars = []) :
    ((∃ frame ∈ (session unicode token response call request environment room).events,
        IsStart frame) →
      ∀ later : List Protocol.Frame, (∀ frame ∈ later, frame.Fits) →
        ∃ inbound handler,
          writeFrames ((session unicode token response call request environment room).events ++
            later) = .ok inbound ∧
          (handleConnection unicode windows token inbound).result = .ok (.handled handler) ∧
          Receives handler request environment call.detached) ∧
    (∀ reason, (session unicode token response call request environment room).result =
        .error (.missingCapability reason) →
      ∀ frame ∈ (session unicode token response call request environment room).events,
        ¬ IsStart frame) := by
  constructor
  -- A session that writes a start frame has connected and performed its call.
  · intro hstart later hlater
    obtain ⟨capabilities, room', first, hconnect, hevents, hstart⟩ := quiet_connect.of_start hstart
    obtain ⟨hello, rfl, hhello⟩ := yields_connect hconnect
    -- What it writes is a sequence of the grammar, whatever comes after.
    have hcarries := perform_carries call hargv hshell hstart
    obtain ⟨handler, haccepts, hreceives⟩ := hcarries.accepts hhello later
    -- Every frame it writes fits, so all of them can be written.
    have hfits : Writes Protocol.Frame.Fits (session unicode token response call request environment) :=
      .bind quiet_connect.fits fun _ => perform_fits call
    have hall : ∀ frame ∈ (session unicode token response call request environment room).events ++
        later, frame.Fits := by
      intro frame hframe
      rcases List.mem_append.mp hframe with hsent | hafter
      · exact hfits.of_mem hsent
      · exact hlater frame hafter
    refine ⟨_, handler, writeFrames_eq_ok.mpr ⟨hall, rfl⟩, ?_, hreceives⟩
    rw [session, hevents] at hall ⊢
    obtain ⟨rest, hresult, -⟩ : ∃ rest, Returns (handleConnection unicode windows token) _
        (.handled handler) rest := (returns_handleConnection hall).mpr haccepts
    exact hresult
  -- What is missing is found out before the start is written.
  · intro reason hmissing
    exact RefusesBefore.bind quiet_connect (fun _ => perform_refusesBefore call) room reason
      hmissing

/-- An agent that announces controlled and detached sessions. -/
def demoResponse : Protocol.Frame :=
  { kind := .helloOk
    payload := u16Bytes agentProtocolVersion ++ (beBytes 2 2 ++
      (stringBytes "session-control-v1" ++ stringBytes "detached-run-v1")) }

/-- `lsw run a`. -/
def demoRequest : StartRequest := { kind := .run, argv := ["a"], workingDirectory := none }

theorem demo_detached_run_is_dispatched :
    (∃ frame ∈ (session asciiTables "t" demoResponse .runDetached demoRequest .default 5).events,
      IsStart frame) ∧
    ∃ inbound handler,
      writeFrames ((session asciiTables "t" demoResponse .runDetached demoRequest .default
        5).events ++ []) = .ok inbound ∧
      (handleConnection asciiTables true "t" inbound).result = .ok (.handled handler) ∧
      Receives handler demoRequest .default true := by
  have hstart : ∃ frame ∈ (session asciiTables "t" demoResponse .runDetached demoRequest .default
      5).events, IsStart frame := by
    have hany : ((session asciiTables "t" demoResponse .runDetached demoRequest .default
        5).events.any fun frame => frame.kind == .start) = true := by decide +kernel
    obtain ⟨frame, hframe, hkind⟩ := List.any_eq_true.mp hany
    exact ⟨frame, hframe, .inl (beq_iff_eq.mp hkind)⟩
  have hcase := client_sessions_are_dispatched asciiTables true "t" demoResponse .runDetached
    demoRequest .default 5 (by simp [demoRequest]) fun _ => rfl
  exact ⟨hstart, hcase.1 hstart [] (by simp)⟩

end Lsw.Host
