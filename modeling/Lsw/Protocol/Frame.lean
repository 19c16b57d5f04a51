import Lsw.Protocol.Codec

/-!
# Frames

A connection between host and guest carries frames: a kind byte, a four-byte big-endian
length and that many payload bytes (`frame.rs`).  `write_frame` and `read_frame` hold the two
tables of kinds and the length limit separately; the results here say that they agree, so that
a byte stream has at most one reading as a sequence of frames.
-/

namespace Lsw.Protocol

open Lsw.Lib

/-! ## Kinds -/

/-- `MAX_FRAME_BYTES`. -/
def maxFrameBytes : Nat := 8 * 1024 * 1024

/-- `FrameKind`. -/
inductive FrameKind where
  | hello
  | helloOk
  | error
  | ping
  | pong
  | start
  | stdin
  | stdout
  | stderr
  | resize
  | exit
  | terminalStart
  | sessionOptions
  | stdinClose
  | sessionCancel
  | filePut
  | fileGet
  | fileData
  | fileDone
  | sessionLease
  | sessionHeartbeat
  | processEnvironment
  | sessionDetach
  | started
  | sessionSignal
  | powerHibernate
  | userCreate
  | maintenanceTrim
  | maintenanceHibernate
  | userSetRole
  | windowsSudoQuery
  | windowsSudoConfigure
  | windowsSudoStatus
  | liveShareQuery
  | liveShareConfigure
  | liveShareStatus
  | maintenanceShutdown
  | desktopCompanionStart
  | guiStart
  | guiIcon
  | guiIconData
  | desktopLiveShareConfigure
  | guiWindowOpen
  | guiWindowReady
  | guiWindowDamage
  | guiWindowInput
  | guiWindowResize
  | guiWindowClose
  | guiWindowClosed
  | guiWindowAction
  | guiWindowDragHint
  deriving DecidableEq, Repr

/-- `kind as u8`: the discriminant. -/
def FrameKind.toByte : FrameKind → UInt8
  | .hello => 1
  | .helloOk => 2
  | .error => 3
  | .ping => 4
  | .pong => 5
  | .start => 10
  | .stdin => 11
  | .stdout => 12
  | .stderr => 13
  | .resize => 14
  | .exit => 15
  | .terminalStart => 16
  | .sessionOptions => 17
  | .stdinClose => 18
  | .sessionCancel => 19
  | .filePut => 20
  | .fileGet => 21
  | .fileData => 22
  | .fileDone => 23
  | .sessionLease => 24
  | .sessionHeartbeat => 25
  | .processEnvironment => 26
  | .sessionDetach => 27
  | .started => 28
  | .sessionSignal => 29
  | .powerHibernate => 30
  | .userCreate => 31
  | .maintenanceTrim => 32
  | .maintenanceHibernate => 33
  | .userSetRole => 34
  | .windowsSudoQuery => 35
  | .windowsSudoConfigure => 36
  | .windowsSudoStatus => 37
  | .liveShareQuery => 38
  | .liveShareConfigure => 39
  | .liveShareStatus => 40
  | .maintenanceShutdown => 41
  | .desktopCompanionStart => 42
  | .guiStart => 43
  | .guiIcon => 44
  | .guiIconData => 45
  | .desktopLiveShareConfigure => 46
  | .guiWindowOpen => 47
  | .guiWindowReady => 48
  | .guiWindowDamage => 49
  | .guiWindowInput => 50
  | .guiWindowResize => 51
  | .guiWindowClose => 52
  | .guiWindowClosed => 53
  | .guiWindowAction => 54
  | .guiWindowDragHint => 55

/-- `FrameKind::try_from`. -/
def FrameKind.tryFrom (value : UInt8) : Except ProtocolError FrameKind :=
  match value with
  | 1 => .ok .hello
  | 2 => .ok .helloOk
  | 3 => .ok .error
  | 4 => .ok .ping
  | 5 => .ok .pong
  | 10 => .ok .start
  | 11 => .ok .stdin
  | 12 => .ok .stdout
  | 13 => .ok .stderr
  | 14 => .ok .resize
  | 15 => .ok .exit
  | 16 => .ok .terminalStart
  | 17 => .ok .sessionOptions
  | 18 => .ok .stdinClose
  | 19 => .ok .sessionCancel
  | 20 => .ok .filePut
  | 21 => .ok .fileGet
  | 22 => .ok .fileData
  | 23 => .ok .fileDone
  | 24 => .ok .sessionLease
  | 25 => .ok .sessionHeartbeat
  | 26 => .ok .processEnvironment
  | 27 => .ok .sessionDetach
  | 28 => .ok .started
  | 29 => .ok .sessionSignal
  | 30 => .ok .powerHibernate
  | 31 => .ok .userCreate
  | 32 => .ok .maintenanceTrim
  | 33 => .ok .maintenanceHibernate
  | 34 => .ok .userSetRole
  | 35 => .ok .windowsSudoQuery
  | 36 => .ok .windowsSudoConfigure
  | 37 => .ok .windowsSudoStatus
  | 38 => .ok .liveShareQuery
  | 39 => .ok .liveShareConfigure
  | 40 => .ok .liveShareStatus
  | 41 => .ok .maintenanceShutdown
  | 42 => .ok .desktopCompanionStart
  | 43 => .ok .guiStart
  | 44 => .ok .guiIcon
  | 45 => .ok .guiIconData
  | 46 => .ok .desktopLiveShareConfigure
  | 47 => .ok .guiWindowOpen
  | 48 => .ok .guiWindowReady
  | 49 => .ok .guiWindowDamage
  | 50 => .ok .guiWindowInput
  | 51 => .ok .guiWindowResize
  | 52 => .ok .guiWindowClose
  | 53 => .ok .guiWindowClosed
  | 54 => .ok .guiWindowAction
  | 55 => .ok .guiWindowDragHint
  | _ => .error (.protocol s!"unknown frame kind {value}")

/-! ## Frames -/

/-- `Frame`. -/
structure Frame where
  kind : FrameKind
  payload : Bytes
  deriving DecidableEq, Repr

/-- `write_frame`: what the writer holds afterwards. -/
def writeFrame (writer : Bytes) (frame : Frame) : Except ProtocolError Bytes := do
  let length := frame.payload.length
  rejectIf (length ≥ u32Size) (.protocol s!"frame exceeds the {maxFrameBytes} byte limit")
  rejectIf (length > maxFrameBytes) (.protocol s!"frame exceeds the {maxFrameBytes} byte limit")
  let writer := writer ++ [frame.kind.toByte]
  let writer := writer ++ beBytes 4 length
  return writer ++ frame.payload

/-- `reader.read_exact(&mut [0; length])`. -/
def readExact (length : Nat) : Reader ProtocolError Bytes :=
  takeBytes length (.io .unexpectedEof)

/-- `read_frame`. -/
def readFrame : Reader ProtocolError Frame := do
  let header ← readExact 5
  let kind ← liftM (FrameKind.tryFrom (header.headD 0))
  let length := ofBeBytes header.tail
  liftM (rejectIf (length > maxFrameBytes)
    (ProtocolError.protocol s!"peer frame exceeds the {maxFrameBytes} byte limit"))
  let payload ← readExact length
  return { kind, payload }

/-! ## The two tables of kinds -/

/-- What holds of every byte value holds of every byte. -/
theorem forall_byte {P : UInt8 → Prop} (h : ∀ n : Fin 256, P (UInt8.ofNat n)) (b : UInt8) :
    P b := by
  have hb := h ⟨b.toNat, b.toNat_lt⟩
  rwa [UInt8.ofNat_toNat] at hb

theorem FrameKind.tryFrom_toByte (kind : FrameKind) : tryFrom kind.toByte = .ok kind := by
  cases kind <;> rfl

/-- A byte is read as a kind exactly when it is written for that kind. -/
theorem FrameKind.tryFrom_eq_ok {value : UInt8} {kind : FrameKind} :
    tryFrom value = .ok kind ↔ value = kind.toByte := by
  -- Byte by byte: a kind that is found is the kind of that byte.
  have htable : ∀ value : UInt8, ((tryFrom value).toOption.map toByte).getD value = value := by
    apply forall_byte
    decide +kernel
  constructor
  · intro h
    have hvalue := htable value
    rw [h] at hvalue
    exact hvalue.symm
  · rintro rfl
    exact tryFrom_toByte kind

/-! ## Spelling of a frame -/

/-- The bytes of a frame on the wire. -/
def Frame.wire (frame : Frame) : Bytes :=
  frame.kind.toByte :: (beBytes 4 frame.payload.length ++ frame.payload)

/-- The frames both sides accept. -/
def Frame.Fits (frame : Frame) : Prop := frame.payload.length ≤ maxFrameBytes

instance (frame : Frame) : Decidable frame.Fits :=
  inferInstanceAs (Decidable (_ ≤ maxFrameBytes))

/-- What `write_frame` accepts and appends. -/
theorem writeFrame_eq_ok {writer out : Bytes} {frame : Frame} :
    writeFrame writer frame = .ok out ↔ frame.Fits ∧ out = writer ++ frame.wire := by
  have hmax : maxFrameBytes < u32Size := by decide
  simp only [writeFrame, bind_eq_ok, rejectIf_eq_ok, exists_const, pure_eq_ok_iff, Frame.Fits,
    Frame.wire, List.append_assoc, List.singleton_append]
  constructor
  · rintro ⟨-, hlen, rfl⟩
    exact ⟨by omega, rfl⟩
  · rintro ⟨hlen, rfl⟩
    exact ⟨by omega, by omega, rfl⟩

theorem length_wire (frame : Frame) : frame.wire.length = 5 + frame.payload.length := by
  simp only [Frame.wire, List.length_cons, List.length_append, length_beBytes]
  omega

/-- A frame is spelled by its kind, its length and its payload. -/
theorem spells_frame : Spells readFrame Frame.wire Frame.Fits := by
  intro bytes frame rest
  simp only [readFrame, readExact, run_bind_eq_ok, run_takeBytes_eq_ok, run_lift_eq_ok,
    rejectIf_eq_ok, run_pure_eq_ok, FrameKind.tryFrom_eq_ok]
  constructor
  · rintro ⟨header, _, ⟨hheader, rfl⟩, kind, _, ⟨hkind, rfl⟩, _, _, ⟨hmax, rfl⟩, payload, _,
      ⟨hpayload, rfl⟩, rfl, rfl⟩
    -- The header is its kind byte and the four bytes of the length that was then read.
    obtain ⟨first, length, rfl⟩ : ∃ first length, header = first :: length := by
      cases header with
      | nil => simp at hheader
      | cons first length => exact ⟨first, length, rfl⟩
    have hlength : length.length = 4 := by simpa using hheader
    simp only [List.headD_cons] at hkind
    simp only [List.tail_cons] at hmax hpayload
    have hfits : payload.length ≤ maxFrameBytes := by omega
    refine ⟨hfits, ?_⟩
    simp only [Frame.wire, hkind, hpayload, beBytes_ofBeBytes hlength, List.cons_append,
      List.append_assoc]
  · rintro ⟨hfits, rfl⟩
    have hlt : frame.payload.length < 256 ^ 4 := by
      have : maxFrameBytes < 256 ^ 4 := by decide
      exact lt_of_le_of_lt hfits this
    have hlength := ofBeBytes_beBytes_of_lt hlt
    refine ⟨frame.kind.toByte :: beBytes 4 frame.payload.length, _,
      ⟨by simp, by rw [Frame.wire, List.cons_append, List.append_assoc, List.cons_append]⟩,
      frame.kind, _, ⟨rfl, rfl⟩, (), _, ⟨?_, rfl⟩, frame.payload, rest, ⟨?_, rfl⟩, rfl, rfl⟩
    · rw [List.tail_cons, hlength]
      exact Nat.not_lt.mpr hfits
    · rw [List.tail_cons, hlength]

/-- `read_frame` fails where no frame is spelled. -/
theorem readFrame_fails {bytes : Bytes}
    (h : ∀ (frame : Frame) rest, frame.Fits → bytes ≠ frame.wire ++ rest) :
    ∃ e, readFrame.run bytes = .error e := by
  cases hrun : readFrame.run bytes with
  | error e => exact ⟨e, rfl⟩
  | ok result =>
    obtain ⟨frame, rest⟩ := result
    obtain ⟨hfits, hbytes⟩ := (spells_frame bytes frame rest).mp hrun
    exact absurd hbytes (h frame rest hfits)

/-! ## Streams of frames -/

/-- `write_frame` called for one frame after the other. -/
def writeFrames (frames : List Frame) : Except ProtocolError Bytes :=
  forEach frames writeFrame []

/-- Frames are written when each of them fits. -/
theorem writeFrames_eq_ok {frames : List Frame} {bytes : Bytes} :
    writeFrames frames = .ok bytes ↔
      (∀ frame ∈ frames, frame.Fits) ∧ bytes = frames.flatMap Frame.wire := by
  have hloop : ∀ (frames : List Frame) (writer : Bytes),
      forEach frames writeFrame writer = .ok bytes ↔
        (∀ frame ∈ frames, frame.Fits) ∧ bytes = writer ++ frames.flatMap Frame.wire := by
    intro frames
    induction frames with
    | nil => simp [eq_comm]
    | cons frame frames ih =>
      intro writer
      simp only [forEach_cons, bind_eq_ok, writeFrame_eq_ok, ih, List.mem_cons, forall_eq_or_imp,
        List.flatMap_cons]
      constructor
      · rintro ⟨_, ⟨hframe, rfl⟩, hall, rfl⟩
        exact ⟨⟨hframe, hall⟩, by rw [List.append_assoc]⟩
      · rintro ⟨⟨hframe, hall⟩, rfl⟩
        exact ⟨_, ⟨hframe, rfl⟩, hall, by rw [List.append_assoc]⟩
  simpa [writeFrames] using hloop frames []

/-- `read_frame` called until it fails: the frames read, the failure, and what was unread at the
    call that failed. -/
def readFrames (bytes : Bytes) : List Frame × ProtocolError × Bytes :=
  match _h : readFrame.run bytes with
  | .error e => ([], e, bytes)
  | .ok (frame, rest) =>
    let (frames, e, unread) := readFrames rest
    (frame :: frames, e, unread)
termination_by bytes.length
decreasing_by
  obtain ⟨-, rfl⟩ := (spells_frame bytes frame rest).mp _h
  simp only [List.length_append, length_wire]
  omega

theorem readFrames_of_error {bytes : Bytes} {e : ProtocolError}
    (h : readFrame.run bytes = .error e) : readFrames bytes = ([], e, bytes) := by
  rw [readFrames]
  split
  · next e' h' =>
    rw [h] at h'
    cases h'
    rfl
  · next frame rest h' =>
    rw [h] at h'
    cases h'

theorem readFrames_wire_append {frame : Frame} (hfits : frame.Fits) (rest : Bytes) :
    readFrames (frame.wire ++ rest) =
      (frame :: (readFrames rest).1, (readFrames rest).2) := by
  have hrun := spells_frame.reads hfits rest
  rw [readFrames]
  split
  · next e h' =>
    rw [hrun] at h'
    cases h'
  · next frame' rest' h' =>
    rw [hrun] at h'
    cases h'
    rfl

theorem readFrame_nil : readFrame.run [] = .error (.io .unexpectedEof) := rfl

theorem readFrames_flatMap {frames : List Frame} (hall : ∀ frame ∈ frames, frame.Fits) :
    readFrames (frames.flatMap Frame.wire) = (frames, .io .unexpectedEof, []) := by
  induction frames with
  | nil => exact readFrames_of_error readFrame_nil
  | cons frame frames ih =>
    simp only [List.mem_cons, forall_eq_or_imp] at hall
    rw [List.flatMap_cons, readFrames_wire_append hall.1, ih hall.2]

theorem readFrame_proper_part {frame : Frame} (hfits : frame.Fits) {front back : Bytes}
    (h : frame.wire = front ++ back) (hback : back ≠ []) :
    ∃ e, readFrame.run front = .error e := by
  apply readFrame_fails
  rintro other rest hother rfl
  -- A whole frame in the front is what the encoding is read as, and then nothing is left.
  have hother_read : readFrame.run frame.wire = .ok (other, rest ++ back) := by
    rw [h, List.append_assoc]
    exact spells_frame.reads hother _
  have hframe_read : readFrame.run frame.wire = .ok (frame, []) := (spells_frame.reads hfits).run_eq
  rw [hframe_read] at hother_read
  simp only [Except.ok.injEq, Prod.mk.injEq, List.nil_eq, List.append_eq_nil_iff] at hother_read
  exact hback hother_read.2.2

theorem readFrame_unknown_kind {value : UInt8} (h : ∀ kind : FrameKind, value ≠ kind.toByte)
    (bytes : Bytes) : ∃ e, readFrame.run (value :: bytes) = .error e := by
  apply readFrame_fails
  intro frame rest _ hbytes
  rw [Frame.wire, List.cons_append, List.cons.injEq] at hbytes
  exact h frame.kind hbytes.1

theorem readFrame_long {length : Bytes} (hlength : length.length = 4)
    (h : maxFrameBytes < ofBeBytes length) (value : UInt8) (bytes : Bytes) :
    ∃ e, readFrame.run (value :: (length ++ bytes)) = .error e := by
  apply readFrame_fails
  intro frame rest hfits hbytes
  rw [Frame.wire, List.cons_append, List.append_assoc, List.cons.injEq] at hbytes
  have hword : length = beBytes 4 frame.payload.length :=
    (List.append_inj hbytes.2 (by simp [hlength])).1
  have hlt : frame.payload.length < 256 ^ 4 := by
    have : maxFrameBytes < 256 ^ 4 := by decide
    exact lt_of_le_of_lt hfits this
  rw [hword, ofBeBytes_beBytes_of_lt hlt] at h
  exact absurd hfits (Nat.not_le.mpr h)

/-- Writing frames and reading them back is exact in both directions: a stream of frames is read
    as those frames and then ends, a frame is read exactly where its encoding stands, and a cut
    encoding, an unknown kind or a length above the limit is refused. -/
theorem frames_read_exactly :
    (∀ frames : List Frame, (∀ frame ∈ frames, frame.payload.length ≤ maxFrameBytes) →
      ∃ bytes, writeFrames frames = .ok bytes ∧
        readFrames bytes = (frames, .io .unexpectedEof, [])) ∧
    (∀ (bytes front rest : Bytes) (frame : Frame), bytes = front ++ rest →
      (readFrame.run bytes = .ok (frame, rest) ↔ writeFrame [] frame = .ok front)) ∧
    (∀ (frame : Frame) (front back : Bytes), writeFrame [] frame = .ok (front ++ back) →
      back ≠ [] → ∃ e, readFrame.run front = .error e) ∧
    (∀ (value : UInt8) (bytes : Bytes), (∀ kind : FrameKind, value ≠ kind.toByte) →
      ∃ e, readFrame.run (value :: bytes) = .error e) ∧
    (∀ (value : UInt8) (length bytes : Bytes), length.length = 4 →
      maxFrameBytes < ofBeBytes length →
      ∃ e, readFrame.run (value :: (length ++ bytes)) = .error e) := by
  refine ⟨?stream, ?single, ?cut, ?unknown, ?long⟩
  case stream =>
    intro frames hall
    exact ⟨_, writeFrames_eq_ok.mpr ⟨hall, rfl⟩, readFrames_flatMap hall⟩
  case single =>
    rintro _ front rest frame rfl
    rw [spells_frame, writeFrame_eq_ok, List.nil_append, List.append_cancel_right_eq]
  case cut =>
    intro frame front back hwrite hback
    obtain ⟨hfits, hout⟩ := writeFrame_eq_ok.mp hwrite
    exact readFrame_proper_part hfits hout.symm hback
  case unknown =>
    intro value bytes h
    exact readFrame_unknown_kind h bytes
  case long =>
    intro value length bytes hlength h
    exact readFrame_long hlength h value bytes

end Lsw.Protocol
