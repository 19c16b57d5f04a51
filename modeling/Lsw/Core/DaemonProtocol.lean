import Lsw.Core.Qemu
import Lsw.Lib.Wire

/-!
# Lines between Clients and the Daemon

A client of the daemon sends one JSON object on a line and gets one back (`daemon_protocol.rs`).
`write_bounded_line` counts the newline and `read_bounded_line` reads one byte more than the limit to
see a line that is too long; `LinesExactly` says that both draw the limit at the same byte, and that a
reader takes one line and nothing of what follows.

JSON itself is `serde_json`'s, so it is a parameter.
-/

namespace Lsw.Core

open Lsw.Lib

/-! ## Messages -/

/-- `DaemonRequest`. -/
inductive DaemonRequest where
  | ping
  | list
  | show (name : Str)
  | plan (name : Str) (phase : LaunchPhase)
  | start (name : Str) (phase : LaunchPhase)
  | status (name : Str)
  | suspend (name : Str)
  | resume (name : Str)
  | hibernate (name : Str)
  | activity (name : Str)
  | balloon (name : Str) (memoryMib : UInt32)
  | stop (name : Str) (force : Bool)
  deriving DecidableEq

/-- `DaemonInfo`. -/
structure DaemonInfo where
  protocol : UInt16
  features : List Str
  pid : UInt32
  rssKib : Option UInt64
  deriving DecidableEq

/-- `InstanceSummary`. -/
structure InstanceSummary where
  name : Str
  state : InstanceState
  profile : WindowsProfile
  deriving DecidableEq

/-- `LaunchPlanSummary`. -/
structure LaunchPlanSummary where
  helperCommands : List Str
  command : Str
  notes : List Str
  missingCapabilities : List Str
  deriving DecidableEq

/-- `Liveness`. -/
inductive Liveness where
  | active
  | inactive
  | unknown
  deriving DecidableEq

/-- `InstanceStatus`. -/
structure InstanceStatus where
  state : InstanceState
  qmp : Option Str
  active : Liveness
  deriving DecidableEq

/-- `StartedInstance`. -/
structure StartedInstance where
  name : Str
  phase : LaunchPhase
  qmpSocket : PathBuf
  log : PathBuf
  deriving DecidableEq

/-- `DaemonResponse`. -/
inductive DaemonResponse where
  | pong (info : DaemonInfo)
  | instances (instances : List InstanceSummary)
  | manifest (encoded : Str)
  | plan (plan : LaunchPlanSummary)
  | status (status : InstanceStatus)
  | started (started : StartedInstance)
  | notice (lines : List Str)
  deriving DecidableEq

/-- `DaemonReply`. -/
inductive DaemonReply where
  | ok (response : DaemonResponse)
  | error (message : Str)
  deriving DecidableEq

/-! ## Lines -/

/-- `MAX_DAEMON_REQUEST_BYTES`. -/
def maxDaemonRequestBytes : Nat := 4096

/-- `MAX_DAEMON_REPLY_BYTES`. -/
def maxDaemonReplyBytes : Nat := 2 * 1024 * 1024

/-- `b'\n'`. -/
def newline : UInt8 := 10

/-- `serde_json`, of one type. -/
structure Json (α : Type) where
  toVec : α → Except Str Bytes
  fromSlice : Bytes → Except Str α

/-- `reader.by_ref().take(limit).read_until(b'\n', …)`: what is read, and what is not. -/
def readUntilNewline : Nat → Bytes → Bytes × Bytes
  | 0, stream => ([], stream)
  | _ + 1, [] => ([], [])
  | limit + 1, byte :: stream =>
    if byte = newline then ([byte], stream)
    else
      let (line, rest) := readUntilNewline limit stream
      (byte :: line, rest)

section Model

variable {α : Type} (json : Json α)

/-- `write_bounded_line`: what the writer holds afterwards. -/
def writeBoundedLine (limit : Nat) (what : String) (writer : Bytes) (value : α) : Result Bytes := do
  let encoded ← (json.toVec value).mapError fun error =>
    .protocol [.text "could not encode ", .text what, .text ": ", .shown error]
  let encoded := encoded ++ [newline]
  rejectIf (encoded.length > limit) (.protocol [.text what, .text " exceeds ",
    .shown (decimal limit), .text " bytes"])
  return writer ++ encoded

/-- `read_bounded_line`, and what is left of the stream. -/
def readBoundedLine (limit : Nat) (what : String) (stream : Bytes) :
    Result (Option α) × Bytes :=
  let (line, rest) := readUntilNewline (limit + 1) stream
  let result : Result (Option α) := do
    if line.length = 0 then return none
    rejectIf (line.length > limit ∨ line.getLast? ≠ some newline)
      (.protocol [.text what, .text " is larger than ", .shown (decimal limit),
        .text " bytes or not newline-terminated"])
    let value ← (json.fromSlice line).mapError fun error =>
      .protocol [.text "invalid ", .text what, .text ": ", .shown error]
    return some value
  (result, rest)

end Model

/-- `write_daemon_request`. -/
def writeDaemonRequest (json : Json DaemonRequest) : Bytes → DaemonRequest → Result Bytes :=
  writeBoundedLine json maxDaemonRequestBytes "daemon request"

/-- `write_daemon_reply`. -/
def writeDaemonReply (json : Json DaemonReply) : Bytes → DaemonReply → Result Bytes :=
  writeBoundedLine json maxDaemonReplyBytes "daemon reply"

/-- `read_daemon_request`. -/
def readDaemonRequest (json : Json DaemonRequest) :
    Bytes → Result (Option DaemonRequest) × Bytes :=
  readBoundedLine json maxDaemonRequestBytes "daemon request"

/-- `read_daemon_reply`. -/
def readDaemonReply (json : Json DaemonReply) : Bytes → Result (Option DaemonReply) × Bytes :=
  readBoundedLine json maxDaemonReplyBytes "daemon reply"

/-! ## What the lines are for -/

/-- What is assumed of `serde_json`: what it writes has no newline, and it reads that back, also with a
    newline behind it. -/
structure Json.Faithful {α : Type} (json : Json α) : Prop where
  reads : ∀ value encoded, json.toVec value = .ok encoded →
    json.fromSlice (encoded ++ [newline]) = .ok value
  one_line : ∀ value encoded, json.toVec value = .ok encoded → newline ∉ encoded

/-- The results of some calls of a reader, one after the other. -/
def readCalls {β : Type} (read : Bytes → β × Bytes) : Nat → Bytes → List β
  | 0, _ => []
  | calls + 1, stream => (read stream).1 :: readCalls read calls (read stream).2

/-- A line at the front of a stream that is not too long, its newline included. -/
def HasLine (limit : Nat) (stream : Bytes) : Prop :=
  ∃ line rest, stream = line ++ newline :: rest ∧ newline ∉ line ∧ line.length + 1 ≤ limit

/-- A writer and a reader of lines agree. -/
structure LinesExactly {α : Type} (json : Json α) (limit : Nat)
    (write : Bytes → α → Result Bytes) (read : Bytes → Result (Option α) × Bytes) : Prop where
  /-- What is written for some values is read as these values, and then as the end. -/
  sequence : ∀ values bytes, forEach values write [] = .ok bytes → ∀ more,
    readCalls read (values.length + more) bytes =
      values.map (fun value => .ok (some value)) ++ List.replicate more (.ok none)
  /-- A line of the limit is written, and a longer one is not. -/
  writes_iff : ∀ value encoded writer, json.toVec value = .ok encoded →
    ((∃ out, write writer value = .ok out) ↔ encoded.length + 1 ≤ limit)
  /-- And the same for reading. -/
  reads_iff : ∀ value encoded rest, json.toVec value = .ok encoded →
    (read (encoded ++ newline :: rest) = (.ok (some value), rest) ↔ encoded.length + 1 ≤ limit) ∧
    (limit < encoded.length + 1 → ∃ error, (read (encoded ++ newline :: rest)).1 = .error error)
  /-- No stream makes a reader take more than a line, or more than one byte above the limit. -/
  consumes : ∀ stream, ∃ consumed, stream = consumed ++ (read stream).2 ∧
    consumed.length ≤ limit + 1 ∧ newline ∉ consumed.dropLast
  /-- Without a line there is an error, unless the stream has ended. -/
  rejects : ∀ stream, stream ≠ [] → ¬ HasLine limit stream →
    ∃ error, (read stream).1 = .error error

/-! ## Reading up to a newline -/

/-- What is read and what is left are the stream; what is read is within the limit, and has no
    newline before its end. -/
theorem readUntilNewline_spec (limit : Nat) (stream : Bytes) :
    stream = (readUntilNewline limit stream).1 ++ (readUntilNewline limit stream).2 ∧
      (readUntilNewline limit stream).1.length ≤ limit ∧
      newline ∉ (readUntilNewline limit stream).1.dropLast := by
  -- Over the stream, with what may still be read.
  induction stream generalizing limit with
  | nil =>
    cases limit with
    | zero => simp [readUntilNewline]
    | succ limit => simp [readUntilNewline]
  | cons byte stream ih =>
    cases limit with
    | zero => simp [readUntilNewline]
    | succ limit =>
      obtain ⟨hsplit, hlength, hnone⟩ := ih limit
      rw [readUntilNewline]
      split
      -- A newline ends the line.
      · exact ⟨rfl, by simp, by simp⟩
      -- Any other byte is followed by the rest of the line.
      · rename_i hbyte
        refine ⟨by rw [List.cons_append, ← hsplit], by simpa using hlength, fun hmem => ?_⟩
        change newline ∈ (byte :: (readUntilNewline limit stream).1).dropLast at hmem
        cases hline : (readUntilNewline limit stream).1 with
        | nil => simp [hline] at hmem
        | cons next line =>
          rw [hline] at hmem hnone
          rw [List.dropLast_cons_cons] at hmem
          rcases List.mem_cons.mp hmem with heq | hrest
          · exact hbyte heq.symm
          · exact hnone hrest

theorem readUntilNewline_line {limit : Nat} {line : Bytes} (hnone : newline ∉ line)
    (hlength : line.length < limit) (rest : Bytes) :
    readUntilNewline limit (line ++ newline :: rest) = (line ++ [newline], rest) := by
  induction line generalizing limit with
  | nil =>
    obtain ⟨limit, rfl⟩ := Nat.exists_eq_succ_of_ne_zero (by simpa using hlength.ne')
    simp [readUntilNewline]
  | cons byte line ih =>
    obtain ⟨hbyte, hline⟩ := not_or.mp (mt List.mem_cons.mpr hnone)
    rw [List.length_cons] at hlength
    obtain ⟨limit, rfl⟩ := Nat.exists_eq_succ_of_ne_zero (by omega : limit ≠ 0)
    rw [List.cons_append, readUntilNewline, if_neg (Ne.symm hbyte), ih hline (by omega)]
    rfl

/-! ## Reading a line -/

section Proofs

variable {α : Type} {json : Json α} {limit : Nat} {what : String}

/-- A line that is not too long is decoded, and nothing behind it is taken. -/
theorem readBoundedLine_line {line : Bytes} (hnone : newline ∉ line)
    (hlength : line.length + 1 ≤ limit) (rest : Bytes) :
    readBoundedLine json limit what (line ++ newline :: rest) =
      (do
        let value ← (json.fromSlice (line ++ [newline])).mapError fun error =>
          .protocol [.text "invalid ", .text what, .text ": ", .shown error]
        return some value, rest) := by
  have hshort : ¬ ((line ++ [newline]).length > limit ∨
      (line ++ [newline]).getLast? ≠ some newline) := by
    simp
    omega
  have hfilled : ¬ (line ++ [newline]).length = 0 := by simp
  rw [readBoundedLine, readUntilNewline_line hnone (by omega)]
  simp only [if_neg hfilled, rejectIf_of_not _ hshort, ok_bind]

/-- A stream with something in it and no such line is refused. -/
theorem readBoundedLine_rejects {stream : Bytes} (hne : stream ≠ []) (hline : ¬ HasLine limit stream) :
    ∃ error, (readBoundedLine json limit what stream).1 = .error error := by
  obtain ⟨hsplit, -, hnone⟩ := readUntilNewline_spec (limit + 1) stream
  have hfilled : ¬ (readUntilNewline (limit + 1) stream).1.length = 0 := by
    cases stream with
    | nil => exact absurd rfl hne
    | cons byte stream =>
      rw [readUntilNewline]
      split
      · simp
      · simp
  have hlong : (readUntilNewline (limit + 1) stream).1.length > limit ∨
      (readUntilNewline (limit + 1) stream).1.getLast? ≠ some newline := by
    by_contra hshort
    obtain ⟨hlength, hlast⟩ := not_or.mp hshort
    -- What was read is a line: its last byte is the newline and no other one is.
    obtain ⟨front, hfront⟩ := List.getLast?_eq_some_iff.mp (not_ne_iff.mp hlast)
    rw [hfront] at hsplit hnone hlength
    rw [List.dropLast_concat] at hnone
    rw [List.append_assoc, List.singleton_append] at hsplit
    exact hline ⟨front, _, hsplit, hnone, by simpa using hlength⟩
  rw [readBoundedLine]
  simp only [if_neg hfilled, rejectIf_of _ hlong]
  exact ⟨_, rfl⟩

theorem readBoundedLine_nil : readBoundedLine json limit what [] = (.ok none, []) := rfl

theorem takeWhile_line {line : Bytes} (hnone : newline ∉ line) (rest : Bytes) :
    (line ++ newline :: rest).takeWhile (· ≠ newline) = line := by
  have hline : ∀ byte ∈ line, decide (byte ≠ newline) = true := fun byte hbyte =>
    decide_eq_true fun heq : byte = newline => hnone (heq ▸ hbyte)
  rw [List.takeWhile_append_of_pos hline]
  simp

/-- A line is at the front of the stream when it is not too long. -/
theorem hasLine_iff {line : Bytes} (hnone : newline ∉ line) (rest : Bytes) :
    HasLine limit (line ++ newline :: rest) ↔ line.length + 1 ≤ limit := by
  constructor
  · rintro ⟨front, others, heq, hfront, hlength⟩
    have hsame := congrArg (List.takeWhile (· ≠ newline)) heq
    rw [takeWhile_line hnone, takeWhile_line hfront] at hsame
    rwa [hsame]
  · exact fun hlength => ⟨line, rest, rfl, hnone, hlength⟩

/-! ## Writing and reading -/

/-- What is written. -/
theorem writeBoundedLine_eq_ok {writer out : Bytes} {value : α} :
    writeBoundedLine json limit what writer value = .ok out ↔
      ∃ encoded, json.toVec value = .ok encoded ∧ encoded.length + 1 ≤ limit ∧
        out = writer ++ (encoded ++ [newline]) := by
  simp only [writeBoundedLine, bind_eq_ok, mapError_eq_ok, rejectIf_eq_ok, exists_const,
    pure_eq_ok_iff, List.length_append, List.length_singleton, not_lt]
  constructor
  · rintro ⟨encoded, hencoded, hlength, rfl⟩
    exact ⟨encoded, hencoded, hlength, rfl⟩
  · rintro ⟨encoded, hencoded, hlength, rfl⟩
    exact ⟨encoded, hencoded, hlength, rfl⟩

/-- What is written for a value is read as that value. -/
theorem readBoundedLine_encoded (hjson : json.Faithful) {value : α} {encoded : Bytes}
    (hencoded : json.toVec value = .ok encoded) (hlength : encoded.length + 1 ≤ limit)
    (rest : Bytes) :
    readBoundedLine json limit what (encoded ++ newline :: rest) = (.ok (some value), rest) := by
  rw [readBoundedLine_line (hjson.one_line value encoded hencoded) hlength,
    hjson.reads value encoded hencoded]
  rfl

/-- After the values of a stream, every call finds its end. -/
theorem readCalls_nil (calls : Nat) :
    readCalls (readBoundedLine json limit what) calls [] = List.replicate calls (.ok none) := by
  induction calls with
  | zero => rfl
  | succ calls ih => rw [readCalls, readBoundedLine_nil, ih, List.replicate_succ]

/-- Lines that were written are read back one by one, and then the end. -/
theorem readCalls_written (hjson : json.Faithful) {values : List α} {writer bytes : Bytes}
    (h : forEach values (writeBoundedLine json limit what) writer = .ok bytes) :
    ∃ added, bytes = writer ++ added ∧ ∀ more,
      readCalls (readBoundedLine json limit what) (values.length + more) added =
        values.map (fun value => .ok (some value)) ++ List.replicate more (.ok none) := by
  induction values generalizing writer with
  | nil =>
    obtain rfl := Except.ok.inj h
    refine ⟨[], by rw [List.append_nil], fun more => ?_⟩
    rw [List.length_nil, Nat.zero_add, readCalls_nil]
    rfl
  | cons value values ih =>
    rw [forEach_cons] at h
    obtain ⟨next, hwrite, hrest⟩ := bind_eq_ok.mp h
    obtain ⟨encoded, hencoded, hlength, rfl⟩ := writeBoundedLine_eq_ok.mp hwrite
    obtain ⟨added, rfl, hcalls⟩ := ih hrest
    refine ⟨encoded ++ newline :: added, by simp, fun more => ?_⟩
    have hcount : (value :: values).length + more = values.length + more + 1 := by
      rw [List.length_cons]
      omega
    rw [hcount, readCalls, readBoundedLine_encoded hjson hencoded hlength, hcalls, List.map_cons,
      List.cons_append]

/-- The lines of the protocol are exact, if the JSON is faithful. -/
theorem linesExactly (hjson : json.Faithful) :
    LinesExactly json limit (writeBoundedLine json limit what) (readBoundedLine json limit what) where
  sequence values bytes h more := by
    obtain ⟨added, rfl, hcalls⟩ := readCalls_written hjson h
    exact hcalls more
  -- A value is written when its line is within the limit.
  writes_iff value encoded writer hencoded := by
    constructor
    · rintro ⟨out, hout⟩
      obtain ⟨other, hother, hlength, -⟩ := writeBoundedLine_eq_ok.mp hout
      obtain rfl := Except.ok.inj (hencoded.symm.trans hother)
      exact hlength
    · exact fun hlength => ⟨_, writeBoundedLine_eq_ok.mpr ⟨encoded, hencoded, hlength, rfl⟩⟩
  -- A line is read back when it is, too.
  reads_iff value encoded rest hencoded := by
    have hnone := hjson.one_line value encoded hencoded
    -- A longer one has no end within the limit.
    have hlong (h : limit < encoded.length + 1) :
        ∃ error, (readBoundedLine json limit what (encoded ++ newline :: rest)).1 = .error error :=
      readBoundedLine_rejects (by simp) fun hline =>
        absurd ((hasLine_iff hnone rest).mp hline) (Nat.not_le.mpr h)
    refine ⟨⟨fun hread => ?_, fun hlength => ?_⟩, hlong⟩
    · by_contra hlength
      obtain ⟨error, herror⟩ := hlong (Nat.not_le.mp hlength)
      rw [hread] at herror
      cases herror
    · exact readBoundedLine_encoded hjson hencoded hlength rest
  -- Reading takes no more than one line.
  consumes stream := by
    obtain ⟨hsplit, hlength, hnone⟩ := readUntilNewline_spec (limit + 1) stream
    exact ⟨_, hsplit, hlength, hnone⟩
  rejects stream hne hline := readBoundedLine_rejects hne hline

end Proofs

/-- Requests and replies are read exactly as they are written, with the same limits on both sides. -/
theorem daemon_lines_are_read_exactly (requests : Json DaemonRequest) (replies : Json DaemonReply)
    (hrequests : requests.Faithful) (hreplies : replies.Faithful) :
    LinesExactly requests maxDaemonRequestBytes (writeDaemonRequest requests)
        (readDaemonRequest requests) ∧
      LinesExactly replies maxDaemonReplyBytes (writeDaemonReply replies)
        (readDaemonReply replies) :=
  ⟨linesExactly hrequests, linesExactly hreplies⟩

/-- JSON of one value. -/
def jsonOf {α : Type} [DecidableEq α] (value : α) (text : String) : Json α where
  toVec other := if other = value then .ok (bytes text.toList) else .error []
  fromSlice line :=
    if line = bytes text.toList ++ [newline] then .ok value else .error "expected value".toList

theorem faithful_jsonOf {α : Type} [DecidableEq α] {value : α} {text : String}
    (h : newline ∉ bytes text.toList) : (jsonOf value text).Faithful := by
  have hone {other : α} {encoded : Bytes} (hencoded : (jsonOf value text).toVec other = .ok encoded) :
      other = value ∧ encoded = bytes text.toList := by
    by_cases hother : other = value
    · exact ⟨hother, (Except.ok.inj ((if_pos hother).symm.trans hencoded)).symm⟩
    · cases (if_neg hother).symm.trans hencoded
  refine ⟨fun other encoded hencoded => ?_, fun other encoded hencoded => ?_⟩
  · obtain ⟨rfl, rfl⟩ := hone hencoded
    exact if_pos rfl
  · obtain ⟨rfl, rfl⟩ := hone hencoded
    exact h

/-- `DaemonRequest::Ping` as JSON. -/
def pingJson : Json DaemonRequest := jsonOf .ping "\x7b\"request\":\"ping\"\x7d"

/-- `DaemonReply::Error` as JSON. -/
def boomJson : Json DaemonReply := jsonOf (.error "boom".toList) "\x7b\"error\":\"boom\"\x7d"

/-- What is sent for a ping, and what may be answered. -/
theorem ping_is_read_exactly :
    LinesExactly pingJson maxDaemonRequestBytes (writeDaemonRequest pingJson)
        (readDaemonRequest pingJson) ∧
      LinesExactly boomJson maxDaemonReplyBytes (writeDaemonReply boomJson)
        (readDaemonReply boomJson) :=
  daemon_lines_are_read_exactly _ _ (faithful_jsonOf (by decide)) (faithful_jsonOf (by decide))

end Lsw.Core
