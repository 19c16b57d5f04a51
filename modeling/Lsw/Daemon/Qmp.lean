import Lsw.Core.DaemonProtocol
import Lsw.Lib.Json
import Lsw.Lib.Search

/-!
# The Monitor of QEMU

`QmpClient` (`qmp.rs`) talks to QEMU over a socket: a greeting, the negotiation, and then commands, each
of which is answered by one `return` or one `error` after any number of events.  A command and its answer
belong together by their order only, so `read_response` has to take everything up to the answer and
nothing behind it.

`quit` is allowed to find the connection closed instead of an answer.  It tells a closed connection from
an answered error by the text of the failure, and the text of an answered error is QEMU's.
-/

namespace Lsw.Daemon.Qmp

open Lsw.Lib
open Lsw.Core (newline readUntilNewline readUntilNewline_spec readUntilNewline_line)

/-! ## The socket -/

/-- `MAX_QMP_MESSAGE_BYTES`. -/
def maxQmpMessageBytes : Nat := 256 * 1024

/-- `MAX_QMP_REQUEST_BYTES`. -/
def maxQmpRequestBytes : Nat := 4096

/-- The socket of a client. -/
structure QmpSocket where
  /-- What the server has sent and the client has not read. -/
  incoming : Bytes
  /-- What a read behind that meets: the end of the connection, or an error of this text. -/
  ending : Option Str
  /-- What the client has sent. -/
  sent : Bytes
  /-- The error that writes end with, if they do. -/
  refuses : Option Str

/-- What a call returns, or the text of its error, and the socket after it. -/
abbrev QmpStep (α : Type) := QmpSocket → Except Str α × QmpSocket

/-- `is_disconnect`, of the text of an error. -/
def isDisconnect (message : Str) : Bool :=
  ["closed unexpectedly", "Broken pipe", "Connection reset"].any fun phrase =>
    decide (phrase.toList <:+: message)

/-- `{ "execute": command }`. -/
def commandDocument (command : Str) : JsonValue := .object [("execute".toList, .string command)]

/-- `{ "execute": "balloon", "arguments": { "value": target_bytes } }`, its fields in order. -/
def balloonDocument (targetBytes : UInt64) : JsonValue :=
  .object [("arguments".toList, .object [("value".toList, .number (decimal targetBytes.toNat))]),
    ("execute".toList, .string "balloon".toList)]

/-- `QmpClient::send`. -/
def send (document : JsonValue) : QmpStep Unit := fun socket =>
  let encoded := document.render
  if (bytes encoded).length > maxQmpRequestBytes then
    (.error "QMP request document is too large".toList, socket)
  else
    match socket.refuses with
    | some error => (.error error, socket)
    | none => (.ok (), { socket with sent := socket.sent ++ bytes encoded ++ [newline] })

/-- The error of a command that QEMU refuses. -/
def commandFailed (error : JsonValue) : Str := "QMP command failed: ".toList ++ error.render

section Model

-- `serde_json::from_str`.
variable (fromStr : Str → Except Str JsonValue)

/-- `read_line`, of what it took of the socket. -/
def lineText (ending : Option Str) (line rest : Bytes) : Except Str Str :=
  -- Without a newline it goes on behind what has been sent, unless it has all that it may take.
  match ending, decide (rest = [] ∧ line.getLast? ≠ some newline ∧
    line.length ≤ maxQmpMessageBytes) with
  | some error, true => .error error
  | _, _ => (fromUtf8 line).elim (.error "stream did not contain valid UTF-8".toList) .ok

/-- `QmpClient::read_message`, of the line that it read. -/
def messageOf (line : Bytes) (text : Str) : Except Str JsonValue := do
  rejectIf (line = []) "QMP socket closed unexpectedly".toList
  rejectIf (line.length > maxQmpMessageBytes ∨ line.getLast? ≠ some newline)
    "QMP message was too large or unterminated".toList
  let message ← (fromStr text).mapError fun error =>
    "QMP message was not valid JSON: ".toList ++ error
  rejectIf (message.isObject = false) "QMP message was not a JSON object".toList
  return message

/-- `QmpClient::read_message`. -/
def readMessage : QmpStep JsonValue := fun socket =>
  let (line, rest) := readUntilNewline (maxQmpMessageBytes + 1) socket.incoming
  ((lineText socket.ending line rest).bind (messageOf fromStr line),
    { socket with incoming := rest })

theorem messageOf_nil (text : Str) :
    messageOf fromStr [] text = .error "QMP socket closed unexpectedly".toList := rfl

/-- Every message read shortens what is left. -/
theorem readMessage_shorter {socket after : QmpSocket} {message : JsonValue}
    (h : readMessage fromStr socket = (.ok message, after)) :
    after.incoming.length < socket.incoming.length := by
  obtain ⟨hresult, rfl⟩ := Prod.mk.inj h
  obtain ⟨hsplit, -, -⟩ := readUntilNewline_spec (maxQmpMessageBytes + 1) socket.incoming
  generalize readUntilNewline (maxQmpMessageBytes + 1) socket.incoming = read at hresult hsplit ⊢
  obtain ⟨text, -, hmessage⟩ := bind_eq_ok.mp hresult
  have hfilled : read.1 ≠ [] := by
    intro hnil
    rw [hnil, messageOf_nil] at hmessage
    cases hmessage
  have hpos := List.length_pos_of_ne_nil hfilled
  rw [hsplit, List.length_append]
  exact Nat.lt_add_of_pos_left hpos

/-- `QmpClient::read_response`. -/
def readResponse : QmpStep JsonValue := fun socket =>
  match _hread : readMessage fromStr socket with
  | (.error error, after) => (.error error, after)
  | (.ok message, after) =>
    match message.get "error" with
    | some error => (.error (commandFailed error), after)
    | none =>
      match message.get "return" with
      | some value => (.ok value, after)
      | none =>
        if (message.get "event").isNone then
          (.error ("unexpected QMP message: ".toList ++ message.render), after)
        else readResponse after
termination_by socket => socket.incoming.length
decreasing_by exact readMessage_shorter fromStr _hread

/-- `QmpClient::execute_document`. -/
def executeDocument (document : JsonValue) : QmpStep JsonValue := fun socket =>
  match send document socket with
  | (.error error, after) => (.error error, after)
  | (.ok _, after) => readResponse fromStr after

/-- `QmpClient::execute`. -/
def execute (command : Str) : QmpStep JsonValue := fun socket =>
  if (bytes command).all fun byte =>
      (97 ≤ byte.toNat && byte.toNat ≤ 122) || byte.toNat = 45 || byte.toNat = 95 then
    executeDocument fromStr (commandDocument command) socket
  else (.error "invalid QMP command name".toList, socket)

/-- The status in what `query-status` returns. -/
def statusOf (response : JsonValue) : Except Str Str :=
  ((response.get "status").bind JsonValue.asStr).elim
    (.error "QMP query-status response did not contain a status".toList) .ok

/-- `QmpClient::status`. -/
def status : QmpStep Str := fun socket =>
  ((execute fromStr "query-status".toList socket).1.bind statusOf,
    (execute fromStr "query-status".toList socket).2)

/-- What a call returned is not looked at. -/
def discard (step : QmpStep JsonValue) : QmpStep Unit := fun socket =>
  ((step socket).1.map fun _ => (), (step socket).2)

/-- `QmpClient::system_powerdown`. -/
def systemPowerdown : QmpStep Unit := discard (execute fromStr "system_powerdown".toList)

/-- `QmpClient::pause`. -/
def pause : QmpStep Unit := discard (execute fromStr "stop".toList)

/-- `QmpClient::resume`. -/
def resume : QmpStep Unit := discard (execute fromStr "cont".toList)

/-- `QmpClient::balloon`. -/
def balloon (targetBytes : UInt64) : QmpStep Unit :=
  discard (executeDocument fromStr (balloonDocument targetBytes))

/-- `QmpClient::quit`. -/
def quit : QmpStep Unit := fun socket =>
  match send (commandDocument "quit".toList) socket with
  | (.error error, after) => (.error error, after)
  | (.ok _, after) =>
    match readResponse fromStr after with
    | (.ok _, after) => (.ok (), after)
    | (.error error, after) => if isDisconnect error then (.ok (), after) else (.error error, after)

/-- `QmpClient::from_stream`. -/
def fromStream : QmpStep Unit := fun socket =>
  match readMessage fromStr socket with
  | (.error error, after) => (.error error, after)
  | (.ok greeting, after) =>
    if ((greeting.get "QMP").any JsonValue.isObject) = false then
      (.error "QMP socket returned an invalid greeting".toList, after)
    else discard (execute fromStr "qmp_capabilities".toList) after

/-! ## Transcripts -/

/-- A message as a server sends it: an object on a line within the limit. -/
structure Message where
  text : Str
  value : JsonValue
  one_line : '\n' ∉ text
  short : (bytes text).length + 1 ≤ maxQmpMessageBytes
  parses : fromStr (text ++ ['\n']) = .ok value
  object : value.isObject = true

/-- A message that belongs to no command, whatever its payload says. -/
structure Event extends Message fromStr where
  event : (value.get "event").isSome
  no_error : value.get "error" = none
  no_return : value.get "return" = none

/-- The answer to a command: what it returns, or its error. -/
structure Response extends Message fromStr where
  answer : Except JsonValue JsonValue
  answers : match answer with
    | .ok returned => value.get "error" = none ∧ value.get "return" = some returned
    | .error error => value.get "error" = some error

/-- What a server sends for one command. -/
structure Exchange where
  events : List (Event fromStr)
  response : Response fromStr

/-- A name that `execute` takes. -/
structure CommandName where
  name : Str
  lower : ((bytes name).all fun byte =>
    (97 ≤ byte.toNat && byte.toNat ≤ 122) || byte.toNat = 45 || byte.toNat = 95) = true
  short : (bytes (commandDocument name).render).length ≤ maxQmpRequestBytes

/-- A call of a client. -/
inductive Call where
  | execute (command : CommandName)
  | status
  | systemPowerdown
  | pause
  | resume
  | balloon (targetBytes : UInt64)
  | quit

/-- What a call returns. -/
inductive Returned where
  | value (value : JsonValue)
  | status (status : Str)
  | done

/-- A server's side of a session. -/
structure Transcript where
  greeting : Message fromStr
  greets : (greeting.value.get "QMP").any JsonValue.isObject = true
  negotiation : Exchange fromStr
  exchanges : List (Call × Exchange fromStr)

variable {fromStr}

def Message.sent (message : Message fromStr) : Bytes := bytes message.text ++ [newline]

def Exchange.sent (exchange : Exchange fromStr) : Bytes :=
  exchange.events.flatMap (fun event => event.sent) ++ exchange.response.sent

/-- The socket of a client to which all of it is sent. -/
def Transcript.socket (transcript : Transcript fromStr) (ending : Option Str) : QmpSocket where
  incoming := transcript.greeting.sent ++ (transcript.negotiation.sent ++
    transcript.exchanges.flatMap fun exchange => exchange.2.sent)
  ending := ending
  sent := []
  refuses := none

/-- What a step returns, as what a call returns. -/
def returning {α : Type} (wrap : α → Returned) (step : QmpStep α) : QmpStep Returned := fun socket =>
  ((step socket).1.map wrap, (step socket).2)

variable (fromStr) in
def Call.run : Call → QmpStep Returned
  | .execute command => returning .value (Qmp.execute fromStr command.name)
  | .status => returning .status (Qmp.status fromStr)
  | .systemPowerdown => returning (fun _ => .done) (Qmp.systemPowerdown fromStr)
  | .pause => returning (fun _ => .done) (Qmp.pause fromStr)
  | .resume => returning (fun _ => .done) (Qmp.resume fromStr)
  | .balloon targetBytes => returning (fun _ => .done) (Qmp.balloon fromStr targetBytes)
  | .quit => returning (fun _ => .done) (Qmp.quit fromStr)

variable (fromStr) in
/-- The results of some calls, one after the other. -/
def runCalls : List Call → QmpSocket → List (Except Str Returned)
  | [], _ => []
  | call :: calls, socket =>
    (call.run fromStr socket).1 :: runCalls calls (call.run fromStr socket).2

/-- What a call makes of what its command returned. -/
def Call.result (returned : JsonValue) : Call → Option Returned
  | .execute _ => some (.value returned)
  | .status => ((returned.get "status").bind JsonValue.asStr).map .status
  | _ => some .done

/-- The result of a call is that of its answer. -/
def Answers (call : Call) (answer : Except JsonValue JsonValue) (result : Except Str Returned) :
    Prop :=
  match answer.toOption.bind call.result with
  | some returned => result = .ok returned
  | none => ∃ error, result = .error error

/-- The client connects, and every call returns what its own response says. -/
def AnsweredInOrder (transcript : Transcript fromStr) (ending : Option Str) : Prop :=
  ∃ client, fromStream fromStr (transcript.socket ending) = (.ok (), client) ∧
    List.Forall₂ (fun exchange result => Answers exchange.1 exchange.2.response.answer result)
      transcript.exchanges (runCalls fromStr (transcript.exchanges.map Prod.fst) client)

/-- A call is `quit`, and its answer an error that reads like the end of a connection. -/
def ReadsAsDisconnect (exchange : Call × Exchange fromStr) : Prop :=
  exchange.1 = .quit ∧ ∃ error, exchange.2.response.answer = .error error ∧
    isDisconnect error.render = true

/-! ## Reading what was sent -/

theorem newline_not_mem {text : Str} (h : '\n' ∉ text) : newline ∉ bytes text := by
  intro hmem
  obtain ⟨c, hc, hbyte⟩ := List.mem_flatMap.mp hmem
  obtain ⟨-, hnat⟩ := utf8EncodeChar_of_ascii hbyte (by decide)
  have heq : c = '\n' := Char.toNat_inj.mp hnat
  exact h (heq ▸ hc)

theorem lineText_of_newline {ending : Option Str} {line : Bytes} (rest : Bytes)
    (h : line.getLast? = some newline) :
    lineText ending line rest =
      (fromUtf8 line).elim (.error "stream did not contain valid UTF-8".toList) .ok := by
  have hended : decide (rest = [] ∧ line.getLast? ≠ some newline ∧
      line.length ≤ maxQmpMessageBytes) = false := decide_eq_false fun hno => hno.2.1 h
  unfold lineText
  rw [hended]
  cases ending with
  | none => rfl
  | some error => rfl

/-- A message is read, and nothing behind it. -/
theorem readMessage_sent (message : Message fromStr) {socket : QmpSocket} {rest : Bytes}
    (h : socket.incoming = message.sent ++ rest) :
    readMessage fromStr socket = (.ok message.value, { socket with incoming := rest }) := by
  have hline : bytes message.text ++ [newline] = bytes (message.text ++ ['\n']) := by
    rw [bytes_append]
    rfl
  have hlast : (bytes message.text ++ [newline]).getLast? = some newline :=
    List.getLast?_concat
  -- The line is short enough to be read to its end.
  have hread : readUntilNewline (maxQmpMessageBytes + 1) socket.incoming =
      (bytes message.text ++ [newline], rest) := by
    rw [h, Message.sent, List.append_assoc, List.singleton_append]
    exact readUntilNewline_line (newline_not_mem message.one_line)
      (Nat.lt_succ_of_lt message.short) rest
  -- It is UTF-8, as it was encoded from a text.
  have htext : lineText socket.ending (bytes message.text ++ [newline]) rest =
      .ok (message.text ++ ['\n']) := by
    rw [lineText_of_newline rest hlast, hline, fromUtf8_bytes]
    rfl
  -- It has no fault that is checked for, and holds an object.
  have hmessage : messageOf fromStr (bytes message.text ++ [newline]) (message.text ++ ['\n']) =
      .ok message.value := by
    have hlong : ¬ ((bytes message.text ++ [newline]).length > maxQmpMessageBytes ∨
        (bytes message.text ++ [newline]).getLast? ≠ some newline) := by
      rw [List.length_append, List.length_singleton, hlast]
      exact not_or.mpr ⟨Nat.not_lt.mpr message.short, not_not.mpr rfl⟩
    have hobject : ¬ message.value.isObject = false := by
      rw [message.object]
      decide
    rw [messageOf, rejectIf_of_not _ (by simp), ok_bind, rejectIf_of_not _ hlong, ok_bind,
      message.parses]
    show (rejectIf _ _ >>= fun _ => _) = _
    rw [rejectIf_of_not _ hobject]
    rfl
  rw [readMessage, hread]
  simp only [htext]
  rw [show (Except.ok (message.text ++ ['\n'])).bind _ = messageOf fromStr _ _ from rfl, hmessage]

/-- Events are passed over, and the first answer behind them is taken. -/
theorem readResponse_sent (exchange : Exchange fromStr) {socket : QmpSocket} {rest : Bytes}
    (h : socket.incoming = exchange.sent ++ rest) :
    readResponse fromStr socket =
      (exchange.response.answer.mapError commandFailed, { socket with incoming := rest }) := by
  obtain ⟨events, response⟩ := exchange
  -- Over the events in front of the answer.
  induction events generalizing socket with
  -- The answer is the next message.
  | nil =>
    have hread : readMessage fromStr socket =
        (.ok response.toMessage.value, { socket with incoming := rest }) :=
      readMessage_sent response.toMessage h
    obtain ⟨message, answer, hanswers⟩ := response
    rw [readResponse]
    split
    · rename_i error after hother
      rw [hread] at hother
      cases hother
    · rename_i value after hother
      rw [hread] at hother
      obtain ⟨hvalue, rfl⟩ := Prod.mk.inj hother
      obtain rfl := Except.ok.inj hvalue
      -- It is a value that is returned, or an error.
      cases answer with
      | ok returned =>
        simp only at hanswers
        simp only [hanswers.1, hanswers.2]
        rfl
      | error error =>
        simp only at hanswers
        simp only [hanswers]
        rfl
  -- An event is the next message.
  | cons event events ih =>
    have hincoming : socket.incoming =
        event.sent ++ (Exchange.sent ⟨events, response⟩ ++ rest) := by
      rw [h]
      simp [Exchange.sent]
    have hread := readMessage_sent event.toMessage hincoming
    rw [readResponse]
    split
    · rename_i error after hother
      rw [hread] at hother
      cases hother
    · rename_i value after hother
      rw [hread] at hother
      obtain ⟨hvalue, rfl⟩ := Prod.mk.inj hother
      obtain rfl := Except.ok.inj hvalue
      -- It has neither an error nor a value, so it is passed over.
      have hsome : ¬ (event.value.get "event").isNone = true := by
        have := event.event
        cases hget : event.value.get "event" with
        | none => rw [hget] at this; cases this
        | some payload => simp
      simp only [event.no_error, event.no_return, if_neg hsome]
      exact ih rfl

/-! ## Calls -/

theorem send_ok {document : JsonValue} {socket : QmpSocket}
    (hshort : (bytes document.render).length ≤ maxQmpRequestBytes) (hwrites : socket.refuses = none) :
    send document socket =
      (.ok (), { socket with sent := socket.sent ++ bytes document.render ++ [newline] }) := by
  simp only [send, if_neg (Nat.not_lt.mpr hshort), hwrites]

/-- Before a call: its answer is the next that is sent, and writes succeed. -/
structure Awaits (socket : QmpSocket) (exchange : Exchange fromStr) (rest : Bytes) : Prop where
  incoming : socket.incoming = exchange.sent ++ rest
  writes : socket.refuses = none

/-- After it: the answer has been taken. -/
structure Answered (socket : QmpSocket) (rest : Bytes) : Prop where
  incoming : socket.incoming = rest
  writes : socket.refuses = none

variable {exchange : Exchange fromStr} {socket : QmpSocket} {rest : Bytes}

theorem render_commandDocument (command : Str) : (commandDocument command).render =
    '{' :: (JsonValue.quoted "execute".toList ++ ':' :: JsonValue.quoted command ++ ['}']) := by
  simp [commandDocument, JsonValue.render, JsonValue.renderFields]

theorem length_bytes_le (text : Str) : (bytes text).length ≤ 4 * text.length := by
  induction text with
  | nil => exact Nat.le_refl 0
  | cons c text ih =>
    have hchar : (String.utf8EncodeChar c).length ≤ 4 := by
      rw [String.length_utf8EncodeChar]
      exact c.utf8Size_le_four
    rw [bytes_cons, List.length_append, List.length_cons]
    omega

/-- A request is short when its characters are few enough. -/
theorem short_of_length {text : Str} (h : text.length ≤ 1024) :
    (bytes text).length ≤ maxQmpRequestBytes :=
  Nat.le_trans (length_bytes_le text) (Nat.mul_le_mul_left 4 h)

theorem commandDocument_short {command : Str} (h : (JsonValue.quoted command).length ≤ 1000) :
    (bytes (commandDocument command).render).length ≤ maxQmpRequestBytes := by
  have hname : (JsonValue.quoted "execute".toList).length = 9 := rfl
  refine short_of_length ?_
  simp only [render_commandDocument, List.length_cons, List.length_append, hname, List.length_nil]
  omega

/-- A request is sent, and the next answer is its own. -/
theorem asked {document : JsonValue}
    (hshort : (bytes document.render).length ≤ maxQmpRequestBytes)
    (h : Awaits socket exchange rest) :
    ∃ told after, Answered after rest ∧ send document socket = (.ok (), told) ∧
      readResponse fromStr told = (exchange.response.answer.mapError commandFailed, after) := by
  let told : QmpSocket :=
    { socket with sent := socket.sent ++ bytes document.render ++ [newline] }
  exact ⟨told, { told with incoming := rest }, ⟨rfl, h.writes⟩, send_ok hshort h.writes,
    readResponse_sent exchange h.incoming⟩

theorem executeDocument_sent {document : JsonValue}
    (hshort : (bytes document.render).length ≤ maxQmpRequestBytes)
    (h : Awaits socket exchange rest) :
    ∃ after, Answered after rest ∧ executeDocument fromStr document socket =
      (exchange.response.answer.mapError commandFailed, after) := by
  obtain ⟨told, after, hafter, hsend, hread⟩ := asked hshort h
  refine ⟨after, hafter, ?_⟩
  rw [executeDocument, hsend]
  exact hread

theorem execute_sent (command : CommandName) (h : Awaits socket exchange rest) :
    ∃ after, Answered after rest ∧ execute fromStr command.name socket =
      (exchange.response.answer.mapError commandFailed, after) := by
  obtain ⟨after, hleft, hcall⟩ := executeDocument_sent command.short h
  exact ⟨after, hleft, (if_pos command.lower).trans hcall⟩

/-- `quit` makes of an error that reads like a disconnect what it makes of a return. -/
theorem quit_sent (h : Awaits socket exchange rest) :
    ∃ after, Answered after rest ∧ quit fromStr socket =
      (match exchange.response.answer with
        | .ok _ => .ok ()
        | .error error =>
          if isDisconnect (commandFailed error) then .ok () else .error (commandFailed error),
        after) := by
  have hquit : (JsonValue.quoted "quit".toList).length ≤ 1000 := by decide
  obtain ⟨told, after, hafter, hsend, hread⟩ := asked (commandDocument_short hquit) h
  refine ⟨after, hafter, ?_⟩
  unfold quit
  rw [hsend]
  simp only [hread]
  cases exchange.response.answer with
  | ok returned => rfl
  | error error =>
    simp only [Except.mapError]
    cases isDisconnect (commandFailed error) with
    | true => rfl
    | false => rfl

/-! ## The text of an error -/

theorem isDisconnect_iff {message : Str} : isDisconnect message = true ↔
    ∃ phrase ∈ ["closed unexpectedly", "Broken pipe", "Connection reset"],
      phrase.toList <:+: message := by
  rw [isDisconnect, List.any_eq_true]
  exact exists_congr fun phrase => and_congr_right fun _ => decide_eq_true_iff

/-- What the client writes in front of an error reads like no disconnect. -/
theorem isDisconnect_commandFailed (error : JsonValue) :
    isDisconnect (commandFailed error) = isDisconnect error.render := by
  have hapart : ∀ phrase ∈ ["closed unexpectedly", "Broken pipe", "Connection reset"],
      Misses phrase.toList "QMP command failed: ".toList := by decide
  rw [Bool.eq_iff_iff, isDisconnect_iff, isDisconnect_iff]
  refine exists_congr fun phrase => and_congr_right fun hphrase => ?_
  exact infix_append_iff (hapart phrase hphrase)

/-! ## A call and its answer -/

theorem render_balloonDocument (targetBytes : UInt64) : (balloonDocument targetBytes).render =
    '{' :: (JsonValue.quoted "arguments".toList ++ ':' :: '{' ::
      (JsonValue.quoted "value".toList ++ ':' :: (decimal targetBytes.toNat ++ ['}'])) ++ ',' ::
      (JsonValue.quoted "execute".toList ++ ':' :: JsonValue.quoted "balloon".toList) ++ ['}']) := by
  simp [balloonDocument, JsonValue.render, JsonValue.renderFields, List.intercalate]

theorem balloonDocument_short (targetBytes : UInt64) :
    (bytes (balloonDocument targetBytes).render).length ≤ maxQmpRequestBytes := by
  have hdigits : (decimal targetBytes.toNat).length ≤ 20 := by
    refine (Nat.length_toDigits_le_iff (by decide) (by decide)).mpr ?_
    exact Nat.lt_of_lt_of_le targetBytes.toNat_lt (by decide)
  refine short_of_length ?_
  rw [render_balloonDocument]
  simp [JsonValue.quoted, JsonValue.escaped]
  omega

/-- The names that the client itself uses. -/
def queryStatus : CommandName := ⟨"query-status".toList, by decide, commandDocument_short (by decide)⟩
def powerdown : CommandName := ⟨"system_powerdown".toList, by decide, commandDocument_short (by decide)⟩
def stop : CommandName := ⟨"stop".toList, by decide, commandDocument_short (by decide)⟩
def cont : CommandName := ⟨"cont".toList, by decide, commandDocument_short (by decide)⟩
def capabilities : CommandName := ⟨"qmp_capabilities".toList, by decide, commandDocument_short (by decide)⟩

/-- What is made of a call that is answered. -/
structure Called (call : Call) (exchange : Exchange fromStr) (socket : QmpSocket) (rest : Bytes) :
    Prop where
  answered : Answered (call.run fromStr socket).2 rest
  answers : Answers call exchange.response.answer (call.run fromStr socket).1 ↔
    ¬ ReadsAsDisconnect (call, exchange)

/-- A command other than `quit` returns what its answer says, whatever a failure is called. -/
theorem called_of_command {call : Call} {step : QmpStep JsonValue} {after : QmpSocket}
    (wrap : JsonValue → Except Str Returned) (hquit : call ≠ .quit) (hafter : Answered after rest)
    (hstep : step socket = (exchange.response.answer.mapError commandFailed, after))
    (hrun : call.run fromStr socket = ((step socket).1.bind wrap, (step socket).2))
    (hresult : ∀ returned, call.result returned = (wrap returned).toOption) :
    Called call exchange socket rest := by
  rw [hstep] at hrun
  refine ⟨by rw [hrun]; exact hafter, iff_of_true ?_ fun hreads => hquit hreads.1⟩
  rw [hrun]
  cases exchange.response.answer with
  | error error => exact ⟨commandFailed error, rfl⟩
  | ok returned =>
    unfold Answers
    rw [show (Except.ok returned : Except JsonValue JsonValue).toOption.bind call.result =
      (wrap returned).toOption from hresult returned]
    show match (wrap returned).toOption with
      | some returned' => wrap returned = .ok returned'
      | none => ∃ error, wrap returned = .error error
    cases wrap returned with
    | ok value => rfl
    | error error => exact ⟨error, rfl⟩

theorem returning_eq {α : Type} (wrap : α → Returned) (step : QmpStep α) (socket : QmpSocket) :
    returning wrap step socket = ((step socket).1.bind fun value => .ok (wrap value),
      (step socket).2) := by
  unfold returning
  cases (step socket).1 with
  | ok value => rfl
  | error error => rfl

theorem returning_discard (step : QmpStep JsonValue) (socket : QmpSocket) :
    returning (fun _ => .done) (discard step) socket =
      ((step socket).1.bind fun _ => .ok .done, (step socket).2) := by
  unfold returning discard
  cases (step socket).1 with
  | ok returned => rfl
  | error error => rfl

theorem returning_status (socket : QmpSocket) :
    returning .status (status fromStr) socket =
      ((execute fromStr "query-status".toList socket).1.bind fun response =>
          (statusOf response).map .status,
        (execute fromStr "query-status".toList socket).2) := by
  unfold returning status
  cases (execute fromStr "query-status".toList socket).1 with
  | ok response => rfl
  | error error => rfl

/-- A call that is answered returns its answer, unless that reads as a disconnect. -/
theorem called (call : Call) (h : Awaits socket exchange rest) :
    Called call exchange socket rest := by
  cases call with
  | execute command =>
    obtain ⟨after, hafter, hstep⟩ := execute_sent command h
    exact called_of_command (fun returned => .ok (.value returned)) (by simp) hafter hstep
      (returning_eq .value (execute fromStr command.name) socket) fun _ => rfl
  | systemPowerdown =>
    obtain ⟨after, hafter, hstep⟩ := execute_sent powerdown h
    exact called_of_command (fun _ => .ok .done) (by simp) hafter hstep
      (returning_discard (execute fromStr powerdown.name) socket) fun _ => rfl
  | pause =>
    obtain ⟨after, hafter, hstep⟩ := execute_sent stop h
    exact called_of_command (fun _ => .ok .done) (by simp) hafter hstep
      (returning_discard (execute fromStr stop.name) socket) fun _ => rfl
  | resume =>
    obtain ⟨after, hafter, hstep⟩ := execute_sent cont h
    exact called_of_command (fun _ => .ok .done) (by simp) hafter hstep
      (returning_discard (execute fromStr cont.name) socket) fun _ => rfl
  | balloon targetBytes =>
    obtain ⟨after, hafter, hstep⟩ := executeDocument_sent (balloonDocument_short targetBytes) h
    exact called_of_command (fun _ => .ok .done) (by simp) hafter hstep
      (returning_discard (executeDocument fromStr (balloonDocument targetBytes)) socket)
      fun _ => rfl
  | status =>
    obtain ⟨after, hafter, hstep⟩ := execute_sent queryStatus h
    refine called_of_command (fun response => (statusOf response).map .status) (by simp) hafter
      hstep (returning_status socket) fun returned => ?_
    show ((returned.get "status").bind JsonValue.asStr).map Returned.status = _
    unfold statusOf
    cases (returned.get "status").bind JsonValue.asStr with
    | none => rfl
    | some text => rfl
  | quit =>
    obtain ⟨after, hafter, hstep⟩ := quit_sent h
    have hrun : Call.quit.run fromStr socket = returning (fun _ => .done) (quit fromStr) socket := rfl
    rw [returning, hstep] at hrun
    refine ⟨by rw [hrun]; exact hafter, ?_⟩
    rw [hrun]
    cases hanswer : exchange.response.answer with
    | ok returned =>
      refine iff_of_true rfl ?_
      rintro ⟨-, error, herror, -⟩
      rw [hanswer] at herror
      cases herror
    | error error =>
      have hreads : ReadsAsDisconnect (Call.quit, exchange) ↔ isDisconnect error.render = true := by
        constructor
        · rintro ⟨-, other, hother, hdisconnect⟩
          obtain rfl := Except.error.inj (hanswer.symm.trans hother)
          exact hdisconnect
        · exact fun hdisconnect => ⟨rfl, error, hanswer, hdisconnect⟩
      rw [hreads, ← isDisconnect_commandFailed]
      simp only
      -- The error is passed on unless it reads like the end of the connection.
      cases isDisconnect (commandFailed error) with
      | true => exact iff_of_false (by rintro ⟨text, htext⟩; cases htext) (by simp)
      | false => exact iff_of_true ⟨_, rfl⟩ (by simp)

/-- `quit` takes such an error for the end of the connection. -/
theorem quit_of_disconnect {error : JsonValue} (h : Awaits socket exchange rest)
    (hanswer : exchange.response.answer = .error error) (herror : isDisconnect error.render = true) :
    (quit fromStr socket).1 = .ok () := by
  obtain ⟨after, -, hquit⟩ := quit_sent h
  rw [hquit, hanswer]
  simp only [isDisconnect_commandFailed, herror, if_true]

/-! ## A session -/

/-- Call by call, a client returns what it is answered as long as no `quit` is misread. -/
theorem runCalls_sent (exchanges : List (Call × Exchange fromStr))
    (h : Answered socket (exchanges.flatMap fun exchange => exchange.2.sent)) :
    List.Forall₂ (fun exchange result => Answers exchange.1 exchange.2.response.answer result)
        exchanges (runCalls fromStr (exchanges.map Prod.fst) socket) ↔
      ∀ exchange ∈ exchanges, ¬ ReadsAsDisconnect exchange := by
  induction exchanges generalizing socket with
  | nil => simp [runCalls]
  | cons exchange exchanges ih =>
    have hcalled : Called exchange.1 exchange.2 socket
        (exchanges.flatMap fun exchange => exchange.2.sent) :=
      called exchange.1 ⟨h.incoming.trans List.flatMap_cons, h.writes⟩
    rw [List.map_cons, runCalls, List.forall₂_cons, List.forall_mem_cons, ih hcalled.answered,
      hcalled.answers]

/-- `from_stream` returns a client exactly when the negotiation is answered by a return. -/
theorem fromStream_sent (transcript : Transcript fromStr) (ending : Option Str) :
    ∃ after, Answered after (transcript.exchanges.flatMap fun exchange => exchange.2.sent) ∧
      fromStream fromStr (transcript.socket ending) =
        ((transcript.negotiation.response.answer.mapError commandFailed).map fun _ => (), after) := by
  let greeted : QmpSocket :=
    { transcript.socket ending with incoming := transcript.negotiation.sent ++
        transcript.exchanges.flatMap fun exchange => exchange.2.sent }
  have hread : readMessage fromStr (transcript.socket ending) =
      (.ok transcript.greeting.value, greeted) := readMessage_sent transcript.greeting rfl
  obtain ⟨after, hafter, hcall⟩ :=
    execute_sent capabilities (show Awaits greeted _ _ from ⟨rfl, rfl⟩)
  have hgreets : ¬ (transcript.greeting.value.get "QMP").any JsonValue.isObject = false := by
    rw [transcript.greets]
    decide
  refine ⟨after, hafter, ?_⟩
  unfold fromStream
  rw [hread]
  simp only [if_neg hgreets]
  rw [discard, show execute fromStr "qmp_capabilities".toList greeted = _ from hcall]

/-- A client that is connected returns for every command what its answer says, unless a `quit` is
    answered by an error that reads like the end of the connection. -/
theorem client_is_answered_in_order_iff (transcript : Transcript fromStr) (ending : Option Str) :
    AnsweredInOrder transcript ending ↔
      (∃ returned, transcript.negotiation.response.answer = .ok returned) ∧
        ∀ exchange ∈ transcript.exchanges, ¬ ReadsAsDisconnect exchange := by
  obtain ⟨after, hafter, hconnect⟩ := fromStream_sent transcript ending
  rw [AnsweredInOrder, hconnect]
  cases transcript.negotiation.response.answer with
  | error error =>
    refine iff_of_false ?_ ?_
    · rintro ⟨client, hclient, -⟩
      cases (Prod.mk.inj hclient).1
    · rintro ⟨⟨returned, hreturned⟩, -⟩
      cases hreturned
  | ok returned =>
    rw [← runCalls_sent transcript.exchanges hafter]
    constructor
    · rintro ⟨client, hclient, hanswers⟩
      obtain rfl := (Prod.mk.inj hclient).2
      exact ⟨⟨returned, rfl⟩, hanswers⟩
    · exact fun hanswers => ⟨after, rfl, hanswers.2⟩

end Model

/-! ## An error that reads like a disconnect -/

def greetingText : String := "\x7b\"QMP\":\x7b\x7d\x7d"

def returnText : String := "\x7b\"return\":\x7b\x7d\x7d"

def errorText : String := "\x7b\"error\":\x7b\"desc\":\"Connection reset by peer\"\x7d\x7d"

/-- The error object of `errorText`. -/
def resetError : JsonValue :=
  .object [("desc".toList, .string "Connection reset by peer".toList)]

/-- What the three lines are as JSON. -/
def linesFromStr (line : Str) : Except Str JsonValue :=
  if line = greetingText.toList ++ ['\n'] then
    .ok (.object [("QMP".toList, .object [])])
  else if line = returnText.toList ++ ['\n'] then
    .ok (.object [("return".toList, .object [])])
  else if line = errorText.toList ++ ['\n'] then
    .ok (.object [("error".toList, resetError)])
  else .error "expected value".toList

theorem short_of_length_message {text : Str} (h : text.length ≤ 1024) :
    (bytes text).length + 1 ≤ maxQmpMessageBytes := by
  have hbytes := length_bytes_le text
  unfold maxQmpMessageBytes
  omega

def returned : Exchange linesFromStr where
  events := []
  response :=
    { text := returnText.toList
      value := .object [("return".toList, .object [])]
      one_line := by decide
      short := short_of_length_message (by decide)
      parses := rfl
      object := rfl
      answer := .ok (.object [])
      answers := ⟨rfl, rfl⟩ }

def refused : Exchange linesFromStr where
  events := []
  response :=
    { text := errorText.toList
      value := .object [("error".toList, resetError)]
      one_line := by decide
      short := short_of_length_message (by decide)
      parses := rfl
      object := rfl
      answer := .error resetError
      answers := rfl }

/-- A server that refuses to quit. -/
def refusesToQuit : Transcript linesFromStr where
  greeting :=
    { text := greetingText.toList
      value := .object [("QMP".toList, .object [])]
      one_line := by decide
      short := short_of_length_message (by decide)
      parses := rfl
      object := rfl }
  greets := rfl
  negotiation := returned
  exchanges := [(.quit, refused)]

/-- QEMU refuses to quit, and the client says that it has. -/
theorem refused_quit_is_taken_for_a_disconnect :
    ¬ AnsweredInOrder refusesToQuit none ∧
      ∃ client, fromStream linesFromStr (refusesToQuit.socket none) = (.ok (), client) ∧
        (quit linesFromStr client).1 = .ok () := by
  obtain ⟨after, hafter, hconnect⟩ := fromStream_sent refusesToQuit none
  have hdisconnect : isDisconnect resetError.render = true :=
    isDisconnect_iff.mpr ⟨"Connection reset", by simp, "\x7b\"desc\":\"".toList,
      " by peer\"\x7d".toList, by simp [resetError, JsonValue.render, JsonValue.renderFields]; rfl⟩
  refine ⟨?_, after, hconnect, ?_⟩
  · rintro ⟨client, hclient, hanswers⟩
    obtain rfl := (Prod.mk.inj (hconnect.symm.trans hclient)).2
    refine (runCalls_sent refusesToQuit.exchanges hafter).mp hanswers (.quit, refused) ?_ ?_
    · exact List.mem_singleton_self _
    · exact ⟨rfl, resetError, rfl, hdisconnect⟩
  · have hawaits : Awaits after refused [] := ⟨hafter.incoming, hafter.writes⟩
    exact quit_of_disconnect hawaits rfl hdisconnect

end Lsw.Daemon.Qmp
