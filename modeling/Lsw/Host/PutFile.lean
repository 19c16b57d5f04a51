import Lsw.Agent.ReceiveFile
import Lsw.Host.Process

/-!
# Sending a File

`AgentClient::put_file` sends a file of the host in pieces (`agent/transfer.rs`).  The two sides of a
transfer meet in `upload_is_whole_or_nothing`: whatever frames come, the agent puts a whole file at
the destination or none, and a transfer that the host reports as done has put there what the host
has read.
-/

namespace Lsw.Host

open Lsw.Lib Lsw.Lib.Traced Lsw.Protocol
open Lsw.Agent.FilePut (CallFault UploadEnv UploadStep UploadWorld Uploads receiveFile stagingPath)

/-! ## The source -/

/-- `STDIN_CHUNK_BYTES`. -/
def stdinChunkBytes : Nat := 32 * 1024

/-- What one `read` puts into the buffer. -/
def Chunk := { bytes : Bytes // bytes.length ≤ stdinChunkBytes }

/-- A file of the host. -/
structure SourceFile where
  path : String
  /-- `symlink_metadata`: whether this is a regular file, and its length. -/
  metadata : Except String (Bool × UInt64)
  opened : Except String Unit
  /-- What the calls of `read` give; after the last of them the file is at its end. -/
  reads : List (Except String Chunk)

/-- What is read up to the end of a file, where no call fails. -/
def readToEnd : List (Except String Chunk) → Option Bytes
  | [] => some []
  | .error _ :: _ => none
  | .ok chunk :: reads =>
    if chunk.val = [] then some [] else (readToEnd reads).map (chunk.val ++ ·)

/-- The file has this content, from the look at its length to the last `read`. -/
structure SourceFile.Holds (source : SourceFile) (content : Bytes) : Prop where
  length : ∀ regular length, source.metadata = .ok (regular, length) →
    length.toNat = content.length
  reads : ∀ bytes, readToEnd source.reads = some bytes → bytes = content

/-! ## `put_file` -/

/-- The loop that sends what is read. -/
def sendChunks : List (Except String Chunk) → UInt64 → Sending UInt64
  | [], sent => pure sent
  | .error error :: _, _ => Traced.fail (.text error)
  | .ok chunk :: reads, sent =>
    if chunk.val = [] then pure sent
    else do
      sendFrame { kind := .fileData, payload := chunk.val }
      sendChunks reads (sent + .ofNat chunk.val.length)

/-- The answer to the request. -/
def acknowledgeUpload (ready : Protocol.Frame) : Sending Unit :=
  match ready.kind with
  | .pong =>
    if ready.payload = [] then pure ()
    else Traced.fail (.text "agent did not acknowledge file upload")
  | .error => Traced.fail (.refused ready.payload)
  | _ => Traced.fail (.text "agent did not acknowledge file upload")

/-- The answer to the last frame. -/
def completeUpload (response : Protocol.Frame) (sent : UInt64) : Sending UInt64 :=
  match response.kind with
  | .fileDone => do
    let length ← Traced.ofExcept ((decodeFileLength response.payload).mapError .protocol)
    if length = sent then pure sent
    else Traced.fail (.text "agent returned an invalid upload completion frame")
  | .error => Traced.fail (.refused response.payload)
  | _ => Traced.fail (.text "agent returned an invalid upload completion frame")

/-- `read_frame(&mut self.stream)?`, where the frames of the agent are at hand. -/
def readReply (replies : List Protocol.Frame) : Sending (Protocol.Frame × List Protocol.Frame) :=
  match replies with
  | [] => Traced.fail .io
  | reply :: replies => pure (reply, replies)

/-- `AgentClient::put_file`, with the frames that the agent answers. -/
def putFile (capabilities : List String) (source : SourceFile) (destination : String)
    (replies : List Protocol.Frame) : Sending UInt64 := do
  requireCapability capabilities "file-transfer-v1"
  let (regular, length) ← Traced.ofExcept (source.metadata.mapError .text)
  if regular = false then Traced.fail (.text s!"{source.path} is not a regular file")
  else
    let request : FilePutRequest := { destination, length }
    sendEncoded .filePut request.encode
    let (ready, replies) ← readReply replies
    acknowledgeUpload ready
    Traced.ofExcept (source.opened.mapError .text)
    let sent ← sendChunks source.reads 0
    if sent ≠ length then Traced.fail (.text "host source changed while it was being read")
    else
      sendFrame { kind := .fileDone, payload := encodeFileLength sent }
      let (response, _) ← readReply replies
      completeUpload response sent

/-! ## What is sent -/

/-- The frames of the pieces are in order, and their payloads are what is read up to the end. -/
theorem yields_sendChunks {reads : List (Except String Chunk)} {before sent : UInt64}
    {room room' : Nat} {events : List Protocol.Frame}
    (h : Yields (sendChunks reads before) room sent room' events) :
    (∀ frame ∈ events, frame.kind = .fileData) ∧
      readToEnd reads = some (events.flatMap (·.payload)) := by
  induction reads generalizing before room events with
  | nil =>
    obtain ⟨-, -, rfl⟩ := yields_pure.mp h
    exact ⟨by simp, rfl⟩
  | cons read reads ih =>
    cases read with
    | error error => exact absurd (yields_fail.mp h) id
    | ok chunk =>
      rw [sendChunks, yields_ite] at h
      rcases h with ⟨hempty, h⟩ | ⟨hmore, h⟩
      · obtain ⟨-, -, rfl⟩ := yields_pure.mp h
        exact ⟨by simp, if_pos hempty⟩
      · obtain ⟨_, _, first, rest, hfirst, hrest, rfl⟩ := yields_bind.mp h
        obtain ⟨-, -, rfl⟩ := yields_sendFrame.mp hfirst
        obtain ⟨hdata, hread⟩ := ih hrest
        constructor
        · exact List.forall_mem_append.mpr ⟨by simp, hdata⟩
        · rw [readToEnd, if_neg hmore, hread]
          simp

theorem yields_readReply {replies rest : List Protocol.Frame} {reply : Protocol.Frame}
    {room room' : Nat} {events : List Protocol.Frame}
    (h : Yields (readReply replies) room (reply, rest) room' events) :
    replies = reply :: rest ∧ events = [] := by
  cases replies with
  | nil => exact absurd (yields_fail.mp h) id
  | cons first replies =>
    obtain ⟨hreply, -, rfl⟩ := yields_pure.mp h
    obtain ⟨rfl, rfl⟩ := Prod.mk.inj hreply
    exact ⟨rfl, rfl⟩

theorem yields_acknowledgeUpload {ready : Protocol.Frame} {room room' : Nat} {u : Unit}
    {events : List Protocol.Frame}
    (h : Yields (acknowledgeUpload ready) room u room' events) : events = [] := by
  unfold acknowledgeUpload at h
  split at h
  · rcases yields_ite.mp h with ⟨-, h⟩ | ⟨-, h⟩
    · exact (yields_pure.mp h).2.2
    · exact absurd (yields_fail.mp h) id
  · exact absurd (yields_fail.mp h) id
  · exact absurd (yields_fail.mp h) id

/-- An upload is complete when the agent says so. -/
theorem yields_completeUpload {response : Protocol.Frame} {before sent : UInt64} {room room' : Nat}
    {events : List Protocol.Frame}
    (h : Yields (completeUpload response before) room sent room' events) :
    response.kind = .fileDone ∧ events = [] := by
  unfold completeUpload at h
  split at h
  · next hkind =>
    obtain ⟨_, _, first, rest, hfirst, hrest, rfl⟩ := yields_bind.mp h
    obtain ⟨-, -, rfl⟩ := yields_ofExcept.mp hfirst
    rcases yields_ite.mp hrest with ⟨-, hrest⟩ | ⟨-, hrest⟩
    · exact ⟨hkind, (yields_pure.mp hrest).2.2⟩
    · exact absurd (yields_fail.mp hrest) id
  · exact absurd (yields_fail.mp h) id
  · exact absurd (yields_fail.mp h) id

/-- What a transfer that is done has sent, and what the agent has answered. -/
theorem yields_putFile {capabilities : List String} {source : SourceFile} {destination : String}
    {replies : List Protocol.Frame} {room room' : Nat} {sent : UInt64}
    {events : List Protocol.Frame}
    (h : Yields (putFile capabilities source destination replies) room sent room' events) :
    ∃ length payload data last, FilePutRequest.encode ⟨destination, length⟩ = .ok payload ∧
      events = { kind := .filePut, payload } :: (data ++ [{ kind := .fileDone, payload := last }]) ∧
      (∀ frame ∈ data, frame.kind = .fileData) ∧
      readToEnd source.reads = some (data.flatMap (·.payload)) ∧
      ∃ response ∈ replies, response.kind = .fileDone := by
  -- The capability and the source are looked at before anything is sent.
  obtain ⟨_, _, capable, _, hcapable, hlook, rfl⟩ := yields_bind.mp h
  obtain rfl := yields_requireCapability hcapable
  obtain ⟨⟨regular, length⟩, _, found, _, hfound, hregular, rfl⟩ := yields_bind.mp hlook
  obtain ⟨-, -, rfl⟩ := yields_ofExcept.mp hfound
  rcases yields_ite.mp hregular with ⟨-, hrefused⟩ | ⟨-, hrequest⟩
  · exact absurd (yields_fail.mp hrefused) id
  -- The request is sent, and the first reply is awaited.
  obtain ⟨_, _, requested, _, hrequested, hready, rfl⟩ := yields_bind.mp hrequest
  obtain ⟨payload, hencode, -, -, rfl⟩ := yields_sendEncoded.mp hrequested
  obtain ⟨⟨ready, later⟩, _, first, _, hreply, hanswered, rfl⟩ := yields_bind.mp hready
  obtain ⟨rfl, rfl⟩ := yields_readReply hreply
  obtain ⟨_, _, acknowledged, _, hacknowledged, hopening, rfl⟩ := yields_bind.mp hanswered
  obtain rfl := yields_acknowledgeUpload hacknowledged
  -- Then the chunks of the source.
  obtain ⟨_, _, opened, _, hopened, hsending, rfl⟩ := yields_bind.mp hopening
  obtain ⟨-, -, rfl⟩ := yields_ofExcept.mp hopened
  obtain ⟨total, _, data, _, hdata, htotal, rfl⟩ := yields_bind.mp hsending
  obtain ⟨hkinds, hread⟩ := yields_sendChunks hdata
  -- A source that has changed its length ends the transfer.
  rcases yields_ite.mp htotal with ⟨-, hchanged⟩ | ⟨-, hending⟩
  · exact absurd (yields_fail.mp hchanged) id
  -- The length is sent, and the second reply says that it is done.
  obtain ⟨_, _, done, _, hdone, hanswer, rfl⟩ := yields_bind.mp hending
  obtain ⟨-, -, rfl⟩ := yields_sendFrame.mp hdone
  obtain ⟨⟨response, rest⟩, _, second, _, hresponse, hcompleted, rfl⟩ := yields_bind.mp hanswer
  obtain ⟨rfl, rfl⟩ := yields_readReply hresponse
  obtain ⟨hkind, rfl⟩ := yields_completeUpload hcompleted
  exact ⟨length, payload, data, encodeFileLength total, hencode, by simp, hkinds, hread, response,
    by simp, hkind⟩

/-! ## Both sides -/

/-- A request that the agent reads is the one that the host has encoded. -/
theorem request_eq_of_decode {request sent : FilePutRequest} {payload : Bytes}
    (hencode : sent.encode = .ok payload) (hdecode : FilePutRequest.decode payload = .ok request) :
    request = sent := by
  obtain ⟨-, hagain⟩ := FilePutRequest.decode_eq_ok.mp hdecode
  obtain ⟨hfits, hpayload⟩ := pushString_iff.mp hencode
  obtain ⟨hfits', hpayload'⟩ := pushString_iff.mp hagain
  -- Both are what the decoder reads from these bytes.
  have hlength := (u64_run _ _ _).mpr hpayload
  rw [(u64_run _ _ _).mpr hpayload'] at hlength
  obtain ⟨hlengths, hstrings⟩ := Prod.mk.inj (Except.ok.inj hlength)
  have hdestination := (string_run (stringBytes sent.destination) sent.destination []).mpr
    ⟨hfits, (List.append_nil _).symm⟩
  rw [← hstrings, (string_run _ _ []).mpr ⟨hfits', (List.append_nil _).symm⟩] at hdestination
  cases request
  cases sent
  simp_all

/-- The data of frames ends with the first other frame. -/
theorem takeWhile_fileData {data rest : List Protocol.Frame} {last : Protocol.Frame}
    (hdata : ∀ frame ∈ data, frame.kind = .fileData) (hlast : last.kind ≠ .fileData) :
    (data ++ last :: rest).takeWhile (fun frame => frame.kind = .fileData) = data := by
  rw [List.takeWhile_append_of_pos (by simpa using hdata),
    List.takeWhile_cons_of_neg (by simpa using hlast), List.append_nil]

/-- Data that ends with another frame is all the data of frames that it begins. -/
theorem data_eq_of_prefix {data received rest : List Protocol.Frame}
    {last done : Protocol.Frame} (hdata : ∀ frame ∈ data, frame.kind = .fileData)
    (hreceived : ∀ frame ∈ received, frame.kind = .fileData) (hlast : last.kind ≠ .fileData)
    (hdone : done.kind ≠ .fileData) (h : received ++ done :: rest <+: data ++ [last]) :
    received = data := by
  obtain ⟨more, hmore⟩ := h
  have hsplit := congrArg (List.takeWhile (fun frame => frame.kind = .fileData)) hmore
  rwa [List.append_assoc, List.cons_append, takeWhile_fileData hreceived hdone,
    takeWhile_fileData hdata hlast] at hsplit

/-- A transfer that the host reports as done has put at the destination what the host has read. -/
theorem destination_of_putFile {env : UploadEnv} {world : UploadWorld}
    {capabilities : List String} {source : SourceFile} {destination : String}
    {replies frames : List Protocol.Frame} {room room' : Nat} {sent : UInt64} {payload : Bytes}
    {later : List Protocol.Frame}
    (hput : Yields (putFile capabilities source destination replies) room sent room'
      ({ kind := .filePut, payload } :: later))
    (hframes : frames <+: later)
    (hreplies : replies <+: (receiveFile env payload frames world).events) :
    ∃ content, readToEnd source.reads = some content ∧
      (receiveFile env payload frames world).state.files (env.parse destination) =
        some (.file content) := by
  obtain ⟨length, encoded, data, last, hencode, hevents, hdata, hread, response, hresponse, hdone⟩ :=
    yields_putFile hput
  obtain ⟨hfirst, rfl⟩ := List.cons.inj hevents
  obtain rfl : payload = encoded := congrArg Protocol.Frame.payload hfirst
  obtain ⟨request, content, hdecode, huploads, hfile⟩ :=
    Agent.FilePut.uploads_of_announced (hreplies.subset hresponse) hdone
  obtain ⟨received, ending, rest, rfl, hkinds, -, rfl, -⟩ := huploads.frames
  obtain rfl := request_eq_of_decode hencode hdecode
  obtain rfl : received = data :=
    data_eq_of_prefix hdata hkinds (by simp) (by simp) hframes
  exact ⟨_, hread, hfile⟩

/-- A request of the host to put a file is served so that the destination gets the whole file or
    nothing.  A destination that is there stays as it is, with all other files.  One that is not
    there is created exactly by frames that are data and then declare the requested length, which is
    the length of all the data, if every call up to its publication works, and it then holds the
    data.  In every other case there is no destination.  When the call succeeds, or else when the
    removal of the staging file does, this file is gone, or no file has been touched at all.  A
    transfer that the host reports as done has put the source at the destination, if the source
    stays as it is. -/
theorem upload_is_whole_or_nothing (env : UploadEnv) (payload : Bytes)
    (frames : List Protocol.Frame) (world : UploadWorld) :
    (∀ request, FilePutRequest.decode payload = .ok request →
      (world.files (env.parse request.destination) ≠ none →
        (receiveFile env payload frames world).state.files = world.files) ∧
      (world.files (env.parse request.destination) = none →
        (∀ content, Uploads env request frames world.files content ↔
          (receiveFile env payload frames world).state.files (env.parse request.destination) =
            some (.file content)) ∧
        ((∀ content, ¬ Uploads env request frames world.files content) →
          (receiveFile env payload frames world).state.files (env.parse request.destination) =
            none) ∧
        ((receiveFile env payload frames world).result = .ok () ∨ env.fails .cleanUp = none →
          (receiveFile env payload frames world).state.files
              (stagingPath env (env.parse request.destination)) = none ∨
            (receiveFile env payload frames world).state.files = world.files))) ∧
    ∀ capabilities source destination replies room room' sent later content,
      Yields (putFile capabilities source destination replies) room sent room'
        ({ kind := .filePut, payload } :: later) →
      frames <+: later → replies <+: (receiveFile env payload frames world).events →
      SourceFile.Holds source content →
      (receiveFile env payload frames world).state.files (env.parse destination) =
        some (.file content) := by
  refine ⟨fun request hrequest => ⟨fun hpresent => ?present, fun habsent => ?absent⟩, ?transfer⟩
  -- A destination that is there: the request ends before any file is touched.
  case present =>
    apply Agent.FilePut.files_receiveFile_of_present
    intro other hother
    rw [hrequest] at hother
    rwa [← Except.ok.inj hother]
  -- One that is not: its content is what the frames bring.
  case absent =>
    have h := Agent.FilePut.deposits_receiveFile frames hrequest habsent
    refine ⟨fun content => ?_, fun hnone => ?_, h.staging⟩
    · rw [h.settled.brought, Option.map_eq_some_iff, ← Agent.FilePut.deposited_eq_some]
      constructor
      · exact fun hcontent => ⟨content, hcontent, rfl⟩
      · rintro ⟨other, hother, hsame⟩
        cases hsame
        exact hother
    · rw [h.settled.brought]
      cases hcontent : Agent.FilePut.deposited env request frames world.files with
      | none => rfl
      | some content => exact absurd (Agent.FilePut.deposited_eq_some.mp hcontent) (hnone content)
  -- The host has seen the transfer done, so it has seen its last reply.
  case transfer =>
    intro capabilities source destination replies room room' sent later content hput hframes
      hreplies hholds
    obtain ⟨read, hread, hfile⟩ := destination_of_putFile hput hframes hreplies
    rw [hfile, hholds.reads read hread]

/-! ### A transfer -/

/-- A guest where every path is a name in the current directory. -/
def plainGuest (fails : UploadStep → Option CallFault) : UploadEnv where
  platform := .unix
  parse path := ⟨"", path⟩
  isDirectory _ := true
  processId := 7
  nonce := 9
  fails
  readError := "failed to fill whole buffer"

/-- The request for a file of two bytes. -/
def twoBytesRequest : Bytes := [0, 0, 0, 0, 0, 0, 0, 2, 0, 0, 0, 1, 97]

def twoBytesFrames : List Protocol.Frame :=
  [⟨.fileData, [104, 105]⟩, ⟨.fileDone, [0, 0, 0, 0, 0, 0, 0, 2]⟩]

theorem decode_twoBytesRequest : FilePutRequest.decode twoBytesRequest = .ok ⟨"a", 2⟩ :=
  FilePutRequest.decode_eq_ok.mpr ⟨by decide, by decide +kernel⟩

def emptyGuest : UploadWorld where
  files _ := none

/-- A file of two bytes that is read at once. -/
def twoBytesSource : SourceFile where
  path := "source"
  metadata := .ok (true, 2)
  opened := .ok ()
  reads := [.ok ⟨[104, 105], by decide⟩]

theorem twoBytesSource_holds : twoBytesSource.Holds [104, 105] where
  length := by
    rintro _ _ ⟨⟩
    rfl
  reads := by
    rintro _ ⟨⟩
    rfl

theorem two_bytes_are_put :
    Uploads (plainGuest fun _ => none) ⟨"a", 2⟩ twoBytesFrames emptyGuest.files [104, 105] ∧
      (receiveFile (plainGuest fun _ => none) twoBytesRequest twoBytesFrames emptyGuest).state.files
        ⟨"", "a"⟩ = some (.file [104, 105]) := by
  have h := upload_is_whole_or_nothing (plainGuest fun _ => none) twoBytesRequest twoBytesFrames
    emptyGuest
  have hfile := h.2 ["file-transfer-v1"] twoBytesSource "a"
    [⟨.pong, []⟩, ⟨.fileDone, [0, 0, 0, 0, 0, 0, 0, 2]⟩] 3 0 2 twoBytesFrames [104, 105] rfl
    (List.prefix_refl _) (by decide +kernel) twoBytesSource_holds
  exact ⟨(((h.1 _ decode_twoBytesRequest).2 rfl).1 [104, 105]).mpr hfile, hfile⟩

/-- Guests where one call fails. -/
def failingGuest (failing : UploadStep) : UploadEnv :=
  plainGuest fun step => if step = failing then some { error := "Permission denied" } else none

/-- When the staging file cannot be removed after the link, the destination is there although a call
    failed.  When it cannot be removed after an error, it stays. -/
theorem failed_removals_leave_files :
    (receiveFile (failingGuest .remove) twoBytesRequest twoBytesFrames emptyGuest).state.files
        ⟨"", "a"⟩ = some (.file [104, 105]) ∧
      (receiveFile (failingGuest .cleanUp) twoBytesRequest [] emptyGuest).state.files
        ⟨"", "a"⟩ = none ∧
      (receiveFile (failingGuest .cleanUp) twoBytesRequest [] emptyGuest).state.files
        (stagingPath (failingGuest .cleanUp) ⟨"", "a"⟩) = some (.file []) := by
  decide +kernel

end Lsw.Host
