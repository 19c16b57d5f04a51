import Lsw.Lib.Traced
import Lsw.Protocol.Frame
import Lsw.Protocol.Requests

/-!
# Receiving a File

`receive_file` writes the payloads of a client's frames to a staging file beside the destination, and
gives the file its name once all of them have come (`process_session.rs`).  On Windows the staging
file is renamed through its own handle, and deleted through it when it goes away without a name; on
the other platforms it is linked to the destination and then removed.

Any call of the operating system may fail.  Every call is made in one place at most, apart from the
writes, which are counted, so that a course of events is told by the calls that fail in it.
-/

namespace Lsw.Agent.FilePut

open Lsw.Lib Lsw.Protocol

/-! ## Calls of the operating system -/

/-- A path of the guest, by its parent and its last component. -/
structure GuestPath where
  parent : String
  last : String
  deriving DecidableEq, Repr

namespace GuestPath

/-- `path.file_name()`. -/
def fileName (path : GuestPath) : Option String :=
  if path.last = "" ∨ path.last = ".." then none else some path.last

/-- `path.with_file_name(name)`. -/
def withFileName (path : GuestPath) (name : String) : GuestPath := { path with last := name }

end GuestPath

/-- What stands at a path. -/
inductive GuestNode where
  | file (bytes : Bytes)
  | other
  deriving DecidableEq, Repr

inductive Platform where
  | windows
  | unix
  deriving DecidableEq, Repr

/-- The calls of `receive_file`. -/
inductive UploadStep where
  | linkBoundary
  | metadata
  | clock
  | create
  | sendPong
  | write (index : Nat)
  | flush
  | sync
  /-- The rename of Windows. -/
  | publish
  | link
  /-- The removal of the staging file after the link. -/
  | remove
  | sendDone
  /-- The deletion through the handle. -/
  | discard
  /-- The removal of the staging file after an error. -/
  | cleanUp
  | sendError
  deriving DecidableEq, Repr

/-- A call that fails, and how much it has written before, if it writes. -/
structure CallFault where
  error : String
  written : Nat := 0
  deriving DecidableEq, Repr

/-- What is not decided by the agent. -/
structure UploadEnv where
  platform : Platform
  /-- `PathBuf::from`. -/
  parse : String → GuestPath
  /-- `parent.is_dir()`. -/
  isDirectory : String → Bool
  processId : Nat
  nonce : Nat
  fails : UploadStep → Option CallFault
  /-- What `read_frame` reports after the last frame. -/
  readError : String

/-- The files of the guest. -/
structure UploadWorld where
  files : GuestPath → Option GuestNode
  /-- `UploadFile::published`. -/
  published : Bool := false

/-- A part of `receive_file`; its events are the frames that it writes. -/
abbrev Upload := Traced UploadWorld Protocol.Frame String

section Model

variable (env : UploadEnv)

/-- A call that changes no file. -/
def callStep (step : UploadStep) : Upload Unit :=
  match env.fails step with
  | none => pure ()
  | some fault => Traced.fail fault.error

/-- A call whose error is explained. -/
def explained (explanation : String) (step : UploadStep) : Upload Unit :=
  match env.fails step with
  | none => pure ()
  | some fault => Traced.fail (explanation ++ fault.error)

def setNode (path : GuestPath) (node : Option GuestNode) : Upload Unit :=
  Traced.modify fun world => { world with files := Function.update world.files path node }

def nodeAt (path : GuestPath) : Upload (Option GuestNode) :=
  Traced.read fun world => world.files path

/-- `write_frame`. -/
def sendFrame (step : UploadStep) (frame : Protocol.Frame) : Upload Unit := do
  callStep env step
  Traced.emit fun _ => frame

/-- `send_error`. -/
def sendError (message : String) : Upload Unit :=
  sendFrame env .sendError { kind := .error, payload := message.toUTF8.toList }

/-- Opening a new file. -/
def createNew (path : GuestPath) : Upload Unit := do
  match env.platform with
  | .windows =>
    explained env "could not create the atomic upload staging file: " .create
  | .unix => callStep env .create
  match ← nodeAt path with
  | some _ => Traced.fail "File exists (os error 17)"
  | none => setNode path (some (.file []))

/-- What is written to an open file goes to its end. -/
def append (path : GuestPath) (bytes : Bytes) : Upload Unit := do
  match ← nodeAt path with
  | some (.file content) => setNode path (some (.file (content ++ bytes)))
  | _ => return ()

/-- `file.write_all`, which may have written a part when it fails. -/
def writeAll (index : Nat) (path : GuestPath) (bytes : Bytes) : Upload Unit :=
  match env.fails (.write index) with
  | none => append path bytes
  | some fault => do
    append path (bytes.take fault.written)
    Traced.fail fault.error

/-- `fs::remove_file`. -/
def removeFile (step : UploadStep) (path : GuestPath) : Upload Unit := do
  callStep env step
  match ← nodeAt path with
  | none => Traced.fail "No such file or directory (os error 2)"
  | some _ => setNode path none

/-- `UploadFile::publish_new`, with `ReplaceIfExists` false. -/
def publishNew (temporary destination : GuestPath) : Upload Unit := do
  explained env "could not publish the atomic upload: " .publish
  match ← nodeAt destination with
  | some _ =>
    Traced.fail "could not publish the atomic upload: Cannot create a file when that file already exists."
  | none =>
    let node ← nodeAt temporary
    setNode temporary none
    setNode destination node
    Traced.modify fun world => { world with published := true }

/-- `fs::hard_link`. -/
def hardLink (temporary destination : GuestPath) : Upload Unit := do
  callStep env .link
  match ← nodeAt destination with
  | some _ => Traced.fail "File exists (os error 17)"
  | none =>
    let node ← nodeAt temporary
    setNode destination node

/-- `Drop` of an `UploadFile`. -/
def discard (temporary : GuestPath) : Upload Unit := do
  if ← Traced.read fun world => world.published then return ()
  else
    match env.fails .discard with
    | some _ => return ()
    | none => setNode temporary none

/-! ## `receive_file` -/

/-- The path beside a destination with the name that `upload_temporary_path` makes. -/
def stagingPath (destination : GuestPath) : GuestPath :=
  destination.withFileName s!".{destination.last}.lsw-upload-{env.processId}-{env.nonce}"

/-- `upload_temporary_path`. -/
def uploadTemporaryPath (destination : GuestPath) : Upload GuestPath := do
  callStep env .clock
  match destination.fileName with
  | none => Traced.fail "file destination has no file name"
  | some _ => return stagingPath env destination

/-- The staging file is given its name. -/
def publish (temporary destination : GuestPath) : Upload Unit :=
  match env.platform with
  | .windows => publishNew env temporary destination
  | .unix => do
    hardLink env temporary destination
    removeFile env .remove temporary

/-- What is done with the last frame. -/
def finishUpload (request : FilePutRequest) (temporary destination : GuestPath) (payload : Bytes)
    (received : Nat) : Upload Unit := do
  let declared ← Traced.ofExcept ((decodeFileLength payload).mapError fun
    | .protocol reason => reason
    | .io _ => "unexpected end of file")
  if declared ≠ request.length ∨ received ≠ request.length.toNat then
    let length := request.length.toNat
    Traced.fail s!"file length mismatch: expected {length}, received {received}"
  else
    callStep env .flush
    explained env "could not flush the atomic upload staging file: " .sync
    publish env temporary destination
    sendFrame env .sendDone { kind := .fileDone, payload := encodeFileLength (.ofNat received) }

/-- The loop over the frames, with the number of bytes and of writes so far. -/
def receiveFrames (request : FilePutRequest) (temporary destination : GuestPath) :
    List Protocol.Frame → Nat → Nat → Upload Unit
  | [], _, _ => Traced.fail env.readError
  | frame :: frames, received, index =>
    match frame.kind with
    | .fileData => do
      let received ← Traced.ofExcept (okOr (checkedAdd received frame.payload.length)
        "received file length overflowed")
      if received > request.length.toNat then
        Traced.fail "received more file data than declared"
      else
        writeAll env index temporary frame.payload
        receiveFrames request temporary destination frames received (index + 1)
    | .fileDone => finishUpload env request temporary destination frame.payload received
    | _ => Traced.fail "unexpected frame during file upload"

/-- The closure of `receive_file`, at whose end the file is closed. -/
def storeUpload (request : FilePutRequest) (temporary destination : GuestPath)
    (frames : List Protocol.Frame) : Upload Unit := do
  createNew env temporary
  let result ← Traced.attempt (fun _ => false) (do
    sendFrame env .sendPong { kind := .pong, payload := [] }
    receiveFrames env request temporary destination frames 0 0)
  if env.platform = .windows then
    discard env temporary
    Traced.ofExcept result
  else Traced.ofExcept result

/-- The parent of a destination, where an empty one is the current directory. -/
def parentOf (destination : GuestPath) : String :=
  if destination.parent = "" then "." else destination.parent

/-- `receive_file`, for the frames that come after the request. -/
def receiveFile (payload : Bytes) (frames : List Protocol.Frame) : Upload Unit := do
  let request ← Traced.ofExcept ((FilePutRequest.decode payload).mapError fun
    | .protocol reason => reason
    | .io _ => "unexpected end of file")
  let destination := env.parse request.destination
  callStep env .linkBoundary
  if env.isDirectory (parentOf destination) = false then
    sendError env "destination parent directory does not exist"
    Traced.fail "destination parent directory does not exist"
  else
    callStep env .metadata
    match ← nodeAt destination with
    | some _ =>
      sendError env "destination already exists; overwrite is disabled"
      Traced.fail "destination already exists; overwrite is disabled"
    | none =>
      let temporary ← uploadTemporaryPath env destination
      let result ← Traced.attempt (fun _ => false)
        (storeUpload env request temporary destination frames)
      match result with
      | .ok () => return ()
      | .error error =>
        let _ ← Traced.attempt (fun _ => false) (removeFile env .cleanUp temporary)
        let _ ← Traced.attempt (fun _ => false) (sendError env error)
        Traced.fail error

end Model

/-! ## What an upload leaves -/

/-- The call that gives the staging file its name. -/
def publishing : Platform → UploadStep
  | .windows => .publish
  | .unix => .link

/-- What the frames bring after `received` bytes in `index` writes, if they are complete and every
    call on them works. -/
def broughtBy (env : UploadEnv) (length : UInt64) : List Protocol.Frame → Nat → Nat → Option Bytes
  | [], _, _ => none
  | frame :: frames, received, index =>
    match frame.kind with
    | .fileData =>
      if received + frame.payload.length ≤ length.toNat ∧ env.fails (.write index) = none then
        (broughtBy env length frames (received + frame.payload.length) (index + 1)).map
          (frame.payload ++ ·)
      else none
    | .fileDone =>
      if decodeFileLength frame.payload = .ok length ∧ received = length.toNat ∧
          env.fails .flush = none ∧ env.fails .sync = none ∧
          env.fails (publishing env.platform) = none then
        some []
      else none
    | _ => none

/-- The frames are data and then declare `length`, which is the length of the file with all data in
    it, and every call on the staging file works up to its new name. -/
structure Completes (env : UploadEnv) (length : UInt64) (frames : List Protocol.Frame)
    (received index : Nat) (data : List Protocol.Frame) : Prop where
  isData : ∀ frame ∈ data, frame.kind = .fileData
  done : ∃ payload rest, frames = data ++ { kind := .fileDone, payload } :: rest ∧
    decodeFileLength payload = .ok length
  total : received + (data.flatMap (·.payload)).length = length.toNat
  writes : ∀ i < data.length, env.fails (.write (index + i)) = none
  flush : env.fails .flush = none
  sync : env.fails .sync = none
  named : env.fails (publishing env.platform) = none

section Brought

variable {env : UploadEnv} {length : UInt64} {frames : List Protocol.Frame} {received index : Nat}
  {data : List Protocol.Frame} {content : Bytes}

/-- A frame of data may come before what completes a file. -/
theorem Completes.cons {frame : Protocol.Frame} (hkind : frame.kind = .fileData)
    (hwrite : env.fails (.write index) = none)
    (h : Completes env length frames (received + frame.payload.length) (index + 1) data) :
    Completes env length (frame :: frames) received index (frame :: data) := by
  obtain ⟨payload, rest, hframes, hdecode⟩ := h.done
  constructor
  case isData => exact List.forall_mem_cons.mpr ⟨hkind, h.isData⟩
  case done => exact ⟨payload, rest, by rw [hframes, List.cons_append], hdecode⟩
  case total =>
    have htotal := h.total
    simp only [List.flatMap_cons, List.length_append]
    omega
  case writes =>
    intro i hi
    cases i with
    | zero => exact hwrite
    | succ i =>
      rw [← Nat.add_assoc, Nat.add_right_comm]
      exact h.writes i (by simpa using hi)
  case flush => exact h.flush
  case sync => exact h.sync
  case named => exact h.named

/-- What completes a file with a first frame of data completes it without this frame. -/
theorem Completes.tail {frame : Protocol.Frame}
    (h : Completes env length (frame :: frames) received index (frame :: data)) :
    Completes env length frames (received + frame.payload.length) (index + 1) data := by
  obtain ⟨payload, rest, hframes, hdecode⟩ := h.done
  constructor
  case isData => exact fun other hother => h.isData other (List.mem_cons_of_mem _ hother)
  case done =>
    rw [List.cons_append] at hframes
    exact ⟨payload, rest, (List.cons.inj hframes).2, hdecode⟩
  case total =>
    have htotal := h.total
    simp only [List.flatMap_cons, List.length_append] at htotal
    omega
  case writes =>
    intro i hi
    rw [Nat.add_right_comm, Nat.add_assoc]
    exact h.writes (i + 1) (by simpa using hi)
  case flush => exact h.flush
  case sync => exact h.sync
  case named => exact h.named

/-- What the frames bring is all their data, when they complete the file. -/
theorem broughtBy_eq_some :
    broughtBy env length frames received index = some content ↔
      ∃ data, Completes env length frames received index data ∧
        content = data.flatMap (·.payload) := by
  -- Over the frames; what is received and the number of writes go along.
  induction frames generalizing received index content with
  -- Without a last frame nothing is complete.
  | nil =>
    simp only [broughtBy, reduceCtorEq, false_iff]
    rintro ⟨data, h, -⟩
    obtain ⟨payload, rest, hframes, -⟩ := h.done
    simp at hframes
  | cons frame frames ih =>
    obtain ⟨kind, payload⟩ := frame
    constructor
    · intro h
      simp only [broughtBy] at h
      split at h
      -- A frame of data that is within the length and can be written.
      case h_1 =>
        split at h
        case isFalse => cases h
        case isTrue hstep =>
          obtain ⟨brought, hbrought, rfl⟩ := Option.map_eq_some_iff.mp h
          obtain ⟨data, hcompletes, rfl⟩ := ih.mp hbrought
          exact ⟨_ :: data, hcompletes.cons rfl hstep.2, by rw [List.flatMap_cons]⟩
      -- The last frame: the lengths agree and the calls up to the publication work.
      case h_2 =>
        split at h
        case isFalse => cases h
        case isTrue hdone =>
          obtain ⟨hdecode, hreceived, hflush, hsync, hnamed⟩ := hdone
          cases h
          exact ⟨[], ⟨by simp, ⟨payload, frames, rfl, hdecode⟩, by simpa using hreceived, by simp,
            hflush, hsync, hnamed⟩, rfl⟩
      -- Any other frame ends the request.
      case h_3 => cases h
    -- Conversely, data that completes the file is taken frame by frame.
    · rintro ⟨data, h, rfl⟩
      obtain ⟨last, rest, hframes, hdecode⟩ := h.done
      cases data with
      | nil =>
        obtain ⟨⟨rfl, rfl⟩, rfl⟩ : (kind = .fileDone ∧ payload = last) ∧ frames = rest := by
          simpa using hframes
        exact if_pos ⟨hdecode, by simpa using h.total, h.flush, h.sync, h.named⟩
      | cons first data =>
        rw [List.cons_append] at hframes
        obtain ⟨rfl, -⟩ := List.cons.inj hframes
        obtain rfl : kind = .fileData := h.isData _ List.mem_cons_self
        have htotal := h.total
        simp only [List.flatMap_cons, List.length_append] at htotal
        have hstep : received + payload.length ≤ length.toNat ∧
            env.fails (.write index) = none :=
          ⟨by omega, h.writes 0 (by simp)⟩
        rw [broughtBy, if_pos hstep, ih.mpr ⟨data, h.tail, rfl⟩]
        rfl

end Brought

/-! ## A destination that is not there -/

section Absent

variable (initial : GuestPath → Option GuestNode) (temporary destination : GuestPath)

/-- The destination is what an upload brought, if it brought anything, and nothing but the staging
    file is changed besides. -/
structure Settled (content : Option Bytes) (world : UploadWorld) : Prop where
  brought : world.files destination = content.map .file
  others : ∀ path, path ≠ temporary → path ≠ destination → world.files path = initial path

/-- There is no destination yet, and the staging file holds what was written. -/
structure Staged (written : Bytes) (world : UploadWorld) : Prop
    extends Settled initial temporary destination none world where
  staging : world.files temporary = some (.file written)

/-- Only an upload that brought something is announced. -/
def Announced (content : Option Bytes) (frame : Protocol.Frame) : Prop :=
  frame.kind = .fileDone → content ≠ none

/-- A triple about a part of `receive_file` that ends with `content`. -/
abbrev Receives {α : Type} (content : Option Bytes) (P : UploadWorld → Prop) (x : Upload α)
    (Q : α → UploadWorld → Prop) : Prop :=
  Traced.Sat (fun _ => True) (Announced content) P x Q
    (Settled initial temporary destination content)

variable {env : UploadEnv} {initial temporary destination} {world : UploadWorld}
  {content : Option Bytes} {P : UploadWorld → Prop} {written : Bytes}

/-- The staging file may be changed. -/
theorem Settled.setTemporary (h : Settled initial temporary destination content world)
    (hne : destination ≠ temporary) (node : Option GuestNode) :
    Settled initial temporary destination content
      { world with files := Function.update world.files temporary node } := by
  constructor
  case brought =>
    show Function.update world.files temporary node destination = content.map .file
    rw [Function.update_of_ne hne]
    exact h.brought
  case others =>
    intro path htemporary hdestination
    show Function.update world.files temporary node path = initial path
    rw [Function.update_of_ne htemporary]
    exact h.others path htemporary hdestination

theorem Settled.staged (h : Settled initial temporary destination none world)
    (hne : destination ≠ temporary) :
    Staged initial temporary destination written
      { world with files := Function.update world.files temporary (some (.file written)) } :=
  { h.setTemporary hne _ with staging := Function.update_self _ _ _ }

/-- The destination gets a file. -/
theorem Settled.setDestination (h : Settled initial temporary destination none world)
    (bytes : Bytes) :
    Settled initial temporary destination (some bytes)
      { world with files := Function.update world.files destination (some (.file bytes)) } := by
  constructor
  case brought => exact Function.update_self _ _ _
  case others =>
    intro path htemporary hdestination
    show Function.update world.files destination _ path = initial path
    rw [Function.update_of_ne hdestination]
    exact h.others path htemporary hdestination

/-! ### Each call -/

theorem sat_callStep {E : UploadWorld → Prop} {G : Protocol.Frame → Prop} (step : UploadStep)
    (h : env.fails step ≠ none → ∀ world, P world → E world) :
    Traced.Sat (fun _ => True) G P (callStep env step)
      (fun _ world => P world ∧ env.fails step = none) E := by
  unfold callStep
  split
  · next hworks => exact .pure fun _ hworld => ⟨hworld, hworks⟩
  · next fault hfault => exact .fail (h (by simp [hfault]))

theorem sat_explained {E : UploadWorld → Prop} {G : Protocol.Frame → Prop} (explanation : String)
    (step : UploadStep) (h : env.fails step ≠ none → ∀ world, P world → E world) :
    Traced.Sat (fun _ => True) G P (explained env explanation step)
      (fun _ world => P world ∧ env.fails step = none) E := by
  unfold explained
  split
  · next hworks => exact .pure fun _ hworld => ⟨hworld, hworks⟩
  · next fault hfault => exact .fail (h (by simp [hfault]))

/-- A node is read without a change. -/
theorem sat_nodeAt {E : UploadWorld → Prop} {G : Protocol.Frame → Prop} (path : GuestPath) :
    Traced.Sat (fun _ => True) G P (nodeAt path)
      (fun node world => P world ∧ world.files path = node) E :=
  .read fun _ hworld => ⟨hworld, rfl⟩

theorem sat_setNode {E : UploadWorld → Prop} {G : Protocol.Frame → Prop} {path : GuestPath}
    {node : Option GuestNode} {Q : UploadWorld → Prop}
    (h : ∀ world, P world → Q { world with files := Function.update world.files path node }) :
    Traced.Sat (fun _ => True) G P (setNode path node) (fun _ => Q) E :=
  .modify h

theorem sat_sendFrame {E : UploadWorld → Prop} {G : Protocol.Frame → Prop} (step : UploadStep)
    (frame : Protocol.Frame) (hframe : G frame)
    (h : env.fails step ≠ none → ∀ world, P world → E world) :
    Traced.Sat (fun _ => True) G P (sendFrame env step frame)
      (fun _ world => P world ∧ env.fails step = none) E :=
  (sat_callStep step h).bind fun _ => .emit fun _ hworld _ => ⟨hframe, hworld⟩

theorem announced_of_error {frame : Protocol.Frame} (hkind : frame.kind = .error) :
    Announced content frame := by
  intro hdone
  rw [hkind] at hdone
  cases hdone

/-- Whether the error reaches the client or not, the files are as they were. -/
theorem sat_sendError {G : Protocol.Frame → Prop} (message : String)
    (hG : ∀ frame : Protocol.Frame, frame.kind = .error → G frame) :
    Traced.Sat (fun _ => True) G P (sendError env message) (fun _ => P) P :=
  (sat_sendFrame .sendError _ (hG _ rfl) fun _ _ => id).mono (fun _ => id) (fun _ _ h => h.1)
    fun _ => id

/-! ### Each part -/

variable (hne : destination ≠ temporary)
include hne

/-- A staging file that is not created leaves everything as it was. -/
theorem sat_createNew
    (hcontent : env.fails .create ≠ none ∨ initial temporary ≠ none → content = none) :
    Receives initial temporary destination content
      (fun world => Settled initial temporary destination none world ∧
        world.files temporary = initial temporary)
      (createNew env temporary)
      (fun _ world => Staged initial temporary destination [] world ∧
        env.fails .create = none ∧ initial temporary = none) := by
  -- A call that fails leaves the files alone.
  have hfailed : env.fails .create ≠ none → ∀ world,
      (Settled initial temporary destination none world ∧
        world.files temporary = initial temporary) →
      Settled initial temporary destination content world := by
    rintro hfault world ⟨h, -⟩
    rwa [hcontent (.inl hfault)]
  -- One that works still needs the path to be free.
  have hopened : ∀ u : Unit, Receives initial temporary destination content
      (fun world => (Settled initial temporary destination none world ∧
        world.files temporary = initial temporary) ∧ env.fails .create = none)
      (do
        match ← nodeAt temporary with
        | some _ => Traced.fail "File exists (os error 17)"
        -- It is free: the staging file is there, and empty.
        | none => setNode temporary (some (.file [])))
      (fun _ world => Staged initial temporary destination [] world ∧
        env.fails .create = none ∧ initial temporary = none) := by
    intro _
    apply (sat_nodeAt temporary).bind
    intro node
    cases node with
    | some node =>
      apply Traced.Sat.fail
      rintro world ⟨⟨⟨h, hsame⟩, -⟩, hnode⟩
      rwa [hcontent (.inr (by rw [← hsame, hnode]; simp))]
    | none =>
      apply sat_setNode
      rintro world ⟨⟨⟨h, hsame⟩, hworks⟩, hnode⟩
      exact ⟨h.staged hne, hworks, by rw [← hsame, hnode]⟩
  -- The platforms differ in the text of the error only.
  unfold createNew
  cases env.platform with
  | windows => exact (sat_explained _ _ hfailed).bind hopened
  | unix => exact (sat_callStep _ hfailed).bind hopened

/-- What is appended to the staging file stands behind what it has. -/
theorem sat_append (bytes : Bytes) :
    Receives initial temporary destination content (Staged initial temporary destination written)
      (append temporary bytes)
      (fun _ => Staged initial temporary destination (written ++ bytes)) := by
  apply (sat_nodeAt temporary).bind
  intro node
  split
  · next held =>
    apply sat_setNode
    rintro world ⟨h, hnode⟩
    obtain rfl : written = held := by simpa [h.staging] using hnode
    exact h.toSettled.staged hne
  · next hother =>
    apply Traced.Sat.of_false
    rintro world ⟨h, hnode⟩
    exact hother written (by rw [← hnode, h.staging])

/-- Nothing is brought when a write fails. -/
theorem sat_writeAll {index : Nat} {bytes : Bytes}
    (hcontent : env.fails (.write index) ≠ none → content = none) :
    Receives initial temporary destination content (Staged initial temporary destination written)
      (writeAll env index temporary bytes)
      (fun _ world => Staged initial temporary destination (written ++ bytes) world ∧
        env.fails (.write index) = none) := by
  unfold writeAll
  split
  · next hworks => exact (sat_append hne bytes).mono (fun _ => id) (fun _ _ h => ⟨h, hworks⟩) fun _ => id
  · next fault hfault =>
    apply (sat_append hne (bytes.take fault.written)).bind
    intro _
    apply Traced.Sat.fail
    intro world h
    rw [hcontent (by simp [hfault])]
    exact h.toSettled

/-- The staging file gets its name if the call for it works.  On the platforms that link, it may
    still have its first name then. -/
theorem sat_publish
    (hcontent : content = if env.fails (publishing env.platform) = none then some written else none) :
    Receives initial temporary destination content (Staged initial temporary destination written)
      (publish env temporary destination)
      (fun _ world => Settled initial temporary destination content world ∧
        world.files temporary = none ∧ content = some written) := by
  -- Where the publishing call fails, the file stays under its first name.
  have hfailed : env.fails (publishing env.platform) ≠ none → ∀ world,
      Staged initial temporary destination written world →
      Settled initial temporary destination content world := by
    intro hfault world h
    rw [hcontent, if_neg hfault]
    exact h.toSettled
  -- No other party has created the destination in the meantime.
  have htaken : ∀ world : UploadWorld, ∀ node,
      Staged initial temporary destination written world →
      world.files destination = some node → False := by
    intro world node h hnode
    simp [h.brought] at hnode
  unfold publish
  cases hplatform : env.platform with
  -- `publish_new` renames: the staging file is gone when the destination is there.
  | windows =>
    rw [hplatform, publishing] at hcontent hfailed
    apply (sat_explained _ _ hfailed).bind
    intro _
    apply (sat_nodeAt destination).bind
    intro node
    cases node with
    | some node => exact .of_false fun world h => htaken world node h.1.1 h.2
    | none =>
      apply (sat_nodeAt temporary).bind
      intro node
      apply Traced.Sat.bind (Q := fun _ world => (Settled initial temporary destination none world ∧
        world.files temporary = none) ∧ env.fails .publish = none ∧ node = some (.file written))
      -- First the old name is taken away.
      · apply sat_setNode
        rintro world ⟨⟨⟨h, hworks⟩, -⟩, hnode⟩
        refine ⟨⟨h.toSettled.setTemporary hne none, Function.update_self _ _ _⟩, hworks, ?_⟩
        rw [← hnode, h.staging]
      -- Then the new one is given, with the content that was staged.
      · intro _
        apply Traced.Sat.bind (Q := fun _ world => Settled initial temporary destination content world ∧
          world.files temporary = none ∧ content = some written)
        · apply sat_setNode
          rintro world ⟨⟨h, hgone⟩, hworks, rfl⟩
          rw [hcontent, if_pos hworks]
          refine ⟨h.setDestination written, ?_, rfl⟩
          show Function.update world.files destination _ temporary = none
          rw [Function.update_of_ne hne.symm]
          exact hgone
        · intro _
          exact .modify fun world h => ⟨⟨h.1.brought, h.1.others⟩, h.2⟩
  -- `hard_link`, then `remove_file`: in between the file has both names.
  | unix =>
    rw [hplatform, publishing] at hcontent hfailed
    have hlinked : Receives initial temporary destination content
        (Staged initial temporary destination written) (hardLink env temporary destination)
        (fun _ world => Settled initial temporary destination content world ∧
          content = some written) := by
      apply (sat_callStep _ hfailed).bind
      intro _
      apply (sat_nodeAt destination).bind
      intro node
      cases node with
      | some node => exact .of_false fun world h => htaken world node h.1.1 h.2
      | none =>
        apply (sat_nodeAt temporary).bind
        intro node
        apply sat_setNode
        rintro world ⟨⟨⟨h, hworks⟩, -⟩, hnode⟩
        obtain rfl : some (.file written) = node := by rw [← hnode, h.staging]
        rw [hcontent, if_pos hworks]
        exact ⟨h.toSettled.setDestination written, rfl⟩
    -- The link is there; a failure to remove the old name still ends with an error.
    apply hlinked.bind
    intro _
    apply (sat_callStep _ fun _ _ h => h.1).bind
    intro _
    apply (sat_nodeAt temporary).bind
    intro node
    cases node with
    | none => exact .fail fun _ h => h.1.1.1
    | some node =>
      apply sat_setNode
      rintro world ⟨⟨⟨h, hbrought⟩, -⟩, -⟩
      exact ⟨h.setTemporary hne none, Function.update_self _ _ _, hbrought⟩

/-- A last frame that does not fit leaves no destination. -/
theorem sat_finishUpload {request : FilePutRequest} {payload : Bytes} {received : Nat}
    (hcontent : content =
      if decodeFileLength payload = .ok request.length ∧ received = request.length.toNat ∧
          env.fails .flush = none ∧ env.fails .sync = none ∧
          env.fails (publishing env.platform) = none then
        some written
      else none) :
    Receives initial temporary destination content (Staged initial temporary destination written)
      (finishUpload env request temporary destination payload received)
      (fun _ world => Settled initial temporary destination content world ∧
        world.files temporary = none) := by
  -- As long as nothing is published, nothing is brought.
  have hrefused : content = none → ∀ world, Staged initial temporary destination written world →
      Settled initial temporary destination content world := by
    rintro hnone world h
    rw [hnone]
    exact h.toSettled
  unfold finishUpload
  cases hdecode : decodeFileLength payload with
  -- The last frame has no length in it.
  | error error => exact .fail (hrefused (by rw [hcontent, if_neg (by simp [hdecode])]))
  | ok declared =>
    by_cases hlength : declared ≠ request.length ∨ received ≠ request.length.toNat
    -- The declared or the received length is not that of the request.
    · show Receives _ _ _ _ _ (if declared ≠ request.length ∨ received ≠ request.length.toNat then
        _ else _) _
      rw [if_pos hlength]
      refine .fail (hrefused ?_)
      rw [hcontent, if_neg]
      rintro ⟨hdeclared, hreceived, -⟩
      rw [hdecode] at hdeclared
      exact hlength.elim (fun h => h (Except.ok.inj hdeclared)) fun h => h hreceived
    · show Receives _ _ _ _ _ (if declared ≠ request.length ∨ received ≠ request.length.toNat then
        _ else _) _
      -- Both lengths are right: the content now depends on the calls alone.
      rw [if_neg hlength]
      obtain ⟨rfl, hreceived⟩ : declared = request.length ∧ received = request.length.toNat := by
        simpa using hlength
      simp only [hdecode, hreceived, true_and] at hcontent
      apply (sat_callStep .flush fun hfault => hrefused (by
        rw [hcontent, if_neg fun h => hfault h.1])).bind
      intro _
      apply Traced.Sat.given
      intro hflush
      apply (sat_explained _ .sync fun hfault => hrefused (by
        rw [hcontent, if_neg fun h => hfault h.2.1])).bind
      intro _
      apply Traced.Sat.given
      intro hsync
      simp only [hflush, hsync, true_and] at hcontent
      -- What is published is what was written; then the end is sent.
      apply (sat_publish hne hcontent).bind
      intro _
      refine Traced.Sat.mono (P := fun world => (Settled initial temporary destination content world ∧
        world.files temporary = none) ∧ content = some written) (Traced.Sat.given fun hbrought => ?_)
        (fun _ h => ⟨⟨h.1, h.2.1⟩, h.2.2⟩) (fun _ _ => id) (fun _ => id)
      refine (sat_sendFrame .sendDone _ ?_ fun _ _ h => h.1).mono (fun _ => id) (fun _ _ h => h.1)
        fun _ => id
      intro _
      rw [hbrought]
      exact Option.some_ne_none _

/-- The frames leave what they bring after what was written. -/
theorem sat_receiveFrames {request : FilePutRequest} {frames : List Protocol.Frame}
    {received index : Nat}
    (hcontent : content =
      (broughtBy env request.length frames received index).map (written ++ ·)) :
    Receives initial temporary destination content (Staged initial temporary destination written)
      (receiveFrames env request temporary destination frames received index)
      (fun _ world => Settled initial temporary destination content world ∧
        world.files temporary = none) := by
  -- By induction on the frames: each write moves a payload from what is to come to what was written.
  induction frames generalizing received index written with
  | nil =>
    apply Traced.Sat.fail
    intro world h
    rw [hcontent]
    exact h.toSettled
  | cons frame frames ih =>
    obtain ⟨kind, payload⟩ := frame
    have hrefused : content = none → ∀ world, Staged initial temporary destination written world →
        Settled initial temporary destination content world := by
      rintro hnone world h
      rw [hnone]
      exact h.toSettled
    cases kind
    case fileData =>
      simp only [broughtBy] at hcontent
      cases hsum : checkedAdd received payload.length with
      | none =>
        -- No length that fits in 64 bits can be reached after such a sum.
        simp only [receiveFrames, hsum]
        refine .bind (.fail (hrefused ?_)) fun _ => .of_false (P := fun _ => False) fun _ h => h
        have hlength := request.length.toNat_lt
        unfold checkedAdd usizeSize at hsum
        rw [hcontent, if_neg fun h => ?_, Option.map_none]
        have hfits := h.1
        exact absurd hsum (by rw [if_pos (by omega)]; simp)
      | some sum =>
        obtain rfl : received + payload.length = sum := by
          unfold checkedAdd at hsum
          split at hsum
          · exact Option.some.inj hsum
          · cases hsum
        simp only [receiveFrames, hsum, okOr_some, Traced.ofExcept, pure_bind]
        apply Traced.Sat.ite
        · intro hover
          refine .fail (hrefused ?_)
          rw [hcontent, if_neg fun h => absurd h.1 (Nat.not_le.mpr hover), Option.map_none]
        · intro hfits
          apply (sat_writeAll hne fun hfault => by
            rw [hcontent, if_neg fun h => hfault h.2, Option.map_none]).bind
          intro _
          apply Traced.Sat.given
          intro hwrite
          apply ih
          rw [hcontent, if_pos ⟨Nat.not_lt.mp hfits, hwrite⟩, Option.map_map]
          congr 1
          funext brought
          simp
    case fileDone =>
      apply sat_finishUpload hne
      rw [hcontent, broughtBy, apply_ite (Option.map (written ++ ·))]
      simp
    all_goals exact .fail (hrefused hcontent)

/-- A staging file that is deleted through its handle is gone if it was. -/
theorem sat_discard {E : UploadWorld → Prop} {gone : Prop} :
    Traced.Sat (fun _ => True) (Announced content)
      (fun world => Settled initial temporary destination content world ∧
        (gone → world.files temporary = none))
      (discard env temporary)
      (fun _ world => Settled initial temporary destination content world ∧
        (gone → world.files temporary = none)) E := by
  unfold discard
  apply Traced.Sat.look.bind
  intro published
  apply Traced.Sat.ite
  · exact fun _ => .pure fun _ h => h
  · intro _
    split
    · exact .pure fun _ h => h
    · apply sat_setNode
      rintro world ⟨h, -⟩
      exact ⟨h.setTemporary hne none, fun _ => Function.update_self _ _ _⟩

/-- An upload that is admitted brings what its frames bring, and leaves no staging file if it
    succeeds. -/
theorem sat_storeUpload {request : FilePutRequest} {frames : List Protocol.Frame}
    (hcontent : content =
      if env.fails .create = none ∧ initial temporary = none ∧ env.fails .sendPong = none then
        broughtBy env request.length frames 0 0
      else none) :
    Receives initial temporary destination content
      (fun world => Settled initial temporary destination none world ∧
        world.files temporary = initial temporary)
      (storeUpload env request temporary destination frames)
      (fun _ world => Settled initial temporary destination content world ∧
        world.files temporary = none) := by
  unfold storeUpload
  -- Without a new staging file there is nothing to receive.
  apply (sat_createNew hne fun hfault => by
    rw [hcontent, if_neg]
    rintro ⟨hcreate, hunused, -⟩
    exact hfault.elim (fun h => h hcreate) fun h => h hunused).bind
  intro _
  apply Traced.Sat.given
  rintro ⟨hcreate, hunused⟩
  -- The answer and the frames, from an empty staging file on.
  have hreceived : Receives initial temporary destination content
      (Staged initial temporary destination [])
      (do
        sendFrame env .sendPong { kind := .pong, payload := [] }
        receiveFrames env request temporary destination frames 0 0)
      (fun _ world => Settled initial temporary destination content world ∧
        world.files temporary = none) := by
    apply Traced.Sat.bind (sat_sendFrame .sendPong _ (fun hkind => by cases hkind) ?_)
    · intro _
      apply Traced.Sat.given
      intro hpong
      apply sat_receiveFrames hne
      rw [hcontent, if_pos ⟨hcreate, hunused, hpong⟩]
      simp
    · intro hfault world h
      rw [hcontent, if_neg fun h => hfault h.2.2]
      exact h.toSettled
  apply Traced.Sat.bind (Q := fun result world =>
    Settled initial temporary destination content world ∧
      (result = .ok () → world.files temporary = none))
  -- However that ends, the content is decided.
  · exact .attempt (hreceived.mono (fun _ => id) (fun _ _ h => ⟨h.1, fun _ => h.2⟩) fun _ => id)
      (fun _ _ h => ⟨h, fun h => by cases h⟩) fun _ _ h => by cases h
  · intro result
    have hreturned : Receives initial temporary destination content
        (fun world => Settled initial temporary destination content world ∧
          (result = .ok () → world.files temporary = none))
        (Traced.ofExcept result)
        (fun _ world => Settled initial temporary destination content world ∧
          world.files temporary = none) :=
      .ofExcept (fun _ hresult _ h => ⟨h.1, h.2 hresult⟩) fun _ h => h.1
    -- On Windows the handle is discarded here, and a staging file that is left goes with it.
    apply Traced.Sat.ite
    · exact fun _ => (sat_discard hne).bind fun _ => hreturned
    · exact fun _ => hreturned

/-- After an error the staging file is gone, unless it cannot be removed. -/
theorem sat_cleanUp {E : UploadWorld → Prop} :
    Traced.Sat (fun _ => True) (Announced content) (Settled initial temporary destination content)
      (Traced.attempt (fun _ => false) (removeFile env .cleanUp temporary))
      (fun _ world => Settled initial temporary destination content world ∧
        (env.fails .cleanUp = none → world.files temporary = none)) E := by
  have hremoved : Traced.Sat (fun _ => True) (Announced content)
      (Settled initial temporary destination content) (removeFile env .cleanUp temporary)
      (fun _ world => Settled initial temporary destination content world ∧
        (env.fails .cleanUp = none → world.files temporary = none))
      (fun world => Settled initial temporary destination content world ∧
        (env.fails .cleanUp = none → world.files temporary = none)) := by
    apply (sat_callStep _ fun hfault _ h => ⟨h, fun hworks => absurd hworks hfault⟩).bind
    intro _
    apply (sat_nodeAt temporary).bind
    intro node
    cases node with
    | none => exact .fail fun _ h => ⟨h.1.1, fun _ => h.2⟩
    | some node =>
      apply sat_setNode
      rintro world ⟨⟨h, -⟩, -⟩
      exact ⟨h.setTemporary hne none, fun _ => Function.update_self _ _ _⟩
  exact .attempt hremoved (fun _ _ => id) fun _ _ h => by cases h

end Absent

/-! ## Requests -/

/-- The calls up to the one that gives the staging file its name, with the number of writes. -/
def stepsToPublication (platform : Platform) (writes : Nat) : List UploadStep :=
  [.linkBoundary, .metadata, .clock, .create, .sendPong] ++ (List.range writes).map .write ++
    [.flush, .sync, publishing platform]

/-- A request whose frames bring `content`: the destination can be named, the frames are data and
    then a declaration of the requested length, which is the length of all the data, and every call
    up to the new name of the staging file works. -/
structure Uploads (env : UploadEnv) (request : FilePutRequest) (frames : List Protocol.Frame)
    (files : GuestPath → Option GuestNode) (content : Bytes) : Prop where
  parent : env.isDirectory (parentOf (env.parse request.destination)) = true
  named : (env.parse request.destination).fileName ≠ none
  unused : files (stagingPath env (env.parse request.destination)) = none
  frames : ∃ data payload rest, frames = data ++ { kind := .fileDone, payload } :: rest ∧
    (∀ frame ∈ data, frame.kind = .fileData) ∧ decodeFileLength payload = .ok request.length ∧
    content = data.flatMap (·.payload) ∧ content.length = request.length.toNat ∧
    ∀ step ∈ stepsToPublication env.platform data.length, env.fails step = none

section Request

variable (env : UploadEnv) (request : FilePutRequest) (frames : List Protocol.Frame)
  (initial : GuestPath → Option GuestNode)

/-- The checks before the staging file is created succeed. -/
def Admitted : Prop :=
  env.fails .linkBoundary = none ∧
    env.isDirectory (parentOf (env.parse request.destination)) = true ∧
    env.fails .metadata = none ∧ env.fails .clock = none ∧
    (env.parse request.destination).fileName ≠ none

instance : Decidable (Admitted env request) := by
  unfold Admitted
  infer_instance

/-- What a request puts at a destination that is not there. -/
def deposited : Option Bytes :=
  if Admitted env request ∧ env.fails .create = none ∧
      initial (stagingPath env (env.parse request.destination)) = none ∧
      env.fails .sendPong = none then
    broughtBy env request.length frames 0 0
  else none

variable {env request frames initial}

theorem mem_stepsToPublication {platform : Platform} {writes : Nat} :
    (∀ step ∈ stepsToPublication platform writes, env.fails step = none) ↔
      (env.fails .linkBoundary = none ∧ env.fails .metadata = none ∧ env.fails .clock = none ∧
        env.fails .create = none ∧ env.fails .sendPong = none) ∧
      (∀ i < writes, env.fails (.write i) = none) ∧
      env.fails .flush = none ∧ env.fails .sync = none ∧
      env.fails (publishing platform) = none := by
  simp [stepsToPublication, or_imp, forall_and, and_assoc]

/-- What a request deposits is what an upload of it is. -/
theorem deposited_eq_some {content : Bytes} :
    deposited env request frames initial = some content ↔
      Uploads env request frames initial content := by
  unfold deposited
  constructor
  · intro h
    split at h
    case isFalse => cases h
    case isTrue hadmitted =>
      obtain ⟨⟨hboundary, hparent, hmetadata, hclock, hnamed⟩, hcreate, hunused, hpong⟩ := hadmitted
      obtain ⟨data, hcompletes, rfl⟩ := broughtBy_eq_some.mp h
      obtain ⟨payload, rest, hframes, hdecode⟩ := hcompletes.done
      refine ⟨hparent, hnamed, hunused, data, payload, rest, hframes, hcompletes.isData, hdecode, rfl,
        by simpa using hcompletes.total, mem_stepsToPublication.mpr ?_⟩
      exact ⟨⟨hboundary, hmetadata, hclock, hcreate, hpong⟩, by simpa using hcompletes.writes,
        hcompletes.flush, hcompletes.sync, hcompletes.named⟩
  · rintro ⟨hparent, hnamed, hunused, data, payload, rest, hframes, hdata, hdecode, rfl, htotal,
      hsteps⟩
    obtain ⟨⟨hboundary, hmetadata, hclock, hcreate, hpong⟩, hwrites, hflush, hsync, hpublished⟩ :=
      mem_stepsToPublication.mp hsteps
    rw [if_pos ⟨⟨hboundary, hparent, hmetadata, hclock, hnamed⟩, hcreate, hunused, hpong⟩]
    refine broughtBy_eq_some.mpr ⟨data, ?_, rfl⟩
    exact ⟨hdata, ⟨payload, rest, hframes, hdecode⟩, by simpa using htotal, by simpa using hwrites,
      hflush, hsync, hpublished⟩

/-- The staging file has another name than the destination. -/
theorem destination_ne_stagingPath (env : UploadEnv) (destination : GuestPath) :
    destination ≠ stagingPath env destination := by
  intro h
  have hlength := congrArg (fun path : GuestPath => path.last.length) h
  have hname : (toString destination.last).length = destination.last.length := rfl
  have hdot : (toString ".").length = 1 := rfl
  simp only [stagingPath, GuestPath.withFileName, String.length_append] at hlength
  omega

/-- What a call leaves of the files, when there was no destination. -/
structure Deposits (env : UploadEnv) (request : FilePutRequest)
    (initial : GuestPath → Option GuestNode) (content : Option Bytes) (removed : Prop)
    (world : UploadWorld) : Prop where
  settled : Settled initial (stagingPath env (env.parse request.destination))
    (env.parse request.destination) content world
  staging : removed →
    world.files (stagingPath env (env.parse request.destination)) = none ∨ world.files = initial

theorem sat_uploadTemporaryPath {P E : UploadWorld → Prop} {G : Protocol.Frame → Prop}
    {destination : GuestPath}
    (h : ¬ (env.fails .clock = none ∧ destination.fileName ≠ none) → ∀ world, P world → E world) :
    Traced.Sat (fun _ => True) G P (uploadTemporaryPath env destination)
      (fun path world => P world ∧ env.fails .clock = none ∧ destination.fileName ≠ none ∧
        path = stagingPath env destination) E := by
  unfold uploadTemporaryPath
  apply (sat_callStep .clock fun hfault => h fun hclock => hfault hclock.1).bind
  intro _
  split
  · next hname => exact .fail fun world hworld => h (fun hnamed => hnamed.2 hname) world hworld.1
  · next name hname => exact .pure fun world hworld => ⟨hworld.1, hworld.2, by simp [hname], rfl⟩

/-- A request for a destination that is not there. -/
theorem sat_receiveFile (frames : List Protocol.Frame) {payload : Bytes}
    (hrequest : FilePutRequest.decode payload = .ok request)
    (habsent : initial (env.parse request.destination) = none) :
    Traced.Sat (fun _ => True) (Announced (deposited env request frames initial))
      (fun world => world.files = initial)
      (receiveFile env payload frames)
      (fun _ => Deposits env request initial (deposited env request frames initial) True)
      (Deposits env request initial (deposited env request frames initial)
        (env.fails .cleanUp = none)) := by
  -- A request that is not admitted leaves the files, and nothing is deposited.
  have huntouched : ¬ Admitted env request → ∀ world : UploadWorld, world.files = initial →
      Deposits env request initial (deposited env request frames initial)
        (env.fails .cleanUp = none) world := by
    rintro hrejected world rfl
    refine ⟨⟨?_, fun _ _ _ => rfl⟩, fun _ => .inr rfl⟩
    rw [habsent, deposited, if_neg fun h => hrejected h.1, Option.map_none]
  -- Nor does it where a refusal is sent first, whether or not that works.
  have hrefuse : ∀ message, ¬ Admitted env request →
      Traced.Sat (fun _ => True) (Announced (deposited env request frames initial))
        (fun world => world.files = initial)
        (do
          sendError env message
          Traced.fail message : Upload Unit)
        (fun _ => Deposits env request initial (deposited env request frames initial) True)
        (Deposits env request initial (deposited env request frames initial)
          (env.fails .cleanUp = none)) := by
    intro message hrejected
    exact ((sat_sendError message fun _ => announced_of_error).weaken
      (huntouched hrejected)).bind fun _ => .fail (huntouched hrejected)
  -- The checks before the staging file, one after the other; each can end the request.
  unfold receiveFile
  rw [hrequest]
  simp only [Except.mapError, Traced.ofExcept, pure_bind]
  apply (sat_callStep .linkBoundary fun hfault => huntouched fun h => hfault h.1).bind
  intro _
  apply Traced.Sat.given
  intro hboundary
  apply Traced.Sat.ite
  · exact fun hparent => hrefuse _ fun h => by simp [h.2.1] at hparent
  intro hparent
  apply (sat_callStep .metadata fun hfault => huntouched fun h => hfault h.2.2.1).bind
  intro _
  apply Traced.Sat.given
  intro hmetadata
  -- The destination is not there, by the hypothesis.
  apply (sat_nodeAt _).bind
  intro node
  cases node with
  | some node =>
    apply Traced.Sat.of_false
    rintro world ⟨rfl, hnode⟩
    simp [habsent] at hnode
  | none =>
    apply (sat_uploadTemporaryPath fun hclock world h =>
      huntouched (fun h => hclock h.2.2.2) world h.1).bind
    intro temporary
    refine Traced.Sat.mono (P := fun world => world.files = initial ∧
        (env.fails .clock = none ∧ (env.parse request.destination).fileName ≠ none ∧
          temporary = stagingPath env (env.parse request.destination)))
      (Traced.Sat.given ?_) (fun _ h => ⟨h.1.1, h.2⟩) (fun _ _ => id) fun _ => id
    rintro ⟨hclock, hnamed, rfl⟩
    -- The request is admitted; from here on the content depends on the staging file.
    have hadmitted : Admitted env request :=
      ⟨hboundary, by simpa using hparent, hmetadata, hclock, hnamed⟩
    have hne := destination_ne_stagingPath env (env.parse request.destination)
    have hcontent : deposited env request frames initial =
        if env.fails .create = none ∧
            initial (stagingPath env (env.parse request.destination)) = none ∧
            env.fails .sendPong = none then
          broughtBy env request.length frames 0 0
        else none := by
      simp only [deposited, hadmitted, true_and]
    apply Traced.Sat.bind (Q := fun result world =>
      Settled initial (stagingPath env (env.parse request.destination))
        (env.parse request.destination) (deposited env request frames initial) world ∧
      (result = .ok () → world.files (stagingPath env (env.parse request.destination)) = none))
    -- The upload itself leaves the files settled, whether or not it succeeds.
    · refine .attempt ((sat_storeUpload hne hcontent).mono ?_ (fun _ _ h => ⟨h.1, fun _ => h.2⟩)
        fun _ => id) (fun _ _ h => ⟨h, fun h => by cases h⟩) fun _ _ h => by cases h
      rintro world rfl
      exact ⟨⟨habsent, fun _ _ _ => rfl⟩, rfl⟩
    -- After a failure the staging file is removed, and the error is sent.
    · intro result
      cases result with
      | ok _ => exact .pure fun _ h => ⟨h.1, fun _ => .inl (h.2 rfl)⟩
      | error error =>
        apply ((sat_cleanUp hne).pre fun _ h => h.1).bind
        intro _
        apply (Traced.Sat.attempt (sat_sendError error fun _ => announced_of_error)
          (Q := fun _ world => Settled initial (stagingPath env (env.parse request.destination))
              (env.parse request.destination) (deposited env request frames initial) world ∧
            (env.fails .cleanUp = none →
              world.files (stagingPath env (env.parse request.destination)) = none))
          (fun _ _ h => h) fun _ _ h => by cases h).bind
        exact fun _ => .fail fun _ h => ⟨h.1, fun hworks => .inl (h.2 hworks)⟩

/-- A request for a destination that is there changes nothing, nor does one that is malformed. -/
theorem sat_receiveFile_refused (frames : List Protocol.Frame) {payload : Bytes}
    (hrefused : ∀ request, FilePutRequest.decode payload = .ok request →
      initial (env.parse request.destination) ≠ none) :
    Traced.Sat (fun _ => True) (fun frame => frame.kind ≠ .fileDone)
      (fun world => world.files = initial) (receiveFile env payload frames)
      (fun _ world => world.files = initial) (fun world => world.files = initial) := by
  -- A refusal is an error frame, which is not the end of an upload.
  have hrefuse : ∀ message, Traced.Sat (fun _ => True) (fun frame => frame.kind ≠ .fileDone)
      (fun world => world.files = initial)
      (do
        sendError env message
        Traced.fail message : Upload Unit)
      (fun _ world => world.files = initial) (fun world => world.files = initial) :=
    fun message => (sat_sendError message fun frame hkind => by simp [hkind]).bind fun _ =>
      .fail fun _ => id
  -- Every way through the checks ends before the staging file is made.
  unfold receiveFile
  cases hdecode : FilePutRequest.decode payload with
  | error error => exact .bind (.fail fun _ => id) fun _ => .of_false (P := fun _ => False) fun _ => id
  | ok request =>
    simp only [Except.mapError, Traced.ofExcept, pure_bind]
    apply ((sat_callStep .linkBoundary fun _ _ => id).mono (fun _ => id) (fun _ _ h => h.1)
      fun _ => id).bind
    intro _
    apply Traced.Sat.ite
    · exact fun _ => hrefuse _
    · intro _
      apply ((sat_callStep .metadata fun _ _ => id).mono (fun _ => id) (fun _ _ h => h.1)
        fun _ => id).bind
      intro _
      -- At the latest because the destination is there.
      apply (sat_nodeAt _).bind
      intro node
      cases node with
      | some node => exact (hrefuse _).pre fun _ h => h.1
      | none =>
        apply Traced.Sat.of_false
        rintro world ⟨rfl, hnode⟩
        exact hrefused request hdecode hnode

/-- A destination that is there is left alone, with everything else. -/
theorem files_receiveFile_of_present {payload : Bytes} {world : UploadWorld}
    (hrefused : ∀ request, FilePutRequest.decode payload = .ok request →
      world.files (env.parse request.destination) ≠ none) :
    (receiveFile env payload frames world).state.files = world.files :=
  (sat_receiveFile_refused frames hrefused).state rfl

/-- A destination that is not there is created by an upload that brings something, and by no
    other. -/
theorem deposits_receiveFile (frames : List Protocol.Frame) {payload : Bytes}
    {world : UploadWorld}
    (hrequest : FilePutRequest.decode payload = .ok request)
    (habsent : world.files (env.parse request.destination) = none) :
    Deposits env request world.files (deposited env request frames world.files)
      ((receiveFile env payload frames world).result = .ok () ∨ env.fails .cleanUp = none)
      (receiveFile env payload frames world).state := by
  have h := sat_receiveFile frames hrequest habsent
  cases hresult : (receiveFile env payload frames world).result with
  | ok _ =>
    have hdeposits := h.of_ok rfl hresult
    exact ⟨hdeposits.settled, fun _ => hdeposits.staging trivial⟩
  | error error =>
    have hdeposits := h.of_error rfl hresult
    exact ⟨hdeposits.settled, fun h => hdeposits.staging (h.resolve_left (by simp))⟩

/-- An upload is announced as done when its frames are in the file, and only then. -/
theorem uploads_of_announced {payload : Bytes} {world : UploadWorld} {frame : Protocol.Frame}
    (hframe : frame ∈ (receiveFile env payload frames world).events)
    (hdone : frame.kind = .fileDone) :
    ∃ request content, FilePutRequest.decode payload = .ok request ∧
      Uploads env request frames world.files content ∧
      (receiveFile env payload frames world).state.files (env.parse request.destination) =
        some (.file content) := by
  by_cases hrefused : ∀ request, FilePutRequest.decode payload = .ok request →
      world.files (env.parse request.destination) ≠ none
  · have h := (sat_receiveFile_refused frames hrefused world rfl fun _ _ => trivial).1
    exact absurd hdone (h frame hframe)
  · push Not at hrefused
    obtain ⟨request, hrequest, habsent⟩ := hrefused
    have h := (sat_receiveFile frames hrequest habsent world rfl fun _ _ => trivial).1
    obtain ⟨content, hcontent⟩ := Option.ne_none_iff_exists'.mp (h frame hframe hdone)
    refine ⟨request, content, hrequest, deposited_eq_some.mp hcontent, ?_⟩
    rw [(deposits_receiveFile frames hrequest habsent).settled.brought, hcontent, Option.map_some]

end Request

end Lsw.Agent.FilePut
