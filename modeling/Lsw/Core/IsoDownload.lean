import Lsw.Core.ManifestText
import Lsw.Lib.Traced

/-!
# Downloading an ISO

`IsoDownloader` fetches a resolved ISO into files beside its destination: the native engine into one
part file for each byte range, which it assembles into a temporary file, and `aria2c` into the
temporary file itself.  What a run leaves there, the next run to the same destination continues.

Every byte of a file carries the ISO it was fetched for.  The answers of the CDN and of the resolver
are inputs of a run, and so are the faults of its calls of the operating system: a call may fail,
panic, or be the last one before the process is killed, and a write that does not finish has
written as much as the environment likes.  Progress reports are left out.
-/

namespace Lsw.Core.IsoDownload

open Lsw.Lib

/-! ## Identities -/

/-- `url::Url`, by what the checks read of it. -/
structure Url where
  scheme : Str
  host : Option Str
  username : Str
  password : Option Str
  fragment : Option Str
  deriving DecidableEq

/-- `ResolvedWindowsIso`, without the fields that the download does not read. -/
structure ResolvedWindowsIso where
  productId : Str
  skuId : Str
  filename : Str
  expectedSha256 : Str
  downloadUrl : Url
  deriving DecidableEq

/-- `str::eq_ignore_ascii_case`. -/
def eqIgnoreAsciiCase (left right : Str) : Bool :=
  left.map toAsciiLowercase == right.map toAsciiLowercase

/-- The test of `ensure_same_iso`. -/
def sameIso (initial refreshed : ResolvedWindowsIso) : Bool :=
  initial.productId == refreshed.productId && initial.skuId == refreshed.skuId &&
    initial.filename == refreshed.filename &&
    eqIgnoreAsciiCase initial.expectedSha256 refreshed.expectedSha256

/-- `ensure_same_iso`. -/
def ensureSameIso (initial refreshed : ResolvedWindowsIso) : Result Unit :=
  rejectIf (sameIso initial refreshed = false) (.invalidValue "Microsoft ISO refresh"
    [.text "Microsoft changed the selected ISO while refreshing an expired URL; refusing to combine downloads"])

/-- `validate_microsoft_cdn_url`. -/
def validateMicrosoftCdnUrl (url : Url) : Result Unit :=
  let host := (url.host.getD []).map toAsciiLowercase
  let allowed := [".download.prss.microsoft.com", ".dl.delivery.mp.microsoft.com",
    ".delivery.mp.microsoft.com"].any fun suffix => suffix.toList.isSuffixOf host
  rejectIf (¬ (url.scheme = "https".toList ∧ allowed = true ∧ url.username = [] ∧
      url.password = none ∧ url.fragment = none))
    (.invalidValue "Microsoft download URL"
      [.text "URL is outside the Microsoft HTTPS CDN allowlist"])

/-! ## Files -/

/-- A byte of a file, and the ISO it was fetched for, if a download wrote it. -/
structure FetchedByte where
  value : UInt8
  source : Option ResolvedWindowsIso
  deriving DecidableEq

/-- What stands at a path. -/
inductive Node where
  | file (bytes : List FetchedByte)
  | symlink
  | directory
  deriving DecidableEq

/-- A path: its parent directory and its last component. -/
structure Path where
  parent : PathBuf
  last : PathBuf
  deriving DecidableEq

namespace Path

/-- `path.file_name().and_then(|value| value.to_str())`. -/
def fileName (path : Path) : Option Str :=
  if path.last = .ofStr "..".toList then none else path.last.toStr

/-- `path.with_file_name`. -/
def withFileName (path : Path) (name : Str) : Path := { path with last := .ofStr name }

/-- `path.display()`. -/
def display (path : Path) : Str := path.parent.display ++ '/' :: path.last.display

end Path

/-- The files beside the destination. -/
abbrev Directory := Path → Option Node

/-- `download_temporary_path`. -/
def downloadTemporaryPath (destination : Path) : Result Path :=
  match destination.fileName with
  | some filename =>
    .ok (destination.withFileName ('.' :: filename ++ ".lsw-download".toList))
  | none => .error (.invalidValue "ISO destination" [.text "filename must be valid UTF-8"])

/-- `sidecar_path`. -/
def sidecarPath (path : Path) (suffix : Str) : Result Path :=
  match path.fileName with
  | some filename => .ok (path.withFileName (filename ++ '.' :: suffix))
  | none => .error (.invalidValue "ISO partial download" [.text "filename must be valid UTF-8"])

/-- The file of a byte range: its name is that of the temporary file and the index of the range. -/
def partPath (temporary : Path) (index : Nat) : Result Path :=
  sidecarPath temporary ("part".toList ++ decimal index)

/-! ## Calls of the operating system -/

/-- How a call goes wrong. -/
inductive FaultKind where
  | fails
  | panics
  | kills
  deriving DecidableEq

/-- A call that goes wrong, and how much it has written, if it writes. -/
structure Fault where
  kind : FaultKind
  written : Nat
  deriving DecidableEq

/-- The ways a run stops before its end. -/
inductive Halt where
  | failed (error : LswError)
  /-- `LswError::ExternalCommandFailed`, with the status of the command. -/
  | commandFailed (status : Option Int)
  | panicked
  /-- The process is killed. -/
  | interrupted
  deriving DecidableEq

/-- The halts that no `match` on a result catches. -/
def Halt.fatal : Halt → Bool
  | .failed _ | .commandFailed _ => false
  | .panicked | .interrupted => true

def Fault.halt (fault : Fault) : Halt :=
  match fault.kind with
  | .fails => .failed .io
  | .panics => .panicked
  | .kills => .interrupted

/-- The files, and what the next calls do. -/
structure World where
  files : Directory
  faults : List (Option Fault)

/-- A file that a run hashes, and the ISO the run was asked for. -/
structure Hashed where
  asked : ResolvedWindowsIso
  bytes : List FetchedByte
  deriving DecidableEq

/-- A part of a download. -/
abbrev Download := Traced World Hashed Halt

/-- A check that needs no call. -/
def ofResult {α : Type} : Result α → Download α
  | .ok a => pure a
  | .error e => Traced.fail (.failed e)

def invalid {α : Type} (field : String) (reason : Message) : Download α :=
  Traced.fail (.failed (.invalidValue field reason))

/-- What the next call does. -/
def nextFault : Download (Option Fault) := do
  let fault ← Traced.read fun world => world.faults.head?.join
  Traced.modify fun world => { world with faults := world.faults.tail }
  return fault

/-- A call that changes no file. -/
def call : Download Unit := do
  match ← nextFault with
  | none => return ()
  | some fault => Traced.fail fault.halt

/-- A call that sets what stands at a path. -/
def setNode (path : Path) (node : Option Node) : Download Unit := do
  call
  Traced.modify fun world => { world with files := Function.update world.files path node }

/-- `fs::symlink_metadata`, where `NotFound` is `none`. -/
def symlinkMetadata (path : Path) : Download (Option Node) := do
  call
  Traced.read fun world => world.files path

/-- The bytes of a file. -/
def contents : Option Node → List FetchedByte
  | some (.file bytes) => bytes
  | _ => []

@[simp] theorem contents_none : contents none = [] := rfl

@[simp] theorem contents_file (bytes : List FetchedByte) : contents (some (.file bytes)) = bytes :=
  rfl

def bytesAt (files : Directory) (path : Path) : List FetchedByte := contents (files path)

/-- The file at a path, if one stands there. -/
def fileAt (files : Directory) (path : Path) : Option (List FetchedByte) :=
  match files path with
  | some (.file bytes) => some bytes
  | _ => none

/-- `file.write_all` at the end of a file. -/
def writeAll (path : Path) (bytes : List FetchedByte) : Download Unit := do
  let fault ← nextFault
  let written := match fault with
    | none => bytes
    | some fault => bytes.take fault.written
  Traced.modify fun world => { world with
    files := Function.update world.files path (some (.file (bytesAt world.files path ++ written))) }
  match fault with
  | none => return ()
  | some fault => Traced.fail fault.halt

/-- `fs::remove_file`. -/
def removeFile (path : Path) : Download Unit := do
  match ← Traced.read fun world => world.files path with
  | some (.file _) | some .symlink => setNode path none
  | _ => Traced.fail (.failed .io)

/-- `fs::rename` of a file. -/
def rename (old new : Path) : Download Unit := do
  call
  let node ← Traced.read fun world => world.files old
  if node = none ∨ (← Traced.read fun world => world.files new) = some .directory then
    Traced.fail (.failed .io)
  else
    Traced.modify fun world => { world with
      files := Function.update (Function.update world.files old none) new node }

/-! ## Checks of files -/

/-- `require_regular_file`. -/
def requireRegularFile (path : Path) (field : String) : Download Unit := do
  match ← symlinkMetadata path with
  | some (.file _) => return ()
  | some _ => invalid field [.shown path.display, .text " is not a regular file"]
  | none => Traced.fail (.failed .io)

/-- `validate_destination`. -/
def validateDestination (path : Path) : Download Unit := do
  match ← symlinkMetadata path with
  | some .symlink =>
    invalid "ISO destination" [.shown path.display, .text " must not be a symbolic link"]
  | some .directory =>
    invalid "ISO destination" [.shown path.display, .text " is not a regular file"]
  | some (.file _) | none => return ()

/-- `validate_partial_file`. -/
def validatePartialFile (path : Path) : Download Unit := do
  match ← symlinkMetadata path with
  | some (.file _) | none => return ()
  | some _ =>
    invalid "ISO partial download" [.shown path.display, .text " is not a regular file"]

/-- `partial_file_length`. -/
def partialFileLength (path : Path) (expected : Nat) : Download Nat := do
  match ← symlinkMetadata path with
  | some (.file bytes) =>
    if bytes.length ≤ expected then return bytes.length
    else invalid "ISO range part" [.shown path.display, .text " has an invalid type or size"]
  | some .symlink =>
    invalid "ISO range part" [.shown path.display, .text " must not be a symbolic link"]
  | some .directory =>
    invalid "ISO range part" [.shown path.display, .text " has an invalid type or size"]
  | none => return 0

/-- `remove_private_regular_file`. -/
def removePrivateRegularFile (path : Path) : Download Unit := do
  match ← symlinkMetadata path with
  | some (.file _) => removeFile path
  | some _ =>
    invalid "ISO partial download" [.text "refusing to remove non-regular ", .shown path.display]
  | none => return ()

/-- `create_private_truncated_file`. -/
def createPrivateTruncatedFile (path : Path) : Download Unit := do
  validatePartialFile path
  setNode path (some (.file []))
  call

/-! ## Answers of the CDN -/

/-- `ureq::Error`. -/
inductive HttpError where
  | status (code : Nat)
  | transport (kind : Str)
  deriving DecidableEq

/-- `ureq::Response`, with what `Url::parse` makes of the final URL. -/
structure Response where
  finalUrl : Option Url
  status : Nat
  contentLength : Option Str
  contentRange : Option Str
  deriving DecidableEq

/-- A `read` of a body. -/
inductive BodyRead where
  | bytes (chunk : List UInt8)
  | fault (fault : Fault)
  deriving DecidableEq

/-- What comes back for the request of a range. -/
structure RangeReply where
  response : Except HttpError Response
  body : List BodyRead

/-- `download_http_error`. -/
def downloadHttpError (context : String) : HttpError → LswError
  | .status code => .invalidValue "Windows ISO download"
      [.text context, .text ": CDN returned HTTP ", .shown (decimal code)]
  | .transport kind => .invalidValue "Windows ISO download"
      [.text context, .text ": network transport ", .debug kind]

/-- `validate_final_cdn_response`. -/
def validateFinalCdnResponse (response : Response) : Result Unit :=
  match response.finalUrl with
  | some url => validateMicrosoftCdnUrl url
  | none => .error (.invalidValue "Windows ISO download"
      [.text "Microsoft CDN returned an invalid final URL"])

/-- `cdn_content_length`, of what the `HEAD` request returns. -/
def cdnContentLength (head : Except HttpError Response) : Result Nat := do
  let response ← head.mapError (downloadHttpError "checking ISO size")
  validateFinalCdnResponse response
  match response.contentLength.bind fun value => (parseU64 value).toOption with
  | some length =>
    if 0 < length.toNat then return length.toNat
    else .error (.invalidValue "Windows ISO download"
      [.text "Microsoft CDN returned no valid Content-Length"])
  | none => .error (.invalidValue "Windows ISO download"
      [.text "Microsoft CDN returned no valid Content-Length"])

/-! ## The native engine -/

/-- `MAX_DOWNLOAD_ATTEMPTS`. -/
def maxDownloadAttempts : Nat := 3

/-- `MAX_CDN_CONNECTIONS`. -/
def maxCdnConnections : Nat := 4

/-- `ByteRange`: both ends belong to the range. -/
structure ByteRange where
  start : Nat
  last : Nat
  deriving DecidableEq

/-- `ByteRange::len`. -/
def ByteRange.len (range : ByteRange) : Nat := range.last - range.start + 1

/-- `split_ranges`, over the natural numbers. -/
def splitRanges (length : Nat) : Result (List ByteRange) :=
  if length = 0 then
    .error (.invalidValue "Windows ISO download"
      [.text "Microsoft CDN reported an empty file"])
  else
    let connections := min length maxCdnConnections
    let chunk := (length + connections - 1) / connections
    .ok (((List.range connections).map fun index =>
      let start := index * chunk
      ⟨start, min (start + chunk - 1) (length - 1)⟩).filter fun range => range.start ≤ range.last)

/-- The loop of `download_range` that copies a body of at most `limit` bytes; it returns what it has
    written. -/
def copyBody (iso : ResolvedWindowsIso) (path : Path) : Nat → List BodyRead → Download Nat
  | _, [] => pure 0
  | limit, .fault fault :: _ => if limit = 0 then pure 0 else Traced.fail fault.halt
  | limit, .bytes chunk :: body =>
    let bytes := chunk.take limit
    -- A read of no byte is the end of the body.
    if bytes = [] then pure 0
    else do
      writeAll path (bytes.map fun value => ⟨value, some iso⟩)
      let written ← copyBody iso path (limit - bytes.length) body
      return bytes.length + written

/-- `OpenOptions::new().create(true).append(true).open(path)`. -/
def openAppend (path : Path) : Download Unit := do
  match ← Traced.read fun world => world.files path with
  | some (.file _) => call
  | none => setNode path (some (.file []))
  | some _ => Traced.fail (.failed .io)

/-- The checks of `download_range` on the response. -/
def validateRangeResponse (start last : Nat) (reply : Except HttpError Response) :
    Result Unit := do
  let response ← reply.mapError (downloadHttpError "downloading an ISO range")
  validateFinalCdnResponse response
  rejectIf (response.status ≠ 206) (.invalidValue "Windows ISO download"
    [.text "Microsoft CDN did not honor a Range request (HTTP ", .shown (decimal response.status),
      .text ")"])
  let expectedContentRange :=
    "bytes ".toList ++ decimal start ++ '-' :: decimal last ++ "/".toList
  rejectIf (response.contentRange.any (expectedContentRange.isPrefixOf ·) = false)
    (.invalidValue "Windows ISO download"
      [.text "Microsoft CDN returned an unexpected Content-Range"])

/-- `download_range`. -/
def downloadRange (iso : ResolvedWindowsIso) (range : ByteRange) (path : Path)
    (reply : RangeReply) : Download Unit := do
  let existing ← partialFileLength path range.len
  if existing = range.len then return ()
  else
    ofResult (validateRangeResponse (range.start + existing) range.last reply.response)
    let remaining := range.len - existing
    openAppend path
    -- `set_private_file_permissions`
    call
    let written ← copyBody iso path (remaining + 1) reply.body
    -- `sync_all`
    call
    if written = remaining then return ()
    else
      invalid "Windows ISO download"
        [.text "Microsoft CDN range ended early (expected ", .shown (decimal remaining),
          .text " bytes, received ", .shown (decimal written), .text ")"]

/-- What the workers return.  Each works on its own file, so that they are run one after the other;
    one that is killed stands for the point it had reached when the process was. -/
def runWorkers : List (Download Unit) → Download (List (Except Halt Unit))
  | [] => pure []
  | worker :: workers => do
    let result ← Traced.attempt (fun _ => false) worker
    let results ← runWorkers workers
    return result :: results

/-- The results of the workers, joined: the first error counts. -/
def joinWorkers (results : List (Except Halt Unit)) : Except Halt Unit :=
  if .error .interrupted ∈ results then .error .interrupted
  else
    match results.find? (· ≠ .ok ()) with
    | some (.error .panicked) => .error (.failed (.invalidValue "Windows ISO download"
        [.text "a range worker panicked"]))
    | some result => result
    | none => .ok ()

/-- The loop that copies the parts into the assembly; it returns the number of bytes copied. -/
def assembleParts (assembly : Path) : List (Path × ByteRange) → Download Nat
  | [] => pure 0
  | (path, range) :: parts => do
    requireRegularFile path "ISO range part"
    let bytes ← Traced.read fun world => bytesAt world.files path
    if bytes.length ≠ range.len then
      invalid "Windows ISO download" [.text "a completed range has the wrong size"]
    else
      -- `File::open`
      call
      writeAll assembly bytes
      let assembled ← assembleParts assembly parts
      return bytes.length + assembled

/-- The part of `download_with_ranges` that makes room for the assembled file. -/
def removeExisting (temporary : Path) : Download Unit := do
  match ← Traced.attempt Halt.fatal (symlinkMetadata temporary) with
  | .ok (some _) =>
    validatePartialFile temporary
    removeFile temporary
  | _ => return ()

/-- `download_with_ranges`, from the parts on. -/
def assemble (temporary : Path) (length : Nat) (parts : List (Path × ByteRange)) :
    Download Unit := do
  let assembly ← ofResult (sidecarPath temporary "assembling".toList)
  createPrivateTruncatedFile assembly
  let assembled ← assembleParts assembly parts
  if assembled ≠ length then
    invalid "Windows ISO download" [.text "assembled ISO has the wrong size"]
  else
    -- `sync_all`
    call
    removeExisting temporary
    rename assembly temporary
    -- `set_private_file_permissions`
    call

/-- The paths of the parts, with their ranges. -/
def partPaths (temporary : Path) (ranges : List ByteRange) : Result (List (Path × ByteRange)) :=
  ranges.zipIdx.mapM fun part => do
    let path ← partPath temporary part.2
    return (path, part.1)

/-- `download_with_ranges`. -/
def downloadWithRanges (iso : ResolvedWindowsIso) (temporary : Path)
    (head : Except HttpError Response) (reply : Nat → RangeReply) : Download Unit := do
  ofResult (validateMicrosoftCdnUrl iso.downloadUrl)
  let length ← ofResult (cdnContentLength head)
  let ranges ← ofResult (splitRanges length)
  let parts ← ofResult (partPaths temporary ranges)
  Traced.each (fun part => do let _ ← partialFileLength part.1 part.2.len) parts
  let results ← runWorkers (parts.zipIdx.map fun part =>
    downloadRange iso part.1.2 part.1.1 (reply part.2))
  Traced.ofExcept (joinWorkers results)
  assemble temporary length parts

/-! ## The external engine -/

/-- What `aria2c --continue=true` does to the file it is told to write, and its exit status.  It
    keeps bytes of the file and adds bytes it fetches; positions that it has not written yet are no
    bytes of the file. -/
structure Aria2 where
  transfer : ResolvedWindowsIso → Option (List FetchedByte) →
    Option Int × Option (List FetchedByte)
  continues : ∀ iso before after, (transfer iso before).2 = some after →
    ∀ byte ∈ after, byte ∈ before.getD [] ∨ byte.source = some iso

/-- The run of the child process, with its exit status: it is not stopped when the downloader is. -/
def Aria2.child (aria2 : Aria2) (iso : ResolvedWindowsIso) (temporary : Path) :
    Download (Option Int) := do
  let status ← Traced.read fun world => (aria2.transfer iso (fileAt world.files temporary)).1
  Traced.modify fun world =>
    match (aria2.transfer iso (fileAt world.files temporary)).2 with
    | some after => { world with
        files := Function.update world.files temporary (some (.file after)) }
    | none => world
  return status

/-- `download_with_aria2`. -/
def downloadWithAria2 (aria2 : Aria2) (iso : ResolvedWindowsIso) (temporary : Path) :
    Download Unit := do
  ofResult (validateMicrosoftCdnUrl iso.downloadUrl)
  match temporary.fileName with
  | none => invalid "ISO download" [.text "aria2 requires a UTF-8 destination filename"]
  | some filename =>
    if '\r' ∈ filename ∨ '\n' ∈ filename then
      invalid "ISO download" [.text "aria2 destination filename contains a line break"]
    else
      validatePartialFile temporary
      -- `spawn`, and the two writes to the standard input of the child
      call
      call
      call
      let status ← aria2.child iso temporary
      -- `try_wait`
      call
      if status ≠ some 0 then Traced.fail (.commandFailed status)
      else requireRegularFile temporary "aria2 ISO download"

/-! ## A run -/

/-- `IsoDownloadEngine`. -/
inductive IsoDownloadEngine where
  | aria2
  | native
  deriving DecidableEq

/-- `IsoDownloadReport`. -/
structure IsoDownloadReport where
  destination : Path
  engine : IsoDownloadEngine
  bytes : Nat
  sha256 : Str
  resolutions : Nat
  deriving DecidableEq

/-- A run: what it is asked for, and what its environment answers at each attempt. -/
structure Run where
  initial : ResolvedWindowsIso
  /-- What stands at the parent of the destination. -/
  parent : Option Node
  /-- `aria2c`, when the host has it. -/
  aria2c : Option (Nat → Aria2)
  resolve : Nat → Result ResolvedWindowsIso
  head : Nat → Except HttpError Response
  reply : Nat → Nat → RangeReply
  faults : List (Option Fault)

/-- `IsoDownloader::engine`. -/
def Run.engine (run : Run) : IsoDownloadEngine :=
  if run.aria2c.isSome then .aria2 else .native

/-- `require_real_directory`. -/
def requireRealDirectory (node : Option Node) (path : PathBuf) (field : String) :
    Download Unit := do
  call
  match node with
  | some .directory => return ()
  | some _ => invalid field [.shown path.display, .text " is not a real directory"]
  | none => Traced.fail (.failed .io)

/-- `promote_download`. -/
def promoteDownload (temporary destination : Path) : Download Unit := do
  requireRegularFile temporary "completed ISO download"
  -- `set_private_file_permissions`
  call
  if (← Traced.read fun world => world.files destination) ≠ none then
    call
    invalid "ISO destination" [.shown destination.display,
      .text " appeared while the ISO was downloading; refusing to overwrite it"]
  else
    -- `fs::hard_link`
    setNode destination (← Traced.read fun world => world.files temporary)
    removeFile temporary

/-- A removal whose error is ignored. -/
def removeSidecar (path : Result Path) : Download Unit :=
  match path with
  | .ok path => do
    let _ ← Traced.attempt Halt.fatal (removePrivateRegularFile path)
  | .error _ => pure ()

/-- `cleanup_download_sidecars`. -/
def cleanupDownloadSidecars (temporary : Path) : Download Unit := do
  Traced.each (fun index => removeSidecar (partPath temporary index))
    (List.range maxCdnConnections)
  Traced.each (fun suffix => removeSidecar (sidecarPath temporary suffix))
    ["assembling".toList, "aria2".toList]

section Hash

variable (sha256 : List UInt8 → Str)

/-- `sha256_file`. -/
def sha256File (path : Path) : Download Str := do
  requireRegularFile path "SHA-256 input"
  -- `fs::metadata`, `File::open` and the reads
  call
  call
  call
  Traced.read fun world => sha256 ((bytesAt world.files path).map (·.value))

/-- `existing_verified_iso`. -/
def existingVerifiedIso (destination : Path) (resolved : ResolvedWindowsIso)
    (engine : IsoDownloadEngine) : Download (Option IsoDownloadReport) := do
  match ← symlinkMetadata destination with
  | none => return none
  | some (.file bytes) =>
    let actual ← sha256File sha256 destination
    if eqIgnoreAsciiCase actual resolved.expectedSha256 = false then
      invalid "ISO destination" [.shown destination.display,
        .text " already exists but its SHA-256 does not match Microsoft's expected hash"]
    else return some ⟨destination, engine, bytes.length, actual, 1⟩
  | some _ =>
    invalid "ISO destination" [.shown destination.display, .text " is not a regular file"]

namespace Run

variable (run : Run) (destination temporary : Path)

/-- The transfer of an attempt, by the engine of the run. -/
def transfer (attempt : Nat) (resolved : ResolvedWindowsIso) : Download Unit :=
  match run.aria2c with
  | some aria2c => downloadWithAria2 (aria2c attempt) resolved temporary
  | none => downloadWithRanges resolved temporary (run.head attempt) (run.reply attempt)

/-- An attempt whose transfer succeeded: the file is hashed, compared and promoted. -/
def verify (attempt : Nat) (resolved : ResolvedWindowsIso) : Download IsoDownloadReport := do
  Traced.emit fun world => ⟨run.initial, bytesAt world.files temporary⟩
  let actual ← sha256File sha256 temporary
  if eqIgnoreAsciiCase actual resolved.expectedSha256 = false then
    invalid "Windows ISO SHA-256" [.text "downloaded ISO hash ", .shown actual,
      .text " does not match Microsoft's expected ", .shown resolved.expectedSha256]
  else
    -- `fs::metadata`
    call
    let bytes ← Traced.read fun world => (bytesAt world.files temporary).length
    promoteDownload temporary destination
    cleanupDownloadSidecars temporary
    return ⟨destination, run.engine, bytes, actual, attempt + 1⟩

/-- The ISO of an attempt: after the first one the URL is resolved again. -/
def resolved (attempt : Nat) : Result ResolvedWindowsIso :=
  if 0 < attempt then do
    let resolved ← run.resolve attempt
    ensureSameIso run.initial resolved
    return resolved
  else .ok run.initial

/-- The loop over the attempts, with the number of those that are left and the last error. -/
def attempts : Nat → Nat → Option Halt → Download IsoDownloadReport
  | _, 0, lastError => Traced.fail (lastError.getD (.failed (.invalidValue "Windows ISO download"
      [.text "download failed without an error"])))
  | attempt, left + 1, _ => do
    let resolved ← ofResult (run.resolved attempt)
    match ← Traced.attempt Halt.fatal (run.transfer temporary attempt resolved) with
    | .ok () => run.verify sha256 destination temporary attempt resolved
    | .error error => attempts (attempt + 1) left (some error)

/-- `download_resolved_with_progress`. -/
def downloadResolved : Download IsoDownloadReport := do
  requireRealDirectory run.parent destination.parent "ISO destination directory"
  validateDestination destination
  match ← existingVerifiedIso sha256 destination run.initial run.engine with
  | some report => return report
  | none =>
    let temporary ← ofResult (downloadTemporaryPath destination)
    run.attempts sha256 destination temporary 0 maxDownloadAttempts none

/-- The run, from the files it finds. -/
def outcome (files : Directory) : Lib.Outcome World Hashed Halt IsoDownloadReport :=
  run.downloadResolved sha256 destination ⟨files, run.faults⟩

/-- The files that the run leaves. -/
def after (files : Directory) : Directory := (run.outcome sha256 destination files).state.files

end Run

/-- The files that are hashed in a sequence of runs to one destination. -/
def hashed (destination : Path) (files : Directory) : List Run → List Hashed
  | [] => []
  | run :: runs => (run.outcome sha256 destination files).events ++
      hashed destination (run.after sha256 destination files) runs

end Hash

end Lsw.Core.IsoDownload
