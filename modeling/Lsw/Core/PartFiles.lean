import Lsw.Core.IsoProvenance

/-!
# Part Files

`download_range` continues the part file of a byte range: it asks for the bytes from where the file
ends, and appends what comes back.  A response is read up to one byte more than it was asked for, so
that one that is too long is noticed.  By then that byte is in the file, and `partial_file_length`
refuses the file from then on.

As long as no accepted response is longer than the rest of the range, a part file consists of what was
received for consecutive offsets, and every call continues where the last one stopped, however it
stopped.
-/

namespace Lsw.Core.IsoDownload

open Lsw.Lib Lsw.Lib.Traced

/-! ## Calls -/

/-- A call of `download_range`, by what its environment answers. -/
structure RangeCall where
  reply : RangeReply
  faults : List (Option Fault)

/-- The bytes that a body delivers, up to its first fault or its end. -/
def received : List BodyRead → List UInt8
  | .bytes chunk :: body => if chunk = [] then [] else chunk ++ received body
  | .fault _ :: _ | [] => []

section Part

variable (iso : ResolvedWindowsIso) (range : ByteRange) (path : Path)

/-- The call, from the files it finds. -/
def RangeCall.outcome (call : RangeCall) (files : Directory) : Lib.Outcome World Hashed Halt Unit :=
  downloadRange iso range path call.reply ⟨files, call.faults⟩

/-- The files that a call leaves. -/
def downloadStep (files : Directory) (call : RangeCall) : Directory :=
  (call.outcome iso range path files).state.files

/-- A response that is one for the missing bytes is not longer than what the part lacks. -/
def FitsPart (files : Directory) (call : RangeCall) : Prop :=
  validateRangeResponse (range.start + (bytesAt files path).length) range.last
      call.reply.response = .ok () →
    (received call.reply.body).length ≤ range.len - (bytesAt files path).length

instance (files : Directory) (call : RangeCall) : Decidable (FitsPart range path files call) :=
  inferInstanceAs (Decidable (_ → _ ≤ _))

end Part

/-- What calls have received for consecutive offsets: each of them a beginning of its body, and
    nothing unless the response was one for the offset at which the part ended. -/
inductive Received (range : ByteRange) : List RangeCall → List UInt8 → Prop where
  | nil : Received range [] []
  | snoc {calls : List RangeCall} {content : List UInt8} {call : RangeCall} {piece : List UInt8}
      (h : Received range calls content) (hpiece : piece <+: received call.reply.body)
      (haccepted : piece ≠ [] → validateRangeResponse (range.start + content.length) range.last
        call.reply.response = .ok ()) :
      Received range (calls ++ [call]) (content ++ piece)

/-- A part that the next call continues: it holds what the calls have received, and its length, which
    is the first missing offset of the range, is accepted. -/
structure Resumable (range : ByteRange) (path : Path) (calls : List RangeCall)
    (files : Directory) : Prop where
  length_le : (bytesAt files path).length ≤ range.len
  received : Received range calls ((bytesAt files path).map (·.value))
  accepted : (partialFileLength path range.len ⟨files, []⟩).result =
    .ok (bytesAt files path).length

/-! ## One call -/

/-- The bytes as a download for the ISO writes them. -/
def tagged (iso : ResolvedWindowsIso) (bytes : List UInt8) : List FetchedByte :=
  bytes.map fun value => ⟨value, some iso⟩

@[simp] theorem length_tagged (iso : ResolvedWindowsIso) (bytes : List UInt8) :
    (tagged iso bytes).length = bytes.length := List.length_map _

@[simp] theorem map_value_tagged (iso : ResolvedWindowsIso) (bytes : List UInt8) :
    (tagged iso bytes).map (·.value) = bytes := by
  simp [tagged, Function.comp_def]

theorem tagged_append (iso : ResolvedWindowsIso) (left right : List UInt8) :
    tagged iso (left ++ right) = tagged iso left ++ tagged iso right := List.map_append

theorem take_tagged (iso : ResolvedWindowsIso) (n : Nat) (bytes : List UInt8) :
    (tagged iso bytes).take n = tagged iso (bytes.take n) := List.map_take.symm

/-- The file at a path holds these bytes. -/
def HoldsFile (path : Path) (bytes : List FetchedByte) (world : World) : Prop :=
  world.files path = some (.file bytes)

/-- The part holds these bytes, if it is there; else there are none. -/
def HoldsPart (path : Path) (bytes : List FetchedByte) (world : World) : Prop :=
  HoldsFile path bytes world ∨ (world.files path = none ∧ bytes = [])

section Call

variable {iso : ResolvedWindowsIso} {path : Path} {G : Hashed → Prop}

theorem HoldsFile.bytesAt_eq {bytes : List FetchedByte} {world : World}
    (h : HoldsFile path bytes world) : bytesAt world.files path = bytes := by
  rw [bytesAt, h, contents_file]

theorem HoldsPart.bytesAt_eq {bytes : List FetchedByte} {world : World}
    (h : HoldsPart path bytes world) : bytesAt world.files path = bytes := by
  obtain hfile | ⟨hnone, rfl⟩ := h
  · exact hfile.bytesAt_eq
  · rw [bytesAt, hnone, contents_none]

/-- A call that changes no file keeps what holds of the files. -/
theorem sat_of_looks {α : Type} {x : Download α} {P : World → Prop} (h : Looks x)
    (hP : ∀ world world', world'.files = world.files → P world → P world') :
    Sat (fun _ => True) G P x (fun _ => P) P :=
  h.sat hP

/-- What is written stands behind the bytes of the file; a failure leaves a part of it. -/
theorem sat_writeAll (bytes written : List FetchedByte) :
    Sat (fun _ => True) G (HoldsFile path bytes) (writeAll path written)
      (fun _ => HoldsFile path (bytes ++ written))
      (fun world => ∃ n, HoldsFile path (bytes ++ written.take n) world) := by
  have hfault : Sat (fun _ => True) G (HoldsFile path bytes) nextFault
      (fun _ => HoldsFile path bytes)
      (fun world => ∃ n, HoldsFile path (bytes ++ written.take n) world) :=
    (sat_of_looks looks_nextFault fun _ _ heq h => (congrFun heq path).trans h).weaken
      fun world h => ⟨0, by rwa [List.take_zero, List.append_nil]⟩
  refine hfault.bind fun fault => ?_
  have hwrite (part : List FetchedByte) :
      Sat (fun _ => True) G (HoldsFile path bytes) (Traced.modify fun world : World => { world with
        files := Function.update world.files path
          (some (.file (bytesAt world.files path ++ part))) } : Download Unit)
        (fun _ => HoldsFile path (bytes ++ part))
        (fun world => ∃ n, HoldsFile path (bytes ++ written.take n) world) := by
    refine .modify fun world hworld => ?_
    show Function.update world.files path _ path = _
    rw [Function.update_self, hworld.bytesAt_eq]
  cases fault with
  | none => exact (hwrite written).bind fun _ => .pure fun _ => id
  | some fault =>
    refine (hwrite (written.take fault.written)).bind fun _ => .fail fun world hworld => ?_
    exact ⟨fault.written, hworld⟩

/-- What is delivered is a part of the first chunk, and then what the rest of the body delivers. -/
theorem take_received_cons (limit : Nat) (chunk : List UInt8) (body : List BodyRead) :
    (received (.bytes chunk :: body)).take limit =
      if chunk.take limit = [] then [] else
        chunk.take limit ++ (received body).take (limit - (chunk.take limit).length) := by
  simp only [received]
  by_cases hchunk : chunk = []
  · subst hchunk
    simp
  rw [if_neg hchunk, List.take_append, List.length_take]
  by_cases hempty : chunk.take limit = []
  · have hlimit : limit = 0 := (List.take_eq_nil_iff.mp hempty).resolve_right hchunk
    subst hlimit
    simp
  · rw [if_neg hempty]
    congr 2
    omega

/-- The copy of a body: up to the limit, what it delivers is appended. -/
theorem sat_copyBody (limit : Nat) (body : List BodyRead) (bytes : List FetchedByte) :
    Sat (fun _ => True) G (HoldsFile path bytes) (copyBody iso path limit body)
      (fun written world => HoldsFile path (bytes ++ tagged iso ((received body).take limit)) world ∧
        written = ((received body).take limit).length)
      (fun world => ∃ piece, piece <+: (received body).take limit ∧
        HoldsFile path (bytes ++ tagged iso piece) world) := by
  induction body generalizing limit bytes with
  | nil =>
    refine .pure fun world hworld => ?_
    simpa [received, tagged] using hworld
  | cons read body ih =>
    cases read with
    | fault fault =>
      refine .ite (fun _ => .pure fun world hworld => ?_) fun _ => .fail fun world hworld => ?_
      · simpa [received, tagged] using hworld
      · exact ⟨[], List.nil_prefix, by simpa [tagged] using hworld⟩
    | bytes chunk =>
      rw [take_received_cons]
      refine .ite (fun hempty => .pure fun world hworld => ?_) fun hne => ?_
      · rw [if_pos hempty]
        simpa [tagged] using hworld
      rw [if_neg hne]
      -- A write that stops has written a beginning of the chunk.
      have hwrite := @sat_writeAll path G bytes (tagged iso (chunk.take limit))
      refine (hwrite.weaken fun world hpart => ?_).bind fun _ => ?_
      · obtain ⟨n, hn⟩ := hpart
        refine ⟨(chunk.take limit).take n, ?_, take_tagged iso n _ ▸ hn⟩
        exact (List.take_prefix _ _).trans (List.prefix_append _ _)
      -- The rest is appended to it.
      have hrest := ih (limit - (chunk.take limit).length) (bytes ++ tagged iso (chunk.take limit))
      refine (hrest.weaken fun world hpart => ?_).bind fun written =>
        .pure fun world hworld => ?_
      · obtain ⟨piece, hpiece, hworld⟩ := hpart
        refine ⟨chunk.take limit ++ piece, (List.prefix_append_right_inj _).mpr hpiece, ?_⟩
        rw [tagged_append, ← List.append_assoc]
        exact hworld
      · obtain ⟨hholds, rfl⟩ := hworld
        rw [tagged_append, ← List.append_assoc, List.length_append]
        exact ⟨hholds, rfl⟩

/-- A look at the part. -/
theorem sat_node (bytes : List FetchedByte) {E : World → Prop} :
    Sat (fun _ => True) G (HoldsPart path bytes)
      (Traced.read fun world : World => world.files path : Download (Option Node))
      (fun node world => HoldsPart path bytes world ∧ node = world.files path) E :=
  .read fun _ hworld => ⟨hworld, rfl⟩

theorem HoldsPart.of_files {bytes : List FetchedByte} {world world' : World}
    (heq : world'.files = world.files) (h : HoldsPart path bytes world) :
    HoldsPart path bytes world' :=
  h.imp ((congrFun heq path).trans ·) (And.imp_left ((congrFun heq path).trans ·))

/-- A part that is there or not is opened for appending. -/
theorem sat_openAppend (bytes : List FetchedByte) :
    Sat (fun _ => True) G (HoldsPart path bytes) (openAppend path) (fun _ => HoldsFile path bytes)
      (HoldsPart path bytes) := by
  refine (sat_node bytes).bind fun node => ?_
  split
  -- There is a file: opening it leaves its bytes.
  · have hopen : Sat (fun _ => True) G (HoldsFile path bytes) call (fun _ => HoldsFile path bytes)
        (HoldsPart path bytes) :=
      (sat_of_looks looks_call fun _ _ heq h => (congrFun heq path).trans h).weaken fun _ => .inl
    refine hopen.pre fun world h => ?_
    obtain ⟨hfile | ⟨hnone, -⟩, hnode⟩ := h
    · exact hfile
    · cases hnode.trans hnone
  · -- There is no file yet: an empty one is made.
    have hcall : Sat (fun _ => True) G
        (fun world => world.files path = none ∧ bytes = []) call
        (fun _ world => world.files path = none ∧ bytes = []) (HoldsPart path bytes) :=
      (sat_of_looks looks_call fun _ _ heq h => ⟨(congrFun heq path).trans h.1, h.2⟩).weaken
        fun _ => .inr
    refine (hcall.bind fun _ => .modify fun world h => ?_).pre fun world h => ?_
    · rw [h.2]
      exact Function.update_self ..
    · obtain ⟨hfile | hnone, hnode⟩ := h
      · cases hnode.trans hfile
      · exact hnone
  · exact .fail fun _ h => h.1

/-- A part that is not too long is accepted, with its length. -/
theorem sat_partialFileLength (bytes : List FetchedByte) (expected : Nat) :
    Sat (fun _ => True) G (HoldsPart path bytes) (partialFileLength path expected)
      (fun existing world => HoldsPart path bytes world ∧ existing = bytes.length)
      (HoldsPart path bytes) := by
  have hcall : Sat (fun _ => True) G (HoldsPart path bytes) call (fun _ => HoldsPart path bytes)
      (HoldsPart path bytes) := sat_of_looks looks_call fun _ _ => .of_files
  refine (hcall.bind fun _ => sat_node bytes).bind fun node => ?_
  split
  · refine .ite (fun _ => .pure fun world h => ⟨h.1, ?_⟩) fun _ => .fail fun _ h => h.1
    rw [← h.1.bytesAt_eq, bytesAt, ← h.2, contents_file]
  · exact .fail fun _ h => h.1
  · exact .fail fun _ h => h.1
  · refine .pure fun world h => ⟨h.1, ?_⟩
    rw [← h.1.bytesAt_eq, bytesAt, ← h.2, contents_none]
    rfl

/-- What a call makes of a part: it appends a beginning of what the response delivers, at most one
    byte more than the part lacks, if the response is one for the bytes that are missing. -/
def Continued (iso : ResolvedWindowsIso) (range : ByteRange) (path : Path) (reply : RangeReply)
    (bytes : List FetchedByte) (world : World) : Prop :=
  ∃ piece, HoldsPart path (bytes ++ tagged iso piece) world ∧
    piece <+: (received reply.body).take (range.len - bytes.length + 1) ∧
    (piece ≠ [] → validateRangeResponse (range.start + bytes.length) range.last reply.response =
      .ok ())

theorem Continued.of_part {range : ByteRange} {reply : RangeReply} {bytes : List FetchedByte}
    {world : World} (h : HoldsPart path bytes world) : Continued iso range path reply bytes world :=
  ⟨[], (List.append_nil bytes).symm ▸ h, List.nil_prefix, fun hne => absurd rfl hne⟩

theorem Continued.of_files {range : ByteRange} {reply : RangeReply} {bytes : List FetchedByte}
    {world world' : World} (heq : world'.files = world.files)
    (h : Continued iso range path reply bytes world) :
    Continued iso range path reply bytes world' :=
  let ⟨piece, hpart, hpiece⟩ := h
  ⟨piece, hpart.of_files heq, hpiece⟩

/-- A call continues the part with a piece of the body, if the response is accepted. -/
theorem sat_downloadRange (range : ByteRange) (reply : RangeReply) (bytes : List FetchedByte) :
    Sat (fun _ => True) G (HoldsPart path bytes) (downloadRange iso range path reply)
      (fun _ => Continued iso range path reply bytes) (Continued iso range path reply bytes) := by
  have hlooks {α : Type} {x : Download α} (h : Looks x) :
      Sat (fun _ => True) G (HoldsPart path bytes) x (fun _ => HoldsPart path bytes)
        (Continued iso range path reply bytes) :=
    (sat_of_looks h fun _ _ => .of_files).weaken fun _ => .of_part
  refine ((sat_partialFileLength bytes range.len).weaken fun _ => .of_part).bind fun existing =>
    .given fun hexisting => ?_
  subst hexisting
  refine .ite (fun _ => .pure fun _ => .of_part) fun _ => ?_
  cases hvalid : validateRangeResponse (range.start + bytes.length) range.last reply.response with
  | error e =>
    -- The response is refused.
    exact (Sat.fail fun _ => .of_part).bind fun _ => .of_false fun _ => id
  | ok u =>
    refine (hlooks (looks_ofResult (.ok u))).bind fun _ =>
      ((sat_openAppend bytes).weaken fun _ => .of_part).bind fun _ => ?_
    have hprotect : Sat (fun _ => True) G (HoldsFile path bytes) call (fun _ => HoldsFile path bytes)
        (Continued iso range path reply bytes) :=
      (sat_of_looks looks_call fun _ _ heq h => (congrFun heq path).trans h).weaken
        fun _ h => .of_part (.inl h)
    have hcopy := @sat_copyBody iso path G (range.len - bytes.length + 1) reply.body bytes
    refine hprotect.bind fun _ => (hcopy.mono (fun _ => id) (fun written world h => ?_)
      fun world h => ?_).bind (Q := fun _ => Continued iso range path reply bytes) fun written => ?_
    · exact ⟨_, .inl h.1, List.prefix_rfl, fun _ => hvalid⟩
    · obtain ⟨piece, hpiece, hworld⟩ := h
      exact ⟨piece, .inl hworld, hpiece, fun _ => hvalid⟩
    · exact (sat_of_looks looks_call fun _ _ => .of_files).bind fun _ =>
        .ite (fun _ => .pure fun _ => id) fun _ => .fail fun _ => id

end Call

/-! ## Any sequence of calls -/

section Runs

variable {iso : ResolvedWindowsIso} {range : ByteRange} {path : Path}

/-- What the calls leave: a part that is there or not, which holds what they have received. -/
def PartOf (range : ByteRange) (path : Path) (calls : List RangeCall) (files : Directory) : Prop :=
  ∃ bytes, HoldsPart path bytes ⟨files, []⟩ ∧ Received range calls (bytes.map (·.value)) ∧
    bytes.length ≤ range.len

/-- The step lemma: a response that fits, or is refused, keeps the part one. -/
theorem PartOf.step {calls : List RangeCall} {files : Directory} {call : RangeCall}
    (h : PartOf range path calls files) (hfits : FitsPart range path files call) :
    PartOf range path (calls ++ [call]) (downloadStep iso range path files call) := by
  obtain ⟨bytes, hpart, hreceived, hlength⟩ := h
  -- The call appends a piece of the body, or nothing.
  have hcontinued : Continued iso range path call.reply bytes
      (call.outcome iso range path files).state :=
    (sat_downloadRange (G := fun _ => True) range call.reply bytes).state
      (show HoldsPart path bytes ⟨files, call.faults⟩ from hpart.of_files rfl)
  obtain ⟨piece, hafter, hpiece, haccepted⟩ := hcontinued
  have hwhole : piece <+: received call.reply.body := hpiece.trans (List.take_prefix _ _)
  refine ⟨bytes ++ tagged iso piece, hafter.of_files rfl, ?_, ?_⟩
  -- What was received is a part of the file up to its end.
  · rw [List.map_append, map_value_tagged]
    refine hreceived.snoc hwhole fun hne => ?_
    rw [List.length_map]
    exact haccepted hne
  · rw [FitsPart, hpart.bytesAt_eq] at hfits
    rw [List.length_append, length_tagged]
    by_cases hne : piece = []
    · rw [hne]
      exact hlength
    · -- Something was appended, so that the response was accepted.
      have hshort := hfits (haccepted hne)
      have hle := hwhole.length_le
      omega

theorem PartOf.run {calls done : List RangeCall} {files : Directory}
    (h : PartOf range path done files)
    (hfits : Along (downloadStep iso range path) (FitsPart range path) files calls) :
    PartOf range path (done ++ calls) (run (downloadStep iso range path) files calls) := by
  induction calls generalizing done files with
  | nil => simpa using h
  | cons call calls ih =>
    rw [List.append_cons]
    exact ih (h.step hfits.1) hfits.2

/-- A part that is not too long is accepted. -/
theorem PartOf.resumable {calls : List RangeCall} {files : Directory}
    (h : PartOf range path calls files) : Resumable range path calls files := by
  obtain ⟨bytes, hpart, hreceived, hlength⟩ := h
  have hbytes : bytesAt files path = bytes := hpart.bytesAt_eq
  refine ⟨hbytes ▸ hlength, hbytes ▸ hreceived, ?_⟩
  rw [hbytes]
  obtain hfile | ⟨hnone, rfl⟩ := hpart
  · have hnode : files path = some (.file bytes) := hfile
    simp [partialFileLength, symlinkMetadata, call, nextFault, Traced.read, Traced.modify,
      Bind.bind, Pure.pure, hnode, hlength]
  · have hnode : files path = none := hnone
    simp [partialFileLength, symlinkMetadata, call, nextFault, Traced.read, Traced.modify,
      Bind.bind, Pure.pure, hnode]

/-- In every sequence of calls in which no accepted response is longer than what the part lacks,
    however they are cut into chunks and whatever fails, the part can be continued. -/
theorem part_is_resumable (iso : ResolvedWindowsIso) (range : ByteRange) (path : Path)
    (files : Directory) (calls : List RangeCall) (hnone : files path = none)
    (hfits : Along (downloadStep iso range path) (FitsPart range path) files calls) :
    Resumable range path calls (run (downloadStep iso range path) files calls) := by
  have hstart : PartOf range path [] files :=
    ⟨[], .inr ⟨hnone, rfl⟩, .nil, Nat.zero_le _⟩
  exact (hstart.run hfits).resumable

/-- A part that is too long stays what it is, and every later call fails. -/
theorem overlong_part_is_refused {files : Directory} {bytes : List FetchedByte}
    (hfile : files path = some (.file bytes)) (hlong : range.len < bytes.length)
    (call : RangeCall) :
    (downloadStep iso range path files call) = files ∧
      (call.outcome iso range path files).result.isOk = false := by
  have hrefused : Sat (fun _ => True) (fun _ => True)
      (fun world : World => world.files = files) (partialFileLength path range.len)
      (fun _ _ => False) (fun world => world.files = files) := by
    have hcall : Sat (fun _ => True) (fun _ => True) (fun world : World => world.files = files)
        IsoDownload.call (fun _ world => world.files = files) (fun world => world.files = files) :=
      sat_of_looks looks_call fun _ _ heq h => heq.trans h
    have hnode : Sat (fun _ => True) (fun _ => True) (fun world : World => world.files = files)
        (symlinkMetadata path) (fun node world => world.files = files ∧ node = some (.file bytes))
        (fun world => world.files = files) :=
      hcall.bind fun _ => .read fun world h => ⟨h, h ▸ hfile⟩
    refine hnode.bind fun node => .given fun heq => ?_
    subst heq
    exact .ite (fun hshort => absurd hshort (Nat.not_le.mpr hlong)) fun _ => .fail fun _ => id
  have hcall : Sat (fun _ => True) (fun _ => True) (fun world : World => world.files = files)
      (downloadRange iso range path call.reply) (fun _ _ => False)
      (fun world => world.files = files) :=
    hrefused.bind fun _ => .of_false fun _ => id
  cases hresult : (call.outcome iso range path files).result with
  | ok u => exact (hcall.of_ok rfl hresult).elim
  | error e => exact ⟨hcall.of_error rfl hresult, rfl⟩

end Runs

/-! ## A long response -/

/-- The part of the first range of a file of eight bytes. -/
def sampleRange : ByteRange := ⟨0, 3⟩

def samplePart : Path := ⟨.ofStr "/iso".toList, .ofStr ".w.iso.lsw-download.part0".toList⟩

/-- A response with a valid header for the bytes from an offset on, whatever its body. -/
def rangeResponse (start : Nat) (body : List BodyRead) : RangeReply :=
  ⟨.ok ⟨some sampleUrl, 206, none,
    some ("bytes ".toList ++ decimal start ++ "-3/8".toList)⟩, body⟩

/-- The connection is lost after two bytes, a long response for other bytes is refused, and the next
    call gets the other two. -/
def resumedCalls : List RangeCall :=
  [⟨rangeResponse 0 [.bytes [1, 2], .fault ⟨.fails, 0⟩], []⟩,
    ⟨rangeResponse 0 [.bytes [1, 2, 3, 4, 5]], []⟩,
    ⟨rangeResponse 2 [.bytes [3], .bytes [4], .bytes []], []⟩]

theorem resumed_part_is_whole :
    Resumable sampleRange samplePart resumedCalls
      (run (downloadStep sampleIso sampleRange samplePart) (fun _ => none) resumedCalls) :=
  part_is_resumable sampleIso sampleRange samplePart _ resumedCalls rfl (by decide +kernel)

/-- A response of five bytes to a request for four. -/
def longCalls : List RangeCall := [⟨rangeResponse 0 [.bytes [1, 2, 3, 4, 5]], []⟩]

theorem long_response_spoils_part :
    ¬ Resumable sampleRange samplePart longCalls
      (run (downloadStep sampleIso sampleRange samplePart) (fun _ => none) longCalls) := by
  intro h
  have hlength : (bytesAt (run (downloadStep sampleIso sampleRange samplePart) (fun _ => none)
      longCalls) samplePart).length = 5 := by decide +kernel
  have hle := h.length_le
  rw [hlength] at hle
  exact absurd hle (by decide)

end Lsw.Core.IsoDownload
