import Lsw.Core.InstanceIdentity

/-!
# Sealed Images

A sealed image is a directory below `images` of the state root (`image.rs`).  It holds a disk that
nobody may write and a text that says what the image was made of, and its name is the content key
of that.  `load_image` reads a directory back and checks it against its name; `list` loads all of
them, so that a single directory that cannot be loaded is enough for it to fail.

The hash is a parameter.  All that matters of it here is the length of a digest.
-/

namespace Lsw.Core.Image

open Lsw.Lib

/-! ## Content keys -/

/-- `Sha256`, of what was fed to it. -/
abbrev Sha256 := List UInt8 → Vector UInt8 32

/-- The digest of a file, in hexadecimal. -/
def hexDigest (sha256 : Sha256) (contents : List UInt8) : Str :=
  Creation.hexEncode (sha256 contents).toList

/-- `IMAGE_FORMAT_VERSION`. -/
def imageFormatVersion : UInt32 := 1

/-- `PREPARATION_IDENTITY`. -/
def preparationIdentity : Str := "winpe-dism-v2/offline-setup-v2/slim-profile-v2".toList

/-- `image_key`. -/
def imageKey (sha256 : Sha256) (iso profile agent firmware disk : Str) : Str :=
  hexDigest sha256 (bytes ([decimal imageFormatVersion.toNat, preparationIdentity, iso, profile,
    agent, firmware, disk].flatMap (· ++ ['\n'])))

/-- `digest.len() == 64` and every byte a hexadecimal digit that is no capital. -/
def isDigest (digest : Str) : Bool :=
  (bytes digest).length == 64 && (bytes digest).all StateStore.isLowerHexDigit

theorem isDigest_hexDigest (sha256 : Sha256) (contents : List UInt8) :
    isDigest (hexDigest sha256 contents) = true :=
  InstanceIdentity.isToken_hexEncode (sha256 contents)

theorem oneLine_of_isDigest {digest : Str} (h : isDigest digest = true) : OneLine digest := by
  rw [isDigest, Bool.and_eq_true] at h
  exact .of_bytes h.2 (by decide) (by decide)

/-! ## Images -/

/-- `SealedImage`. -/
structure SealedImage where
  key : Str
  directory : PathBuf
  disk : PathBuf
  sourceIsoSha256 : Str
  profile : Str
  agentSha256 : Str
  firmwareSha256 : Str
  sourceDiskSha256 : Str
  baseDiskSha256 : Str
  deriving DecidableEq

/-- The lines of the metadata. -/
def SealedImage.fields (image : SealedImage) : Fields :=
  [("version".toList, decimal imageFormatVersion.toNat),
    ("key".toList, image.key),
    ("source_iso_sha256".toList, image.sourceIsoSha256),
    ("profile".toList, image.profile),
    ("preparation_identity".toList, preparationIdentity),
    ("agent_sha256".toList, image.agentSha256),
    ("firmware_sha256".toList, image.firmwareSha256),
    ("source_disk_sha256".toList, image.sourceDiskSha256),
    ("base_disk_sha256".toList, image.baseDiskSha256)]

/-- `SealedImage::encode`. -/
def SealedImage.encode (image : SealedImage) : Str := renderFields image.fields

/-- A disk file: its contents, and whether anyone may write it. -/
structure DiskFile where
  contents : List UInt8
  writable : Bool
  deriving DecidableEq

/-- The files of an image directory. -/
structure ImageDirectory where
  /-- The name that the disk has while it is made. -/
  temporaryDisk : Option DiskFile := none
  /-- `BASE_DISK_FILE`. -/
  disk : Option DiskFile := none
  /-- `IMAGE_METADATA_FILE`. -/
  metadata : Option Str := none
  deriving DecidableEq

/-- The directories of `images`, by their names. -/
abbrev Images := List (Str × ImageDirectory)

/-- `self.store.root().join("images").join(key)`. -/
def imageDirectory (root : PathBuf) (key : Str) : PathBuf := (root.join "images".toList).join key

/-- `BASE_DISK_FILE`. -/
def baseDiskFile : Str := "base.qcow2".toList

/-! ## Loading -/

/-- What `load_image` asks of the operating system. -/
inductive LoadCall where
  | inspectMetadata
  | readMetadata
  | inspectDisk
  | inspectMode
  | hashDisk
  deriving DecidableEq, Repr

/-- A call of the operating system that changes nothing. -/
def call {κ : Type} (fails : κ → Bool) (which : κ) : Result Unit :=
  rejectIf (fails which = true) .io

/-- `field`, of the metadata. -/
def field (contents : Str) (name : String) : Result Str :=
  okOr ((lines contents).findSome? (stripPrefix (name.toList ++ ['='])))
    (.invalidManifest [.text "sealed image is missing ", .text name])

/-- One of the digests. -/
def checkDigest (digest : Str) : Result Unit :=
  rejectIf (isDigest digest = false)
    (.invalidManifest [.text "sealed image contains an invalid SHA-256"])

/-- The digests of an image. -/
def SealedImage.digests (image : SealedImage) : List Str :=
  [image.key, image.sourceIsoSha256, image.agentSha256, image.firmwareSha256,
    image.sourceDiskSha256, image.baseDiskSha256]

/-- The content key of what an image was made of. -/
def SealedImage.expectedKey (sha256 : Sha256) (image : SealedImage) : Str :=
  imageKey sha256 image.sourceIsoSha256 image.profile image.agentSha256 image.firmwareSha256
    image.sourceDiskSha256

section Load

variable (sha256 : Sha256)

/-- `load_image` of the directory of this name.  A file that is not there cannot be inspected. -/
def loadImage (fails : LoadCall → Bool) (root : PathBuf) (name : Str) (files : ImageDirectory)
    (verifyDisk : Bool) : Result SealedImage := do
  call fails .inspectMetadata
  let contents ← okOr files.metadata .io
  call fails .readMetadata
  rejectIf ((← field contents "version") ≠ decimal imageFormatVersion.toNat)
    (.invalidManifest [.text "unsupported sealed-image version"])
  rejectIf ((← field contents "preparation_identity") ≠ preparationIdentity)
    (.invalidManifest
      [.text "sealed-image preparation identity does not match this build"])
  let key ← field contents "key"
  call fails .inspectDisk
  let disk ← okOr files.disk .io
  let image : SealedImage := {
    key
    directory := imageDirectory root name
    disk := (imageDirectory root name).join baseDiskFile
    sourceIsoSha256 := ← field contents "source_iso_sha256"
    profile := ← field contents "profile"
    agentSha256 := ← field contents "agent_sha256"
    firmwareSha256 := ← field contents "firmware_sha256"
    sourceDiskSha256 := ← field contents "source_disk_sha256"
    baseDiskSha256 := ← field contents "base_disk_sha256" }
  forEach image.digests (fun _ => checkDigest) ()
  rejectIf (image.key ≠ image.expectedKey sha256 ∨ name ≠ image.expectedKey sha256)
    (.invalidManifest [.text "sealed image metadata does not match its content key"])
  call fails .inspectMode
  rejectIf (disk.writable = true) (.invalidManifest [.text "sealed base disk is writable"])
  if verifyDisk then
    call fails .hashDisk
    rejectIf (hexDigest sha256 disk.contents ≠ image.baseDiskSha256)
      (.invalidManifest [.text "sealed base disk does not match its recorded SHA-256"])
  return image

/-- `ImageManager::list`, when no call of the operating system fails. -/
def list (root : PathBuf) (images : Images) : Result (List SealedImage) := do
  let loaded ← images.mapM fun entry =>
    loadImage sha256 (fun _ => false) root entry.1 entry.2 false
  return loaded.mergeSort fun left right => decide (bytes left.key ≤ bytes right.key)

end Load

/-! ## Reading back what was written -/

section Fields

variable {fields : Fields} {name : Str}

/-- The value of a name is that of the first line `name=value`. -/
theorem findSome_stripPrefix (hname : '=' ∉ name) (hkeys : ∀ line ∈ fields, '=' ∉ line.1) :
    (fields.map fun line => line.1 ++ '=' :: line.2).findSome? (stripPrefix (name ++ ['='])) =
      fields.lookup name := by
  induction fields with
  | nil => rfl
  | cons line fields ih =>
    have hrest := ih fun other hother => hkeys other (List.mem_cons_of_mem _ hother)
    have hline := stripPrefix_terminated hname (hkeys line List.mem_cons_self) line.2
    rw [List.map_cons, List.findSome?_cons, hline, List.lookup_cons]
    by_cases hsame : line.1 = name
    · simp [hsame]
    · have hbeq : (name == line.1) = false := beq_eq_false_iff_ne.mpr (Ne.symm hsame)
      simp [hsame, hbeq, hrest]

theorem lines_renderFields (hfields : ∀ line ∈ fields, OneLine line.1 ∧ OneLine line.2) :
    lines (renderFields fields) = fields.map fun line => line.1 ++ '=' :: line.2 := by
  apply lines_flatMap
  intro text htext
  obtain ⟨line, hline, rfl⟩ := List.mem_map.mp htext
  obtain ⟨⟨hkey, hkey'⟩, hvalue, hvalue'⟩ := hfields line hline
  simp [hkey, hkey', hvalue, hvalue']

end Fields

section Written

variable {sha256 : Sha256} {image : SealedImage} {root : PathBuf} {name : Str}

/-- An image as `seal` makes it: the digests are digests, and the key is the content key. -/
structure Sealed (sha256 : Sha256) (image : SealedImage) : Prop where
  digests : ∀ digest ∈ image.digests, isDigest digest = true
  profile : OneLine image.profile
  key : image.key = image.expectedKey sha256

/-- The fields of a sealed image are plain lines. -/
theorem Sealed.plain_fields (h : Sealed sha256 image) :
    ∀ line ∈ image.fields, '=' ∉ line.1 ∧ OneLine line.1 ∧ OneLine line.2 := by
  have hdigest : ∀ digest ∈ image.digests, OneLine digest := fun digest hmem =>
    oneLine_of_isDigest (h.digests digest hmem)
  simp only [SealedImage.digests, List.forall_mem_cons] at hdigest
  obtain ⟨hkey, hiso, hagent, hfirmware, hsource, hbase, -⟩ := hdigest
  have hvalues : ∀ value ∈ image.fields.map Prod.snd, OneLine value := by
    simp only [SealedImage.fields, List.map_cons, List.map_nil, List.forall_mem_cons]
    exact ⟨oneLine_decimal _, hkey, hiso, h.profile, ⟨by decide, by decide⟩, hagent, hfirmware,
      hsource, hbase, by simp⟩
  have hnames : ∀ text ∈ ["version", "key", "source_iso_sha256", "profile",
      "preparation_identity", "agent_sha256", "firmware_sha256", "source_disk_sha256",
      "base_disk_sha256"].map String.toList, '=' ∉ text ∧ '\n' ∉ text ∧ '\r' ∉ text := by decide
  intro line hline
  obtain ⟨hequals, hone⟩ := hnames line.1 (List.mem_map_of_mem (f := Prod.fst) hline)
  exact ⟨hequals, hone, hvalues line.2 (List.mem_map_of_mem hline)⟩

theorem Sealed.field_encode (h : Sealed sha256 image) {name : String} {value : Str}
    (hname : '=' ∉ name.toList) (hlookup : image.fields.lookup name.toList = some value) :
    field image.encode name = .ok value := by
  have hplain := h.plain_fields
  rw [field, SealedImage.encode, lines_renderFields fun line hline => (hplain line hline).2,
    findSome_stripPrefix hname fun line hline => (hplain line hline).1, hlookup, okOr_some]

/-- The calls that `load_image` makes. -/
def loadCalls (verifyDisk : Bool) : List LoadCall :=
  [.inspectMetadata, .readMetadata, .inspectDisk, .inspectMode] ++
    if verifyDisk then [.hashDisk] else []

/-- Nothing is loaded when one of these calls fails. -/
theorem loadImage_calls {fails : LoadCall → Bool} {files : ImageDirectory} {verifyDisk : Bool}
    {loaded : SealedImage}
    (h : loadImage sha256 fails root name files verifyDisk = .ok loaded) :
    ∀ which ∈ loadCalls verifyDisk, fails which = false := by
  have hcall : ∀ {which u}, call fails which = .ok u → fails which = false := by
    intro which u hok
    simpa using (rejectIf_eq_ok _ _ _).mp hok
  unfold loadImage at h
  simp only [bind_eq_ok] at h
  obtain ⟨_, hmetadata, _, -, _, hread, _, -, _, -, _, -, _, -, _, -, _, hdisk, _, -, _, -, _, -,
    _, -, _, -, _, -, _, -, _, -, _, -, _, hmode, _, -, h⟩ := h
  have hfirst : ∀ which ∈ [LoadCall.inspectMetadata, .readMetadata, .inspectDisk, .inspectMode],
      fails which = false := by
    simp [hcall hmetadata, hcall hread, hcall hdisk, hcall hmode]
  cases verifyDisk with
  | false => simpa [loadCalls] using hfirst
  | true =>
    simp only [if_true, bind_eq_ok] at h
    obtain ⟨_, hhash, -⟩ := h
    simpa [loadCalls, hcall hhash] using hfirst

/-- The directory that `seal` makes for an image. -/
def SealedImage.files (image : SealedImage) (contents : List UInt8) : ImageDirectory where
  disk := some ⟨contents, false⟩
  metadata := some image.encode

/-- A metadata text that gives every field back is loaded, with a disk that nobody may write, if no call
    fails. -/
theorem load_of_fields
    (hfield : ∀ {name : String} {value : Str}, '=' ∉ name.toList →
      image.fields.lookup name.toList = some value → field image.encode name = .ok value)
    (hdigest : ∀ digest ∈ image.digests, isDigest digest = true)
    (hcontent : image.key = image.expectedKey sha256) {disk : DiskFile}
    (hreadonly : disk.writable = false) {fails : LoadCall → Bool} {verifyDisk : Bool}
    (hbase : verifyDisk = true → image.baseDiskSha256 = hexDigest sha256 disk.contents)
    (hfails : ∀ call ∈ loadCalls verifyDisk, fails call = false) :
    loadImage sha256 fails root image.key { disk := some disk, metadata := some image.encode }
        verifyDisk =
      .ok { image with
        directory := imageDirectory root image.key
        disk := (imageDirectory root image.key).join baseDiskFile } := by
  -- No call of the loading fails.
  have hcall : ∀ which ∈ loadCalls verifyDisk, call fails which = .ok () := fun which hmem =>
    rejectIf_of_not _ (by simp [hfails which hmem])
  -- Every field that `load` asks for is the one that was encoded.
  have hversion := hfield (by decide : '=' ∉ "version".toList) rfl
  have hidentity := hfield (by decide : '=' ∉ "preparation_identity".toList) rfl
  have hkey := hfield (by decide : '=' ∉ "key".toList) rfl
  have hiso := hfield (by decide : '=' ∉ "source_iso_sha256".toList) rfl
  have hprofile := hfield (by decide : '=' ∉ "profile".toList) rfl
  have hagent := hfield (by decide : '=' ∉ "agent_sha256".toList) rfl
  have hfirmware := hfield (by decide : '=' ∉ "firmware_sha256".toList) rfl
  have hsource := hfield (by decide : '=' ∉ "source_disk_sha256".toList) rfl
  have hdisk := hfield (by decide : '=' ∉ "base_disk_sha256".toList) rfl
  -- All digests are ones, so their check passes.
  have hdigests : forEach image.digests (fun _ => checkDigest) () = .ok () :=
    forEach_check_of fun digest hmem => rejectIf_of_not _ (by simp [hdigest digest hmem])
  -- The calls, fields and checks in the order of the source.
  unfold loadImage
  rw [hcall .inspectMetadata (by simp [loadCalls]), ok_bind, okOr_some, ok_bind,
    hcall .readMetadata (by simp [loadCalls]), ok_bind, hversion, ok_bind,
    rejectIf_of_not _ (by simp), ok_bind, hidentity, ok_bind, rejectIf_of_not _ (by simp), ok_bind,
    hkey, ok_bind, hcall .inspectDisk (by simp [loadCalls]), ok_bind, okOr_some, ok_bind, hiso,
    ok_bind, hprofile, ok_bind, hagent, ok_bind, hfirmware, ok_bind, hsource, ok_bind, hdisk,
    ok_bind]
  -- What is left are the checks of the contents.
  change (do
    forEach image.digests (fun _ => checkDigest) ()
    rejectIf (image.key ≠ image.expectedKey sha256 ∨ image.key ≠ image.expectedKey sha256) _
    _ : Result SealedImage) = _
  rw [hdigests, ok_bind, rejectIf_of_not _ (by simp [hcontent]), ok_bind,
    hcall .inspectMode (by simp [loadCalls]), ok_bind, rejectIf_of_not _ (by simp [hreadonly]),
    ok_bind]
  -- The disk itself is read only on request.
  cases verifyDisk with
  | false => rfl
  | true =>
    simp only [if_true]
    rw [hcall .hashDisk (by simp [loadCalls]), ok_bind, rejectIf_of_not _ (by simp [hbase])]
    rfl

/-- What `seal` wrote is loaded, if no call fails. -/
theorem Sealed.load (h : Sealed sha256 image) {fails : LoadCall → Bool} {verifyDisk : Bool}
    {contents : List UInt8} (hbase : image.baseDiskSha256 = hexDigest sha256 contents)
    (hfails : ∀ call ∈ loadCalls verifyDisk, fails call = false) :
    loadImage sha256 fails root image.key (image.files contents) verifyDisk =
      .ok { image with
        directory := imageDirectory root image.key
        disk := (imageDirectory root image.key).join baseDiskFile } :=
  load_of_fields h.field_encode h.digests h.key rfl (fun _ => hbase) hfails

end Written

/-! ## Lists -/

section List

variable {sha256 : Sha256} {root : PathBuf} {images : Images}

/-- Every directory can be loaded. -/
def Loads (sha256 : Sha256) (root : PathBuf) (images : Images) : Prop :=
  ∀ entry ∈ images, ∃ image, loadImage sha256 (fun _ => false) root entry.1 entry.2 false = .ok image

/-- The images can be listed when each of them can be loaded. -/
theorem list_eq_ok_iff : (∃ listed, list sha256 root images = .ok listed) ↔
    Loads sha256 root images := by
  constructor
  · rintro ⟨listed, hlist⟩ entry hentry
    obtain ⟨loaded, hloaded, -⟩ := bind_eq_ok.mp hlist
    obtain ⟨image, -, himage⟩ := exists_of_forall₂ (mapM_eq_ok_iff.mp hloaded) hentry
    exact ⟨image, himage⟩
  · intro h
    have hall : ∃ loaded, images.mapM (fun entry =>
        loadImage sha256 (fun _ => false) root entry.1 entry.2 false) = .ok loaded := by
      simp only [mapM_eq_ok_iff]
      induction images with
      | nil => exact ⟨[], .nil⟩
      | cons entry images ih =>
        obtain ⟨image, himage⟩ := h entry List.mem_cons_self
        obtain ⟨loaded, hloaded⟩ := ih fun other hother => h other (List.mem_cons_of_mem _ hother)
        exact ⟨image :: loaded, .cons himage hloaded⟩
    obtain ⟨loaded, hloaded⟩ := hall
    exact ⟨_, by rw [list, hloaded, ok_bind]; rfl⟩

theorem Loads.append (h : Loads sha256 root images) {name : Str} {files : ImageDirectory}
    {image : SealedImage}
    (himage : loadImage sha256 (fun _ => false) root name files false = .ok image) :
    Loads sha256 root (images ++ [(name, files)]) := by
  intro entry hentry
  rcases List.mem_append.mp hentry with hold | hnew
  · exact h entry hold
  · rw [List.mem_singleton.mp hnew]
    exact ⟨image, himage⟩

end List

end Lsw.Core.Image
