import Lsw.Core.SealedImage

/-!
# The Metadata of a Sealed Image

`load_image` looks fields up in free text, by the first line that begins with `name=`, and checks what it
finds against the name of the directory, which is a hash of the values joined by newlines.

Two things follow.  What `encode` writes for an image is loaded as that image.  And what is loaded from
two texts below one name agrees in all that the name is a hash of, whatever else is in the texts: the
digests have a fixed length, so the joined values can be taken apart again even though a profile is of
any length.  A hash into 32 bytes is not injective, so all that is asked of it is that it tells these two
joined texts apart.
-/

namespace Lsw.Core.Image

open Lsw.Lib

/-! ## What is hashed -/

/-- What `image_key` feeds to the hash. -/
def keyText (image : SealedImage) : List UInt8 :=
  bytes ([decimal imageFormatVersion.toNat, preparationIdentity, image.sourceIsoSha256,
    image.profile, image.agentSha256, image.firmwareSha256,
    image.sourceDiskSha256].flatMap (· ++ ['\n']))

/-- Two images are made of the same. -/
structure MadeOfSame (left right : SealedImage) : Prop where
  sourceIso : left.sourceIsoSha256 = right.sourceIsoSha256
  profile : left.profile = right.profile
  agent : left.agentSha256 = right.agentSha256
  firmware : left.firmwareSha256 = right.firmwareSha256
  sourceDisk : left.sourceDiskSha256 = right.sourceDiskSha256

theorem bytes_injective {left right : Str} (h : bytes left = bytes right) : left = right := by
  have hread := congrArg fromUtf8 h
  rw [fromUtf8_bytes, fromUtf8_bytes] at hread
  exact Option.some.inj hread

theorem length_of_isDigest {digest : Str} (h : isDigest digest = true) :
    (bytes digest).length = 64 :=
  beq_iff_eq.mp (Bool.and_eq_true_iff.mp h).1

/-- A text whose parts but one have a known length can be taken apart. -/
theorem madeOfSame_of_keyText {left right : SealedImage}
    (hleft : ∀ digest ∈ left.digests, isDigest digest = true)
    (hright : ∀ digest ∈ right.digests, isDigest digest = true)
    (h : keyText left = keyText right) : MadeOfSame left right := by
  simp only [SealedImage.digests, List.forall_mem_cons] at hleft hright
  obtain ⟨-, hiso, hagent, hfirmware, hdisk, -⟩ := hleft
  obtain ⟨-, hiso', hagent', hfirmware', hdisk', -⟩ := hright
  replace hiso := (length_of_isDigest hiso).trans (length_of_isDigest hiso').symm
  replace hagent := (length_of_isDigest hagent).trans (length_of_isDigest hagent').symm
  replace hfirmware := (length_of_isDigest hfirmware).trans (length_of_isDigest hfirmware').symm
  replace hdisk := (length_of_isDigest hdisk).trans (length_of_isDigest hdisk').symm
  simp only [keyText, List.flatMap_cons, List.flatMap_nil, bytes_append, List.append_assoc,
    List.append_cancel_left_eq] at h
  obtain ⟨hisoEq, h⟩ := List.append_inj h hiso
  have h := List.append_cancel_left h
  -- The digests behind the profile are equally long on both sides, so the profile is too.
  have hlength : (bytes left.profile).length = (bytes right.profile).length := by
    have htotal := congrArg List.length h
    simp only [List.length_append, hagent, hfirmware, hdisk] at htotal
    omega
  obtain ⟨hprofileEq, h⟩ := List.append_inj h hlength
  obtain ⟨hagentEq, h⟩ := List.append_inj (List.append_cancel_left h) hagent
  obtain ⟨hfirmwareEq, h⟩ := List.append_inj (List.append_cancel_left h) hfirmware
  obtain ⟨hdiskEq, -⟩ := List.append_inj (List.append_cancel_left h) hdisk
  exact ⟨bytes_injective hisoEq, bytes_injective hprofileEq, bytes_injective hagentEq,
    bytes_injective hfirmwareEq, bytes_injective hdiskEq⟩

theorem digitChar_injective : ∀ m < 16, ∀ n < 16, Nat.digitChar m = Nat.digitChar n → m = n := by
  decide

/-- Different bytes have different hexadecimal texts. -/
theorem hexEncode_injective {left right : List UInt8}
    (h : Creation.hexEncode left = Creation.hexEncode right) : left = right := by
  induction left generalizing right with
  | nil =>
    cases right with
    | nil => rfl
    | cons byte right => simp [Creation.hexEncode] at h
  | cons byte left ih =>
    cases right with
    | nil => simp [Creation.hexEncode] at h
    | cons byte' right =>
      simp only [Creation.hexEncode, List.flatMap_cons, List.cons_append, List.nil_append,
        List.cons.injEq] at h
      obtain ⟨hhigh, hlow, hrest⟩ := h
      have hbyte := byte.toNat_lt
      have hbyte' := byte'.toNat_lt
      have hdiv := digitChar_injective _ (by omega) _ (by omega) hhigh
      have hmod := digitChar_injective _ (by omega) _ (by omega) hlow
      have heq : byte = byte' := UInt8.toNat_inj.mp (by omega)
      rw [heq, ih hrest]

/-! ## Loading -/

section Load

variable {sha256 : Sha256} {root : PathBuf} {name : Str}

/-- What is loaded has digests, and the name of the directory is its content key. -/
theorem loadImage_ok {fails : LoadCall → Bool} {files : ImageDirectory} {verifyDisk : Bool}
    {image : SealedImage} (h : loadImage sha256 fails root name files verifyDisk = .ok image) :
    (∀ digest ∈ image.digests, isDigest digest = true) ∧ name = image.expectedKey sha256 := by
  unfold loadImage at h
  simp only [bind_eq_ok] at h
  obtain ⟨_, -, _, -, _, -, _, -, _, -, _, -, _, -, key, -, _, -, disk, -, iso, -, profile, -,
    agent, -, firmware, -, source, -, base, -, ⟨⟩, hdigests, ⟨⟩, hkey, _, -, ⟨⟩, -, h⟩ := h
  have hall := forEach_check hdigests
  obtain ⟨-, hname⟩ := not_or.mp ((rejectIf_eq_ok _ _ _).mp hkey)
  have hdigest {digest : Str} (hmem : digest ∈ [key, iso, agent, firmware, source, base]) :
      isDigest digest = true := by
    simpa using (rejectIf_eq_ok _ _ _).mp (hall digest hmem)
  have himage : SealedImage.mk key (imageDirectory root name)
      ((imageDirectory root name).join baseDiskFile) iso profile agent firmware source base = image := by
    cases verifyDisk with
    | false => exact Except.ok.inj h
    | true =>
      simp only [if_true, bind_eq_ok] at h
      obtain ⟨⟨⟩, -, ⟨⟩, -, h⟩ := h
      exact Except.ok.inj h
  subst himage
  exact ⟨fun digest hmem => hdigest hmem, not_not.mp hname⟩

/-- What is loaded from two directories of one name is made of the same, if the hash tells the two
    joined texts apart. -/
theorem madeOfSame_of_load {fails fails' : LoadCall → Bool} {files files' : ImageDirectory}
    {verifyDisk verifyDisk' : Bool} {root' : PathBuf} {left right : SealedImage}
    (hleft : loadImage sha256 fails root name files verifyDisk = .ok left)
    (hright : loadImage sha256 fails' root' name files' verifyDisk' = .ok right)
    (hapart : sha256 (keyText left) = sha256 (keyText right) → keyText left = keyText right) :
    MadeOfSame left right := by
  obtain ⟨hdigests, hname⟩ := loadImage_ok hleft
  obtain ⟨hdigests', hname'⟩ := loadImage_ok hright
  have hhash : Creation.hexEncode (sha256 (keyText left)).toList =
      Creation.hexEncode (sha256 (keyText right)).toList := hname.symm.trans hname'
  exact madeOfSame_of_keyText hdigests hdigests'
    (hapart (Vector.toList_inj.mp (hexEncode_injective hhash)))

end Load

/-! ## What was encoded -/

/-- A value that its line gives back. -/
def LineValue (value : Str) : Prop := '\n' ∉ value ∧ value.getLast? ≠ some '\r'

/-- An image whose metadata can be written: its digests are digests, its profile has no line break, and its
    key is the content key. -/
structure Consistent (sha256 : Sha256) (image : SealedImage) : Prop where
  digests : ∀ digest ∈ image.digests, isDigest digest = true
  profile : LineValue image.profile
  key : image.key = image.expectedKey sha256

section Encode

variable {sha256 : Sha256} {image : SealedImage}

theorem lineValue_of_oneLine {value : Str} (h : OneLine value) : LineValue value :=
  ⟨h.1, fun hlast => h.2 (List.mem_of_getLast? hlast)⟩

/-- A line has its value's end, so nothing is stripped of it. -/
theorem stripCarriageReturn_line {name value : Str} (h : LineValue value) :
    stripCarriageReturn (name ++ '=' :: value) = name ++ '=' :: value := by
  rw [stripCarriageReturn, if_neg]
  rw [List.getLast?_append_of_ne_nil _ (by simp)]
  cases value with
  | nil => decide
  | cons c value =>
    rw [List.getLast?_cons_cons]
    exact h.2

/-- The fields of a consistent image are lines. -/
theorem Consistent.values (h : Consistent sha256 image) :
    ∀ line ∈ image.fields, '=' ∉ line.1 ∧ '\n' ∉ line.1 ∧ LineValue line.2 := by
  have hdigest : ∀ digest ∈ image.digests, LineValue digest := fun digest hmem =>
    lineValue_of_oneLine (oneLine_of_isDigest (h.digests digest hmem))
  simp only [SealedImage.digests, List.forall_mem_cons] at hdigest
  obtain ⟨hkey, hiso, hagent, hfirmware, hsource, hbase, -⟩ := hdigest
  have hvalues : ∀ value ∈ image.fields.map Prod.snd, LineValue value := by
    simp only [SealedImage.fields, List.map_cons, List.map_nil, List.forall_mem_cons]
    exact ⟨lineValue_of_oneLine (oneLine_decimal _), hkey, hiso, h.profile, ⟨by decide, by decide⟩,
      hagent, hfirmware, hsource, hbase, by simp⟩
  have hnames : ∀ text ∈ ["version", "key", "source_iso_sha256", "profile",
      "preparation_identity", "agent_sha256", "firmware_sha256", "source_disk_sha256",
      "base_disk_sha256"].map String.toList, '=' ∉ text ∧ '\n' ∉ text := by decide
  intro line hline
  obtain ⟨hequals, hone⟩ := hnames line.1 (List.mem_map_of_mem (f := Prod.fst) hline)
  exact ⟨hequals, hone, hvalues line.2 (List.mem_map_of_mem hline)⟩

/-- Every field of the metadata is found with its own value. -/
theorem Consistent.field_encode (h : Consistent sha256 image) {name : String} {value : Str}
    (hname : '=' ∉ name.toList) (hlookup : image.fields.lookup name.toList = some value) :
    field image.encode name = .ok value := by
  have hlines : lines image.encode = image.fields.map fun line => line.1 ++ '=' :: line.2 := by
    refine lines_flatMap_of_last fun text htext => ?_
    obtain ⟨line, hline, rfl⟩ := List.mem_map.mp htext
    obtain ⟨-, hkey, hvalue⟩ := h.values line hline
    refine ⟨?_, stripCarriageReturn_line hvalue⟩
    simp [hkey, hvalue.1]
  rw [field, hlines, findSome_stripPrefix hname fun line hline => (h.values line hline).1, hlookup,
    okOr_some]

end Encode

/-- The metadata of a consistent image is loaded as that image, and what is loaded below one name is made
    of the same as long as the hash tells the texts apart that it was made for. -/
theorem metadata_says_what_an_image_is_made_of (sha256 : Sha256) :
    (∀ (image : SealedImage) (root : PathBuf) (disk : DiskFile) (verifyDisk : Bool),
      Consistent sha256 image → image.directory = imageDirectory root image.key →
      image.disk = image.directory.join baseDiskFile → disk.writable = false →
      (verifyDisk = true → image.baseDiskSha256 = hexDigest sha256 disk.contents) →
      loadImage sha256 (fun _ => false) root image.key
        { disk := some disk, metadata := some image.encode } verifyDisk = .ok image) ∧
    ∀ (root root' : PathBuf) (name : Str) (fails fails' : LoadCall → Bool)
      (files files' : ImageDirectory) (verifyDisk verifyDisk' : Bool) (left right : SealedImage),
      loadImage sha256 fails root name files verifyDisk = .ok left →
      loadImage sha256 fails' root' name files' verifyDisk' = .ok right →
      (sha256 (keyText left) = sha256 (keyText right) → keyText left = keyText right) →
      MadeOfSame left right := by
  refine ⟨fun image root disk verifyDisk h hdirectory hdisk hreadonly hbase => ?_, ?_⟩
  · rw [load_of_fields h.field_encode h.digests h.key hreadonly hbase fun _ _ => rfl, ← hdirectory,
      ← hdisk]
  · intro root root' name fails fails' files files' verifyDisk verifyDisk' left right
    exact madeOfSame_of_load

/-- The digest of the one text that is hashed below. -/
def sampleSha256 : Sha256 := fun _ => #v[175, 168, 100, 239, 223, 84, 48, 189, 60, 80, 211, 132, 50,
  207, 31, 18, 152, 183, 23, 252, 148, 176, 51, 1, 247, 206, 178, 192, 71, 229, 87, 14]

def sampleKey : Str := "afa864efdf5430bd3c50d38432cf1f1298b717fc94b03301f7ceb2c047e5570e".toList

/-- An image, by the digest of its disk. -/
def sampleImage (baseDisk : Char) : SealedImage where
  key := sampleKey
  directory := imageDirectory (.ofStr "/lsw".toList) sampleKey
  disk := (imageDirectory (.ofStr "/lsw".toList) sampleKey).join baseDiskFile
  sourceIsoSha256 := List.replicate 64 'a'
  profile := "vanilla".toList
  agentSha256 := List.replicate 64 'b'
  firmwareSha256 := List.replicate 64 'c'
  sourceDiskSha256 := List.replicate 64 'd'
  baseDiskSha256 := List.replicate 64 baseDisk

theorem two_disks_of_one_content_are_loaded :
    (loadImage sampleSha256 (fun _ => false) (.ofStr "/lsw".toList) sampleKey
        { disk := some ⟨[], false⟩, metadata := some (sampleImage 'e').encode } false =
      .ok (sampleImage 'e')) ∧
    MadeOfSame (sampleImage 'e') (sampleImage 'f') := by
  have hfirst : Consistent sampleSha256 (sampleImage 'e') :=
    ⟨by decide, ⟨by decide, by decide⟩, by decide⟩
  have hsecond : Consistent sampleSha256 (sampleImage 'f') :=
    ⟨by decide, ⟨by decide, by decide⟩, by decide⟩
  obtain ⟨hload, hsame⟩ := metadata_says_what_an_image_is_made_of sampleSha256
  have hloaded := hload (sampleImage 'e') (.ofStr "/lsw".toList) ⟨[], false⟩ false hfirst rfl rfl rfl
    (by simp)
  have hother := hload (sampleImage 'f') (.ofStr "/lsw".toList) ⟨[], false⟩ false hsecond rfl rfl rfl
    (by simp)
  exact ⟨hloaded, hsame _ _ _ _ _ _ _ _ _ _ _ hloaded hother fun _ => rfl⟩

end Lsw.Core.Image
