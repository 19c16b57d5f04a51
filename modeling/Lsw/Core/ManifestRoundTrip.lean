import Lsw.Core.ManifestLines
import Lsw.Core.ManifestMigration

/-!
# Reading Back a Manifest

What `encode` writes, `decode` reads: `decode_encode_iff` says for which manifests.  Past
the lines, `decode` makes the checks that `encode` made as well, but for the limit on the
number of shares.
-/

namespace Lsw.Core

open Lsw.Lib

/-! ## The fields of a storable manifest -/

/-- A key that `decode` reads as the key of its line. -/
structure PlainKey (key : Str) : Prop where
  no_equals : '=' ∉ key
  no_hash : key.head? ≠ some '#'
  oneLine : OneLine key

theorem PlainKey.field {key value : Str} (hkey : PlainKey key) (hvalue : OneLine value) :
    PlainField (key, value) where
  key_no_equals := hkey.no_equals
  key_no_hash := hkey.no_hash
  no_newline := by simp [hkey.oneLine.1, hvalue.1]
  no_return := by simp [hkey.oneLine.2, hvalue.2]

theorem plainKey_of_mem_headKeys {key : Str} (h : key ∈ headKeys.map String.toList) :
    PlainKey key := by
  have hall : ∀ key ∈ headKeys.map String.toList, '=' ∉ key ∧ key.head? ≠ some '#' ∧
      '\n' ∉ key ∧ '\r' ∉ key := by decide
  obtain ⟨hequals, hhash, hn, hr⟩ := hall key h
  exact ⟨hequals, hhash, hn, hr⟩

/-- The key of a field of a share can be read back. -/
theorem plainKey_shareKey (index : Nat) {field : String} (h : field ∈ shareKeys) :
    PlainKey (shareKey index field) := by
  have hfield : ∀ field ∈ shareKeys, '=' ∉ field.toList ∧ '\n' ∉ field.toList ∧
      '\r' ∉ field.toList := by decide
  have hpre : '=' ∉ "share.".toList ∧ '\n' ∉ "share.".toList ∧ '\r' ∉ "share.".toList ∧
      "share.".toList.head? = some 's' := by decide
  have hdigits : ∀ c : Char, c.isDigit = false → c ∉ decimal index := fun c hc =>
    not_mem_decimal hc
  obtain ⟨he, hn, hr⟩ := hfield field h
  obtain ⟨hpe, hpn, hpr, hps⟩ := hpre
  rw [shareKey_eq, List.append_assoc]
  refine ⟨?_, ?_, ?_, ?_⟩
  · simp only [List.mem_append, List.mem_cons, not_or]
    exact ⟨hpe, hdigits _ (by decide), by decide, he⟩
  · rw [List.head?_append, hps]
    simp
  · simp only [List.mem_append, List.mem_cons, not_or]
    exact ⟨hpn, hdigits _ (by decide), by decide, hn⟩
  · simp only [List.mem_append, List.mem_cons, not_or]
    exact ⟨hpr, hdigits _ (by decide), by decide, hr⟩

theorem oneLine_boolText (b : Bool) : OneLine (boolText b) := by
  cases b <;> exact ⟨by decide, by decide⟩

theorem oneLine_append {s t : Str} (hs : OneLine s) (ht : OneLine t) : OneLine (s ++ t) := by
  simp only [OneLine, List.mem_append, not_or] at *
  exact ⟨⟨hs.1, ht.1⟩, hs.2, ht.2⟩

theorem oneLine_intercalate {pieces : List Str} (h : ∀ piece ∈ pieces, OneLine piece) :
    OneLine ([','].intercalate pieces) := by
  induction pieces with
  | nil => exact ⟨by simp, by simp⟩
  | cons piece pieces ih =>
    have hpiece := h piece List.mem_cons_self
    have hrest := ih fun p hp => h p (List.mem_cons_of_mem piece hp)
    cases pieces with
    | nil => simpa using hpiece
    | cons next pieces =>
      rw [List.intercalate_cons_cons]
      exact oneLine_append (oneLine_append hpiece ⟨by decide, by decide⟩) hrest

theorem PortForward.oneLine_text (forward : PortForward) : OneLine forward.text := by
  rw [PortForward.text, ← List.singleton_append]
  exact oneLine_append (oneLine_decimal _)
    (oneLine_append ⟨by decide, by decide⟩ (oneLine_decimal _))

theorem oneLine_getD {value : Option Str} (h : ∀ s, value = some s → OneLine s) :
    OneLine (value.getD []) := by
  cases value with
  | none => exact ⟨by simp, by simp⟩
  | some s => exact h s rfl

section Fields

variable {manifest : InstanceManifest} {iso : Str}

/-- Every value of the head is one line. -/
theorem oneLine_headFields (hspec : StorableSpec manifest.spec)
    (hruntime : StorableRuntime manifest) (hiso : OneLine iso) :
    ∀ field ∈ headFields manifest iso, OneLine field.2 := by
  -- No value of the head has a line break in it: neither a text that was checked …
  have hname := oneLine_of_isName hspec.name_valid
  have hforwards : OneLine ([','].intercalate (manifest.spec.portForwards.map PortForward.text)) :=
    oneLine_intercalate fun piece hpiece => by
      obtain ⟨forward, -, rfl⟩ := List.mem_map.mp hpiece
      exact forward.oneLine_text
  have hkey := oneLine_getD fun key h => (hruntime.key key h).2
  have huser := oneLine_getD fun user h => (hruntime.user user h).2
  -- … nor the name of a variant.
  have hprofile : OneLine manifest.spec.profile.text.toList := by
    cases manifest.spec.profile <;> exact ⟨by decide, by decide⟩
  have hnetwork : OneLine manifest.spec.network.text.toList := by
    cases manifest.spec.network <;> exact ⟨by decide, by decide⟩
  have hstate : OneLine manifest.state.text.toList := by
    cases manifest.state <;> exact ⟨by decide, by decide⟩
  have hpolicy : OneLine manifest.idlePolicy.text.toList := by
    cases manifest.idlePolicy <;> exact ⟨by decide, by decide⟩
  have hrole : OneLine ((manifest.defaultUserRole.map fun role => role.text.toList).getD []) :=
    oneLine_getD fun s hs => by
      obtain ⟨role, -, rfl⟩ := Option.map_eq_some_iff.mp hs
      cases role <;> exact ⟨by decide, by decide⟩
  simp only [headFields, List.forall_mem_cons, oneLine_decimal, oneLine_boolText, true_and]
  exact ⟨hname, hiso, hprofile, hnetwork, hforwards, hstate, hpolicy, hkey, huser, hrole,
    by simp⟩

/-- Every field of a storable manifest can be read back. -/
theorem plain_manifestFields (hspec : StorableSpec manifest.spec)
    (hruntime : StorableRuntime manifest) (hiso : OneLine iso) :
    ∀ field ∈ manifestFields manifest iso, PlainField field := by
  intro field hfield
  -- A field is one of the head, or one of a share.
  rcases List.mem_append.mp hfield with hhead | hshare
  · refine PlainKey.field (plainKey_of_mem_headKeys ?_)
      (oneLine_headFields hspec hruntime hiso field hhead)
    rw [← map_fst_headFields manifest iso]
    exact List.mem_map_of_mem hhead
  · obtain ⟨⟨share, index⟩, hentry, hmem⟩ := List.mem_flatMap.mp hshare
    obtain ⟨-, hname, ⟨host, hhost, hhostLine⟩, hguest⟩ :=
      hruntime.shares share (List.fst_mem_of_mem_zipIdx hentry)
    have hmode : OneLine share.mode.text.toList := by
      cases share.mode <;> exact ⟨by decide, by decide⟩
    have htransport : OneLine share.transport.text.toList := by
      cases share.transport <;> exact ⟨by decide, by decide⟩
    -- The key of a share has its number in it.
    have hkey : PlainKey field.1 := by
      have hfst := List.mem_map_of_mem (f := Prod.fst) hmem
      rw [map_fst_shareFields] at hfst
      obtain ⟨f, hf, heq⟩ := List.mem_map.mp hfst
      exact heq ▸ plainKey_shareKey index hf
    refine hkey.field ?_
    simp only [shareFields, List.mem_cons, List.not_mem_nil, or_false] at hmem
    rcases hmem with rfl | rfl | rfl | rfl | rfl
    · exact hname
    · rw [hhost, PathBuf.display_ofStr]
      exact hhostLine
    · exact hguest
    · exact hmode
    · exact htransport

/-- Field `k` of the lines before the shares is found under its key. -/
theorem lookup_headField (k : Nat) {key value : Str}
    (h : (headFields manifest iso)[k]? = some (key, value)) :
    (manifestFields manifest iso).lookup key = some value :=
  lookup_eq_some_of_mem (nodup_keys manifest iso)
    (List.mem_append_left _ (List.mem_of_getElem? h))

/-- The lines of share `index` are found under their keys. -/
theorem lookup_shareField {index : Nat} {share : FolderShare}
    (hshare : manifest.folderShares[index]? = some share) (k : Nat) {key value : Str}
    (h : (shareFields index share)[k]? = some (key, value)) :
    (manifestFields manifest iso).lookup key = some value := by
  refine lookup_eq_some_of_mem (nodup_keys manifest iso) (List.mem_append_right _ ?_)
  exact List.mem_flatMap.mpr ⟨(share, index), List.mem_zipIdx_iff_getElem?.mpr hshare,
    List.mem_of_getElem? h⟩

end Fields

/-! ## Reading the fields back -/

theorem since_current {α : Type} {first : Nat} (h : first ≤ 8) (read : Result α) (older : α) :
    since manifestVersion first read older = read := if_pos h

section Decode

variable {manifest : InstanceManifest} {iso : Str}

/-- The specification is read back. -/
theorem decodeSpec_manifestFields (hspec : StorableSpec manifest.spec)
    (hiso : manifest.spec.sourceIso = .ofStr iso) :
    decodeSpec (manifestFields manifest iso) manifestVersion = .ok manifest.spec := by
  unfold decodeSpec
  rw [requiredField_eq (lookup_headField 1 rfl), ok_bind,
    requiredField_eq (lookup_headField 2 rfl), ok_bind,
    requiredField_eq (lookup_headField 3 rfl), ok_bind, WindowsProfile.parseManifest_text, ok_bind,
    parseField_eq (lookup_headField 4 rfl) (parseU16_decimal _), ok_bind,
    parseField_eq (lookup_headField 5 rfl) (parseU32_decimal _), ok_bind,
    parseField_eq (lookup_headField 6 rfl) (parseU32_decimal _), ok_bind,
    since_current (by decide), requiredField_eq (lookup_headField 7 rfl), ok_bind,
    NetworkMode.fromStr_text, ok_bind,
    since_current (by decide), requiredField_eq (lookup_headField 8 rfl), ok_bind,
    parsePortForwards_text (fun forward h => (hspec.forwards forward h).1), ok_bind,
    parseField_eq (lookup_headField 9 rfl) (parseFlag_boolText _), ok_bind,
    parseField_eq (lookup_headField 10 rfl) (parseFlag_boolText _), ok_bind, ← hiso]
  rfl

/-- Every share is. -/
theorem parseFolderShare_manifestFields {index : Nat} {share : FolderShare}
    (hshare : manifest.folderShares[index]? = some share) (hstorable : StorableShare share) :
    parseFolderShare (manifestFields manifest iso) manifestVersion index = .ok share := by
  obtain ⟨hvalid, -, ⟨host, hhost, -⟩, -⟩ := hstorable
  unfold parseFolderShare
  rw [requiredField_eq (lookup_shareField hshare 0 rfl), ok_bind,
    requiredField_eq (lookup_shareField hshare 1 rfl), ok_bind,
    requiredField_eq (lookup_shareField hshare 2 rfl), ok_bind,
    requiredField_eq (lookup_shareField hshare 3 rfl), ok_bind,
    FolderShareMode.fromStr_text, ok_bind, since_current (by decide),
    requiredField_eq (lookup_shareField hshare 4 rfl), ok_bind,
    FolderShareTransport.fromStr_text, ok_bind]
  have hpath : PathBuf.ofStr share.hostPath.display = share.hostPath := by
    rw [hhost, PathBuf.display_ofStr]
  dsimp only
  rw [hpath, hvalid, ok_bind]
  rfl

/-- The shares are read back, up to the reader's limit. -/
theorem parseFolderShares_manifestFields (hruntime : StorableRuntime manifest)
    (hcount : manifest.folderShares.length ≤ 64) :
    parseFolderShares (manifestFields manifest iso) manifestVersion =
      .ok manifest.folderShares := by
  have hsize : manifest.folderShares.length < usizeSize := by
    have : 64 < usizeSize := by decide
    omega
  unfold parseFolderShares
  rw [parseField_eq (lookup_headField 23 rfl) (parseUsize_decimal hsize), ok_bind,
    rejectIf_of_not _ (by omega), ok_bind, mapM_eq_ok_iff, List.forall₂_iff_get]
  refine ⟨by simp, fun i hi hi' => ?_⟩
  simp only [List.get_eq_getElem, List.getElem_range]
  exact parseFolderShare_manifestFields (List.getElem?_eq_getElem hi')
    (hruntime.shares _ (List.getElem_mem hi'))

/-- An optional field is read back when the value it holds is not empty. -/
theorem optionalNonemptyField_eq {fields : Fields} {key : Str} {value : Option Str}
    (h : fields.lookup key = some (value.getD [])) (hne : ∀ s, value = some s → s ≠ []) :
    optionalNonemptyField fields key = value := by
  rw [optionalNonemptyField, h]
  cases value with
  | none => rfl
  | some s => simp [Option.filter, hne s rfl]

theorem parseRole_map_text (role : Option WindowsUserRole) :
    parseRole (role.map fun role => role.text.toList) = .ok role := by
  cases role with
  | none => rfl
  | some role =>
    rw [Option.map_some, parseRole, WindowsUserRole.fromStr_text]
    rfl

end Decode

/-! ## Whole manifests -/

theorem encode_eq_ok_iff {manifest : InstanceManifest} {text : Str} :
    manifest.encode = .ok text ↔ Storable manifest ∧
      ∃ iso, manifest.spec.sourceIso = .ofStr iso ∧
        text = renderFields (manifestFields manifest iso) := by
  simp only [InstanceManifest.encode, bind_eq_ok, okOr_eq_ok, pure_eq_ok_iff,
    PathBuf.toStr_eq_some_iff]
  constructor
  · rintro ⟨⟨⟩, hspec, ⟨⟩, hidle, ⟨⟩, hhibernate, ⟨⟩, hruntime, iso, hiso, rfl⟩
    exact ⟨⟨storableSpec hspec, hidle, hhibernate, storableRuntime hruntime⟩, iso, hiso, rfl⟩
  · rintro ⟨hstorable, iso, hiso, rfl⟩
    exact ⟨(), hstorable.spec.valid, (), hstorable.idleTimeout, (), hstorable.hibernateTimeout,
      (), hstorable.runtime.valid, iso, hiso, rfl⟩

/-- What a manifest needs, besides passing the checks of `encode`, to be read back. -/
structure Readable (manifest : InstanceManifest) : Prop where
  version_eq : manifest.version = manifestVersion
  controlPort_eq : controlPortForInstance manifest.spec.name = .ok manifest.controlPort
  shares_le : manifest.folderShares.length ≤ 64

/-- So is the whole manifest. -/
theorem decodeFields_manifestFields {manifest : InstanceManifest} {iso : Str}
    (hstorable : Storable manifest) (hiso : manifest.spec.sourceIso = .ofStr iso)
    (hreadable : Readable manifest) :
    decodeFields (manifestFields manifest iso) = .ok manifest := by
  obtain ⟨hspec, hidle, hhibernate, hruntime⟩ := hstorable
  -- The version that is written is the current one, so no field is left to its default.
  have hversion : parseField parseU32 (manifestFields manifest iso) "version".toList =
      .ok manifestVersion := parseField_eq (lookup_headField 0 rfl) (parseU32_decimal _)
  -- A role that is written is not empty.
  have hrole : ∀ s, (manifest.defaultUserRole.map fun role => role.text.toList) = some s →
      s ≠ [] := by
    intro s hs
    obtain ⟨role, -, rfl⟩ := Option.map_eq_some_iff.mp hs
    cases role <;> decide
  have hmanifest : ({ manifest with version := manifestVersion } : InstanceManifest) = manifest := by
    rw [← hreadable.version_eq]
  -- The fields in the order in which `decode` asks for them.
  unfold decodeFields
  rw [hversion, ok_bind, rejectIf_of_not _ (by decide), ok_bind,
    decodeSpec_manifestFields hspec hiso, ok_bind, hspec.valid, ok_bind,
    parseField_eq (lookup_headField 12 rfl) (parseU16_decimal _), ok_bind,
    hreadable.controlPort_eq, ok_bind, rejectIf_of_not _ (by simp), ok_bind,
    since_current (by decide), parseField_eq (lookup_headField 14 rfl) (parseU64_decimal _),
    ok_bind, hidle, ok_bind,
    since_current (by decide), parseField_eq (lookup_headField 15 rfl) (parseU64_decimal _),
    ok_bind, hhibernate, ok_bind,
    since_current (by decide), requiredField_eq (lookup_headField 16 rfl), ok_bind,
    IdlePolicy.fromStr_text, ok_bind,
    since_current (by decide), parseField_eq (lookup_headField 17 rfl) (parseU32_decimal _),
    ok_bind, parseField_eq (lookup_headField 13 rfl) (parseU64_decimal _), ok_bind,
    since_current (by decide), parseField_eq (lookup_headField 18 rfl) (parseU64_decimal _),
    ok_bind, since_current (by decide), ok_bind, since_current (by decide), ok_bind,
    optionalNonemptyField_eq (lookup_headField 19 rfl) (fun s hs => (hruntime.key s hs).1),
    optionalNonemptyField_eq (lookup_headField 20 rfl) (fun s hs => (hruntime.user s hs).1),
    since_current (by decide), optionalNonemptyField_eq (lookup_headField 21 rfl) hrole,
    parseRole_map_text, ok_bind,
    since_current (by decide), parseField_eq (lookup_headField 22 rfl) (parseFlag_boolText _),
    ok_bind, since_current (by decide),
    parseFolderShares_manifestFields hruntime hreadable.shares_le, ok_bind,
    requiredField_eq (lookup_headField 11 rfl), ok_bind, InstanceState.fromStr_text, ok_bind]
  dsimp only
  rw [hmanifest, hruntime.valid, ok_bind]
  rfl

/-- The lines of an encoded manifest are its fields. -/
theorem parseFields_encode {manifest : InstanceManifest} {iso : Str}
    (hstorable : Storable manifest) (hiso : manifest.spec.sourceIso = .ofStr iso) :
    parseFields (renderFields (manifestFields manifest iso)) =
      .ok (manifestFields manifest iso) := by
  have hisoLine : OneLine iso := by
    obtain ⟨iso', hiso', hline⟩ := hstorable.spec.iso
    have hsame := congrArg PathBuf.toStr (hiso.symm.trans hiso')
    rw [PathBuf.toStr_ofStr, PathBuf.toStr_ofStr, Option.some.injEq] at hsame
    exact hsame ▸ hline
  exact parseFields_renderFields (nodup_keys manifest iso)
    (plain_manifestFields hstorable.spec hstorable.runtime hisoLine)

/-- A manifest that `encode` accepts is read back unchanged. -/
theorem decode_encode {manifest : InstanceManifest} {text : Str}
    (hencode : manifest.encode = .ok text) (hreadable : Readable manifest) :
    InstanceManifest.decode text = .ok manifest := by
  obtain ⟨hstorable, iso, hiso, rfl⟩ := encode_eq_ok_iff.mp hencode
  rw [InstanceManifest.decode, parseFields_encode hstorable hiso, ok_bind]
  exact decodeFields_manifestFields hstorable hiso hreadable

/-- A text that names more than 64 shares is not read, whatever manifest is asked for. -/
theorem length_folderShares_of_decode_encode {manifest read : InstanceManifest} {text : Str}
    (hencode : manifest.encode = .ok text) (hdecode : InstanceManifest.decode text = .ok read) :
    manifest.folderShares.length ≤ 64 := by
  obtain ⟨hstorable, iso, hiso, rfl⟩ := encode_eq_ok_iff.mp hencode
  rw [InstanceManifest.decode, parseFields_encode hstorable hiso, ok_bind] at hdecode
  obtain ⟨⟨version, hmigrated⟩, -, -⟩ := decoded_of_decodeFields hdecode
  -- The text is of the current version, so its share count was read.
  have hversion : version = manifestVersion := by
    obtain ⟨value, hlookup, hparse⟩ := hmigrated.textVersion
    rw [lookup_headField 0 rfl, Option.some.injEq] at hlookup
    rw [← hlookup, parseU32_decimal, Except.ok.injEq] at hparse
    exact hparse.symm
  have hshares := hmigrated.folderShares.carried (by rw [hversion]; decide)
  obtain ⟨value, hlookup, hparse⟩ := hshares.count
  rw [lookup_headField 23 rfl, Option.some.injEq] at hlookup
  have hcount : read.folderShares.length = manifest.folderShares.length := by
    rw [← hlookup, parseUsize, parseInt] at hparse
    split at hparse
    · rename_i n hn
      rw [← Except.ok.inj hparse]
      exact parseUnsigned_decimal_value hn
    · simp at hparse
  rw [← hcount]
  exact hshares.count_le

/-- A text is read only if its control port is the one of its name. -/
theorem controlPort_of_decode_encode {manifest read : InstanceManifest} {text : Str}
    (hencode : manifest.encode = .ok text) (hdecode : InstanceManifest.decode text = .ok read) :
    controlPortForInstance manifest.spec.name = .ok manifest.controlPort := by
  obtain ⟨hstorable, iso, hiso, rfl⟩ := encode_eq_ok_iff.mp hencode
  rw [InstanceManifest.decode, parseFields_encode hstorable hiso, ok_bind] at hdecode
  obtain ⟨⟨version, hmigrated⟩, -, hport⟩ := decoded_of_decodeFields hdecode
  have hname := hmigrated.spec.name
  rw [lookup_headField 1 rfl, Option.some.injEq] at hname
  obtain ⟨value, hlookup, hparse⟩ := hmigrated.controlPort
  rw [lookup_headField 12 rfl, Option.some.injEq] at hlookup
  rw [← hlookup, parseU16_decimal, Except.ok.injEq] at hparse
  rw [hname, hparse]
  exact hport

/-- The text of a manifest tells its ports. -/
theorem ports_of_encode_eq {a b : InstanceManifest} {text : Str} (ha : a.encode = .ok text)
    (hb : b.encode = .ok text) :
    a.controlPort = b.controlPort ∧ a.spec.portForwards = b.spec.portForwards := by
  obtain ⟨hstorableA, isoA, hisoA, rfl⟩ := encode_eq_ok_iff.mp ha
  obtain ⟨hstorableB, isoB, hisoB, htext⟩ := encode_eq_ok_iff.mp hb
  have hfields := parseFields_encode hstorableB hisoB
  rw [← htext, parseFields_encode hstorableA hisoA, Except.ok.injEq] at hfields
  constructor
  · have hlookup : (manifestFields a isoA).lookup "control_port".toList = _ :=
      lookup_headField 12 rfl
    rw [hfields, lookup_headField 12 rfl, Option.some.injEq] at hlookup
    exact UInt16.toNat_inj.mp (decimal_injective hlookup.symm)
  · have hlookup : (manifestFields a isoA).lookup "port_forwards".toList = _ :=
      lookup_headField 8 rfl
    rw [hfields, lookup_headField 8 rfl, Option.some.injEq] at hlookup
    have hread := parsePortForwards_text fun forward h => (hstorableA.spec.forwards forward h).1
    rw [← hlookup, parsePortForwards_text fun forward h => (hstorableB.spec.forwards forward h).1,
      Except.ok.injEq] at hread
    exact hread.symm

/-- Exactly the manifests with at most 64 shares are read back from the text that `encode`
    writes for them. -/
theorem decode_encode_iff {manifest : InstanceManifest} {text : Str}
    (hversion : manifest.version = manifestVersion)
    (hport : controlPortForInstance manifest.spec.name = .ok manifest.controlPort)
    (hencode : manifest.encode = .ok text) :
    InstanceManifest.decode text = .ok manifest ↔ manifest.folderShares.length ≤ 64 :=
  ⟨length_folderShares_of_decode_encode hencode,
    fun hshares => decode_encode hencode ⟨hversion, hport, hshares⟩⟩

/-- A manifest of a default instance with the given shares. -/
def demoManifest (folderShares : List FolderShare) : InstanceManifest where
  version := manifestVersion
  spec := {
    name := "demo".toList
    sourceIso := .ofStr "/isos/windows.iso".toList
    profile := .vanilla
    cpus := 2
    memoryMib := 4096
    diskGib := 64
    network := .nat
    portForwards := [⟨8080, 80⟩, ⟨2222, 22⟩]
    licenseAccepted := true
    allowUnsupportedRequirements := false }
  state := .stopped
  controlPort := stableControlPort "demo".toList
  createdUnixSeconds := 1700000000
  idleTimeoutSeconds := 600
  hibernateTimeoutSeconds := 300
  idlePolicy := .pauseHibernate
  memoryMinMib := 2048
  stateChangedUnixSeconds := 1700000100
  baseImageKey := none
  defaultUser := some "desktop-user".toList
  defaultUserRole := some .standard
  scopedLiveShareCredential := true
  folderShares := folderShares

/-- Share number `i`, with a host and a guest directory of its own. -/
def demoShare (i : Nat) : FolderShare where
  name := decimal i
  hostPath := .ofStr ('/' :: decimal i)
  guestPath := 'C' :: ':' :: '\\' :: decimal i
  mode := .readOnly
  transport := .mirror

theorem demoManifest_two_shares_read_back :
    ∃ text, (demoManifest [demoShare 0, demoShare 1]).encode = .ok text ∧
      InstanceManifest.decode text = .ok (demoManifest [demoShare 0, demoShare 1]) :=
  ⟨_, rfl, (decode_encode_iff rfl (by decide) rfl).mpr (by decide)⟩

/-- The host paths of two sample shares lie apart. -/
theorem startsWith_demoShare {i j : Nat} (h : i ≠ j) :
    (demoShare i).hostPath.startsWith (demoShare j).hostPath = false := by
  -- The path of a share is the root and its number.
  have hcomponents : ∀ k, Lib.components (.char '/') (.char '.') (demoShare k).hostPath.units =
      [.rootDir, .normal ((decimal k).map .char)] := by
    intro k
    have hslash : OsUnit.char '/' ∉ (decimal k).map OsUnit.char := by
      simpa using not_mem_decimal (by decide)
    have hdot : OsUnit.char '.' ∉ (decimal k).map OsUnit.char := by
      simpa using not_mem_decimal (by decide)
    have hsplit : (OsUnit.char '/' :: (decimal k).map OsUnit.char).splitOn (.char '/') =
        [[], (decimal k).map OsUnit.char] := by
      rw [List.splitOn_cons_eq_if_modifyHead, if_pos (by simp), List.splitOn_eq_singleton hslash]
    have hpiece : pieceComponent (OsUnit.char '.') ((decimal k).map OsUnit.char) =
        some (.normal ((decimal k).map OsUnit.char)) := by
      rw [pieceComponent, if_neg, if_neg]
      · intro heq
        simp [heq] at hdot
      · rintro (heq | heq)
        · simp [decimal_ne_nil] at heq
        · simp [heq] at hdot
    have hnil : pieceComponent (OsUnit.char '.') [] = none := rfl
    simp [Lib.components, demoShare, PathBuf.ofStr, hsplit, hpiece, hnil]
  -- Different numbers have different digits.
  have hne : (decimal j).map OsUnit.char ≠ (decimal i).map OsUnit.char := fun heq =>
    h (decimal_injective ((List.map_injective_iff.mpr fun _ _ => OsUnit.char.inj) heq)).symm
  simp [PathBuf.startsWith, Lib.startsWith, hcomponents, List.isPrefixOf, hne]

/-- So do their guest paths. -/
theorem windowsRootsOverlap_demoShare {i j : Nat} (h : i ≠ j) :
    windowsRootsOverlap (demoShare i).guestPath (demoShare j).guestPath = false := by
  -- Digits are not changed by the normalisation, and none of them is a separator.
  have hdigits : ∀ k, ((decimal k).map fun c => if c = '/' then '\\' else c).map
      toAsciiLowercase = decimal k := by
    intro k
    rw [List.map_map]
    conv_rhs => rw [← List.map_id (decimal k)]
    refine List.map_congr_left fun c hc => ?_
    have hdigit := isDigit_of_mem_decimal hc
    have hslash : c ≠ '/' := fun heq => by simp [heq] at hdigit
    have hlower : ¬ ('A' ≤ c ∧ c ≤ 'Z') := by
      simp only [Char.isDigit, Bool.and_eq_true, decide_eq_true_eq] at hdigit
      rintro ⟨hle, -⟩
      exact absurd (UInt32.le_trans hle hdigit.2) (by decide)
    simp [hslash, toAsciiLowercase, hlower]
  have hsep : ∀ k, '\\' ∉ decimal k := fun k => not_mem_decimal (by decide)
  have hsuffix : ∀ k l, (decimal l)[(decimal k).length]? ≠ some '\\' :=
    fun k l hget => hsep l (List.mem_of_getElem? hget)
  have hne : decimal i ≠ decimal j := fun heq => h (decimal_injective heq)
  have hnorm : ∀ k, ((demoShare k).guestPath.map fun c => if c = '/' then '\\' else c).map
      toAsciiLowercase = ['c', ':', '\\'] ++ decimal k := fun k =>
    congrArg (['c', ':', '\\'] ++ ·) (hdigits k)
  unfold windowsRootsOverlap
  simp [hnorm, hne, hsuffix]

theorem apart_demoShare {i j : Nat} (h : i ≠ j) : Apart (demoShare i) (demoShare j) where
  host := by simp [startsWith_demoShare h.symm]
  host' := by simp [startsWith_demoShare h]
  guest := by simp [windowsRootsOverlap_demoShare h.symm]
  name := fun heq => h (decimal_injective heq)
  live := by simp [demoShare]

/-- With one share more than the reader's limit, the text that was written is refused. -/
theorem demoManifest_65_shares_unreadable :
    ∃ manifest text, manifest.version = manifestVersion ∧
      controlPortForInstance manifest.spec.name = .ok manifest.controlPort ∧
      manifest.encode = .ok text ∧ InstanceManifest.decode text ≠ .ok manifest := by
  have hvalid : ∀ share ∈ (List.range 65).map demoShare, share.validate = .ok () := by
    decide
  have hapart : ((List.range 65).map demoShare).Pairwise Apart :=
    List.pairwise_map.mpr (List.nodup_range.imp fun hne => apart_demoShare hne)
  have hruntime : validateRuntimeFields (demoManifest ((List.range 65).map demoShare)) =
      .ok () := by
    unfold validateRuntimeFields
    rw [rejectIf_of_not _ (by decide), ok_bind, demoManifest]
    dsimp only [checkSome]
    rw [ok_bind, show validateWindowsUserName "desktop-user".toList = .ok () by decide,
      ok_bind, rejectIf_of_not _ (by decide), ok_bind, forEach_validateShare_eq_ok hvalid hapart]
    rfl
  have hstorable : Storable (demoManifest ((List.range 65).map demoShare)) :=
    ⟨storableSpec (by decide), rfl, rfl, storableRuntime hruntime⟩
  have hencode := encode_eq_ok_iff.mpr ⟨hstorable, "/isos/windows.iso".toList, rfl, rfl⟩
  refine ⟨_, _, rfl, by decide, hencode, fun hdecode => ?_⟩
  have hle := length_folderShares_of_decode_encode hencode hdecode
  simp [demoManifest] at hle

/-! ## Migration -/

/-- Whatever version a text has: the manifest read from it has the current version, can be
    written and is then read back unchanged; fields the text's version has come from their
    lines, fields it lacks have their conservative values. -/
theorem decode_migrates {text : Str} {m : InstanceManifest}
    (h : InstanceManifest.decode text = .ok m) :
    m.version = manifestVersion ∧
      (∃ written, m.encode = .ok written ∧ InstanceManifest.decode written = .ok m) ∧
      ∃ fields version, FieldsOf text fields ∧ Migrated fields version m := by
  obtain ⟨fields, hparse, hfields⟩ := bind_eq_ok.mp h
  obtain ⟨⟨version, hmigrated⟩, hstorable, hport⟩ := decoded_of_decodeFields hfields
  obtain ⟨iso, hiso, -⟩ := hstorable.spec.iso
  have hencode := encode_eq_ok_iff.mpr ⟨hstorable, iso, hiso, rfl⟩
  exact ⟨hmigrated.newVersion,
    ⟨_, hencode, decode_encode hencode ⟨hmigrated.newVersion, hport, hmigrated.shares_le⟩⟩,
    fields, version, fieldsOf_of_parseFields hparse, hmigrated⟩

/-- The lines of a text of version 1 that names a profile by its old name and has a line its
    version does not know. -/
def legacyFields : Fields :=
  [("version".toList, "1".toList), ("name".toList, "demo".toList),
    ("source_iso".toList, "/w.iso".toList), ("profile".toList, "standard".toList),
    ("cpus".toList, "2".toList), ("memory_mib".toList, "4096".toList),
    ("disk_gib".toList, "64".toList), ("network".toList, "nat".toList),
    ("license_accepted".toList, "true".toList),
    ("allow_unsupported_requirements".toList, "false".toList),
    ("state".toList, "stopped".toList), ("control_port".toList, "43814".toList),
    ("created_unix_seconds".toList, "1700000000".toList)]

/-- The manifest it is migrated to. -/
def legacyManifest : InstanceManifest where
  version := manifestVersion
  spec := {
    name := "demo".toList
    sourceIso := .ofStr "/w.iso".toList
    profile := .vanilla
    cpus := 2
    memoryMib := 4096
    diskGib := 64
    network := .offline
    portForwards := []
    licenseAccepted := true
    allowUnsupportedRequirements := false }
  state := .stopped
  controlPort := 43814
  createdUnixSeconds := 1700000000
  idleTimeoutSeconds := 600
  hibernateTimeoutSeconds := 0
  idlePolicy := .off
  memoryMinMib := 2048
  stateChangedUnixSeconds := 1700000000
  baseImageKey := none
  defaultUser := none
  defaultUserRole := none
  scopedLiveShareCredential := false
  folderShares := []

theorem parseFields_legacyFields : parseFields (renderFields legacyFields) = .ok legacyFields := by
  have hplain : ∀ field ∈ legacyFields, '=' ∉ field.1 ∧ field.1.head? ≠ some '#' ∧
      '\n' ∉ field.1 ++ field.2 ∧ '\r' ∉ field.1 ++ field.2 := by decide
  exact parseFields_renderFields (by decide) fun field hfield =>
    have h := hplain field hfield
    ⟨h.1, h.2.1, h.2.2.1, h.2.2.2⟩

theorem decode_legacyFields :
    InstanceManifest.decode (renderFields legacyFields) = .ok legacyManifest := by
  rw [InstanceManifest.decode, parseFields_legacyFields, ok_bind]
  decide

theorem legacyManifest_migrates :
    legacyManifest.version = manifestVersion ∧
      (∃ written, legacyManifest.encode = .ok written ∧
        InstanceManifest.decode written = .ok legacyManifest) ∧
      ∃ fields version, FieldsOf (renderFields legacyFields) fields ∧
        Migrated fields version legacyManifest :=
  decode_migrates decode_legacyFields

/-- Not every line of a text is carried over: version 1 has no network field, and the old
    name of a profile is replaced by its new one. -/
theorem decode_drops_network_of_version_one :
    ∃ text fields m, InstanceManifest.decode text = .ok m ∧ FieldsOf text fields ∧
      fields.lookup "network".toList = some "nat".toList ∧
      m.spec.network.text ≠ "nat" ∧
      fields.lookup "profile".toList = some "standard".toList ∧
      m.spec.profile.text ≠ "standard" :=
  ⟨_, legacyFields, legacyManifest, decode_legacyFields,
    fieldsOf_of_parseFields parseFields_legacyFields, by decide, by decide,
    by decide, by decide⟩

end Lsw.Core
