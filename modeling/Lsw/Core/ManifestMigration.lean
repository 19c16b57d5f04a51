import Lsw.Core.ManifestText
import Lsw.Core.ManifestChecks

/-!
# Where a Decoded Manifest Comes From

`decode` reads eight versions of the format.  `Migrated` says, field by field, what a
decoded manifest owes to the text: a field that the text's version has is read from its
line, a field that the version lacks has a fixed conservative value.
-/

namespace Lsw.Core

open Lsw.Lib

/-! ## Fields -/

/-- The value `a` is read from the line of `key`. -/
def ReadFrom {ε α : Type} (fields : Fields) (key : Str) (parse : Str → Except ε α) (a : α) :
    Prop :=
  ∃ value, fields.lookup key = some value ∧ parse value = .ok a

/-- The value `a` of a field that texts have from version `first` on: `Read` says where it
    comes from then, and before it is `older`. -/
structure Since {α : Type} (version : UInt32) (first : Nat) (Read : α → Prop) (older a : α) :
    Prop where
  carried : first ≤ version.toNat → Read a
  absent : version.toNat < first → a = older

/-- An optional text: present when its line is there and not empty. -/
def ReadOptional (fields : Fields) (key : Str) (a : Option Str) : Prop :=
  a = (fields.lookup key).filter fun value => !value.isEmpty

/-- A share, read from the lines of its index. -/
structure MigratedShare (fields : Fields) (version : UInt32) (index : Nat)
    (share : FolderShare) : Prop where
  name : fields.lookup (shareKey index "name") = some share.name
  hostPath : ∃ host, fields.lookup (shareKey index "host") = some host ∧
    share.hostPath = .ofStr host
  guestPath : fields.lookup (shareKey index "guest") = some share.guestPath
  mode : ReadFrom fields (shareKey index "mode") FolderShareMode.fromStr share.mode
  transport : Since version 7
    (ReadFrom fields (shareKey index "transport") FolderShareTransport.fromStr) .mirror
    share.transport

/-- All shares, as many as `share_count` says. -/
structure MigratedShares (fields : Fields) (version : UInt32) (shares : List FolderShare) :
    Prop where
  count : ReadFrom fields "share_count".toList parseUsize shares.length
  count_le : shares.length ≤ 64
  each : ∀ index share, shares[index]? = some share → MigratedShare fields version index share

/-- A specification of a text of the given version. -/
structure MigratedSpec (fields : Fields) (version : UInt32) (spec : InstanceSpec) : Prop where
  name : fields.lookup "name".toList = some spec.name
  sourceIso : ∃ iso, fields.lookup "source_iso".toList = some iso ∧ spec.sourceIso = .ofStr iso
  profile : ReadFrom fields "profile".toList WindowsProfile.parseManifest spec.profile
  cpus : ReadFrom fields "cpus".toList parseU16 spec.cpus
  memoryMib : ReadFrom fields "memory_mib".toList parseU32 spec.memoryMib
  diskGib : ReadFrom fields "disk_gib".toList parseU32 spec.diskGib
  network : Since version 2 (ReadFrom fields "network".toList NetworkMode.fromStr) .offline
    spec.network
  portForwards : Since version 3 (ReadFrom fields "port_forwards".toList parsePortForwards) []
    spec.portForwards
  licenseAccepted : ReadFrom fields "license_accepted".toList parseFlag spec.licenseAccepted
  allowUnsupportedRequirements : ReadFrom fields "allow_unsupported_requirements".toList parseFlag
    spec.allowUnsupportedRequirements

/-- A manifest of a text of the given version. -/
structure Migrated (fields : Fields) (version : UInt32) (m : InstanceManifest) : Prop where
  textVersion : ReadFrom fields "version".toList parseU32 version
  supported : 1 ≤ version.toNat ∧ version.toNat ≤ 8
  newVersion : m.version = manifestVersion
  spec : MigratedSpec fields version m.spec
  state : ReadFrom fields "state".toList InstanceState.fromStr m.state
  controlPort : ReadFrom fields "control_port".toList parseU16 m.controlPort
  createdUnixSeconds : ReadFrom fields "created_unix_seconds".toList parseU64
    m.createdUnixSeconds
  idleTimeoutSeconds : Since version 4
    (ReadFrom fields "idle_timeout_seconds".toList parseU64) defaultIdleTimeoutSeconds
    m.idleTimeoutSeconds
  hibernateTimeoutSeconds : Since version 5
    (ReadFrom fields "hibernate_timeout_seconds".toList parseU64) 0 m.hibernateTimeoutSeconds
  idlePolicy : Since version 5 (ReadFrom fields "idle_policy".toList IdlePolicy.fromStr) .off
    m.idlePolicy
  memoryMinMib : Since version 5 (ReadFrom fields "memory_min_mib".toList parseU32)
    (min m.spec.memoryMib 2048) m.memoryMinMib
  stateChangedUnixSeconds : Since version 5
    (ReadFrom fields "state_changed_unix_seconds".toList parseU64) m.createdUnixSeconds
    m.stateChangedUnixSeconds
  baseImageKey : Since version 5 (ReadOptional fields "base_image_key".toList) none
    m.baseImageKey
  defaultUser : Since version 5 (ReadOptional fields "default_user".toList) none m.defaultUser
  defaultUserRole : Since version 6
    (fun role => parseRole (optionalNonemptyField fields "default_user_role".toList) = .ok role)
    (m.defaultUser.map fun _ => .standard) m.defaultUserRole
  scopedLiveShareCredential : Since version 8
    (ReadFrom fields "scoped_live_share_credential".toList parseFlag) false
    m.scopedLiveShareCredential
  folderShares : Since version 5 (MigratedShares fields version) [] m.folderShares

/-! ## Inversion of the reader -/

section Inversion

variable {fields : Fields} {key : Str} {version : UInt32}

theorem requiredField_eq_ok {value : Str} :
    requiredField fields key = .ok value ↔ fields.lookup key = some value := by
  rw [requiredField, okOr_eq_ok]

theorem readFrom_of_bind {α : Type} {parse : Str → Result α} {a : α}
    (h : (requiredField fields key >>= parse) = .ok a) : ReadFrom fields key parse a := by
  obtain ⟨value, hvalue, hparse⟩ := bind_eq_ok.mp h
  exact ⟨value, requiredField_eq_ok.mp hvalue, hparse⟩

theorem readFrom_of_parseField {α : Type} {parse : Str → Except String α} {a : α}
    (h : parseField parse fields key = .ok a) : ReadFrom fields key parse a := by
  obtain ⟨value, hvalue, hparse⟩ := bind_eq_ok.mp h
  refine ⟨value, requiredField_eq_ok.mp hvalue, ?_⟩
  split at hparse
  · rename_i b hb
    rw [pure_eq_ok_iff] at hparse
    rw [hb, hparse]
  · simp at hparse

theorem since_eq_ok {α : Type} {first : Nat} {read : Result α} {older a : α} {Read : α → Prop}
    (h : since version first read older = .ok a) (hread : read = .ok a → Read a) :
    Since version first Read older a := by
  unfold since at h
  split at h
  · exact ⟨fun _ => hread h, fun hlt => by omega⟩
  · rename_i hlt
    rw [Except.ok.injEq] at h
    exact ⟨fun hle => absurd hle hlt, fun _ => h.symm⟩

theorem migratedShare_of_parse {index : Nat} {share : FolderShare}
    (h : parseFolderShare fields version index = .ok share) :
    MigratedShare fields version index share := by
  simp only [parseFolderShare, bind_eq_ok, pure_eq_ok_iff] at h
  obtain ⟨name, hname, host, hhost, guest, hguest, modeText, hmodeText, mode, hmode, transport,
    htransport, -, -, rfl⟩ := h
  exact {
    name := requiredField_eq_ok.mp hname
    hostPath := ⟨host, requiredField_eq_ok.mp hhost, rfl⟩
    guestPath := requiredField_eq_ok.mp hguest
    mode := ⟨modeText, requiredField_eq_ok.mp hmodeText, hmode⟩
    transport := since_eq_ok htransport readFrom_of_bind }

theorem migratedShares_of_parse {shares : List FolderShare}
    (h : parseFolderShares fields version = .ok shares) :
    MigratedShares fields version shares := by
  simp only [parseFolderShares, bind_eq_ok, rejectIf_eq_ok, exists_const] at h
  obtain ⟨count, hcount, hlimit, hshares⟩ := h
  have hall := mapM_eq_ok_iff.mp hshares
  have hlength : count = shares.length := by simpa using hall.length_eq
  subst hlength
  refine ⟨readFrom_of_parseField hcount, by omega, fun index share hshare => ?_⟩
  obtain ⟨hlt, hget⟩ := List.getElem?_eq_some_iff.mp hshare
  have hparse := (List.forall₂_iff_get.mp hall).2 index (by simpa using hlt) hlt
  simp only [List.get_eq_getElem, List.getElem_range, hget] at hparse
  exact migratedShare_of_parse hparse

/-- A specification that is decoded has its fields from the text, or their defaults. -/
theorem migratedSpec_of_decode {spec : InstanceSpec}
    (h : decodeSpec fields version = .ok spec) : MigratedSpec fields version spec := by
  simp only [decodeSpec, bind_eq_ok, pure_eq_ok_iff] at h
  obtain ⟨name, hname, iso, hiso, profile, ⟨profileText, hprofileText, hprofile⟩, cpus, hcpus,
    memory, hmemory, disk, hdisk, network, hnetwork, forwards, hforwards, license, hlicense,
    unsupported, hunsupported, rfl⟩ := h
  exact {
    name := requiredField_eq_ok.mp hname
    sourceIso := ⟨iso, requiredField_eq_ok.mp hiso, rfl⟩
    profile := ⟨profileText, requiredField_eq_ok.mp hprofileText, hprofile⟩
    cpus := readFrom_of_parseField hcpus
    memoryMib := readFrom_of_parseField hmemory
    diskGib := readFrom_of_parseField hdisk
    network := since_eq_ok hnetwork readFrom_of_bind
    portForwards := since_eq_ok hforwards readFrom_of_bind
    licenseAccepted := readFrom_of_parseField hlicense
    allowUnsupportedRequirements := readFrom_of_parseField hunsupported }

/-- What `decode` has established about the manifest it returns. -/
structure Decoded (fields : Fields) (m : InstanceManifest) : Prop where
  migrated : ∃ version, Migrated fields version m
  storable : Storable m
  controlPort_eq : controlPortForInstance m.spec.name = .ok m.controlPort

/-- So has a manifest, with the version that is current. -/
theorem decoded_of_decodeFields {m : InstanceManifest} (h : decodeFields fields = .ok m) :
    Decoded fields m := by
  simp only [decodeFields, bind_eq_ok, rejectIf_eq_ok, exists_const, pure_eq_ok_iff,
    not_not] at h
  -- All that `decode` has read and checked, in its order.
  obtain ⟨version, hversion, hsupported, spec, hspec, ⟨⟩, hspecValid, port, hport, expected,
    hexpected, hsame, idle, hidle, ⟨⟩, hidleValid, hibernate, hhibernate, ⟨⟩, hhibernateValid,
    policy, hpolicy, memoryMin, hmemoryMin, created, hcreated, changed, hchanged, key, hkey,
    user, huser, role, hrole, credential, hcredential, shares, hshares, state,
    ⟨stateText, hstateText, hstate⟩, ⟨⟩, hvalid, rfl⟩ := h
  subst hsame
  refine ⟨⟨version, ?_⟩, ⟨storableSpec hspecValid, hidleValid, hhibernateValid,
    storableRuntime hvalid⟩, hexpected⟩
  -- A field that is newer than the text has its default.
  exact {
    textVersion := readFrom_of_parseField hversion
    supported := hsupported
    newVersion := rfl
    spec := migratedSpec_of_decode hspec
    state := ⟨stateText, requiredField_eq_ok.mp hstateText, hstate⟩
    controlPort := readFrom_of_parseField hport
    createdUnixSeconds := readFrom_of_parseField hcreated
    idleTimeoutSeconds := since_eq_ok hidle readFrom_of_parseField
    hibernateTimeoutSeconds := since_eq_ok hhibernate readFrom_of_parseField
    idlePolicy := since_eq_ok hpolicy readFrom_of_bind
    memoryMinMib := since_eq_ok hmemoryMin readFrom_of_parseField
    stateChangedUnixSeconds := since_eq_ok hchanged readFrom_of_parseField
    baseImageKey := since_eq_ok hkey fun hread => (Except.ok.inj hread).symm
    defaultUser := since_eq_ok huser fun hread => (Except.ok.inj hread).symm
    defaultUserRole := since_eq_ok hrole id
    scopedLiveShareCredential := since_eq_ok hcredential readFrom_of_parseField
    folderShares := since_eq_ok hshares migratedShares_of_parse }

end Inversion

theorem Migrated.shares_le {fields : Fields} {version : UInt32} {m : InstanceManifest}
    (h : Migrated fields version m) : m.folderShares.length ≤ 64 := by
  by_cases hversion : 5 ≤ version.toNat
  · exact (h.folderShares.carried hversion).count_le
  · simp [h.folderShares.absent (by omega)]

/-! ## The lines of a text -/

/-- A line that carries a field. -/
def isFieldLine (line : Str) : Bool := !(isBlank line || line.head? == some '#')

/-- The fields are the lines of the text, blank lines and comments apart, each key once. -/
structure FieldsOf (contents : Str) (fields : Fields) : Prop where
  lines_eq : fields.map (fun field => field.1 ++ '=' :: field.2) =
    (lines contents).filter isFieldLine
  keys_nodup : (fields.map Prod.fst).Nodup

/-- A line is skipped, or gives a field with a new key. -/
theorem parseLine_eq_ok {fields out : Fields} {line : Str} {number : Nat}
    (h : parseLine fields (line, number) = .ok out) :
    (isFieldLine line = false ∧ out = fields) ∨
      (isFieldLine line = true ∧ ∃ key value, line = key ++ '=' :: value ∧
        key ∉ fields.map Prod.fst ∧ out = fields ++ [(key, value)]) := by
  unfold parseLine at h
  split at h
  -- An empty line or a comment.
  · rename_i hskip
    rw [pure_eq_ok_iff] at h
    refine .inl ⟨?_, h.symm⟩
    rw [isFieldLine, Bool.not_eq_false', Bool.or_eq_true, beq_iff_eq]
    exact hskip
  · rename_i hfield
    right
    refine ⟨by simpa [isFieldLine] using hfield, ?_⟩
    split at h
    · simp at h
    -- A key and a value; the key has to be a new one.
    · rename_i key value hsplit
      split at h
      · simp at h
      · rename_i hnew
        rw [pure_eq_ok_iff] at h
        refine ⟨key, value, eq_append_of_splitOnce hsplit, ?_, h.symm⟩
        rw [Option.not_isSome_iff_eq_none, List.lookup_eq_none_iff] at hnew
        intro hmem
        obtain ⟨field, hin, rfl⟩ := List.mem_map.mp hmem
        simpa using hnew field hin

/-- The fields that are parsed are those of the text. -/
theorem fieldsOf_of_parseFields {contents : Str} {fields : Fields}
    (h : parseFields contents = .ok fields) : FieldsOf contents fields := by
  -- The fields read so far stand before those of the lines that are left.
  suffices hloop : ∀ (ls : List Str) (number : Nat) (seen out : Fields),
      forEach (ls.zipIdx number) parseLine seen = .ok out → (seen.map Prod.fst).Nodup →
      out.map (fun field => field.1 ++ '=' :: field.2) =
          seen.map (fun field => field.1 ++ '=' :: field.2) ++ ls.filter isFieldLine ∧
        (out.map Prod.fst).Nodup by
    obtain ⟨hlines, hkeys⟩ := hloop _ 0 [] fields h List.nodup_nil
    exact ⟨hlines, hkeys⟩
  intro ls
  induction ls with
  | nil =>
    intro number seen out hout hseen
    simp only [List.zipIdx_nil, forEach_nil, Except.ok.injEq] at hout
    simp [← hout, hseen]
  | cons line ls ih =>
    intro number seen out hout hseen
    rw [List.zipIdx_cons, forEach_cons, bind_eq_ok] at hout
    obtain ⟨next, hnext, hrest⟩ := hout
    rcases parseLine_eq_ok hnext with ⟨hskip, rfl⟩ | ⟨hfield, key, value, rfl, hnew, rfl⟩
    · rw [List.filter_cons_of_neg (by simp [hskip])]
      exact ih _ _ _ hrest hseen
    · have hnodup : ((seen ++ [(key, value)]).map Prod.fst).Nodup := by
        rw [List.map_append, List.nodup_append]
        refine ⟨hseen, by simp, ?_⟩
        rintro a ha b hb rfl
        simp only [List.map_cons, List.map_nil, List.mem_singleton] at hb
        exact hnew (hb ▸ ha)
      obtain ⟨hlines, hkeys⟩ := ih _ _ _ hrest hnodup
      rw [List.filter_cons_of_pos hfield]
      exact ⟨by simpa using hlines, hkeys⟩

end Lsw.Core
