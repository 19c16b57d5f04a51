import Mathlib.Data.List.Nodup
import Lsw.Core.ManifestText

/-!
# Lines, Values and Keys of a Manifest

Rendered fields parse to themselves when their keys are distinct and no value leaves its
line; each value's parser undoes its printer; and the keys of a manifest are distinct,
whatever the number of shares.
-/

namespace Lsw.Core

open Lsw.Lib

/-! ## Lines -/

/-- A field whose line is read as that field. -/
structure PlainField (field : Str × Str) : Prop where
  key_no_equals : '=' ∉ field.1
  key_no_hash : field.1.head? ≠ some '#'
  no_newline : '\n' ∉ field.1 ++ field.2
  no_return : '\r' ∉ field.1 ++ field.2

theorem lookup_eq_none_of_not_mem {fields : Fields} {key : Str}
    (h : key ∉ fields.map Prod.fst) : fields.lookup key = none := by
  rw [List.lookup_eq_none_iff]
  intro field hfield
  rw [bne_iff_ne]
  rintro rfl
  exact h (List.mem_map_of_mem hfield)

theorem lookup_eq_some_of_mem {fields : Fields} (hkeys : (fields.map Prod.fst).Nodup)
    {key value : Str} (h : (key, value) ∈ fields) : fields.lookup key = some value := by
  induction fields with
  | nil => simp at h
  | cons field fields ih =>
    simp only [List.map_cons, List.nodup_cons] at hkeys
    rcases List.mem_cons.mp h with rfl | hmem
    · rw [List.lookup_cons, beq_self_eq_true]
    · have hne : key ≠ field.1 := fun heq =>
        hkeys.1 (List.mem_map.mpr ⟨(key, value), hmem, heq⟩)
      rw [List.lookup_cons, beq_eq_false_iff_ne.mpr hne]
      exact ih hkeys.2 hmem

/-- The line of a plain field is read as the field. -/
theorem parseLine_plain {fields : Fields} {field : Str × Str} (hplain : PlainField field)
    (hnew : field.1 ∉ fields.map Prod.fst) (number : Nat) :
    parseLine fields (field.1 ++ '=' :: field.2, number) = .ok (fields ++ [field]) := by
  have hblank : isBlank (field.1 ++ '=' :: field.2) = false :=
    isBlank_eq_false (by simp : '=' ∈ _) (by decide)
  have hhash : (field.1 ++ '=' :: field.2).head? ≠ some '#' := by
    have := hplain.key_no_hash
    cases hkey : field.1 with
    | nil => simp
    | cons c key => simpa [hkey] using this
  have hread : ¬ (isBlank (field.1 ++ '=' :: field.2) ∨
      (field.1 ++ '=' :: field.2).head? = some '#') := by
    rw [hblank]
    exact fun hor => hor.elim Bool.false_ne_true hhash
  rw [parseLine, if_neg hread, splitOnce_append hplain.key_no_equals]
  simp [lookup_eq_none_of_not_mem hnew, pure, Except.pure]

/-- Rendered fields are parsed to themselves. -/
theorem parseFields_renderFields {fields : Fields} (hkeys : (fields.map Prod.fst).Nodup)
    (hplain : ∀ field ∈ fields, PlainField field) :
    parseFields (renderFields fields) = .ok fields := by
  have hlines : lines (renderFields fields) = fields.map fun field => field.1 ++ '=' :: field.2 := by
    apply lines_flatMap
    intro line hline
    obtain ⟨field, hfield, rfl⟩ := List.mem_map.mp hline
    have hn := (hplain field hfield).no_newline
    have hr := (hplain field hfield).no_return
    simp only [List.mem_append, not_or] at hn hr
    simp [hn, hr]
  -- The fields read so far are `seen`; no later key is among them.
  suffices h : ∀ (rest seen : Fields) (number : Nat), ((seen ++ rest).map Prod.fst).Nodup →
      (∀ field ∈ rest, PlainField field) →
      forEach ((rest.map fun field => field.1 ++ '=' :: field.2).zipIdx number) parseLine seen =
        .ok (seen ++ rest) by
    rw [parseFields, hlines]
    exact h fields [] 0 hkeys hplain
  intro rest
  induction rest with
  | nil => simp
  | cons field rest ih =>
    intro seen number hnodup hall
    have hnew : field.1 ∉ seen.map Prod.fst := by
      rw [List.map_append, List.map_cons, List.nodup_append] at hnodup
      intro hmem
      exact hnodup.2.2 _ hmem _ List.mem_cons_self rfl
    rw [List.map_cons, List.zipIdx_cons, forEach_cons,
      parseLine_plain (hall field List.mem_cons_self) hnew, ok_bind,
      ih (seen ++ [field]) _ (by simpa using hnodup)
        (fun f hf => hall f (List.mem_cons_of_mem field hf)), List.append_assoc,
      List.singleton_append]

/-! ## Values -/

section Values

variable {fields : Fields} {key value : Str}

theorem requiredField_eq (h : fields.lookup key = some value) :
    requiredField fields key = .ok value := by
  rw [requiredField, h, okOr_some]

theorem parseField_eq {α : Type} {parse : Str → Except String α} {a : α}
    (h : fields.lookup key = some value) (hparse : parse value = .ok a) :
    parseField parse fields key = .ok a := by
  rw [parseField, requiredField_eq h, ok_bind, hparse]
  rfl

end Values

theorem parseU16_decimal (n : UInt16) : parseU16 (decimal n.toNat) = .ok n := by
  rw [parseU16, parseInt, parseUnsigned_decimal n.toNat_lt]
  exact congrArg _ UInt16.ofNat_toNat

theorem parseU32_decimal (n : UInt32) : parseU32 (decimal n.toNat) = .ok n := by
  rw [parseU32, parseInt, parseUnsigned_decimal n.toNat_lt]
  exact congrArg _ UInt32.ofNat_toNat

theorem parseU64_decimal (n : UInt64) : parseU64 (decimal n.toNat) = .ok n := by
  rw [parseU64, parseInt, parseUnsigned_decimal n.toNat_lt]
  exact congrArg _ UInt64.ofNat_toNat

theorem parseUsize_decimal {n : Nat} (h : n < usizeSize) : parseUsize (decimal n) = .ok n := by
  rw [parseUsize, parseInt, parseUnsigned_decimal h]
  rfl

theorem parseFlag_boolText (b : Bool) : parseFlag (boolText b) = .ok b := by
  rw [parseFlag, parseBool_boolText]

theorem NetworkMode.fromStr_text (mode : NetworkMode) : fromStr mode.text.toList = .ok mode := by
  cases mode <;> rfl

theorem IdlePolicy.fromStr_text (policy : IdlePolicy) :
    fromStr policy.text.toList = .ok policy := by
  cases policy <;> rfl

theorem FolderShareMode.fromStr_text (mode : FolderShareMode) :
    fromStr mode.text.toList = .ok mode := by
  cases mode <;> rfl

theorem FolderShareTransport.fromStr_text (transport : FolderShareTransport) :
    fromStr transport.text.toList = .ok transport := by
  cases transport <;> rfl

theorem WindowsProfile.parseManifest_text (profile : WindowsProfile) :
    parseManifest profile.text.toList = .ok profile := by
  cases profile <;> rfl

theorem InstanceState.fromStr_text (state : InstanceState) :
    fromStr state.text.toList = .ok state := by
  cases state <;> rfl

theorem WindowsUserRole.fromStr_text (role : WindowsUserRole) :
    fromStr role.text.toList = .ok role := by
  cases role <;> rfl

/-- Published ports are read back, given that both ports are non-zero. -/
theorem PortForward.fromStr_text {forward : PortForward}
    (h : PortForward.new forward.hostPort forward.guestPort = .ok forward) :
    PortForward.fromStr forward.text = .ok forward := by
  have hcolon : ∀ n, ':' ∉ decimal n := fun n => not_mem_decimal (by decide)
  unfold PortForward.fromStr
  dsimp only
  rw [PortForward.text, splitOnce_append (hcolon _), okOr_some, ok_bind]
  dsimp only
  rw [rejectIf_of_not _ (by simp [decimal_ne_nil, hcolon]), ok_bind, parsePublishedPort,
    parseU16_decimal]
  dsimp only
  rw [ok_bind, parsePublishedPort, parseU16_decimal]
  exact h

theorem PortForward.text_ne_nil (forward : PortForward) : forward.text ≠ [] := by
  simp [PortForward.text]

theorem PortForward.comma_not_mem_text (forward : PortForward) : ',' ∉ forward.text := by
  have hcomma : ∀ n, ',' ∉ decimal n := fun n => not_mem_decimal (by decide)
  simp [PortForward.text, hcomma]

/-- A list of forwardings is read back. -/
theorem parsePortForwards_text {forwards : List PortForward}
    (h : ∀ forward ∈ forwards,
      PortForward.new forward.hostPort forward.guestPort = .ok forward) :
    parsePortForwards ([','].intercalate (forwards.map PortForward.text)) = .ok forwards := by
  cases forwards with
  | nil => rfl
  | cons forward forwards =>
    have hne : [','].intercalate ((forward :: forwards).map PortForward.text) ≠ [] := by
      intro hnil
      have hlen := congrArg List.length hnil
      cases forwards with
      | nil => simp [PortForward.text_ne_nil] at hnil
      | cons => simp at hlen
    rw [parsePortForwards, if_neg hne, List.splitOn_intercalate, mapM_eq_ok_iff,
      List.forall₂_map_left_iff, List.forall₂_same]
    · exact fun f hf => PortForward.fromStr_text (h f hf)
    · intro text htext
      obtain ⟨f, -, rfl⟩ := List.mem_map.mp htext
      exact f.comma_not_mem_text
    · simp

/-! ## Keys -/

-- `shareKey` is unfolded through this lemma: `simp` would evaluate the literal.
theorem shareKey_eq (index : Nat) (field : String) :
    shareKey index field = "share.".toList ++ decimal index ++ '.' :: field.toList := by
  delta shareKey
  rfl

theorem shareKey_inj {i j : Nat} {field field' : String}
    (h : shareKey i field = shareKey j field') : i = j ∧ field = field' := by
  have hdot : ∀ n, '.' ∉ decimal n := fun n => not_mem_decimal (by decide)
  simp only [shareKey_eq, List.append_assoc, List.append_cancel_left_eq] at h
  have hsplit := congrArg (splitOnce '.') h
  rw [splitOnce_append (hdot i), splitOnce_append (hdot j), Option.some.injEq,
    Prod.mk.injEq] at hsplit
  exact ⟨decimal_injective hsplit.1, String.toList_inj.mp hsplit.2⟩

/-- The keys of the lines before the shares. -/
def headKeys : List String :=
  ["version", "name", "source_iso", "profile", "cpus", "memory_mib", "disk_gib", "network",
    "port_forwards", "license_accepted", "allow_unsupported_requirements", "state",
    "control_port", "created_unix_seconds", "idle_timeout_seconds",
    "hibernate_timeout_seconds", "idle_policy", "memory_min_mib",
    "state_changed_unix_seconds", "base_image_key", "default_user", "default_user_role",
    "scoped_live_share_credential", "share_count"]

theorem map_fst_headFields (manifest : InstanceManifest) (sourceIso : Str) :
    (headFields manifest sourceIso).map Prod.fst = headKeys.map String.toList := rfl

/-- The keys of a share's lines, after `share.{index}.`. -/
def shareKeys : List String := ["name", "host", "guest", "mode", "transport"]

theorem map_fst_shareFields (index : Nat) (share : FolderShare) :
    (shareFields index share).map Prod.fst = shareKeys.map (shareKey index) := rfl

/-- The keys of the shares are different ones. -/
theorem nodup_shareKeys (shares : List FolderShare) (start : Nat) :
    ((shares.zipIdx start).flatMap fun entry => shareKeys.map (shareKey entry.2)).Nodup := by
  rw [List.nodup_flatMap]
  constructor
  · intro entry _
    exact List.Nodup.map (fun f g h => (shareKey_inj h).2) (by decide)
  · -- Different shares have different indices.
    have hindices : ((shares.zipIdx start).map Prod.snd).Nodup := by
      rw [List.zipIdx_map_snd]
      exact List.nodup_range'
    refine (List.pairwise_map.mp hindices).imp fun {a b} hne => ?_
    intro key ha hb
    obtain ⟨f, -, rfl⟩ := List.mem_map.mp ha
    obtain ⟨g, -, heq⟩ := List.mem_map.mp hb
    exact hne (shareKey_inj heq).1.symm

theorem nodup_keys (manifest : InstanceManifest) (sourceIso : Str) :
    ((manifestFields manifest sourceIso).map Prod.fst).Nodup := by
  rw [manifestFields, List.map_append, map_fst_headFields, List.map_flatMap, List.nodup_append]
  refine ⟨by decide, nodup_shareKeys _ _, ?_⟩
  -- No key before the shares starts with `share.`.
  intro key hkey key' hkey' heq
  obtain ⟨entry, -, hentry⟩ := List.mem_flatMap.mp hkey'
  obtain ⟨f, -, rfl⟩ := List.mem_map.mp (show key' ∈ shareKeys.map (shareKey entry.2) from hentry)
  have hpre : "share.".toList <+: key := by
    rw [heq, shareKey_eq, List.append_assoc]
    exact List.prefix_append _ _
  have hnone : ∀ k ∈ headKeys.map String.toList, ¬ "share.".toList <+: k := by decide
  exact hnone key hkey hpre

end Lsw.Core
