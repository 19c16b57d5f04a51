import Lsw.Core.ManifestRoundTrip

/-!
# Share Roots

A share maps a host directory to a guest directory, and no two shares of a manifest may
reach the same directory.  The checks compare guest roots as strings; here they are compared
as Windows paths, component by component.

For two mirrored shares the string test decides the component-wise ancestor relation
(`windowsRootsOverlap_iff`).  The live share is mounted at `L:\`, whose trailing separator
the string test does not expect: it never finds an overlap with a share below `L:\`.
-/

namespace Lsw.Core

open Lsw.Lib

/-! ## Guest roots as Windows paths -/

/-- The separators of a Windows path. -/
def isWindowsSeparator (c : Char) : Bool := c == '\\' || c == '/'

/-- The components of a Windows path, the drive first, without regard to case. -/
def windowsComponents (path : Str) : List Str :=
  ((path.splitOnP isWindowsSeparator).filter (· ≠ [])).map (List.map toAsciiLowercase)

/-- `path.replace('/', "\\").to_ascii_lowercase()`. -/
def windowsKey (path : Str) : Str :=
  (path.map fun c => if c = '/' then '\\' else c).map toAsciiLowercase

theorem toAsciiLowercase_eq_backslash_iff {c : Char} :
    toAsciiLowercase c = '\\' ↔ c = '\\' := by
  by_cases hc : c.toNat < 128
  · exact forall_ascii (P := fun c => toAsciiLowercase c = '\\' ↔ c = '\\') (by decide) hc
  · rw [toAsciiLowercase_of_not_ascii hc]

theorem toAsciiLowercase_eq_l_iff {c : Char} : toAsciiLowercase c = 'l' ↔ c = 'L' ∨ c = 'l' := by
  by_cases hc : c.toNat < 128
  · exact forall_ascii (P := fun c => toAsciiLowercase c = 'l' ↔ c = 'L' ∨ c = 'l') (by decide) hc
  · rw [toAsciiLowercase_of_not_ascii hc]
    refine ⟨.inr, ?_⟩
    rintro (rfl | rfl)
    · exact absurd (by decide) hc
    · rfl

/-- The key of a Windows path has its pieces, in lower case. -/
theorem splitOn_windowsKey (path : Str) :
    (windowsKey path).splitOn '\\' =
      (path.splitOnP isWindowsSeparator).map (List.map toAsciiLowercase) := by
  have hsep : ((· == '\\') ∘ (toAsciiLowercase ∘ fun c => if c = '/' then '\\' else c)) =
      isWindowsSeparator := by
    funext c
    by_cases hc : c = '/'
    · simp only [hc]
      decide
    · rw [Bool.eq_iff_iff]
      simp [isWindowsSeparator, hc, toAsciiLowercase_eq_backslash_iff]
  rw [windowsKey, List.map_map, List.splitOn_eq_splitOnP, splitOnP_map, hsep]
  -- No piece holds a separator, so replacing them changes nothing there.
  refine List.map_congr_left fun piece hpiece => List.map_congr_left fun c hc => ?_
  have hplain := of_mem_splitOnP hpiece hc
  simp only [isWindowsSeparator, Bool.or_eq_false_iff, beq_eq_false_iff_ne] at hplain
  simp [hplain.2]

theorem isPrefixOf_and_head_iff {s t : Str} {c : Char} :
    (t.isPrefixOf s && (s.drop t.length).head? == some c) = true ↔ ∃ rest, s = t ++ c :: rest := by
  simp only [Bool.and_eq_true, List.isPrefixOf_iff_prefix, beq_iff_eq]
  constructor
  · rintro ⟨⟨rest, rfl⟩, hhead⟩
    rw [List.drop_left] at hhead
    obtain ⟨tail, rfl⟩ := List.head?_eq_some_iff.mp hhead
    exact ⟨tail, rfl⟩
  · rintro ⟨rest, rfl⟩
    simp

/-- The string test, in terms of the pieces between separators. -/
theorem windowsRootsOverlap_iff_pieces {left right : Str} :
    windowsRootsOverlap left right = true ↔
      (windowsKey right).splitOn '\\' <+: (windowsKey left).splitOn '\\' ∨
        (windowsKey left).splitOn '\\' <+: (windowsKey right).splitOn '\\' := by
  have hunfold : windowsRootsOverlap left right =
      (windowsKey left == windowsKey right ||
        ((windowsKey right).isPrefixOf (windowsKey left) &&
          ((windowsKey left).drop (windowsKey right).length).head? == some '\\') ||
        ((windowsKey left).isPrefixOf (windowsKey right) &&
          ((windowsKey right).drop (windowsKey left).length).head? == some '\\')) := rfl
  rw [hunfold, Bool.or_eq_true, Bool.or_eq_true, isPrefixOf_and_head_iff, isPrefixOf_and_head_iff,
    beq_iff_eq, splitOn_prefix_iff, splitOn_prefix_iff]
  constructor
  · rintro ((heq | hright) | hleft)
    · exact .inl (.inl heq)
    · exact .inl (.inr hright)
    · exact .inr (.inr hleft)
  · rintro ((heq | hright) | (heq | hleft))
    · exact .inl (.inl heq)
    · exact .inl (.inr hright)
    · exact .inl (.inl heq.symm)
    · exact .inr hleft

/-! ## Mirrored shares and the live share -/

/-- A guest path a mirrored share may have: a drive, a separator and non-empty components. -/
theorem mirrorPath_pieces {path : Str} (h : validateWindowsAbsolutePath path = .ok ()) :
    ∃ drive first rest, drive.isAlpha ∧
      path.splitOnP isWindowsSeparator = [drive, ':'] :: first :: rest ∧
      path.head? = some drive ∧ ∀ piece ∈ first :: rest, piece ≠ [] := by
  simp only [validateWindowsAbsolutePath, rejectIf_eq_ok, Bool.not_eq_false,
    Bool.and_eq_true] at h
  obtain ⟨hroot, -, hsafe⟩ := h
  -- A root is a letter, a colon and a separator.
  split at hroot
  · rename_i drive slash c tail
    simp only [Bool.and_eq_true, Bool.or_eq_true, beq_iff_eq] at hroot
    obtain ⟨halpha, hslash⟩ := hroot
    obtain ⟨first, rest, hpieces⟩ := List.exists_cons_of_ne_nil
      (List.splitOnP_ne_nil isWindowsSeparator (c :: tail))
    refine ⟨drive, first, rest, halpha, ?_, rfl, ?_⟩
    -- The drive has no separator in it, so it is the first piece.
    · have hdrive : ∀ x ∈ [drive, ':'], isWindowsSeparator x = false := by
        intro x hx
        rw [Bool.eq_false_iff]
        intro hsep
        simp only [isWindowsSeparator, Bool.or_eq_true, beq_iff_eq] at hsep
        rcases List.mem_cons.mp hx with rfl | hcolon
        · rcases hsep with rfl | rfl <;> exact absurd halpha (by decide)
        · rw [List.mem_singleton.mp hcolon] at hsep
          exact absurd hsep (by decide)
      have hsplit := List.splitOnP_append_cons_of_forall_mem hdrive slash
        (by rcases hslash with rfl | rfl <;> decide) (c :: tail)
      rw [← hpieces, ← hsplit]
      rfl
    -- A piece that is empty would not be safe.
    · intro piece hpiece hnil
      rw [← hpieces] at hpiece
      have := List.all_eq_true.mp hsafe piece hpiece
      simp [hnil, windowsPathComponentIsSafe] at this
  · simp at hroot

theorem windowsComponents_mirror {path : Str} (h : validateWindowsAbsolutePath path = .ok ()) :
    windowsComponents path = (windowsKey path).splitOn '\\' := by
  obtain ⟨drive, first, rest, -, hpieces, -, hne⟩ := mirrorPath_pieces h
  rw [windowsComponents, splitOn_windowsKey, hpieces, List.filter_eq_self.mpr]
  intro piece hpiece
  rcases List.mem_cons.mp hpiece with rfl | hmem
  · simp
  · simpa using hne piece hmem

/-- For two mirrored shares the string test decides whether one root is the other or lies
    below it. -/
theorem windowsRootsOverlap_iff {left right : Str}
    (hleft : validateWindowsAbsolutePath left = .ok ())
    (hright : validateWindowsAbsolutePath right = .ok ()) :
    windowsRootsOverlap left right = true ↔
      windowsComponents right <+: windowsComponents left ∨
        windowsComponents left <+: windowsComponents right := by
  rw [windowsComponents_mirror hleft, windowsComponents_mirror hright,
    windowsRootsOverlap_iff_pieces]

/-- Where the live share is mounted. -/
def liveRoot : Str := "L:\\".toList

theorem windowsComponents_liveRoot : windowsComponents liveRoot = [['l', ':']] := by
  decide

/-- Whether a guest path is on the drive of the live share. -/
def OnLiveDrive (path : Str) : Prop := path.head? = some 'L' ∨ path.head? = some 'l'

instance (path : Str) : Decidable (OnLiveDrive path) := inferInstanceAs (Decidable (_ ∨ _))

/-- A mirrored share is never the live root nor above it, and it is below it exactly when it
    is on that drive. -/
theorem liveRoot_prefix_iff {path : Str} (h : validateWindowsAbsolutePath path = .ok ()) :
    (windowsComponents liveRoot <+: windowsComponents path ↔ OnLiveDrive path) ∧
      ¬ windowsComponents path <+: windowsComponents liveRoot := by
  obtain ⟨drive, first, rest, -, hpieces, hhead, -⟩ := mirrorPath_pieces h
  have hcomponents : windowsComponents path = [toAsciiLowercase drive, ':'] ::
      (first :: rest).map (List.map toAsciiLowercase) := by
    rw [windowsComponents_mirror h, splitOn_windowsKey, hpieces]
    rfl
  rw [windowsComponents_liveRoot, hcomponents, OnLiveDrive, hhead]
  constructor
  · rw [List.cons_prefix_cons]
    simp [@eq_comm _ 'l', toAsciiLowercase_eq_l_iff]
  · intro hpre
    have := hpre.length_le
    simp at this

/-! ## Manifests -/

/-- Two shares that reach no directory in common and cannot be confused. -/
structure RootsApart (a b : FolderShare) : Prop where
  guest : ¬ windowsComponents a.guestPath <+: windowsComponents b.guestPath
  guest' : ¬ windowsComponents b.guestPath <+: windowsComponents a.guestPath
  host : ¬ a.hostPath.components <+: b.hostPath.components
  host' : ¬ b.hostPath.components <+: a.hostPath.components
  name : a.name ≠ b.name
  live : ¬ (a.transport = .liveSmb ∧ b.transport = .liveSmb)

/-- One share is the live share, the other is on its drive. -/
def LiveDriveShared (a b : FolderShare) : Prop :=
  (a.transport = .liveSmb ∧ OnLiveDrive b.guestPath) ∨
    (b.transport = .liveSmb ∧ OnLiveDrive a.guestPath)

/-- A manifest that `encode` or `decode` accepts. -/
def Accepted (manifest : InstanceManifest) : Prop :=
  (∃ text, manifest.encode = .ok text) ∨ ∃ text, InstanceManifest.decode text = .ok manifest

theorem Accepted.storable {manifest : InstanceManifest} (h : Accepted manifest) :
    Storable manifest := by
  rcases h with ⟨text, hencode⟩ | ⟨text, hdecode⟩
  · exact (encode_eq_ok_iff.mp hencode).1
  · obtain ⟨fields, -, hfields⟩ := bind_eq_ok.mp hdecode
    exact (decoded_of_decodeFields hfields).storable

/-- The guest path of a valid share is the live root, or one a mirrored share may have. -/
theorem guestPath_cases {share : FolderShare} (h : share.validate = .ok ()) :
    (share.transport = .liveSmb ∧ share.guestPath = liveRoot) ∨
      (share.transport ≠ .liveSmb ∧ validateWindowsAbsolutePath share.guestPath = .ok ()) := by
  simp only [FolderShare.validate, bind_eq_ok, rejectIf_eq_ok, exists_const] at h
  obtain ⟨⟨⟩, -, ⟨⟩, -, -, hguest⟩ := h
  split at hguest
  · rename_i hlive
    simp only [rejectIf_eq_ok, not_or, not_not] at hguest
    exact .inl ⟨hlive, hguest.2⟩
  · rename_i hmirror
    exact .inr ⟨hmirror, hguest⟩

/-- Two accepted shares have their roots apart, unless one is the live share and the other is on
    its drive. -/
theorem rootsApart_iff {a b : FolderShare} (ha : a.validate = .ok ()) (hb : b.validate = .ok ())
    (happ : Apart a b) : RootsApart a b ↔ ¬ LiveDriveShared a b := by
  obtain ⟨hhost, hhost', hguest, hname, hlive⟩ := happ
  simp only [PathBuf.startsWith, Lib.startsWith, List.isPrefixOf_iff_prefix] at hhost hhost'
  -- Everything but the guest roots is what the checks establish.
  have hrest : RootsApart a b ↔
      ¬ windowsComponents a.guestPath <+: windowsComponents b.guestPath ∧
        ¬ windowsComponents b.guestPath <+: windowsComponents a.guestPath :=
    ⟨fun h => ⟨h.guest, h.guest'⟩, fun h => ⟨h.1, h.2, hhost, hhost', hname, hlive⟩⟩
  rw [hrest]
  rcases guestPath_cases ha with ⟨halive, haroot⟩ | ⟨hamirror, hapath⟩
  · rcases guestPath_cases hb with ⟨hblive, -⟩ | ⟨hbmirror, hbpath⟩
    · exact absurd ⟨halive, hblive⟩ hlive
    · obtain ⟨hiff, hnot⟩ := liveRoot_prefix_iff hbpath
      simp [LiveDriveShared, halive, hbmirror, haroot, hiff, hnot]
  · rcases guestPath_cases hb with ⟨hblive, hbroot⟩ | ⟨hbmirror, hbpath⟩
    · obtain ⟨hiff, hnot⟩ := liveRoot_prefix_iff hapath
      simp [LiveDriveShared, hblive, hamirror, hbroot, hiff, hnot]
    · rw [windowsRootsOverlap_iff hbpath hapath, not_or] at hguest
      simp [LiveDriveShared, hamirror, hbmirror, hguest.1, hguest.2]

/-- In an accepted manifest the shares are apart, two by two, exactly when no share stands
    on the drive of the live share. -/
theorem accepted_rootsApart_iff {manifest : InstanceManifest} (h : Accepted manifest) :
    manifest.folderShares.Pairwise RootsApart ↔
      manifest.folderShares.Pairwise fun a b => ¬ LiveDriveShared a b := by
  have hruntime := h.storable.runtime
  have hvalid : ∀ share ∈ manifest.folderShares, share.validate = .ok () := fun share hshare =>
    (hruntime.shares share hshare).valid
  have hiff : ∀ {a b}, a ∈ manifest.folderShares → b ∈ manifest.folderShares → Apart a b →
      (RootsApart a b ↔ ¬ LiveDriveShared a b) := fun ha hb happ =>
    rootsApart_iff (hvalid _ ha) (hvalid _ hb) happ
  constructor
  · intro hroots
    exact (hruntime.apart.and hroots).imp_of_mem fun ha hb h => (hiff ha hb h.1).mp h.2
  · intro hfree
    exact (hruntime.apart.and hfree).imp_of_mem fun ha hb h => (hiff ha hb h.1).mpr h.2

/-- The live share of a host directory. -/
def demoLiveShare : FolderShare where
  name := "live".toList
  hostPath := .ofStr "/home".toList
  guestPath := liveRoot
  mode := .readWrite
  transport := .liveSmb

/-- A mirrored share below the live root. -/
def demoShareOnL : FolderShare where
  name := "src".toList
  hostPath := .ofStr "/srv".toList
  guestPath := "L:\\src".toList
  mode := .readOnly
  transport := .mirror

theorem demoManifest_live_and_mirror_apart :
    Accepted (demoManifest [demoLiveShare, demoShare 0]) ∧
      [demoLiveShare, demoShare 0].Pairwise RootsApart :=
  have haccepted : Accepted (demoManifest [demoLiveShare, demoShare 0]) := .inl ⟨_, rfl⟩
  ⟨haccepted, (accepted_rootsApart_iff haccepted).mpr (by
    simp only [demoManifest, List.pairwise_cons, List.mem_singleton, forall_eq]
    refine ⟨?_, by simp, .nil⟩
    unfold LiveDriveShared
    decide)⟩

/-- A manifest with the live share and a share below its root is accepted, and the two share
    roots are nested. -/
theorem demoManifest_nested_in_live_root :
    ∃ a b, Accepted (demoManifest [a, b]) ∧
      windowsComponents a.guestPath <+: windowsComponents b.guestPath := by
  refine ⟨demoLiveShare, demoShareOnL, .inl ⟨_, rfl⟩, ?_⟩
  rw [← List.isPrefixOf_iff_prefix]
  decide

end Lsw.Core
