import Lsw.Core.Manifest

/-!
# What the Checks of a Manifest Establish

`StorableSpec`, `StorableShare` and `StorableRuntime` say what a specification, a share and
a manifest satisfy once `validate` and `validate_runtime_fields` accept them: texts that
stay on one line, paths that are text, distinct host ports, and shares that are apart.
-/

namespace Lsw.Core

open Lsw.Lib

/-! ## What the checks say about the values -/

/-- Text that stays on its line. -/
def OneLine (s : Str) : Prop := '\n' ∉ s ∧ '\r' ∉ s

theorem OneLine.of_bytes {s : Str} {p : UInt8 → Bool} (h : (bytes s).all p)
    (hn : p 10 = false) (hr : p 13 = false) : OneLine s := by
  rw [List.all_eq_true] at h
  constructor
  · intro hmem
    simp [h 10 (mem_bytes_of_mem hmem (by decide))] at hn
  · intro hmem
    simp [h 13 (mem_bytes_of_mem hmem (by decide))] at hr

theorem oneLine_decimal (n : Nat) : OneLine (decimal n) :=
  ⟨not_mem_decimal (by decide), not_mem_decimal (by decide)⟩

theorem oneLine_of_isName {limit : Nat} {name : Str} (h : isName limit name) : OneLine name := by
  simp only [isName, Bool.and_eq_true] at h
  exact .of_bytes h.1.2 (by decide) (by decide)

theorem validateSerializableValue_eq_ok {path : PathBuf} {field : String} :
    validateSerializableValue path field = .ok () ↔ ∃ text, path = .ofStr text ∧ OneLine text := by
  simp only [validateSerializableValue, bind_eq_ok, okOr_eq_ok, rejectIf_eq_ok,
    PathBuf.toStr_eq_some_iff, not_or, OneLine]

/-- A safe component of a Windows path holds no line break. -/
theorem oneLine_of_windowsPathComponentIsSafe {component : Str}
    (h : windowsPathComponentIsSafe component) : OneLine component := by
  unfold windowsPathComponentIsSafe at h
  split at h
  · simp at h
  · rename_i hunsafe
    simp only [not_or, List.any_eq_true, not_exists, not_and] at hunsafe
    obtain ⟨-, -, -, -, -, hchars⟩ := hunsafe
    exact ⟨fun hmem => hchars '\n' hmem (by decide), fun hmem => hchars '\r' hmem (by decide)⟩

/-- A path that is accepted has no line break in it. -/
theorem oneLine_of_validateWindowsAbsolutePath {path : Str}
    (h : validateWindowsAbsolutePath path = .ok ()) : OneLine path := by
  simp only [validateWindowsAbsolutePath, rejectIf_eq_ok, Bool.not_eq_false,
    Bool.and_eq_true] at h
  obtain ⟨hroot, -, hsafe⟩ := h
  split at hroot
  · rename_i drive slash c rest
    simp only [Bool.and_eq_true, Bool.or_eq_true, beq_iff_eq] at hroot
    -- A line break would be part of the root or of a component.
    have hbreak : ∀ x : Char, x = '\n' ∨ x = '\r' → x ∉ drive :: ':' :: slash :: c :: rest := by
      intro x hx hmem
      rw [show drive :: ':' :: slash :: c :: rest = [drive, ':', slash] ++ (c :: rest) from rfl,
        List.mem_append] at hmem
      rcases hmem with hhead | hrest
      · simp only [List.mem_cons, List.not_mem_nil, or_false] at hhead
        obtain ⟨halpha, hslash⟩ := hroot
        rcases hx with rfl | rfl
        · rcases hhead with rfl | hcolon | rfl
          · exact absurd halpha (by decide)
          · exact absurd hcolon (by decide)
          · exact absurd hslash (by decide)
        · rcases hhead with rfl | hcolon | rfl
          · exact absurd halpha (by decide)
          · exact absurd hcolon (by decide)
          · exact absurd hslash (by decide)
      · obtain ⟨piece, hpiece, hin⟩ := exists_mem_splitOnP
          (p := fun c => c == '\\' || c == '/') hrest (by rcases hx with rfl | rfl <;> decide)
        have hone := oneLine_of_windowsPathComponentIsSafe (List.all_eq_true.mp hsafe piece hpiece)
        rcases hx with rfl | rfl
        · exact hone.1 hin
        · exact hone.2 hin
    exact ⟨hbreak '\n' (.inl rfl), hbreak '\r' (.inr rfl)⟩
  · simp at hroot

theorem validateWindowsUserName_eq_ok {name : Str} (h : validateWindowsUserName name = .ok ()) :
    name ≠ [] ∧ OneLine name := by
  simp only [validateWindowsUserName, rejectIf_eq_ok, Bool.not_eq_false, Bool.and_eq_true] at h
  obtain ⟨⟨⟨⟨⟨hne, -⟩, -⟩, -⟩, -⟩, hchars⟩ := h
  simp only [Bool.not_eq_true', List.any_eq_false, Bool.or_eq_true, not_or] at hchars
  refine ⟨by rintro rfl; simp at hne, ?_, ?_⟩
  · exact fun hmem => (hchars _ hmem).1 (by decide)
  · exact fun hmem => (hchars _ hmem).1 (by decide)

/-- What `FolderShare::validate` says about the texts of a share. -/
structure StorableShare (share : FolderShare) : Prop where
  valid : share.validate = .ok ()
  name_oneLine : OneLine share.name
  host : ∃ host, share.hostPath = .ofStr host ∧ OneLine host
  guest_oneLine : OneLine share.guestPath

theorem storableShare {share : FolderShare} (h : share.validate = .ok ()) :
    StorableShare share := by
  have hvalid := h
  simp only [FolderShare.validate, bind_eq_ok, rejectIf_eq_ok, exists_const] at h
  obtain ⟨⟨⟩, hname, ⟨⟩, hhost, -, hguest⟩ := h
  refine ⟨hvalid, ?_, validateSerializableValue_eq_ok.mp hhost, ?_⟩
  · simp only [validateShareName, rejectIf_eq_ok, Bool.not_eq_false] at hname
    exact oneLine_of_isName hname
  · split at hguest
    · simp only [rejectIf_eq_ok, not_or, not_not] at hguest
      rw [hguest.2]
      exact ⟨by decide, by decide⟩
    · exact oneLine_of_validateWindowsAbsolutePath hguest

theorem validateForward_eq_ok {hostPorts out : List UInt16} {forward : PortForward}
    (h : validateForward hostPorts forward = .ok out) :
    out = hostPorts ++ [forward.hostPort] ∧
      (PortForward.new forward.hostPort forward.guestPort = .ok forward ∧
        isReservedPort forward.hostPort = false) ∧
      ∀ port ∈ hostPorts, port ≠ forward.hostPort := by
  simp only [validateForward, bind_eq_ok, rejectIf_eq_ok, exists_const, pure_eq_ok_iff] at h
  obtain ⟨checked, hnew, hfree, hfresh, rfl⟩ := h
  refine ⟨rfl, ⟨?_, by simpa using hfree⟩, fun port hport heq => hfresh (heq ▸ hport)⟩
  have hnew' := hnew
  simp only [PortForward.new, bind_eq_ok, rejectIf_eq_ok, exists_const, pure_eq_ok_iff] at hnew'
  obtain ⟨-, -, rfl⟩ := hnew'
  exact hnew

/-- What `InstanceSpec::validate` says about names, paths and ports. -/
structure StorableSpec (spec : InstanceSpec) : Prop where
  valid : spec.validate = .ok ()
  name_valid : isName 63 spec.name
  iso : ∃ iso, spec.sourceIso = .ofStr iso ∧ OneLine iso
  forwards : ∀ forward ∈ spec.portForwards,
    PortForward.new forward.hostPort forward.guestPort = .ok forward ∧
      isReservedPort forward.hostPort = false
  hostPorts_nodup : (spec.portForwards.map PortForward.hostPort).Nodup

theorem storableSpec {spec : InstanceSpec} (h : spec.validate = .ok ()) : StorableSpec spec := by
  have hvalid := h
  simp only [InstanceSpec.validate, bind_eq_ok, rejectIf_eq_ok, exists_const] at h
  obtain ⟨⟨⟩, hname, ⟨⟩, hiso, -, ports, hports, -⟩ := h
  obtain ⟨hout, hforwards, hnodup⟩ :=
    forEach_collect (fun _ _ _ hstep => validateForward_eq_ok hstep) hports List.Pairwise.nil
  refine ⟨hvalid, ?_, validateSerializableValue_eq_ok.mp hiso, hforwards, ?_⟩
  · simpa only [validateInstanceName, rejectIf_eq_ok, Bool.not_eq_false] using hname
  · rw [hout] at hnodup
    exact hnodup

/-- Two shares that may stand in one manifest, the first before the second. -/
structure Apart (existing share : FolderShare) : Prop where
  host : ¬ share.hostPath.startsWith existing.hostPath
  host' : ¬ existing.hostPath.startsWith share.hostPath
  guest : ¬ windowsRootsOverlap share.guestPath existing.guestPath
  name : existing.name ≠ share.name
  live : ¬ (existing.transport = .liveSmb ∧ share.transport = .liveSmb)

theorem validateShare_eq_ok {earlier out : List FolderShare} {share : FolderShare}
    (h : validateShare earlier share = .ok out) :
    out = earlier ++ [share] ∧ share.validate = .ok () ∧
      ∀ existing ∈ earlier, Apart existing share := by
  simp only [validateShare, bind_eq_ok, rejectIf_eq_ok, exists_const, pure_eq_ok_iff] at h
  obtain ⟨⟨⟩, hvalid, hlive, hname, ⟨⟩, hapart, rfl⟩ := h
  refine ⟨rfl, hvalid, fun existing hexisting => ?_⟩
  have hroots := forEach_check hapart existing hexisting
  simp only [validateApart, rejectIf_eq_ok, not_or] at hroots
  exact ⟨hroots.1, hroots.2.1, hroots.2.2, fun heq => hname ⟨existing, hexisting, heq⟩,
    fun hboth => hlive ⟨hboth.2, existing, hexisting, hboth.1⟩⟩

/-- A share that lies apart from the earlier ones is accepted. -/
theorem validateShare_of_apart {earlier : List FolderShare} {share : FolderShare}
    (hvalid : share.validate = .ok ()) (hapart : ∀ existing ∈ earlier, Apart existing share) :
    validateShare earlier share = .ok (earlier ++ [share]) := by
  have hroots : forEach earlier (fun _ existing => validateApart share existing) () = .ok () := by
    clear hvalid
    induction earlier with
    | nil => rfl
    | cons existing earlier ih =>
      obtain ⟨hhost, hhost', hguest, -, -⟩ := hapart existing List.mem_cons_self
      rw [forEach_cons, validateApart, rejectIf_of_not _ (by simp [hhost, hhost', hguest]), ok_bind]
      exact ih fun e he => hapart e (List.mem_cons_of_mem existing he)
  unfold validateShare
  rw [hvalid, ok_bind, rejectIf_of_not, ok_bind, rejectIf_of_not, ok_bind, hroots, ok_bind]
  · rfl
  · rintro ⟨existing, hexisting, hname⟩
    exact (hapart existing hexisting).name hname
  · rintro ⟨hlive, existing, hexisting, hlive'⟩
    exact (hapart existing hexisting).live ⟨hlive', hlive⟩

/-- Valid shares that are apart pass the share loop. -/
theorem forEach_validateShare_eq_ok {shares : List FolderShare}
    (hvalid : ∀ share ∈ shares, share.validate = .ok ()) (hapart : shares.Pairwise Apart) :
    forEach shares validateShare [] = .ok shares := by
  have hstep : ∀ (seen : List FolderShare) share, share.validate = .ok () →
      (∀ existing ∈ seen, Apart existing (id share)) →
      validateShare seen share = .ok (seen ++ [id share]) := fun _ _ => validateShare_of_apart
  have hpair : ([] ++ shares.map id).Pairwise Apart := by simpa using hapart
  simpa using forEach_collect_eq_ok hstep hvalid hpair

/-- What `validate_runtime_fields` says about the optional values and the shares. -/
structure StorableRuntime (manifest : InstanceManifest) : Prop where
  valid : validateRuntimeFields manifest = .ok ()
  key : ∀ key, manifest.baseImageKey = some key → key ≠ [] ∧ OneLine key
  user : ∀ user, manifest.defaultUser = some user → user ≠ [] ∧ OneLine user
  shares : ∀ share ∈ manifest.folderShares, StorableShare share
  apart : manifest.folderShares.Pairwise Apart

/-- Fields that are accepted can be stored. -/
theorem storableRuntime {manifest : InstanceManifest}
    (h : validateRuntimeFields manifest = .ok ()) : StorableRuntime manifest := by
  have hvalid := h
  simp only [validateRuntimeFields, bind_eq_ok, rejectIf_eq_ok, exists_const] at h
  obtain ⟨-, ⟨⟩, hkey, ⟨⟩, huser, -, shares, hshares, -⟩ := h
  have hstep : ∀ seen share out, validateShare seen share = .ok out →
      out = seen ++ [id share] ∧ share.validate = .ok () ∧
        ∀ existing ∈ seen, Apart existing (id share) := fun _ _ _ hok => validateShare_eq_ok hok
  obtain ⟨hout, hall, hapart⟩ := forEach_collect hstep hshares List.Pairwise.nil
  refine ⟨hvalid, ?_, ?_, fun share hshare => storableShare (hall share hshare), ?_⟩
  · rintro key hsome
    rw [hsome, checkSome] at hkey
    simp only [validateBaseImageKey, rejectIf_eq_ok, not_or, not_not, Bool.not_eq_false] at hkey
    refine ⟨?_, .of_bytes hkey.2 (by decide) (by decide)⟩
    rintro rfl
    simp at hkey
  · rintro user hsome
    rw [hsome, checkSome] at huser
    exact validateWindowsUserName_eq_ok huser
  · rw [hout] at hapart
    simpa using hapart

/-- A manifest that passes the checks of `encode`. -/
structure Storable (manifest : InstanceManifest) : Prop where
  spec : StorableSpec manifest.spec
  idleTimeout : validateIdleTimeout manifest.idleTimeoutSeconds = .ok ()
  hibernateTimeout : validateIdleTimeout manifest.hibernateTimeoutSeconds = .ok ()
  runtime : StorableRuntime manifest

end Lsw.Core
