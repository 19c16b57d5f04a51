import Mathlib.Data.List.Infix
import Lsw.Core.Customization

/-!
# What an Accepted Profile Selects

`validate_appx_removals` compares the display name of a removal with the protected names.  The
scripts select by more than that: a package family name starts with the name of its package, and the
offline script takes every full name that starts with the display name and an underscore.  A plan
keeps the protected packages exactly when neither kind of name starts with a protected name and an
underscore.
-/

namespace Lsw.Core.Customization

open Lsw.Lib

/-! ## Lower case -/

theorem lower_append (left right : Str) : lower (left ++ right) = lower left ++ lower right :=
  List.map_append

theorem lower_lower (text : Str) : lower (lower text) = lower text := by
  simp [lower, toAsciiLowercase_idem]

theorem eqIgnoreAsciiCase_iff {left right : Str} :
    eqIgnoreAsciiCase left right = true ↔ lower left = lower right := beq_iff_eq

/-! ## Unique entries -/

theorem insertUnique_eq_ok {κ : Type} [DecidableEq κ] {seen out : List κ} {key : κ}
    {reason : String} :
    insertUnique seen key reason = .ok out ↔ key ∉ seen ∧ seen ++ [key] = out := by
  rw [insertUnique, bind_eq_ok]
  simp

theorem validateService_eq_ok {unique out : List Str} {service : ServicePolicy}
    (h : validateService unique service = .ok out) :
    out = unique ++ [lower service.name] ∧
      (∀ name ∈ protectedServices, eqIgnoreAsciiCase name service.name = false) ∧
      ∀ name ∈ unique, name ≠ lower service.name := by
  obtain ⟨_, -, h⟩ := bind_eq_ok.mp h
  obtain ⟨_, hprotected, h⟩ := bind_eq_ok.mp h
  obtain ⟨_, -, h⟩ := bind_eq_ok.mp h
  obtain ⟨hnew, rfl⟩ := insertUnique_eq_ok.mp h
  refine ⟨rfl, by simpa using hprotected, ?_⟩
  rintro name hname rfl
  exact hnew hname

theorem validateServices_eq_ok {services : List ServicePolicy} {u : Unit}
    (h : validateServices services = .ok u) :
    (∀ service ∈ services, ∀ name ∈ protectedServices,
        eqIgnoreAsciiCase name service.name = false) ∧
      (services.map fun service => lower service.name).Nodup := by
  obtain ⟨out, hloop, -⟩ := bind_eq_ok.mp h
  obtain ⟨hout, hall, hpairwise⟩ :=
    forEach_collect (fun _ _ _ hone => validateService_eq_ok hone) hloop List.Pairwise.nil
  rw [List.nil_append] at hout
  exact ⟨hall, hout ▸ hpairwise⟩

/-- Policies that are accepted are different ones. -/
theorem validateRegistryPolicies_eq_ok {policies : List RegistryPolicy} {u : Unit}
    (h : validateRegistryPolicies policies = .ok u) :
    (policies.map RegistryPolicy.identity).Nodup := by
  obtain ⟨out, hloop, -⟩ := bind_eq_ok.mp h
  have hbody : ∀ unique policy out, validateRegistryPolicy unique policy = .ok out →
      out = unique ++ [policy.identity] ∧ True ∧ ∀ other ∈ unique, other ≠ policy.identity := by
    intro unique policy out hpolicy
    obtain ⟨_, -, hpolicy⟩ := bind_eq_ok.mp hpolicy
    obtain ⟨_, -, hpolicy⟩ := bind_eq_ok.mp hpolicy
    obtain ⟨hnew, rfl⟩ := insertUnique_eq_ok.mp hpolicy
    refine ⟨rfl, trivial, ?_⟩
    rintro other hother rfl
    exact hnew hother
  obtain ⟨hout, -, hpairwise⟩ := forEach_collect hbody hloop List.Pairwise.nil
  rw [List.nil_append] at hout
  exact hout ▸ hpairwise

/-- The families of a list of removals. -/
def families (removals : List AppxRemoval) : List Str :=
  removals.flatMap AppxRemoval.packageFamilyNames

/-- One removal: its display name is not protected, and its families are new. -/
theorem validateAppxRemoval_eq_ok {seen out : List Str × List Str} {removal : AppxRemoval}
    (h : validateAppxRemoval seen removal = .ok out) (hseen : seen.2.Nodup) :
    (∀ name ∈ protectedAppxNames, eqIgnoreAsciiCase name removal.displayName = false) ∧
      out.2 = seen.2 ++ removal.packageFamilyNames.map lower ∧ out.2.Nodup := by
  obtain ⟨_, -, h⟩ := bind_eq_ok.mp h
  obtain ⟨_, hprotected, h⟩ := bind_eq_ok.mp h
  obtain ⟨displayNames, -, h⟩ := bind_eq_ok.mp h
  obtain ⟨_, -, h⟩ := bind_eq_ok.mp h
  obtain ⟨familyNames, hloop, h⟩ := bind_eq_ok.mp h
  obtain rfl := Except.ok.inj h
  have hbody : ∀ (unique : List Str) (family : Str) (out : List Str),
      (do validateIdentifier family "AppX package family"
          insertUnique unique (lower family) "AppX package families must be unique") = .ok out →
      out = unique ++ [lower family] ∧ True ∧ ∀ other ∈ unique, other ≠ lower family := by
    intro unique family out hfamily
    obtain ⟨_, -, hfamily⟩ := bind_eq_ok.mp hfamily
    obtain ⟨hnew, rfl⟩ := insertUnique_eq_ok.mp hfamily
    refine ⟨rfl, trivial, ?_⟩
    rintro other hother rfl
    exact hnew hother
  obtain ⟨hout, -, hpairwise⟩ := forEach_collect hbody hloop hseen
  exact ⟨by simpa using hprotected, hout, hpairwise⟩

/-- Removals that are accepted have no protected display name, and no family twice. -/
theorem validateAppxRemovals_eq_ok {removals : List AppxRemoval} {u : Unit}
    (h : validateAppxRemovals removals = .ok u) :
    (∀ removal ∈ removals, ∀ name ∈ protectedAppxNames,
        eqIgnoreAsciiCase name removal.displayName = false) ∧
      ((families removals).map lower).Nodup := by
  obtain ⟨out, hloop, -⟩ := bind_eq_ok.mp h
  -- Generalise over the names that were seen before.
  suffices hall : ∀ seen : List Str × List Str, seen.2.Nodup →
      forEach removals validateAppxRemoval seen = .ok out →
      (∀ removal ∈ removals, ∀ name ∈ protectedAppxNames,
        eqIgnoreAsciiCase name removal.displayName = false) ∧
        out.2 = seen.2 ++ (families removals).map lower ∧ out.2.Nodup by
    obtain ⟨hprotected, hout, hnodup⟩ := hall ([], []) List.nodup_nil hloop
    exact ⟨hprotected, by simpa [hout] using hnodup⟩
  clear h hloop
  induction removals with
  | nil =>
    intro seen hseen hloop
    obtain rfl := Except.ok.inj hloop
    exact ⟨by simp, by simp [families], hseen⟩
  | cons removal removals ih =>
    intro seen hseen hloop
    rw [forEach_cons] at hloop
    obtain ⟨middle, hone, hrest⟩ := bind_eq_ok.mp hloop
    obtain ⟨hprotected, hmiddle, hnodup⟩ := validateAppxRemoval_eq_ok hone hseen
    obtain ⟨hothers, hout, houtNodup⟩ := ih middle hnodup hrest
    refine ⟨?_, ?_, houtNodup⟩
    · intro other hother
      rcases List.mem_cons.mp hother with rfl | hmem
      · exact hprotected
      · exact hothers other hmem
    · rw [hout, hmiddle]
      simp [families]

/-! ## Protected packages -/

/-- A name starts with another one and an underscore, whatever the case. -/
def Shadows (name text : Str) : Prop := lower (name ++ ['_']) <+: lower text

/-- No name that the plan selects by starts with a protected name and an underscore. -/
def Unshadowed (plan : CustomizationPlan) : Prop :=
  ∀ removal ∈ plan.appxRemovals, ∀ name ∈ protectedAppxNames,
    ¬ Shadows name removal.displayName ∧
      ∀ family ∈ removal.packageFamilyNames, ¬ Shadows name family

theorem underscore_not_mem_protected : ∀ name ∈ protectedAppxNames, '_' ∉ lower name := by
  decide

theorem lower_concat_underscore (text : Str) : lower (text ++ ['_']) = lower text ++ ['_'] :=
  lower_append text ['_']

/-- A rest that completes a lower-case text is in lower case. -/
theorem lower_rest {name text rest : Str} (h : lower name ++ rest = lower text) :
    lower rest = rest := by
  have hlower := congrArg lower h
  rw [lower_append, lower_lower, lower_lower, ← h] at hlower
  exact List.append_cancel_left hlower

section Select

variable {name : Str} {removal : AppxRemoval} {package : AppxPackage}

/-- The family name of some package of a protected name is any text that shadows it. -/
theorem testInstalledAppMatch_of_shadows {family : Str} (hfamily : family ∈ removal.packageFamilyNames)
    (h : Shadows name family) :
    ∃ package : AppxPackage, package.name = name ∧ testInstalledAppMatch package removal = true := by
  obtain ⟨rest, hrest⟩ := h
  refine ⟨⟨name, [], [], rest⟩, rfl, ?_⟩
  have hmatch : eqIgnoreAsciiCase (name ++ ['_'] ++ rest) family = true := by
    rw [eqIgnoreAsciiCase_iff, lower_append, lower_rest hrest, hrest]
  rw [testInstalledAppMatch, Bool.or_eq_true]
  exact .inr (List.any_eq_true.mpr ⟨family, hfamily, hmatch⟩)

/-- A display name that shadows a protected name starts the full name of some version of it. -/
theorem removeAppxIfPresent_of_shadows (h : Shadows name removal.displayName) :
    ∃ package : AppxPackage, package.name = name ∧ removeAppxIfPresent package removal = true := by
  obtain ⟨rest, hrest⟩ := h
  refine ⟨⟨name, rest, [], []⟩, rfl, ?_⟩
  rw [removeAppxIfPresent, List.isPrefixOf_iff_prefix, lower_concat_underscore, ← hrest]
  have hfull : lower (AppxPackage.fullName ⟨name, rest, [], []⟩) =
      lower (name ++ ['_']) ++ rest ++ ['_'] ++ lower ['_', '_'] := by
    rw [AppxPackage.fullName, List.append_nil, List.append_nil, lower_append _ ['_', '_'],
      lower_append _ ['_'], lower_append _ rest, lower_rest hrest]
    rfl
  rw [hfull]
  exact List.prefix_append _ _

/-- A match by family shadows the name of the package. -/
theorem shadows_of_family {family : Str} (hname : lower name = lower package.name)
    (h : eqIgnoreAsciiCase package.familyName family = true) : Shadows name family := by
  rw [eqIgnoreAsciiCase_iff, AppxPackage.familyName, lower_append, lower_concat_underscore,
    ← hname, ← lower_concat_underscore] at h
  exact ⟨lower package.publisher, h⟩

/-- A match by the start of the full name shadows the name of the package, or is that name. -/
theorem shadows_of_fullName (hunderscore : '_' ∉ lower name)
    (hname : lower name = lower package.name) (h : removeAppxIfPresent package removal = true) :
    lower name = lower removal.displayName ∨ Shadows name removal.displayName := by
  rw [removeAppxIfPresent, List.isPrefixOf_iff_prefix] at h
  have hpackage : lower (name ++ ['_']) <+: lower package.fullName := by
    have hsplit : package.fullName = (package.name ++ ['_']) ++ (package.version ++ (['_'] ++
        (package.architecture ++ (['_', '_'] ++ package.publisher)))) := by
      simp [AppxPackage.fullName]
    rw [hsplit, lower_concat_underscore, lower_append (package.name ++ ['_']),
      lower_concat_underscore, hname]
    exact List.prefix_append _ _
  -- Both are starts of the full name, so one of them is a start of the other.
  rcases List.prefix_or_prefix_of_prefix h hpackage with hshort | hlong
  · rw [lower_concat_underscore name, List.prefix_concat_iff, lower_concat_underscore] at hshort
    rcases hshort with heq | hinside
    · exact .inl (List.append_cancel_right heq).symm
    · exact absurd (hinside.subset (by simp)) hunderscore
  · rw [lower_concat_underscore removal.displayName, List.prefix_concat_iff,
      lower_concat_underscore] at hlong
    rcases hlong with heq | hinside
    · exact .inl (List.append_cancel_right heq)
    · rw [← lower_concat_underscore] at hinside
      exact .inr hinside

end Select

/-! ## Accepted plans -/

/-- What a plan is to keep: the protected packages and services, and one entry for each target. -/
structure Keeps (plan : CustomizationPlan) : Prop where
  appx : ∀ package : AppxPackage,
    (∃ name ∈ protectedAppxNames, eqIgnoreAsciiCase name package.name = true) →
    plan.selects package = false
  services : ∀ policy ∈ plan.servicePolicies, ∀ name ∈ protectedServices,
    eqIgnoreAsciiCase name policy.name = false
  families : ((families plan.appxRemovals).map lower).Nodup
  serviceNames : (plan.servicePolicies.map fun policy => lower policy.name).Nodup
  registryValues : plan.registryPolicies.Pairwise fun a b =>
    ¬ (a.hive = b.hive ∧ lower a.path = lower b.path ∧ lower a.name = lower b.name)

/-- What `validate_manifest` has checked of the targets. -/
theorem validateManifest_eq_ok {manifest : DeclarativeProfile} {expectedName expectedRevision : Str}
    {u : Unit} (h : validateManifest manifest expectedName expectedRevision = .ok u) :
    (∃ u, validateAppxRemovals manifest.appxRemovals = .ok u) ∧
      (∃ u, validateServices manifest.servicePolicies = .ok u) ∧
      ∃ u, validateRegistryPolicies manifest.registryPolicies = .ok u := by
  obtain ⟨_, -, h⟩ := bind_eq_ok.mp h
  obtain ⟨_, -, h⟩ := bind_eq_ok.mp h
  obtain ⟨_, -, h⟩ := bind_eq_ok.mp h
  obtain ⟨_, -, h⟩ := bind_eq_ok.mp h
  obtain ⟨_, -, h⟩ := bind_eq_ok.mp h
  obtain ⟨_, happx, h⟩ := bind_eq_ok.mp h
  obtain ⟨_, -, h⟩ := bind_eq_ok.mp h
  obtain ⟨_, hservices, h⟩ := bind_eq_ok.mp h
  obtain ⟨_, hregistry, -⟩ := bind_eq_ok.mp h
  exact ⟨⟨_, happx⟩, ⟨_, hservices⟩, ⟨_, hregistry⟩⟩

theorem fromJson_eq_ok {parse : Str → Option DeclarativeProfile} {profile : WindowsProfile}
    {expectedName expectedRevision json : Str} {plan : CustomizationPlan}
    (h : fromJson parse profile expectedName expectedRevision json = .ok plan) :
    (∃ u, validateAppxRemovals plan.appxRemovals = .ok u) ∧
      (∃ u, validateServices plan.servicePolicies = .ok u) ∧
      ∃ u, validateRegistryPolicies plan.registryPolicies = .ok u := by
  obtain ⟨_, -, h⟩ := bind_eq_ok.mp h
  obtain ⟨manifest, -, h⟩ := bind_eq_ok.mp h
  obtain ⟨_, hmanifest, h⟩ := bind_eq_ok.mp h
  obtain rfl := Except.ok.inj h
  exact validateManifest_eq_ok hmanifest

/-- Entries of one registry value have one identity. -/
theorem registryValues_of_identity {policies : List RegistryPolicy}
    (h : (policies.map RegistryPolicy.identity).Nodup) :
    policies.Pairwise fun a b =>
      ¬ (a.hive = b.hive ∧ lower a.path = lower b.path ∧ lower a.name = lower b.name) := by
  refine (List.pairwise_map.mp h).imp ?_
  rintro a b hne ⟨hhive, hpath, hname⟩
  apply hne
  simp only [RegistryPolicy.identity, lower_append, hhive, hpath, hname]

/-- A plan without shadows selects no protected package. -/
theorem not_selects_of_unshadowed {plan : CustomizationPlan} {package : AppxPackage} {name : Str}
    (hdisplay : ∀ removal ∈ plan.appxRemovals, ∀ name ∈ protectedAppxNames,
      eqIgnoreAsciiCase name removal.displayName = false)
    (hfree : Unshadowed plan) (hprotected : name ∈ protectedAppxNames)
    (hname : lower name = lower package.name) : plan.selects package = false := by
  rw [CustomizationPlan.selects, List.any_eq_false]
  intro removal hremoval hselected
  have hdifferent : lower name ≠ lower removal.displayName := by
    intro heq
    have hfalse := hdisplay removal hremoval name hprotected
    rw [eqIgnoreAsciiCase_iff.mpr heq] at hfalse
    cases hfalse
  obtain ⟨hnotDisplay, hnotFamily⟩ := hfree removal hremoval name hprotected
  have hnotNamed : eqIgnoreAsciiCase package.name removal.displayName = false := by
    rw [Bool.eq_false_iff]
    intro heq
    exact hdifferent (hname.trans (eqIgnoreAsciiCase_iff.mp heq))
  rw [provisionedMatch, testInstalledAppMatch, hnotNamed, Bool.false_or, Bool.false_or,
    Bool.or_eq_true] at hselected
  rcases hselected with hfamily | hfullName
  · obtain ⟨family, hmem, hmatch⟩ := List.any_eq_true.mp hfamily
    exact hnotFamily family hmem (shadows_of_family hname hmatch)
  · rcases shadows_of_fullName (underscore_not_mem_protected name hprotected) hname hfullName with
      heq | hshadows
    · exact hdifferent heq
    · exact hnotDisplay hshadows

/-- A plan that selects no protected package has no shadows. -/
theorem unshadowed_of_not_selects {plan : CustomizationPlan}
    (h : ∀ package : AppxPackage,
      (∃ name ∈ protectedAppxNames, eqIgnoreAsciiCase name package.name = true) →
      plan.selects package = false) : Unshadowed plan := by
  intro removal hremoval name hprotected
  have hselects : ∀ package : AppxPackage, package.name = name →
      (testInstalledAppMatch package removal = true ∨ removeAppxIfPresent package removal = true) →
      False := by
    intro package hname hmatch
    have hnot := h package ⟨name, hprotected, by rw [hname, eqIgnoreAsciiCase_iff]⟩
    rw [CustomizationPlan.selects, List.any_eq_false] at hnot
    apply hnot removal hremoval
    rcases hmatch with hinstalled | hoffline
    · rw [hinstalled, Bool.or_true, Bool.true_or]
    · rw [hoffline, Bool.or_true]
  refine ⟨?_, ?_⟩
  · intro hshadows
    obtain ⟨package, hname, hmatch⟩ := removeAppxIfPresent_of_shadows hshadows
    exact hselects package hname (.inr hmatch)
  · intro family hfamily hshadows
    obtain ⟨package, hname, hmatch⟩ := testInstalledAppMatch_of_shadows hfamily hshadows
    exact hselects package hname (.inl hmatch)

/-- An accepted plan keeps what it is to keep exactly when none of its names starts with a protected
    name and an underscore. -/
theorem accepted_plan_keeps_iff (parse : Str → Option DeclarativeProfile) (profile : WindowsProfile)
    (expectedName expectedRevision json : Str) (plan : CustomizationPlan)
    (h : fromJson parse profile expectedName expectedRevision json = .ok plan) :
    Keeps plan ↔ Unshadowed plan := by
  obtain ⟨⟨_, happx⟩, ⟨_, hservices⟩, ⟨_, hregistry⟩⟩ := fromJson_eq_ok h
  obtain ⟨hdisplay, hfamilies⟩ := validateAppxRemovals_eq_ok happx
  obtain ⟨hprotected, hnames⟩ := validateServices_eq_ok hservices
  refine ⟨fun hkeeps => unshadowed_of_not_selects hkeeps.appx, fun hfree => ?_⟩
  exact {
    appx := fun package ⟨name, hname, heq⟩ =>
      not_selects_of_unshadowed hdisplay hfree hname (eqIgnoreAsciiCase_iff.mp heq)
    services := hprotected
    families := hfamilies
    serviceNames := hnames
    registryValues := registryValues_of_identity (validateRegistryPolicies_eq_ok hregistry) }

/-- A text in quotes. -/
def quoted (text : String) : String := "\"" ++ text ++ "\""

/-- A profile document with one removal: what stands before it, around it and behind it. -/
def sampleHead : String :=
  "\x7b\"schema_version\":2,\"revision\":\"slim-v2\",\"name\":\"slim\"," ++
    "\"experimental\":false,\"keeps_servicing\":true,\"compact_os\":false," ++
    "\"appx_removals\":[\x7b\"display_name\":"

def sampleTail : String :=
  "]\x7d],\"optional_feature_removals\":[],\"product_uninstallers\":[]," ++
    "\"service_policies\":[],\"registry_policies\":[],\"preserve_components\":[" ++
    ",".intercalate (requiredDevelopmentComponents.map quoted) ++ "],\"warnings\":[]\x7d"

def sampleJson (displayName family : String) : String :=
  sampleHead ++ quoted displayName ++ ",\"package_family_names\":[" ++ quoted family ++ sampleTail

/-- What it says. -/
def sampleProfile (displayName family : String) : DeclarativeProfile where
  schemaVersion := 2
  revision := "slim-v2".toList
  name := "slim".toList
  experimental := false
  keepsServicing := true
  compactOs := false
  appxRemovals := [⟨displayName.toList, [family.toList]⟩]
  optionalFeatureRemovals := []
  productUninstallers := []
  servicePolicies := []
  registryPolicies := []
  preserveComponents := requiredDevelopmentComponents.map String.toList
  warnings := []

/-- The JSON parser, on that document. -/
def sampleParse (displayName family : String) (json : Str) : Option DeclarativeProfile :=
  if json = (sampleJson displayName family).toList then some (sampleProfile displayName family)
  else none

/-- The plan that is made of it. -/
def samplePlan (displayName family : String) : CustomizationPlan where
  schemaVersion := 2
  revision := "slim-v2".toList
  profile := .slim
  experimental := false
  appxRemovals := [⟨displayName.toList, [family.toList]⟩]
  optionalFeatureRemovals := []
  productUninstallers := []
  servicePolicies := []
  registryPolicies := []
  preserveComponents := requiredDevelopmentComponents.map String.toList
  compactOs := false
  warnings := []

theorem length_bytes_toList (text : String) : (bytes text.toList).length = text.utf8ByteSize := by
  rw [bytes, ← String.size_toByteArray, ← String.utf8Encode_toList, List.utf8Encode,
    List.size_toByteArray]

/-- The sample is accepted when its removal is. -/
theorem fromJson_sample (displayName family : String)
    (hsize : displayName.utf8ByteSize + family.utf8ByteSize ≤ 1000)
    (hremoval : validateAppxRemovals [⟨displayName.toList, [family.toList]⟩] = .ok ()) :
    fromJson (sampleParse displayName family) .slim "slim".toList "slim-v2".toList
      (sampleJson displayName family).toList = .ok (samplePlan displayName family) := by
  -- The sample removes nothing that has to be kept.
  have hcontract : validatePreservationContract (sampleProfile displayName family) = .ok () := by
    refine forEach_check_of fun required hrequired => rejectIf_of_not _ (not_not_intro ?_)
    exact List.mem_map_of_mem hrequired
  -- So its manifest is accepted when the removal is.
  have hmanifest : validateManifest (sampleProfile displayName family) "slim".toList
      "slim-v2".toList = .ok () := by
    rw [validateManifest, rejectIf_of_not _ (by simp [sampleProfile, profileManifestVersion]),
      ok_bind, rejectIf_of_not _ (by simp [sampleProfile]), ok_bind,
      rejectIf_of_not _ (by simp [sampleProfile]), ok_bind,
      rejectIf_of_not _ (by simp [sampleProfile]), ok_bind, hcontract, ok_bind]
    show (validateAppxRemovals [⟨displayName.toList, [family.toList]⟩] >>= _) = _
    rw [hremoval, ok_bind]
    rfl
  -- The text around the two names is short.
  have hlength : (bytes (sampleJson displayName family).toList).length ≤ maxProfileManifestBytes := by
    have hquoted : ∀ text, (quoted text).utf8ByteSize = text.utf8ByteSize + 2 := by
      intro text
      rw [quoted, String.utf8ByteSize_append, String.utf8ByteSize_append]
      show 1 + _ + 1 = _
      omega
    have hfixed : sampleHead.utf8ByteSize + ",\"package_family_names\":[".utf8ByteSize +
        sampleTail.utf8ByteSize ≤ 2000 := by decide +kernel
    have hbound : 3004 ≤ maxProfileManifestBytes := by decide
    rw [length_bytes_toList, sampleJson, String.utf8ByteSize_append, String.utf8ByteSize_append,
      String.utf8ByteSize_append, String.utf8ByteSize_append, hquoted, hquoted]
    omega
  rw [fromJson, rejectIf_of_not _ (by omega), ok_bind, sampleParse, if_pos rfl, okOr_some, ok_bind,
    hmanifest]
  rfl

/-- A removal that names an application and its family is accepted, and keeps everything. -/
theorem plain_removal_keeps :
    let family := "Clipchamp.Clipchamp_yxz26nhyzhsrt"
    fromJson (sampleParse "Clipchamp.Clipchamp" family) .slim "slim".toList "slim-v2".toList
        (sampleJson "Clipchamp.Clipchamp" family).toList =
      .ok (samplePlan "Clipchamp.Clipchamp" family) ∧
    Keeps (samplePlan "Clipchamp.Clipchamp" family) := by
  intro family
  have haccepted := fromJson_sample "Clipchamp.Clipchamp" family (by decide) (by decide +kernel)
  refine ⟨haccepted, (accepted_plan_keeps_iff _ _ _ _ _ _ haccepted).mpr ?_⟩
  unfold Unshadowed Shadows
  decide +kernel

/-- The family of the Store under another display name is accepted, and the Store is selected. -/
theorem store_family_is_accepted :
    let family := "Microsoft.WindowsStore_8wekyb3d8bbwe"
    let store : AppxPackage := ⟨"Microsoft.WindowsStore".toList, "22301.1401.0".toList,
      "x64".toList, "8wekyb3d8bbwe".toList⟩
    fromJson (sampleParse "Foo" family) .slim "slim".toList "slim-v2".toList
        (sampleJson "Foo" family).toList = .ok (samplePlan "Foo" family) ∧
      store.name ∈ protectedAppxNames ∧ (samplePlan "Foo" family).selects store = true ∧
      ¬ Keeps (samplePlan "Foo" family) := by
  intro family store
  have hprotected : store.name ∈ protectedAppxNames := by decide
  have hselected : (samplePlan "Foo" family).selects store = true := by decide +kernel
  refine ⟨fromJson_sample "Foo" family (by decide) (by decide +kernel), hprotected, hselected, ?_⟩
  intro hkeeps
  have hnot := hkeeps.appx store ⟨store.name, hprotected, eqIgnoreAsciiCase_iff.mpr rfl⟩
  rw [hselected] at hnot
  cases hnot

end Lsw.Core.Customization
