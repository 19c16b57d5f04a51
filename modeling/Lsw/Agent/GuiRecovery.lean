import Lsw.Lib.Run
import Lsw.Lib.Vec
import Lsw.Protocol.GuiMessages
import Mathlib.Data.List.Nodup

/-!
# The GUI Recovery Registry

The desktop companion keeps one registry of GUI windows.  A session claims its request, which
makes the request active; when the session loses its host it retains the window under the
request, and the next session for an equal request gets that window back.  A claim is a guard:
dropped while it still holds its request, it takes the request off the active list.

The registry is shared by the workers of all connections behind a mutex.  A step of the model is
one critical section, or one thing a worker does between two of them; windows may die or change
their identity at any point, so every step that looks at a window brings the identities of its
own moment.
-/

namespace Lsw.Agent

open Lib Protocol

variable {W : Type}

/-! ## The registry -/

/-- `MAX_GUI_WINDOW_SESSIONS`. -/
def maxGuiWindowSessions : Nat := 16

/-- A process and one of its windows. -/
abbrev WindowIdentity := UInt32 × UInt64

/-- `RecoverableWindowIdentity::current_identity`, as it answers at one moment. -/
abbrev CurrentIdentity (W : Type) := W → Option WindowIdentity

/-- `DetachedGuiWindow`. -/
structure DetachedGuiWindow (W : Type) where
  request : GuiStartRequest
  processId : UInt32
  windowId : UInt64
  window : W

/-- The identity a window had when it was retained. -/
def DetachedGuiWindow.identity (entry : DetachedGuiWindow W) : WindowIdentity :=
  (entry.processId, entry.windowId)

/-- `DetachedGuiWindow::new`. -/
def DetachedGuiWindow.new (current : CurrentIdentity W) (request : GuiStartRequest) (window : W) :
    Except String (DetachedGuiWindow W) :=
  match current window with
  | none => .error "cannot retain a stale GUI window for recovery"
  | some (processId, windowId) => .ok { request, processId, windowId, window }

/-- `DetachedGuiRegistry`. -/
structure DetachedGuiRegistry (W : Type) where
  entries : List (DetachedGuiWindow W)
  activeRequests : List GuiStartRequest

namespace DetachedGuiRegistry

/-- `DetachedGuiRegistry::default`. -/
def empty : DetachedGuiRegistry W := { entries := [], activeRequests := [] }

/-- `DetachedGuiRegistry::purge_stale`. -/
def purgeStale (current : CurrentIdentity W) (registry : DetachedGuiRegistry W) :
    DetachedGuiRegistry W :=
  { registry with
    entries := registry.entries.filter fun entry => current entry.window == some entry.identity }

/-- `DetachedGuiRegistry::claim`: what it returns and the registry it leaves. -/
def claim (current : CurrentIdentity W) (request : GuiStartRequest)
    (registry : DetachedGuiRegistry W) : Except String (Option W) × DetachedGuiRegistry W :=
  let registry := registry.purgeStale current
  if registry.activeRequests.any (· == request) then
    (.error "this exact seamless GUI request already has an active presenter session", registry)
  else
    match registry.entries.findIdx? (·.request == request) with
    | some index =>
      (.ok (registry.entries[index]?.map (·.window)),
        { entries := swapRemove registry.entries index
          activeRequests := registry.activeRequests ++ [request] })
    | none =>
      if registry.activeRequests.length + registry.entries.length ≥ maxGuiWindowSessions then
        (.error ("the desktop companion already owns 16 active or recoverable GUI windows; " ++
          "close one before launching another"), registry)
      else
        (.ok none, { registry with activeRequests := registry.activeRequests ++ [request] })

/-- `DetachedGuiRegistry::retain_claimed`. -/
def retainClaimed (entry : DetachedGuiWindow W) (registry : DetachedGuiRegistry W) :
    Except String Unit × DetachedGuiRegistry W :=
  match registry.activeRequests.findIdx? (· == entry.request) with
  | none => (.error "cannot retain a GUI window without its active request claim", registry)
  | some activeIndex =>
    if registry.entries.any (·.request == entry.request) then
      (.error ("the desktop companion already retains this exact GUI request; " ++
        "refusing ambiguous recovery state"), registry)
    else if registry.activeRequests.length + registry.entries.length > maxGuiWindowSessions then
      (.error "the GUI recovery registry exceeded its 16 window limit", registry)
    else
      (.ok (), { entries := registry.entries ++ [entry]
                 activeRequests := swapRemove registry.activeRequests activeIndex })

/-- What `GuiSessionClaim::drop` does to the registry of a claim that holds its request. -/
def release (request : GuiStartRequest) (registry : DetachedGuiRegistry W) :
    DetachedGuiRegistry W :=
  match registry.activeRequests.findIdx? (· == request) with
  | some index => { registry with activeRequests := swapRemove registry.activeRequests index }
  | none => registry

end DetachedGuiRegistry

/-! ## Claims and windows -/

/-- A `GuiSessionClaim`, and how far its owner is with it. -/
inductive GuiSessionClaim (W : Type) where
  /-- The session holds the claim. -/
  | armed (request : GuiStartRequest)
  /-- `retain` has validated the window and waits for the registry. -/
  | retaining (entry : DetachedGuiWindow W)
  /-- `retain` returned an error; the claim is dropped with its request. -/
  | leaving (request : GuiStartRequest)
  /-- The request was taken out of the claim. -/
  | spent

/-- `GuiSessionClaim::request`: a claim is armed as long as it holds one. -/
def GuiSessionClaim.request : GuiSessionClaim W → Option GuiStartRequest
  | .armed request => some request
  | .retaining entry => some entry.request
  | .leaving request => some request
  | .spent => none

/-- A window under a request, with what it answered for its identity. -/
abbrev Stamp (W : Type) := GuiStartRequest × W × Option WindowIdentity

/-- How a retained window was stamped. -/
def DetachedGuiWindow.stamp (entry : DetachedGuiWindow W) : Stamp W :=
  (entry.request, entry.window, some entry.identity)

/-- The companion: its registry, the claims given out so far in their order, and a record of
    the windows retained and of those handed out again. -/
structure Companion (W : Type) where
  registry : DetachedGuiRegistry W
  claims : List (GuiSessionClaim W)
  retained : List (Stamp W)
  handed : List (Stamp W)

namespace Companion

/-- The companion as it starts. -/
def start : Companion W :=
  { registry := .empty, claims := [], retained := [], handed := [] }

/-- The requests of the armed claims. -/
def armedRequests (s : Companion W) : List GuiStartRequest := s.claims.filterMap (·.request)

/-- One claim changes. -/
def setClaim (s : Companion W) (index : Nat) (claim : GuiSessionClaim W) : Companion W :=
  { s with claims := s.claims.set index claim }

/-- What a worker of some session does next. -/
inductive Move (W : Type) where
  /-- `SharedGuiRecoveryRegistry::claim`. -/
  | claim (current : CurrentIdentity W) (request : GuiStartRequest)
  /-- `GuiSessionClaim::retain` outside the mutex. -/
  | validate (index : Nat) (current : CurrentIdentity W) (window : W)
  /-- `GuiSessionClaim::retain` under the mutex. -/
  | retain (index : Nat)
  /-- `GuiSessionClaim::drop`. -/
  | drop (index : Nat)
  /-- `SharedGuiRecoveryRegistry::purge_stale`. -/
  | purgeStale (current : CurrentIdentity W)

/-- One move of one worker. -/
def step (s : Companion W) : Move W → Companion W
  | .claim current request =>
    match s.registry.claim current request with
    | (.error _, registry) => { s with registry }
    | (.ok recovered, registry) =>
      { s with
        registry
        claims := s.claims ++ [.armed request]
        handed := s.handed ++ recovered.toList.map fun window =>
          (request, window, current window) }
  | .validate index current window =>
    match s.claims[index]? with
    | some (.armed request) =>
      match DetachedGuiWindow.new current request window with
      | .ok entry => s.setClaim index (.retaining entry)
      | .error _ => s.setClaim index (.leaving request)
    | _ => s
  | .retain index =>
    match s.claims[index]? with
    | some (.retaining entry) =>
      match s.registry.retainClaimed entry with
      | (.ok _, registry) =>
        { s.setClaim index .spent with registry, retained := s.retained ++ [entry.stamp] }
      | (.error _, registry) => { s.setClaim index (.leaving entry.request) with registry }
    | _ => s
  | .drop index =>
    match s.claims[index]? with
    | some (.armed request) | some (.leaving request) =>
      { s.setClaim index .spent with registry := s.registry.release request }
    | _ => s
  | .purgeStale current => { s with registry := s.registry.purgeStale current }

/-- What holds of the registry and its claims between any two moves. -/
structure Sound (s : Companion W) : Prop where
  /-- No request is active twice. -/
  active_nodup : s.registry.activeRequests.Nodup
  /-- The active requests are those of the armed claims. -/
  active_armed : s.registry.activeRequests.Perm s.armedRequests
  /-- No request is retained twice. -/
  retained_nodup : (s.registry.entries.map (·.request)).Nodup
  /-- No retained request is active. -/
  disjoint : ∀ entry ∈ s.registry.entries, entry.request ∉ s.registry.activeRequests
  /-- There is room for all of them. -/
  bounded : s.registry.activeRequests.length + s.registry.entries.length ≤ maxGuiWindowSessions
  /-- What was handed out and what is still there was retained, each for one retention: under
      the same request and with the same identity. -/
  conserved : (s.handed ++ s.registry.entries.map (·.stamp)).Subperm s.retained

end Companion

/-! ## What the registry's operations do -/

namespace DetachedGuiRegistry

variable {registry : DetachedGuiRegistry W} {request : GuiStartRequest}

@[simp] theorem activeRequests_purgeStale (current : CurrentIdentity W) :
    (registry.purgeStale current).activeRequests = registry.activeRequests := rfl

/-- Purging only takes entries out. -/
theorem entries_purgeStale_sublist (current : CurrentIdentity W) :
    (registry.purgeStale current).entries.Sublist registry.entries :=
  List.filter_sublist

/-- What is left after purging has the identity it was retained with. -/
theorem identity_of_mem_purgeStale {current : CurrentIdentity W} {entry : DetachedGuiWindow W}
    (h : entry ∈ (registry.purgeStale current).entries) :
    current entry.window = some entry.identity := by
  simpa [purgeStale] using (List.mem_filter.mp h).2

/-- An active request is found, and taking it out leaves the others. -/
theorem exists_swapRemove_of_mem (h : request ∈ registry.activeRequests) :
    ∃ index rest, registry.activeRequests.findIdx? (· == request) = some index ∧
      swapRemove registry.activeRequests index = rest ∧
      (request :: rest).Perm registry.activeRequests := by
  cases hfind : registry.activeRequests.findIdx? (· == request) with
  | none =>
    have hnone := List.findIdx?_eq_none_iff.mp hfind request h
    simp at hnone
  | some index =>
    obtain ⟨active, hactive, heq⟩ := exists_of_findIdx? hfind
    obtain rfl : active = request := by simpa using heq
    exact ⟨index, _, rfl, rfl, swapRemove_perm hactive⟩

/-- The three ways a claim ends: an error, a window that was retained under the request, or a
    new slot. -/
theorem claim_cases (current : CurrentIdentity W) (request : GuiStartRequest)
    (registry : DetachedGuiRegistry W) :
    (∃ message, registry.claim current request =
      (.error message, registry.purgeStale current)) ∨
    (∃ entry rest, entry.request = request ∧ request ∉ registry.activeRequests ∧
      (entry :: rest).Perm (registry.purgeStale current).entries ∧
      registry.claim current request =
        (.ok (some entry.window),
          { entries := rest, activeRequests := registry.activeRequests ++ [request] })) ∨
    (request ∉ registry.activeRequests ∧
      (∀ entry ∈ (registry.purgeStale current).entries, entry.request ≠ request) ∧
      registry.activeRequests.length + (registry.purgeStale current).entries.length <
        maxGuiWindowSessions ∧
      registry.claim current request =
        (.ok none, { entries := (registry.purgeStale current).entries
                     activeRequests := registry.activeRequests ++ [request] })) := by
  generalize hresult : registry.claim current request = result
  unfold claim at hresult
  dsimp only at hresult
  split at hresult
  -- The request is already being served.
  next => exact .inl ⟨_, hresult.symm⟩
  -- It is not: the first entry retained under it is looked for.
  next hactive =>
    have hfree : request ∉ registry.activeRequests := by
      rw [activeRequests_purgeStale] at hactive
      simpa using hactive
    cases hfind : (registry.purgeStale current).entries.findIdx? (·.request == request) with
    -- It is found, and taken out by swapping the last entry into its place.
    | some index =>
      simp only [hfind] at hresult
      obtain ⟨entry, hentry, heq⟩ := exists_of_findIdx? hfind
      refine .inr (.inl ⟨entry, _, by simpa using heq, hfree, swapRemove_perm hentry, ?_⟩)
      rw [← hresult, hentry]
      rfl
    -- There is none: a new slot, if there is one left.
    | none =>
      simp only [hfind] at hresult
      split at hresult
      · exact .inl ⟨_, hresult.symm⟩
      · refine .inr (.inr ⟨hfree, ?_, Nat.lt_of_not_ge ‹_›, hresult.symm⟩)
        intro entry hentry
        simpa using List.findIdx?_eq_none_iff.mp hfind entry hentry

/-- Retaining succeeds for an active request that is not retained, within the limit. -/
theorem retainClaimed_eq_ok {entry : DetachedGuiWindow W}
    (hactive : entry.request ∈ registry.activeRequests)
    (hfresh : ∀ existing ∈ registry.entries, existing.request ≠ entry.request)
    (hroom : registry.activeRequests.length + registry.entries.length ≤ maxGuiWindowSessions) :
    ∃ rest, (entry.request :: rest).Perm registry.activeRequests ∧
      registry.retainClaimed entry =
        (.ok (), { entries := registry.entries ++ [entry], activeRequests := rest }) := by
  obtain ⟨index, rest, hfind, hrest, hperm⟩ := exists_swapRemove_of_mem hactive
  have hany : ¬ registry.entries.any (·.request == entry.request) = true := by
    simpa using hfresh
  refine ⟨rest, hperm, ?_⟩
  rw [retainClaimed, hfind]
  dsimp only
  rw [if_neg hany, if_neg (by omega), hrest]

/-- Dropping a claim takes its active request out. -/
theorem release_eq (hactive : request ∈ registry.activeRequests) :
    ∃ rest, (request :: rest).Perm registry.activeRequests ∧
      registry.release request = { registry with activeRequests := rest } := by
  obtain ⟨index, rest, hfind, hrest, hperm⟩ := exists_swapRemove_of_mem hactive
  exact ⟨rest, hperm, by rw [release, hfind, ← hrest]⟩

end DetachedGuiRegistry

/-! ## Soundness along every run -/

namespace Companion

open DetachedGuiRegistry

variable {s : Companion W}

/-- The armed requests, around one claim. -/
theorem armedRequests_eq {index : Nat} {claim : GuiSessionClaim W}
    (hclaim : s.claims[index]? = some claim) :
    s.armedRequests = (s.claims.take index).filterMap (·.request) ++
      (claim.request.toList ++ (s.claims.drop (index + 1)).filterMap (·.request)) := by
  obtain ⟨hi, rfl⟩ := List.getElem?_eq_some_iff.mp hclaim
  have hclaims : s.claims.take index ++ s.claims[index] :: s.claims.drop (index + 1) = s.claims :=
    by simp
  unfold armedRequests
  conv_lhs => rw [← hclaims]
  rw [List.filterMap_append, List.filterMap_cons]
  cases s.claims[index].request <;> rfl

theorem armedRequests_setClaim {index : Nat} {before : GuiSessionClaim W}
    (after : GuiSessionClaim W) (hclaim : s.claims[index]? = some before) :
    (s.setClaim index after).armedRequests = (s.claims.take index).filterMap (·.request) ++
      (after.request.toList ++ (s.claims.drop (index + 1)).filterMap (·.request)) := by
  have hi := (List.getElem?_eq_some_iff.mp hclaim).1
  have hset : (s.setClaim index after).claims[index]? = some after :=
    List.getElem?_set_self hi
  rw [armedRequests_eq hset]
  simp [setClaim, List.take_set_of_le, List.drop_set]

/-- A claim that gives its request up takes it from the armed requests. -/
theorem armedRequests_spend {index : Nat} {claim : GuiSessionClaim W} {request : GuiStartRequest}
    (hclaim : s.claims[index]? = some claim) (hrequest : claim.request = some request) :
    (request :: (s.setClaim index .spent).armedRequests).Perm s.armedRequests := by
  rw [armedRequests_setClaim .spent hclaim, armedRequests_eq hclaim, hrequest]
  exact List.perm_middle.symm

/-- The request of an armed claim is active. -/
theorem Sound.mem_active (h : Sound s) {index : Nat} {claim : GuiSessionClaim W}
    {request : GuiStartRequest} (hclaim : s.claims[index]? = some claim)
    (hrequest : claim.request = some request) : request ∈ s.registry.activeRequests := by
  apply h.active_armed.mem_iff.mpr
  exact List.mem_filterMap.mpr ⟨claim, List.mem_of_getElem? hclaim, hrequest⟩

theorem sound_start : Sound (start : Companion W) where
  active_nodup := List.nodup_nil
  active_armed := List.Perm.nil
  retained_nodup := List.nodup_nil
  disjoint := by simp [start, DetachedGuiRegistry.empty]
  bounded := by simp [start, DetachedGuiRegistry.empty]
  conserved := List.Subperm.refl _

/-- Purging keeps everything in order. -/
theorem Sound.purgeStale (h : Sound s) (current : CurrentIdentity W) :
    Sound { s with registry := s.registry.purgeStale current } := by
  have hsub : (s.registry.purgeStale current).entries.Sublist s.registry.entries :=
    entries_purgeStale_sublist current
  refine { h with
    retained_nodup := h.retained_nodup.sublist (hsub.map _)
    disjoint := fun entry hentry => h.disjoint entry (hsub.subset hentry)
    bounded := Nat.le_trans (Nat.add_le_add_left hsub.length_le _) h.bounded
    conserved := List.Subperm.trans ?_ h.conserved }
  exact List.Sublist.subperm ((hsub.map _).append_left _)

/-- The armed requests after one more claim. -/
theorem perm_armedRequests_concat {claims : List (GuiSessionClaim W)}
    {active : List GuiStartRequest} (request : GuiStartRequest)
    (h : active.Perm (claims.filterMap GuiSessionClaim.request)) :
    (active ++ [request]).Perm ((claims ++ [GuiSessionClaim.armed request]).filterMap GuiSessionClaim.request) := by
  rw [List.filterMap_append]
  exact h.append_right [request]

/-- A claim that finds its window puts the request where the window was. -/
theorem Sound.recovered (h : Sound s) {current : CurrentIdentity W}
    {entry : DetachedGuiWindow W} {rest : List (DetachedGuiWindow W)}
    (hfree : entry.request ∉ s.registry.activeRequests)
    (hidentity : current entry.window = some entry.identity)
    (hperm : (entry :: rest).Perm s.registry.entries) :
    Sound { s with
      registry := { entries := rest
                    activeRequests := s.registry.activeRequests ++ [entry.request] }
      claims := s.claims ++ [.armed entry.request]
      handed := s.handed ++ [(entry.request, entry.window, current entry.window)] } := by
  -- No other entry has the request of the one that is handed out.
  have hnodup : ((entry :: rest).map (·.request)).Nodup :=
    (hperm.map _).nodup_iff.mpr h.retained_nodup
  rw [List.map_cons, List.nodup_cons] at hnodup
  have hlength : rest.length + 1 = s.registry.entries.length := hperm.length_eq
  -- The window answers for the identity of its entry.
  have hstamp : (entry.request, entry.window, current entry.window) = entry.stamp := by
    rw [hidentity]
    rfl
  refine
    { active_nodup := ?_
      active_armed := perm_armedRequests_concat _ h.active_armed
      retained_nodup := hnodup.2
      disjoint := ?_
      bounded := ?_
      conserved := ?_ }
  -- The request was not active before.
  · exact List.nodup_append.mpr ⟨h.active_nodup, List.nodup_singleton _, by
      intro active hactive other hother
      rw [List.mem_singleton.mp hother]
      exact fun heq => hfree (heq ▸ hactive)⟩
  -- So no entry that is left is active.
  · intro other hother hmem
    rcases List.mem_append.mp hmem with hactive | hnew
    · exact h.disjoint other (hperm.subset (List.mem_cons_of_mem _ hother)) hactive
    · exact hnodup.1 (List.mem_map.mpr ⟨other, hother, List.mem_singleton.mp hnew⟩)
  -- One entry less, one active request more.
  · have := h.bounded
    simp only [List.length_append, List.length_singleton]
    omega
  -- The stamp has moved from the entries to what is handed out.
  · rw [hstamp, List.append_assoc]
    exact (((hperm.map _).append_left _).subperm).trans h.conserved

/-- A claim without a window takes a free slot. -/
theorem Sound.launched (h : Sound s) {request : GuiStartRequest}
    (hfree : request ∉ s.registry.activeRequests)
    (hfresh : ∀ entry ∈ s.registry.entries, entry.request ≠ request)
    (hroom : s.registry.activeRequests.length + s.registry.entries.length <
      maxGuiWindowSessions) :
    Sound { s with
      registry := { entries := s.registry.entries
                    activeRequests := s.registry.activeRequests ++ [request] }
      claims := s.claims ++ [.armed request] } := by
  refine
    { active_nodup := ?_
      active_armed := perm_armedRequests_concat _ h.active_armed
      retained_nodup := h.retained_nodup
      disjoint := ?_
      bounded := ?_
      conserved := h.conserved }
  · exact List.nodup_append.mpr ⟨h.active_nodup, List.nodup_singleton _, by
      intro active hactive other hother
      rw [List.mem_singleton.mp hother]
      exact fun heq => hfree (heq ▸ hactive)⟩
  · intro entry hentry hmem
    rcases List.mem_append.mp hmem with hactive | hnew
    · exact h.disjoint entry hentry hactive
    · exact hfresh entry hentry (List.mem_singleton.mp hnew)
  · simp only [List.length_append, List.length_singleton]
    omega

/-- A claim keeps the registry sound. -/
theorem Sound.claim (h : Sound s) (current : CurrentIdentity W) (request : GuiStartRequest) :
    Sound (s.step (.claim current request)) := by
  have hpurged := h.purgeStale current
  rw [Companion.step]
  rcases claim_cases current request s.registry with
    ⟨message, hclaim⟩ | ⟨entry, rest, rfl, hfree, hperm, hclaim⟩ | ⟨hfree, hfresh, hroom, hclaim⟩
  · rw [hclaim]
    exact hpurged
  · rw [hclaim]
    have hentry : entry ∈ (s.registry.purgeStale current).entries :=
      hperm.subset List.mem_cons_self
    exact hpurged.recovered hfree (identity_of_mem_purgeStale hentry) hperm
  · rw [hclaim]
    simpa using hpurged.launched hfree hfresh hroom

/-- Moving a claim on without taking its request changes nothing of the registry. -/
theorem Sound.setClaim (h : Sound s) {index : Nat} {before after : GuiSessionClaim W}
    (hclaim : s.claims[index]? = some before) (hrequest : after.request = before.request) :
    Sound (s.setClaim index after) :=
  { h with
    active_armed := by
      rw [armedRequests_setClaim after hclaim, hrequest, ← armedRequests_eq hclaim]
      exact h.active_armed }

/-- So does the validation of a window. -/
theorem Sound.validate (h : Sound s) (index : Nat) (current : CurrentIdentity W) (window : W) :
    Sound (s.step (.validate index current window)) := by
  rw [Companion.step]
  split
  next request hclaim =>
    cases hnew : DetachedGuiWindow.new current request window with
    | error message => exact h.setClaim hclaim rfl
    | ok entry =>
      have hrequest : entry.request = request := by
        unfold DetachedGuiWindow.new at hnew
        split at hnew <;> cases hnew
        rfl
      exact h.setClaim hclaim (congrArg some hrequest)
  next => exact h

/-- A claim that is being retained finds everything as `retain_claimed` wants it. -/
theorem Sound.retainClaimed (h : Sound s) {index : Nat} {entry : DetachedGuiWindow W}
    (hclaim : s.claims[index]? = some (.retaining entry)) :
    ∃ rest, (entry.request :: rest).Perm s.registry.activeRequests ∧
      s.registry.retainClaimed entry =
        (.ok (), { entries := s.registry.entries ++ [entry], activeRequests := rest }) := by
  have hactive : entry.request ∈ s.registry.activeRequests := h.mem_active hclaim rfl
  refine retainClaimed_eq_ok hactive ?_ h.bounded
  intro existing hexisting heq
  exact h.disjoint existing hexisting (heq ▸ hactive)

/-- What retaining leaves. -/
theorem Sound.retain_eq (h : Sound s) {index : Nat} {entry : DetachedGuiWindow W}
    (hclaim : s.claims[index]? = some (.retaining entry)) :
    let after := s.step (.retain index)
    s.registry.retainClaimed entry = (.ok (), after.registry) ∧
      after.registry.entries = s.registry.entries ++ [entry] ∧
      (entry.request :: after.registry.activeRequests).Perm s.registry.activeRequests ∧
      entry.request ∉ after.registry.activeRequests ∧ after.claims[index]? = some .spent := by
  intro after
  obtain ⟨rest, hperm, hretain⟩ := h.retainClaimed hclaim
  have hafter : after = { s.setClaim index .spent with
      registry := { entries := s.registry.entries ++ [entry], activeRequests := rest }
      retained := s.retained ++ [entry.stamp] } := by
    rw [show after = s.step (.retain index) from rfl, Companion.step, hclaim]
    dsimp only
    rw [hretain]
  have hnodup : (entry.request :: rest).Nodup := hperm.nodup_iff.mpr h.active_nodup
  have hindex := (List.getElem?_eq_some_iff.mp hclaim).1
  rw [hafter]
  exact ⟨hretain, rfl, hperm, (List.nodup_cons.mp hnodup).1, List.getElem?_set_self hindex⟩

/-- Spending a claim of an active request. -/
theorem active_spend (h : Sound s) {index : Nat} {claim : GuiSessionClaim W}
    {request : GuiStartRequest} {rest : List GuiStartRequest}
    (hclaim : s.claims[index]? = some claim) (hrequest : claim.request = some request)
    (hperm : (request :: rest).Perm s.registry.activeRequests) :
    rest.Nodup ∧ request ∉ rest ∧ rest.Perm (s.setClaim index .spent).armedRequests := by
  have hnodup : (request :: rest).Nodup := hperm.nodup_iff.mpr h.active_nodup
  refine ⟨(List.nodup_cons.mp hnodup).2, (List.nodup_cons.mp hnodup).1, ?_⟩
  apply List.Perm.cons_inv
  exact hperm.trans (h.active_armed.trans (armedRequests_spend hclaim hrequest).symm)

/-- So does the retention of one. -/
theorem Sound.retain (h : Sound s) (index : Nat) : Sound (s.step (.retain index)) := by
  rw [Companion.step]
  split
  next entry hclaim =>
    -- The request leaves the active ones, and its window joins the entries.
    obtain ⟨rest, hperm, hretain⟩ := h.retainClaimed hclaim
    obtain ⟨hnodup, hnotMem, harmed⟩ := active_spend h hclaim rfl hperm
    have hlength : rest.length + 1 = s.registry.activeRequests.length := hperm.length_eq
    have hactive : entry.request ∈ s.registry.activeRequests := hperm.subset List.mem_cons_self
    rw [hretain]
    refine
      { active_nodup := hnodup
        active_armed := harmed
        retained_nodup := ?_
        disjoint := ?_
        bounded := ?_
        conserved := ?_ }
    -- No entry has been retained under it, since it was active.
    · show ((s.registry.entries ++ [entry]).map (·.request)).Nodup
      rw [List.map_append, List.nodup_append]
      refine ⟨h.retained_nodup, List.nodup_singleton _, ?_⟩
      intro other hother last hlast heq
      obtain ⟨existing, hexisting, rfl⟩ := List.mem_map.mp hother
      rw [List.map_singleton, List.mem_singleton] at hlast
      exact h.disjoint existing hexisting (heq.trans hlast ▸ hactive)
    -- No entry is active: the old ones were not, and the new one is not any more.
    · intro other hother
      rcases List.mem_append.mp hother with hold | hnew
      · exact fun hmem => h.disjoint other hold (hperm.subset (List.mem_cons_of_mem _ hmem))
      · rw [List.mem_singleton.mp hnew]
        exact hnotMem
    -- One active request less, one entry more.
    · have := h.bounded
      show rest.length + (s.registry.entries ++ [entry]).length ≤ maxGuiWindowSessions
      simp only [List.length_append, List.length_singleton]
      omega
    -- The stamp of the new entry has been added to both sides.
    · show (s.handed ++ (s.registry.entries ++ [entry]).map (·.stamp)).Subperm
        (s.retained ++ [entry.stamp])
      rw [List.map_append, ← List.append_assoc]
      exact (List.subperm_append_right _).mpr h.conserved
  next => exact h

/-- A dropped claim gives its request back. -/
theorem Sound.released (h : Sound s) {index : Nat} {claim : GuiSessionClaim W}
    {request : GuiStartRequest} (hclaim : s.claims[index]? = some claim)
    (hrequest : claim.request = some request) :
    Sound { s.setClaim index .spent with registry := s.registry.release request } := by
  obtain ⟨rest, hperm, hrelease⟩ := release_eq (h.mem_active hclaim hrequest)
  obtain ⟨hnodup, -, harmed⟩ := active_spend h hclaim hrequest hperm
  have hlength : rest.length + 1 = s.registry.activeRequests.length := hperm.length_eq
  rw [hrelease]
  refine { h with
    active_nodup := hnodup
    active_armed := harmed
    disjoint := ?_
    bounded := ?_ }
  · intro entry hentry hmem
    exact h.disjoint entry hentry (hperm.subset (List.mem_cons_of_mem _ hmem))
  · have := h.bounded
    show rest.length + s.registry.entries.length ≤ maxGuiWindowSessions
    omega

theorem Sound.drop (h : Sound s) (index : Nat) : Sound (s.step (.drop index)) := by
  rw [Companion.step]
  split
  next request hclaim => exact h.released hclaim rfl
  next request hclaim => exact h.released hclaim rfl
  next => exact h

theorem Sound.step (h : Sound s) (move : Move W) : Sound (s.step move) := by
  cases move with
  | claim current request => exact h.claim current request
  | validate index current window => exact h.validate index current window
  | retain index => exact h.retain index
  | drop index => exact h.drop index
  | purgeStale current => exact h.purgeStale current

/-- Every run keeps the registry and its claims in order. -/
theorem sound_run (moves : List (Move W)) : Sound (run Companion.step start moves) :=
  run_invariant (fun _ move h _ => h.step move) sound_start
    (along_of_forall_mem fun _ _ => trivial)

/-- Changing another claim leaves this one. -/
theorem getElem?_setClaim_of_ne {index other : Nat} {claim changed after : GuiSessionClaim W}
    (hclaim : s.claims[index]? = some claim) (hother : s.claims[other]? = some changed)
    (hne : claim ≠ changed) : (s.setClaim other after).claims[index]? = some claim := by
  have hindex : other ≠ index := by
    rintro rfl
    exact hne (Option.some.inj (hclaim.symm.trans hother))
  rw [setClaim, List.getElem?_set_ne hindex]
  exact hclaim

/-- A claim that is being retained stays so until its own turn under the mutex. -/
theorem retaining_step {index : Nat} {entry : DetachedGuiWindow W} {move : Move W}
    (hclaim : s.claims[index]? = some (.retaining entry)) (hmove : move ≠ .retain index) :
    (s.step move).claims[index]? = some (.retaining entry) := by
  cases move with
  -- A new claim comes behind the others.
  | claim current request =>
    rw [Companion.step]
    split
    · exact hclaim
    · rw [List.getElem?_append_left (List.getElem?_eq_some_iff.mp hclaim).1]
      exact hclaim
  -- A validation is of an armed claim, so of another one.
  | validate other current window =>
    rw [Companion.step]
    split
    next request hother =>
      split <;> exact getElem?_setClaim_of_ne hclaim hother (by simp)
    next => exact hclaim
  -- The turn of another claim.
  | retain other =>
    have hne : other ≠ index := fun heq => hmove (heq ▸ rfl)
    rw [Companion.step]
    split
    next entry' hother =>
      split
      · exact (List.getElem?_set_ne hne).trans hclaim
      · exact (List.getElem?_set_ne hne).trans hclaim
    next => exact hclaim
  -- What is dropped is an armed claim or one that leaves.
  | drop other =>
    rw [Companion.step]
    split
    next request hother => exact getElem?_setClaim_of_ne hclaim hother (by simp)
    next request hother => exact getElem?_setClaim_of_ne hclaim hother (by simp)
    next => exact hclaim
  | purgeStale current => exact hclaim

theorem retaining_run {index : Nat} {entry : DetachedGuiWindow W} {moves : List (Move W)}
    (hclaim : s.claims[index]? = some (.retaining entry))
    (hmoves : ∀ move ∈ moves, move ≠ .retain index) :
    (run Companion.step s moves).claims[index]? = some (.retaining entry) := by
  induction moves generalizing s with
  | nil => exact hclaim
  | cons move moves ih =>
    apply ih
    · exact retaining_step hclaim (hmoves move List.mem_cons_self)
    · exact fun later hlater => hmoves later (List.mem_cons_of_mem _ hlater)

/-- A window that answers for its identity passes the check of `retain`. -/
theorem validate_eq {index : Nat} {request : GuiStartRequest} {current : CurrentIdentity W}
    {window : W} {identity : WindowIdentity} (hclaim : s.claims[index]? = some (.armed request))
    (hcurrent : current window = some identity) :
    ∃ entry : DetachedGuiWindow W,
      entry.request = request ∧ entry.window = window ∧ entry.identity = identity ∧
        (s.step (.validate index current window)).claims[index]? = some (.retaining entry) := by
  refine ⟨⟨request, identity.1, identity.2, window⟩, rfl, rfl, rfl, ?_⟩
  have hi := (List.getElem?_eq_some_iff.mp hclaim).1
  rw [Companion.step, hclaim]
  simp [DetachedGuiWindow.new, hcurrent, Companion.setClaim, hi]

/-- In every run of any number of sessions, whatever their windows answer: the registry and its
    claims are in order; a claim returns only a window retained under an equal request whose
    identity is still the one it was retained with, and leaves the others; no retention serves two
    claims; a failed claim only removes stale entries; and an armed claim can always retain a window
    that answers for its identity, however the others move before it has the mutex: the window is
    then behind the others that are retained, and its request is no longer active. -/
theorem recovery_registry_is_sound (moves : List (Move W)) :
    let s := run Companion.step start moves
    Sound s ∧ s.handed.Subperm s.retained ∧
    (∀ current request window registry,
      s.registry.claim current request = (.ok (some window), registry) →
      ∃ entry ∈ s.registry.entries, entry.request = request ∧ entry.window = window ∧
        current window = some entry.identity ∧
        (entry :: registry.entries).Perm (s.registry.purgeStale current).entries) ∧
    (∀ current request registry, s.registry.claim current request = (.ok none, registry) →
      registry.entries = (s.registry.purgeStale current).entries) ∧
    (∀ current request message registry,
      s.registry.claim current request = (.error message, registry) →
      registry.activeRequests = s.registry.activeRequests ∧
      registry.entries = s.registry.entries.filter fun entry =>
        current entry.window == some entry.identity) ∧
    (∀ index request current window identity,
      s.claims[index]? = some (.armed request) → current window = some identity →
      ∃ entry : DetachedGuiWindow W,
        entry.request = request ∧ entry.window = window ∧ entry.identity = identity ∧
        ∀ later : List (Move W), (∀ move ∈ later, move ≠ .retain index) →
          let t := run Companion.step (s.step (.validate index current window)) later
          let after := t.step (.retain index)
          t.claims[index]? = some (.retaining entry) ∧
          t.registry.retainClaimed entry = (.ok (), after.registry) ∧
          after.registry.entries = t.registry.entries ++ [entry] ∧
          (entry.request :: after.registry.activeRequests).Perm t.registry.activeRequests ∧
          entry.request ∉ after.registry.activeRequests ∧
          after.claims[index]? = some .spent) := by
  have h : Sound (run Companion.step start moves) := sound_run moves
  -- Only soundness is needed of the run so far; the rest is about one call.
  generalize run Companion.step start moves = s at h
  refine ⟨h, ?_, ?_, ?_, ?_, ?_⟩
  -- A window that is handed out is one of those retained.
  · exact (List.sublist_append_left _ _).subperm.trans h.conserved
  -- A claim that returns a window returns an entry that survived the purge.
  · intro current request window registry hclaim
    rcases claim_cases current request s.registry with
      ⟨message, heq⟩ | ⟨entry, rest, hrequest, -, hperm, heq⟩ | ⟨-, -, -, heq⟩
    · rw [heq] at hclaim
      cases hclaim
    · rw [heq] at hclaim
      have hwindow : entry.window = window := by
        simpa using congrArg Prod.fst hclaim
      have hentry : entry ∈ (s.registry.purgeStale current).entries :=
        hperm.subset List.mem_cons_self
      have hregistry : rest = registry.entries :=
        congrArg DetachedGuiRegistry.entries (congrArg Prod.snd hclaim)
      refine ⟨entry, (entries_purgeStale_sublist current).subset hentry, hrequest, hwindow, ?_,
        hregistry ▸ hperm⟩
      -- What survives the purge answers for the identity it was retained with.
      rw [← hwindow]
      exact identity_of_mem_purgeStale hentry
    · rw [heq] at hclaim
      cases hclaim
  -- A claim that finds none has removed stale entries only.
  · intro current request registry hclaim
    rcases claim_cases current request s.registry with
      ⟨message, heq⟩ | ⟨entry, rest, -, -, -, heq⟩ | ⟨-, -, -, heq⟩
    · rw [heq] at hclaim
      cases hclaim
    · rw [heq] at hclaim
      cases hclaim
    · rw [heq] at hclaim
      exact (congrArg DetachedGuiRegistry.entries (congrArg Prod.snd hclaim)).symm
  -- So has a failed one, which leaves the active requests alone too.
  · intro current request message registry hclaim
    rcases claim_cases current request s.registry with
      ⟨reason, heq⟩ | ⟨entry, rest, -, -, -, heq⟩ | ⟨-, -, -, heq⟩
    · rw [heq] at hclaim
      cases hclaim
      exact ⟨rfl, rfl⟩
    · rw [heq] at hclaim
      cases hclaim
    · rw [heq] at hclaim
      cases hclaim
  -- An armed claim: after its validation no other move touches it.
  · intro index request current window identity hclaim hcurrent
    obtain ⟨entry, hrequest, hwindow, hidentity, hretaining⟩ := validate_eq hclaim hcurrent
    refine ⟨entry, hrequest, hwindow, hidentity, ?_⟩
    intro later hlater t
    have ht : t.claims[index]? = some (.retaining entry) := retaining_run hretaining hlater
    -- The registry is still sound when the claim gets the mutex.
    have hsound : Sound t :=
      run_invariant (fun _ move h _ => h.step move) (h.step _)
        (along_of_forall_mem fun _ _ => trivial)
    exact ⟨ht, hsound.retain_eq ht⟩

/-! ## A window that changes its session -/

/-- A program on the desktop of a user. -/
def viewerRequest : GuiStartRequest where
  userName := "ada"
  request := { kind := .run, argv := ["viewer.exe"], workingDirectory := none }
  environment := ⟨[]⟩
  mountLiveShare := false

/-- Another one. -/
def editorRequest : GuiStartRequest :=
  { viewerRequest with request := { kind := .run, argv := ["editor.exe"], workingDirectory := none } }

/-- Every window lives, as the only one of its process. -/
def livingWindows : CurrentIdentity Nat := fun window => some (UInt32.ofNat window, 1)

/-- Between the two halves of `retain`, another session claims a request of its own and is refused
    this one, and the windows are purged: the window is retained, and the next claim gets it. -/
theorem window_is_recovered :
    let moves : List (Move Nat) := [.claim livingWindows viewerRequest]
    let later : List (Move Nat) := [.claim livingWindows editorRequest,
      .claim livingWindows viewerRequest, .purgeStale livingWindows]
    let s := run Companion.step start moves
    let t := run Companion.step (s.step (.validate 0 livingWindows 7)) later
    (∃ entry : DetachedGuiWindow Nat, entry.request = viewerRequest ∧ entry.window = 7 ∧
      (t.step (.retain 0)).registry.entries = [entry]) ∧
    ((t.step (.retain 0)).registry.claim livingWindows viewerRequest).1 = .ok (some 7) := by
  obtain ⟨-, -, -, -, -, hretain⟩ :=
    recovery_registry_is_sound [.claim livingWindows viewerRequest]
  obtain ⟨entry, hrequest, hwindow, -, hlater⟩ :=
    hretain 0 viewerRequest livingWindows 7 (7, 1) rfl rfl
  obtain ⟨-, -, hentries, -⟩ := hlater [.claim livingWindows editorRequest,
    .claim livingWindows viewerRequest, .purgeStale livingWindows] (by simp)
  exact ⟨⟨entry, hrequest, hwindow, hentries⟩, rfl⟩

end Companion

end Lsw.Agent
