import Lsw.Cli.ManifestEdits
import Lsw.Core.ManifestChecks

/-!
# Published Ports

`--publish HOST:GUEST` names a port of the host, and `--publish auto:GUEST` leaves it to the system.
`resolve_port_forwards` asks the system for one port after the other and takes the first that is not
reserved and that no other request uses, in front of it or behind it.

Whatever the system answers, a port that it chose is never the reason for which a specification is
refused: the specification is valid with the resolved ports if and only if it is with the fixed ones
alone.
-/

namespace Lsw.Cli

open Lsw.Lib Lsw.Core

/-! ## Requests -/

/-- `PortForwardRequest`. -/
inductive PortForwardRequest where
  | fixed (forward : PortForward)
  | dynamic (guestPort : UInt16)
  deriving DecidableEq

namespace PortForwardRequest

/-- The port of the guest that is published. -/
def guestPort : PortForwardRequest → UInt16
  | fixed forward => forward.guestPort
  | dynamic port => port

/-- The ports of a fixed request. -/
def forward? : PortForwardRequest → Option PortForward
  | fixed forward => some forward
  | dynamic _ => none

end PortForwardRequest

/-- `parse_publish`. -/
def parsePublish (value : Str) : Except CliError PortForwardRequest := do
  let (host, guest) ← okOr (splitOnce ':' value)
    (.message [.text "--publish requires HOST:GUEST or auto:GUEST"])
  if host ≠ "auto".toList ∧ host ≠ "0".toList then
    return .fixed (← boxed (PortForward.fromStr value))
  let guestPort ← (parseU16 guest).mapError fun e =>
    CliError.message [.text "invalid guest port in ", .debug value, .text ": ", .text e]
  rejectIf (guestPort = 0)
    (.message [.text "published guest port must be between 1 and 65535"])
  return .dynamic guestPort

/-! ## Ports of the system -/

/-- What `TcpListener::bind(("127.0.0.1", 0))` and `local_addr` answer, one call after the other. -/
abbrev PortAnswers := Nat → Except String UInt16

/-- The condition under which `resolve_port_forwards` takes a port. -/
def isFreePort (control : UInt16) (fixedPorts : List UInt16) (resolved : List PortForward)
    (port : UInt16) : Bool :=
  port != control && !isReservedPort port && !fixedPorts.contains port &&
    resolved.all fun forward => forward.hostPort != port

/-- The loop of `resolve_port_forwards` that asks for a port; `calls` have been made before. -/
def selectPort (answers : PortAnswers) (isFree : UInt16 → Bool) (guestPort : UInt16) :
    Nat → Nat → Except CliError (Option PortForward × Nat)
  | 0, calls => return (none, calls)
  | rounds + 1, calls => do
    let hostPort ← (answers calls).mapError fun e => CliError.message [.text e]
    if isFree hostPort then
      let forward ← boxed (PortForward.new hostPort guestPort)
      return (some forward, calls + 1)
    else selectPort answers isFree guestPort rounds (calls + 1)

/-- One request in `resolve_port_forwards`; the state is what is resolved, and the calls made. -/
def resolveRequest (answers : PortAnswers) (control : UInt16) (fixedPorts : List UInt16)
    (state : List PortForward × Nat) :
    PortForwardRequest → Except CliError (List PortForward × Nat)
  | .fixed forward => return (state.1 ++ [forward], state.2)
  | .dynamic guestPort => do
    let (selected, calls) ←
      selectPort answers (isFreePort control fixedPorts state.1) guestPort 32 state.2
    let forward ← okOr selected
      (.message [.text "could not allocate a unique dynamic host port"])
    return (state.1 ++ [forward], calls)

/-- `fixed_host_ports`. -/
def fixedHostPorts (requests : List PortForwardRequest) : List UInt16 :=
  (requests.filterMap PortForwardRequest.forward?).map PortForward.hostPort

/-- `resolve_port_forwards`. -/
def resolvePortForwards (answers : PortAnswers) (requests : List PortForwardRequest) (name : Str) :
    Except CliError (List PortForward) := do
  let control ← boxed (controlPortForInstance name)
  let resolved ← forEach requests (resolveRequest answers control (fixedHostPorts requests)) ([], 0)
  return resolved.1

/-! ## One request -/

/-- What `InstanceSpec::validate` asks of a published port by itself. -/
def IsPublishable (forward : PortForward) : Prop :=
  PortForward.new forward.hostPort forward.guestPort = .ok forward ∧
    isReservedPort forward.hostPort = false

/-- What a request becomes, behind those that use the ports of `before`. -/
def Resolves (fixedPorts before : List UInt16) : PortForwardRequest → PortForward → Prop
  | .fixed asked, forward => forward = asked
  | .dynamic guestPort, forward => forward.guestPort = guestPort ∧ IsPublishable forward ∧
      forward.hostPort ∉ fixedPorts ∧ forward.hostPort ∉ before

theorem boxed_eq_ok {α : Type} {x : Result α} {a : α} : boxed x = .ok a ↔ x = .ok a := by
  cases x with
  | ok b => simp [boxed]
  | error e => simp [boxed]

/-- A port that is made keeps the numbers that it is made of. -/
theorem PortForward.eq_of_new {hostPort guestPort : UInt16} {forward : PortForward}
    (h : PortForward.new hostPort guestPort = .ok forward) : forward = ⟨hostPort, guestPort⟩ := by
  simp only [PortForward.new, bind_eq_ok, rejectIf_eq_ok, exists_const, pure_eq_ok_iff] at h
  obtain ⟨-, -, rfl⟩ := h
  rfl

namespace PortForwardRequest

/-- A request, as it is given to `--publish`. -/
def text : PortForwardRequest → Str
  | fixed forward => forward.text
  | dynamic port => "auto:".toList ++ decimal port.toNat

theorem text_fixed (forward : PortForward) : (fixed forward).text = forward.text := rfl

/-- The ports that are asked for are ports. -/
def HasPorts : PortForwardRequest → Prop
  | fixed forward => PortForward.new forward.hostPort forward.guestPort = .ok forward
  | dynamic port => port ≠ 0

/-- A port of the host that is asked for is neither word that stands for any port. -/
theorem decimal_hostPort_ne {forward : PortForward}
    (h : PortForward.new forward.hostPort forward.guestPort = .ok forward) :
    decimal forward.hostPort.toNat ≠ "auto".toList ∧ decimal forward.hostPort.toNat ≠ "0".toList := by
  constructor
  · intro heq
    have hletter : 'a' ∉ decimal forward.hostPort.toNat := not_mem_decimal (by decide)
    rw [heq] at hletter
    exact hletter (by decide)
  · intro heq
    have hzero : forward.hostPort = 0 := UInt16.toNat.inj (decimal_injective heq)
    simp only [PortForward.new, bind_eq_ok, rejectIf_eq_ok, hzero, not_true_eq_false, false_and,
      exists_false] at h

/-- What is asked for is read off its text. -/
theorem parsePublish_text {request : PortForwardRequest} (h : request.HasPorts) :
    parsePublish request.text = .ok request := by
  cases request with
  | fixed forward =>
    obtain ⟨hauto, hzero⟩ := decimal_hostPort_ne h
    have hread := PortForward.fromStr_text h
    have hsplit : splitOnce ':' forward.text =
        some (decimal forward.hostPort.toNat, decimal forward.guestPort.toNat) :=
      splitOnce_append (not_mem_decimal (by decide)) _
    rw [text_fixed, parsePublish, hsplit, okOr_some, ok_bind]
    dsimp only
    rw [if_pos ⟨hauto, hzero⟩, hread]
    rfl
  | dynamic port =>
    have hsplit : splitOnce ':' (text (.dynamic port)) =
        some ("auto".toList, decimal port.toNat) :=
      @splitOnce_append ':' "auto".toList (by decide) _
    rw [parsePublish, hsplit, okOr_some, ok_bind]
    dsimp only
    rw [if_neg (by simp), parseU16_decimal, mapError_eq_ok.mpr rfl, ok_bind, rejectIf_of_not _ h,
      ok_bind]
    rfl

/-- What is accepted names ports. -/
theorem hasPorts_of_parsePublish {value : Str} {request : PortForwardRequest}
    (h : parsePublish value = .ok request) : request.HasPorts := by
  simp only [parsePublish, bind_eq_ok, okOr_eq_ok] at h
  obtain ⟨⟨host, guest⟩, -, h⟩ := h
  split at h
  · -- A port of the host was named.
    simp only [bind_eq_ok, boxed_eq_ok, pure_eq_ok_iff] at h
    obtain ⟨forward, hread, rfl⟩ := h
    simp only [PortForward.fromStr, bind_eq_ok] at hread
    obtain ⟨-, -, -, -, hostPort, -, guestPort, -, hnew⟩ := hread
    obtain rfl := PortForward.eq_of_new hnew
    exact hnew
  · simp only [bind_eq_ok, rejectIf_eq_ok, pure_eq_ok_iff] at h
    obtain ⟨guestPort, -, -, hne, rfl⟩ := h
    exact hne

/-- Exactly the requests that name ports can be asked for. -/
theorem exists_parsePublish_iff (request : PortForwardRequest) :
    (∃ value, parsePublish value = .ok request) ↔ request.HasPorts :=
  ⟨fun ⟨_, h⟩ => hasPorts_of_parsePublish h, fun h => ⟨request.text, parsePublish_text h⟩⟩

end PortForwardRequest

/-- The port that the loop selects was free, and can be published. -/
theorem selectPort_some {answers : PortAnswers} {isFree : UInt16 → Bool} {guestPort : UInt16}
    {rounds calls after : Nat} {forward : PortForward}
    (h : selectPort answers isFree guestPort rounds calls = .ok (some forward, after)) :
    isFree forward.hostPort = true ∧ forward.guestPort = guestPort ∧
      PortForward.new forward.hostPort forward.guestPort = .ok forward := by
  induction rounds generalizing calls with
  | zero => simp [selectPort, pure, Except.pure] at h
  | succ rounds ih =>
    simp only [selectPort, bind_eq_ok] at h
    obtain ⟨hostPort, -, h⟩ := h
    by_cases hfree : isFree hostPort = true
    · rw [if_pos hfree, bind_eq_ok] at h
      obtain ⟨made, hmade, h⟩ := h
      rw [boxed_eq_ok] at hmade
      simp only [pure_eq_ok_iff, Prod.mk.injEq, Option.some.injEq] at h
      obtain ⟨rfl, -⟩ := h
      obtain rfl := PortForward.eq_of_new hmade
      exact ⟨hfree, rfl, hmade⟩
    · rw [if_neg hfree] at h
      exact ih h

/-- One step of the loop over the requests. -/
theorem resolveRequest_eq_ok {answers : PortAnswers} {control : UInt16} {fixedPorts : List UInt16}
    {state after : List PortForward × Nat} {request : PortForwardRequest}
    (h : resolveRequest answers control fixedPorts state request = .ok after) :
    ∃ forward, after.1 = state.1 ++ [forward] ∧
      Resolves fixedPorts (state.1.map PortForward.hostPort) request forward := by
  cases request with
  | fixed asked =>
    simp only [resolveRequest, pure_eq_ok_iff] at h
    exact ⟨asked, by rw [← h], rfl⟩
  | dynamic guestPort =>
    simp only [resolveRequest, bind_eq_ok, okOr_eq_ok, pure_eq_ok_iff] at h
    obtain ⟨⟨selected, calls⟩, hselect, forward, rfl, rfl⟩ := h
    obtain ⟨hfree, hguest, hnew⟩ := selectPort_some hselect
    simp only [isFreePort, Bool.and_eq_true, Bool.not_eq_true', bne_iff_ne, List.all_eq_true] at hfree
    obtain ⟨⟨⟨-, hreserved⟩, hfixed⟩, hbefore⟩ := hfree
    refine ⟨forward, rfl, hguest, ⟨hnew, hreserved⟩, ?_, ?_⟩
    · intro hmem
      rw [List.contains_iff_mem.mpr hmem] at hfixed
      cases hfixed
    · intro hmem
      obtain ⟨other, hother, hport⟩ := List.mem_map.mp hmem
      exact hbefore other hother hport

/-! ## All requests -/

/-- What a list of requests becomes; each avoids the ports of those in front of it. -/
inductive AllResolve (fixedPorts : List UInt16) :
    List UInt16 → List PortForwardRequest → List PortForward → Prop where
  | nil {before} : AllResolve fixedPorts before [] []
  | cons {before request forward requests forwards} :
      Resolves fixedPorts before request forward →
      AllResolve fixedPorts (before ++ [forward.hostPort]) requests forwards →
      AllResolve fixedPorts before (request :: requests) (forward :: forwards)

/-- The run of the loop, from any state. -/
theorem allResolve_of_forEach {answers : PortAnswers} {control : UInt16} {fixedPorts : List UInt16}
    {requests : List PortForwardRequest} {state out : List PortForward × Nat}
    (h : forEach requests (resolveRequest answers control fixedPorts) state = .ok out) :
    ∃ forwards, out.1 = state.1 ++ forwards ∧
      AllResolve fixedPorts (state.1.map PortForward.hostPort) requests forwards := by
  induction requests generalizing state with
  | nil =>
    rw [forEach_nil, Except.ok.injEq] at h
    exact ⟨[], by rw [h, List.append_nil], .nil⟩
  | cons request requests ih =>
    rw [forEach_cons, bind_eq_ok] at h
    obtain ⟨next, hnext, hrest⟩ := h
    obtain ⟨forward, hstate, hresolves⟩ := resolveRequest_eq_ok hnext
    obtain ⟨forwards, hout, hall⟩ := ih hrest
    rw [hstate, List.map_append, List.map_singleton] at hall
    refine ⟨forward :: forwards, ?_, .cons hresolves hall⟩
    rw [hout, hstate, List.append_assoc, List.singleton_append]

section Resolved

variable {fixedPorts before : List UInt16} {requests : List PortForwardRequest}
  {forwards : List PortForward}

/-- The ports of the guest stay as they are, in their order. -/
theorem AllResolve.guestPorts (h : AllResolve fixedPorts before requests forwards) :
    forwards.map PortForward.guestPort = requests.map PortForwardRequest.guestPort := by
  induction h with
  | nil => rfl
  | @cons before request forward requests forwards hresolves _ ih =>
    have hguest : forward.guestPort = request.guestPort := by
      cases request with
      | fixed asked => exact congrArg PortForward.guestPort hresolves
      | dynamic port => exact hresolves.1
    rw [List.map_cons, List.map_cons, hguest, ih]

/-- Fixed requests stay as they are, at their places. -/
theorem AllResolve.fixed (h : AllResolve fixedPorts before requests forwards) :
    List.Forall₂ (fun request forward => ∀ asked, request = .fixed asked → forward = asked)
      requests forwards := by
  induction h with
  | nil => exact .nil
  | cons hresolves _ ih =>
    refine .cons ?_ ih
    rintro asked rfl
    exact hresolves

/-- A port that was used before can only be that of a fixed request. -/
theorem AllResolve.mem_iff (h : AllResolve fixedPorts before requests forwards) {port : UInt16}
    (hport : port ∈ before) :
    port ∈ forwards.map PortForward.hostPort ↔ port ∈ fixedHostPorts requests := by
  induction h with
  | nil => rfl
  | @cons before request forward requests forwards hresolves _ ih =>
    have hrest := ih (List.mem_append_left _ hport)
    rw [List.map_cons, List.mem_cons, hrest]
    cases request with
    | fixed asked =>
      obtain rfl : forward = asked := hresolves
      simp [fixedHostPorts, PortForwardRequest.forward?]
    | dynamic guestPort =>
      have hne : port ≠ forward.hostPort := fun heq => hresolves.2.2.2 (heq ▸ hport)
      simp [fixedHostPorts, PortForwardRequest.forward?, hne]

/-- No port is used twice, unless it is asked for twice. -/
theorem AllResolve.nodup_iff (h : AllResolve fixedPorts before requests forwards)
    (hfixed : ∀ port ∈ fixedHostPorts requests, port ∈ fixedPorts) :
    (forwards.map PortForward.hostPort).Nodup ↔ (fixedHostPorts requests).Nodup := by
  induction h with
  | nil => simp [fixedHostPorts]
  | @cons before request forward requests forwards hresolves hrest ih =>
    have hmem := hrest.mem_iff (List.mem_append_right before List.mem_cons_self)
    rw [List.map_cons, List.nodup_cons, hmem]
    cases request with
    | fixed asked =>
      obtain rfl : forward = asked := hresolves
      have hports : fixedHostPorts (.fixed forward :: requests) =
          forward.hostPort :: fixedHostPorts requests := rfl
      rw [hports] at hfixed ⊢
      rw [List.nodup_cons, ih fun port hport => hfixed port (List.mem_cons_of_mem _ hport)]
    | dynamic guestPort =>
      have hports : fixedHostPorts (.dynamic guestPort :: requests) = fixedHostPorts requests := rfl
      rw [hports] at hfixed ⊢
      -- The fixed ports behind it are among those that the chosen port avoids.
      have hfree : forward.hostPort ∉ fixedHostPorts requests := fun hport =>
        hresolves.2.2.1 (hfixed _ hport)
      rw [ih hfixed]
      exact and_iff_right hfree

/-- A chosen port can always be published. -/
theorem AllResolve.publishable_iff (h : AllResolve fixedPorts before requests forwards) :
    (∀ forward ∈ forwards, IsPublishable forward) ↔
      ∀ forward ∈ requests.filterMap PortForwardRequest.forward?, IsPublishable forward := by
  induction h with
  | nil => simp
  | @cons before request forward requests forwards hresolves _ ih =>
    rw [List.forall_mem_cons, ih]
    cases request with
    | fixed asked =>
      obtain rfl : forward = asked := hresolves
      have hforwards : (PortForwardRequest.fixed forward :: requests).filterMap
          PortForwardRequest.forward? =
            forward :: requests.filterMap PortForwardRequest.forward? := rfl
      rw [hforwards, List.forall_mem_cons]
    | dynamic guestPort =>
      exact and_iff_right hresolves.2.1

end Resolved

/-! ## Validity -/

/-- The check of the published ports by itself. -/
theorem validateForwards_iff (forwards : List PortForward) :
    (∃ out, forEach forwards validateForward [] = .ok out) ↔
      (∀ forward ∈ forwards, IsPublishable forward) ∧
        (forwards.map PortForward.hostPort).Nodup := by
  constructor
  · rintro ⟨out, h⟩
    obtain ⟨hout, hpublishable, hnodup⟩ :=
      forEach_collect (fun _ _ _ hstep => validateForward_eq_ok hstep) h List.Pairwise.nil
    rw [hout] at hnodup
    exact ⟨hpublishable, hnodup⟩
  · rintro ⟨hpublishable, hnodup⟩
    have hbody : ∀ (seen : List UInt16) (forward : PortForward), IsPublishable forward →
        (∀ port ∈ seen, port ≠ forward.hostPort) →
          validateForward seen forward = .ok (seen ++ [forward.hostPort]) := by
      rintro seen forward ⟨hnew, hreserved⟩ hseen
      have hfresh : ¬ forward.hostPort ∈ seen := fun hmem => hseen _ hmem rfl
      rw [validateForward, hnew, ok_bind, hreserved, rejectIf_of_not _ (by simp), ok_bind,
        rejectIf_of_not _ hfresh, ok_bind]
      rfl
    exact ⟨_, forEach_collect_eq_ok hbody hpublishable hnodup⟩

/-- The published ports of a specification are checked apart from the rest of it. -/
theorem validate_iff {spec : InstanceSpec} (hnetwork : spec.network ≠ .offline)
    (forwards : List PortForward) :
    { spec with portForwards := forwards }.validate = .ok () ↔
      { spec with portForwards := [] }.validate = .ok () ∧
        (∀ forward ∈ forwards, IsPublishable forward) ∧
          (forwards.map PortForward.hostPort).Nodup := by
  rw [← validateForwards_iff]
  simp only [InstanceSpec.validate, bind_eq_ok, rejectIf_eq_ok, exists_const, hnetwork, false_and,
    not_false_eq_true, true_and, forEach_nil, validateRequirements]
  constructor
  · rintro ⟨⟨⟩, hname, ⟨⟩, hiso, out, hout, hrest⟩
    exact ⟨⟨(), hname, (), hiso, [], rfl, hrest⟩, out, hout⟩
  · rintro ⟨⟨⟨⟩, hname, ⟨⟩, hiso, -, -, hrest⟩, out, hout⟩
    exact ⟨(), hname, (), hiso, out, hout, hrest⟩

/-- Ports that the system chose are never refused: with what the requests become, a specification is
    valid if and only if it is with the fixed ports alone; and guest ports and fixed requests stay
    as they are. -/
theorem chosen_ports_are_never_refused (answers : PortAnswers) (requests : List PortForwardRequest)
    (name : Str) (resolved : List PortForward)
    (h : resolvePortForwards answers requests name = .ok resolved) (spec : InstanceSpec)
    (hnetwork : spec.network ≠ .offline) :
    resolved.map PortForward.guestPort = requests.map PortForwardRequest.guestPort ∧
      List.Forall₂ (fun request forward => ∀ asked, request = .fixed asked → forward = asked)
        requests resolved ∧
      ({ spec with portForwards := resolved }.validate = .ok () ↔
        { spec with portForwards := requests.filterMap PortForwardRequest.forward? }.validate =
          .ok ()) := by
  simp only [resolvePortForwards, bind_eq_ok, pure_eq_ok_iff] at h
  obtain ⟨control, -, out, hloop, rfl⟩ := h
  obtain ⟨forwards, hout, hall⟩ := allResolve_of_forEach hloop
  rw [List.nil_append] at hout
  rw [hout]
  refine ⟨hall.guestPorts, hall.fixed, ?_⟩
  rw [validate_iff hnetwork forwards, validate_iff hnetwork (requests.filterMap _),
    hall.publishable_iff, hall.nodup_iff fun _ hport => hport]
  rfl

/-! ## A system that answers with one port again and again -/

/-- A host that offers a used port, a reserved one, and then others. -/
def busyAnswers : PortAnswers
  | 0 => .ok 8080
  | 1 => .ok 42001
  | calls => .ok (UInt16.ofNat (50000 + calls / 2))

/-- Two chosen ports around a fixed one. -/
def demoRequests : List PortForwardRequest :=
  [.dynamic 22, .fixed ⟨8080, 80⟩, .dynamic 443]

/-- A specification with ports that the system chose. -/
def demoSpec : InstanceSpec where
  name := "demo".toList
  sourceIso := .ofStr "/iso/windows.iso".toList
  profile := .slim
  cpus := 2
  memoryMib := 4096
  diskGib := 64
  network := .nat
  portForwards := []
  licenseAccepted := true
  allowUnsupportedRequirements := false

/-- The ports of the busy host are passed over until one is free. -/
theorem busy_ports_are_passed_over :
    { demoSpec with portForwards := [⟨50001, 22⟩, ⟨8080, 80⟩, ⟨50002, 443⟩] }.validate = .ok () :=
  (chosen_ports_are_never_refused busyAnswers demoRequests "demo".toList
    [⟨50001, 22⟩, ⟨8080, 80⟩, ⟨50002, 443⟩] rfl demoSpec (by decide)).2.2.mpr rfl

end Lsw.Cli
