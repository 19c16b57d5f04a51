import Lsw.Core.Qemu
import Lsw.Core.StoreFaults
import Lsw.Lib.Traced

/-!
# The Identity of an Instance

The host and the guest agent of an instance share a token.  The host keeps it beside the manifest;
the guest reads it from its own disk, or from the identity seed, a small volume that is attached in
the run phase (`image.rs`, `qemu.rs`, `server.rs`).  A token is changed in two files, the seed's and
the host's, and the guest takes it over at its next boot.

Any write of the host may fail, and the process of the host may stop before it or within it.  A
write that goes through a temporary file takes place or does not; one into a new file may leave a
part.  `Paired` is that the guest will require the token that the host has, and `Lasting` the
condition on a step that keeps it so.
-/

namespace Lsw.Core.InstanceIdentity

open Lsw.Lib

/-! ## Files -/

/-- The files of `identity-seed/lsw`. -/
structure IdentitySeed where
  marker : Option Str := none
  name : Option Str := none
  token : Option Str := none
  deriving DecidableEq

/-- An instance, as far as its identity goes. -/
structure Instance where
  /-- The state in the manifest, if this is there. -/
  state : Option InstanceState
  /-- `AGENT_TOKEN_FILE`. -/
  token : Option Str
  seed : Option IdentitySeed := none
  /-- The token file of the agent, if there is a system disk. -/
  guestToken : Option Str := none
  deriving DecidableEq

/-- `token.len() == 64` and every byte a hexadecimal digit that is no capital. -/
def isToken (token : Str) : Bool :=
  (bytes token).length == 64 && (bytes token).all StateStore.isLowerHexDigit

/-- `read_token` of the agent and `read_agent_token` of the host, of the contents of a file. -/
def readToken (contents : Option Str) : Option Str :=
  contents.bind fun text => if isToken (trim text) then some (trim text) else none

/-- A token with its line end, as it is written. -/
def tokenLine (token : Str) : Str := token ++ ['\n']

def markerText : Str := "LSW-CLONE-IDENTITY".toList

/-! ## The guest -/

/-- `find_clone_identity` takes the volume. -/
def IdentitySeed.isMarked (seed : IdentitySeed) : Bool := seed.marker.any (trim · == markerText)

/-- The name on the volume is valid. -/
def IdentitySeed.isNamed (seed : IdentitySeed) : Bool :=
  seed.name.any fun text => isName 63 (trim text)

/-- The token that `apply_clone_identity_at` takes from the volume. -/
def IdentitySeed.identity (seed : IdentitySeed) : Option Str :=
  if seed.isNamed then readToken seed.token else none

/-- The token that the agent requires after the next boot in the run phase; there is none if the
    agent does not start. -/
def Instance.nextToken (inst : Instance) : Option Str :=
  match inst.seed with
  | some seed => if seed.isMarked then seed.identity else readToken inst.guestToken
  | none => readToken inst.guestToken

/-- A boot of an instance that has a disk.  The install phase does not attach the seed; in the run
    phase the agent replaces its token file by the identity, unless the replacement fails. -/
def Instance.boot (phase : LaunchPhase) (replaced : Bool) (inst : Instance) : Instance :=
  match phase, inst.seed with
  | .run, some seed =>
    if seed.isMarked ∧ replaced ∧ inst.guestToken.isSome then
      match seed.identity with
      | some token => { inst with guestToken := some (tokenLine token) }
      | none => inst
    else inst
  | _, _ => inst

/-! ## The host -/

/-- The steps of the host. -/
inductive HostStep where
  /-- `store.create`. -/
  | create
  /-- The directories `run` and `swtpm-state`. -/
  | directories
  | copyFirmware
  | canonicalize
  /-- `qemu-img create` of the overlay. -/
  | overlay
  | protectOverlay
  | seedDirectory
  | marker
  | name
  | seedToken
  /-- `store.remove` after an error. -/
  | remove
  /-- `generate_agent_token`. -/
  | generate
  | hostToken
  | rollBack
  deriving DecidableEq, Repr

/-- How a step goes.  One that fails, or in which the process stops, may have written a part of a
    new file. -/
inductive Course where
  | works
  | fails (written : Option Nat)
  | stops (written : Option Nat)
  deriving DecidableEq, Repr

/-- What a call does not decide. -/
structure CallEnv where
  course : HostStep → Course
  random : Vector UInt8 32
  /-- `store.instance_dir(name)`. -/
  directory : PathBuf
  /-- What a creation that does not come to its end leaves: nothing, or a directory with the files
      that are there. -/
  residue : Option (Option InstanceState × Option Str) := none

/-- The instance that a name stands for, and whether the process of the host has stopped. -/
structure World where
  found : Option Instance
  stopped : Bool := false
  deriving DecidableEq

/-- A call of the host. -/
abbrev Call := Traced World Empty LswError

namespace Call

variable (env : CallEnv)

/-- A step that changes the instance, by the part that it has written if it does not come to its
    end. -/
def step (which : HostStep) (change : Instance → Instance)
    (part : Option Nat → Instance → Instance) : Call Unit :=
  match env.course which with
  | .works => Traced.modify fun world => { world with found := world.found.map change }
  | .fails written => do
    Traced.modify fun world => { world with found := world.found.map (part written) }
    Traced.fail .io
  | .stops written => do
    Traced.modify fun world =>
      { found := world.found.map (part written), stopped := true }
    Traced.fail .io

/-- A step that changes no file of the identity. -/
def other (which : HostStep) : Call Unit := step env which id fun _ => id

/-- `write_atomic`. -/
def writeAtomic (which : HostStep) (change : Instance → Instance) : Call Unit :=
  step env which change fun _ => id

/-- `write_new_private`. -/
def writeNewPrivate (which : HostStep) (file : Instance → Option Str)
    (change : Option Str → Instance → Instance) (contents : Str) : Call Unit := do
  if ← Traced.read fun world => (world.found.bind file).isSome then Traced.fail .io
  else step env which (change (some contents)) fun written => change (written.map contents.take)

/-- Another call is made when one fails, unless the process has stopped.  Its own errors are
    dropped. -/
def orElse (x : Call Unit) (cleanUp : Call Unit) : Call Unit := do
  match ← Traced.attempt (fun _ => false) x with
  | .ok () => return ()
  | .error error =>
    if ← Traced.read World.stopped then Traced.fail error
    else
      let _ ← Traced.attempt (fun _ => false) cleanUp
      Traced.fail error

/-- Change a file of the seed. -/
def onSeed (f : IdentitySeed → IdentitySeed) (inst : Instance) : Instance :=
  { inst with seed := inst.seed.map f }

/-- There is a seed, which keeps its files. -/
def withSeed (inst : Instance) : Instance := { inst with seed := some (inst.seed.getD {}) }

/-- `create_private_directory_all` of `identity-seed/lsw`. -/
def createSeedDirectory : Call Unit :=
  step env .seedDirectory withSeed fun written => if written.isSome then withSeed else id

/-- `read_agent_token`. -/
def readAgentToken (name : Str) : Call Str := do
  match ← Traced.read World.found with
  | none => Traced.fail (.instanceNotFound name)
  | some inst =>
    match readToken inst.token with
    | some token => return token
    | none => Traced.fail (.invalidValue "agent token"
        [.text "must contain 64 lowercase hexadecimal characters"])

/-- `stage_identity`. -/
def stageIdentity (name token : Str) : Call Unit := do
  createSeedDirectory env
  writeAtomic env .marker (onSeed fun seed => { seed with marker := some (tokenLine markerText) })
  writeAtomic env .name (onSeed fun seed => { seed with name := some (tokenLine name) })
  writeAtomic env .seedToken (onSeed fun seed => { seed with token := some (tokenLine token) })

/-- The states in which an identity may be staged. -/
def stagingStates : List InstanceState := [.configured, .stopped, .hibernated]

/-- `require_identity_staging_state`. -/
def requireIdentityStagingState (name : Str) : Call Unit := do
  Traced.ofExcept (validateInstanceName name)
  match ← Traced.read fun world => world.found.bind Instance.state with
  | none => Traced.fail (.instanceNotFound name)
  | some state =>
    if state ∈ stagingStates then return ()
    else Traced.fail (.invalidValue "instance state"
      [.text "identity staging requires a configured, stopped, or hibernated instance"])

/-- `stage_instance_identity`. -/
def stageInstanceIdentity (name : Str) : Call Unit := do
  requireIdentityStagingState name
  let token ← readAgentToken name
  stageIdentity env name token

/-- `rotate_instance_identity`. -/
def rotateInstanceIdentity (name : Str) : Call Unit := do
  requireIdentityStagingState name
  let previous ← readAgentToken name
  other env .generate
  let token := Creation.hexEncode env.random.toList
  stageIdentity env name token
  orElse
    (writeAtomic env .hostToken fun inst => { inst with token := some (tokenLine token) })
    (writeAtomic env .rollBack
      (onSeed fun seed => { seed with token := some (tokenLine previous) }))

/-- `write_clone_identity`. -/
def writeCloneIdentity (name : Str) : Call Unit := do
  createSeedDirectory env
  writeNewPrivate env .marker (fun inst => inst.seed.bind IdentitySeed.marker)
    (fun contents => onSeed fun seed => { seed with marker := contents }) (tokenLine markerText)
  writeNewPrivate env .name (fun inst => inst.seed.bind IdentitySeed.name)
    (fun contents => onSeed fun seed => { seed with name := contents }) (tokenLine name)
  let token ← readAgentToken name
  writeNewPrivate env .seedToken (fun inst => inst.seed.bind IdentitySeed.token)
    (fun contents => onSeed fun seed => { seed with token := contents }) (tokenLine token)

/-- The instance that `StateStore::create` makes of the manifest of a clone. -/
def created : Instance where
  state := some .stopped
  token := some (tokenLine (Creation.hexEncode env.random.toList))

/-- What is left of a creation that does not come to its end. -/
def left : Option Instance := env.residue.map fun (state, token) => { state, token }

/-- `StateStore::create`. -/
def create (name : Str) : Call Unit := do
  Traced.ofExcept (validateInstanceName name)
  if ← Traced.read fun world => world.found.isSome then
    Traced.fail (.instanceAlreadyExists env.directory)
  else
    match env.course .create with
    | .works => Traced.modify fun world => { world with found := some (created env) }
    | .fails _ => do
      Traced.modify fun world => { world with found := left env }
      Traced.fail .io
    | .stops _ => do
      Traced.modify fun _ => { found := left env, stopped := true }
      Traced.fail .io

/-- `store.remove`. -/
def remove : Call Unit :=
  match env.course .remove with
  | .works => Traced.modify fun world => { world with found := none }
  | .fails _ => Traced.fail .io
  | .stops _ => do
    Traced.modify fun world => { world with stopped := true }
    Traced.fail .io

/-- `clone_instance`.  The source and its image are found in order, and then the disk of the clone
    has the token of the image; or they are not. -/
def cloneInstance (name : Str) (image : Result Str) : Call Unit := do
  let guestToken ← Traced.ofExcept image
  create env name
  orElse
    (do
      other env .directories
      other env .copyFirmware
      other env .canonicalize
      writeAtomic env .overlay fun inst => { inst with guestToken := some guestToken }
      other env .protectOverlay
      writeCloneIdentity env name)
    (remove env)

end Call

/-! ## Steps -/

/-- What may happen to an instance. -/
inductive Event where
  | clone (env : CallEnv) (image : Result Str)
  | stage (env : CallEnv)
  | rotate (env : CallEnv)
  | boot (phase : LaunchPhase) (replaced : Bool)
  /-- The state in the manifest is changed by the supervisor. -/
  | become (state : InstanceState)

/-- One step.  After a call another process of the host goes on. -/
def next (name : Str) (found : Option Instance) : Event → Option Instance
  | .clone env image => (Call.cloneInstance env name image ⟨found, false⟩).state.found
  | .stage env => (Call.stageInstanceIdentity env name ⟨found, false⟩).state.found
  | .rotate env => (Call.rotateInstanceIdentity env name ⟨found, false⟩).state.found
  | .boot phase replaced => found.map (Instance.boot phase replaced)
  | .become state => found.map fun inst =>
    { inst with state := inst.state.map fun _ => state }

/-! ## What is to last -/

/-- If the instance has a disk, then the host has a token, and it is the one that the agent will
    require after its next boot. -/
def Paired (found : Option Instance) : Prop :=
  ∀ inst ∈ found, inst.guestToken.isSome →
    inst.nextToken.isSome ∧ inst.nextToken = readToken inst.token

namespace CallEnv

/-- The steps work. -/
def Works (env : CallEnv) (steps : List HostStep) : Prop := ∀ step ∈ steps, env.course step = .works

/-- The step fails, and the process goes on. -/
def Fails (env : CallEnv) (step : HostStep) : Prop := ∃ written, env.course step = .fails written

instance (env : CallEnv) (steps : List HostStep) : Decidable (env.Works steps) := by
  unfold Works
  infer_instance

instance (env : CallEnv) (step : HostStep) : Decidable (env.Fails step) :=
  match h : env.course step with
  | .works => isFalse fun ⟨_, hfails⟩ => by cases h.symm.trans hfails
  | .fails written => isTrue ⟨written, h⟩
  | .stops _ => isFalse fun ⟨_, hfails⟩ => by cases h.symm.trans hfails

end CallEnv

/-- A call may stage an identity for this instance. -/
def Admits (name : Str) (found : Option Instance) : Prop :=
  isName 63 name = true ∧ ∃ inst ∈ found, (∃ state ∈ inst.state, state ∈ Call.stagingStates) ∧
    (readToken inst.token).isSome

/-- The seed names the instance and has the token of the host. -/
def Identified (found : Option Instance) : Prop :=
  ∃ inst ∈ found, ∃ seed ∈ inst.seed, seed.isNamed = true ∧
    readToken seed.token = readToken inst.token

/-- The steps of `stage_identity` leave a seed with a marker only if they write all of it, or if it
    had all before. -/
def StagesWhole (env : CallEnv) (found : Option Instance) : Prop :=
  env.Works [.seedDirectory, .marker] → env.Works [.name, .seedToken] ∨ Identified found

/-- The steps up to the point where a clone has a disk. -/
def diskSteps : List HostStep := [.create, .directories, .copyFirmware, .canonicalize, .overlay]

/-- The steps from there to the end of the clone's identity. -/
def identitySteps : List HostStep := [.protectOverlay, .seedDirectory, .marker, .name, .seedToken]

/-- What keeps the two sides paired.  When a step that gives a clone with a disk its identity does
    not work, it fails without a stop of the process, and the clone is removed again.  A seed is
    staged as a whole, or was whole before.  When the seed has a new token, the host gets it as
    well, or the seed gets back the old one. -/
def Lasting (name : Str) (found : Option Instance) : Event → Prop
  | .clone env image =>
    isName 63 name = true → found = none → image.isOk → env.Works diskSteps →
      ∀ step, identitySteps.find? (fun step => env.course step ≠ .works) = some step →
        env.Fails step ∧ env.Works [.remove]
  | .stage env => Admits name found → StagesWhole env found
  | .rotate env => Admits name found → env.Works [.generate] →
    StagesWhole env found ∧
      (env.Works [.seedDirectory, .marker, .name, .seedToken] →
        env.Works [.hostToken] ∨ env.Fails .hostToken ∧ env.Works [.rollBack])
  | .boot _ _ => True
  | .become _ => True

/-! ## Texts -/

theorem isAsciiGraphic_of_isLowerHexDigit {b : UInt8} (h : StateStore.isLowerHexDigit b = true) :
    isAsciiGraphic b = true := by
  simp only [StateStore.isLowerHexDigit, isAsciiGraphic, Bool.or_eq_true, Bool.and_eq_true,
    decide_eq_true_eq, UInt8.le_iff_toNat_le] at h ⊢
  simp at h ⊢
  omega

theorem isAsciiGraphic_of_isNameByte {b : UInt8} (h : isNameByte b = true) :
    isAsciiGraphic b = true := by
  simp only [isNameByte, isAsciiGraphic, Bool.or_eq_true, Bool.and_eq_true, beq_iff_eq,
    decide_eq_true_eq, UInt8.le_iff_toNat_le, ← UInt8.toNat_inj] at h ⊢
  simp at h ⊢
  omega

theorem trim_tokenLine {token : Str} (h : isToken token = true) :
    trim (tokenLine token) = token := by
  have hdigits := (Bool.and_eq_true_iff.mp h).2
  have hgraphic : (bytes token).all isAsciiGraphic = true :=
    List.all_eq_true.mpr fun b hb =>
      isAsciiGraphic_of_isLowerHexDigit (List.all_eq_true.mp hdigits b hb)
  exact trim_append_newline hgraphic

/-- What was written is read. -/
theorem readToken_tokenLine {token : Str} (h : isToken token = true) :
    readToken (some (tokenLine token)) = some token := by
  simp only [readToken, Option.bind_some, trim_tokenLine h, h, if_true]

/-- What is read is a token. -/
theorem isToken_of_readToken {contents : Option Str} {token : Str}
    (h : readToken contents = some token) : isToken token = true := by
  obtain ⟨text, -, htext⟩ := Option.bind_eq_some_iff.mp h
  split at htext
  · next htoken =>
    cases htext
    exact htoken
  · cases htext

theorem trim_name {name : Str} (h : isName 63 name = true) : trim (tokenLine name) = name := by
  apply trim_append_newline
  have hbytes := (Bool.and_eq_true_iff.mp (Bool.and_eq_true_iff.mp h).1).2
  exact List.all_eq_true.mpr fun b hb =>
    isAsciiGraphic_of_isNameByte (List.all_eq_true.mp hbytes b hb)

theorem utf8EncodeChar_digitChar {n : Nat} (h : n < 16) :
    ∃ b, String.utf8EncodeChar (Nat.digitChar n) = [b] ∧ StateStore.isLowerHexDigit b = true := by
  have hall : ∀ n < 16, (String.utf8EncodeChar (Nat.digitChar n)).length = 1 ∧
      (String.utf8EncodeChar (Nat.digitChar n)).all StateStore.isLowerHexDigit = true := by decide
  obtain ⟨hlength, hdigit⟩ := hall n h
  obtain ⟨b, hb⟩ := List.length_eq_one_iff.mp hlength
  exact ⟨b, hb, by simpa [hb] using hdigit⟩

/-- Hexadecimal text has two digits for each byte. -/
theorem bytes_hexEncode (random : List UInt8) :
    (bytes (Creation.hexEncode random)).length = 2 * random.length ∧
      (bytes (Creation.hexEncode random)).all StateStore.isLowerHexDigit = true := by
  induction random with
  | nil => exact ⟨rfl, rfl⟩
  | cons byte random ih =>
    have hhigh : byte.toNat / 16 < 16 := by
      have := byte.toNat_lt
      omega
    obtain ⟨high, hencode, hdigit⟩ := utf8EncodeChar_digitChar hhigh
    obtain ⟨low, hencode', hdigit'⟩ :=
      utf8EncodeChar_digitChar (Nat.mod_lt byte.toNat (by decide : 0 < 16))
    have hcons : bytes (Creation.hexEncode (byte :: random)) =
        high :: low :: bytes (Creation.hexEncode random) := by
      simp [Creation.hexEncode, bytes, hencode, hencode']
    rw [hcons]
    refine ⟨?_, by simp [hdigit, hdigit', ih.2]⟩
    simp only [List.length_cons, ih.1]
    omega

/-- A new token is one. -/
theorem isToken_hexEncode (random : Vector UInt8 32) :
    isToken (Creation.hexEncode random.toList) = true := by
  obtain ⟨hlength, hdigits⟩ := bytes_hexEncode random.toList
  rw [isToken, hlength, hdigits, Vector.length_toList]
  rfl

/-! ## Pairs -/

section Pairs

variable {inst : Instance} {seed : IdentitySeed} {name token : Str}

theorem paired_some_iff : Paired (some inst) ↔
    (inst.guestToken.isSome → inst.nextToken.isSome ∧ inst.nextToken = readToken inst.token) := by
  simp [Paired]

/-- A seed that has everything is what the agent takes, and the host has its token. -/
theorem paired_of_identity (hseed : inst.seed = some seed) (hmarked : seed.isMarked = true)
    (hnamed : seed.isNamed = true) (htoken : readToken seed.token = readToken inst.token)
    (hhost : (readToken inst.token).isSome) : Paired (some inst) := by
  rw [paired_some_iff]
  intro _
  have hnext : inst.nextToken = readToken inst.token := by
    simp only [Instance.nextToken, hseed, hmarked, if_true, IdentitySeed.identity, hnamed, htoken]
  exact ⟨by rw [hnext]; exact hhost, hnext⟩

/-- An instance without a disk has no agent. -/
theorem paired_of_no_disk (h : inst.guestToken = none) : Paired (some inst) := by
  rw [paired_some_iff]
  simp [h]

theorem paired_none : Paired none := by
  rintro inst ⟨⟩

/-- An empty seed changes nothing. -/
theorem Paired.withSeed (h : Paired (some inst)) : Paired (some (Call.withSeed inst)) := by
  rw [paired_some_iff] at h ⊢
  intro hdisk
  have hnext : (Call.withSeed inst).nextToken = inst.nextToken := by
    cases hseed : inst.seed with
    | none => simp [Instance.nextToken, Call.withSeed, hseed, IdentitySeed.isMarked]
    | some seed => simp [Instance.nextToken, Call.withSeed, hseed]
  rw [hnext]
  exact h hdisk

theorem isMarked_marker (name token : Option Str) :
    IdentitySeed.isMarked ⟨some (tokenLine markerText), name, token⟩ = true := by
  have hmarker : trim (tokenLine markerText) = markerText := by decide
  simp [IdentitySeed.isMarked, hmarker]

theorem isNamed_tokenLine (h : isName 63 name = true) (marker token : Option Str) :
    IdentitySeed.isNamed ⟨marker, some (tokenLine name), token⟩ = true := by
  simp [IdentitySeed.isNamed, trim_name h, h]

end Pairs

/-! ## The calls -/

section Calls

variable {env : CallEnv} {inst : Instance} {name token : Str} {E : World → Prop}

/-- A triple about a part of a call, without events. -/
abbrev Triple {α : Type} (P : World → Prop) (x : Call α) (Q : α → World → Prop)
    (E : World → Prop) : Prop :=
  Traced.Sat (fun _ => True) (fun _ => True) P x Q E

/-- The step does not come to its end. -/
def CallEnv.Breaks (env : CallEnv) (which : HostStep) (written : Option Nat) (stopped : Bool) :
    Prop :=
  env.course which = if stopped then .stops written else .fails written

theorem CallEnv.Breaks.not_works {which : HostStep} {written : Option Nat} {stopped : Bool}
    (h : env.Breaks which written stopped) {steps : List HostStep} (hmem : which ∈ steps) :
    ¬ env.Works steps := by
  intro hworks
  have hcourse := h.symm.trans (hworks which hmem)
  cases stopped <;> simp at hcourse

/-- A step works, or breaks off with a part of what it was to do. -/
theorem sat_step {which : HostStep} {change : Instance → Instance}
    {part : Option Nat → Instance → Instance}
    (hbroken : ∀ written stopped, env.Breaks which written stopped →
      E ⟨some (part written inst), stopped⟩) :
    Triple (· = ⟨some inst, false⟩) (Call.step env which change part)
      (fun _ world => world = ⟨some (change inst), false⟩ ∧ env.course which = .works) E := by
  unfold Call.step
  cases hcourse : env.course which with
  | works =>
    apply Traced.Sat.modify
    rintro world rfl
    exact ⟨rfl, rfl⟩
  | fails written =>
    apply Traced.Sat.bind (Traced.Sat.modify (Q := fun _ => E) ?_) fun _ => .fail fun _ => id
    rintro world rfl
    exact hbroken written false hcourse
  | stops written =>
    apply Traced.Sat.bind (Traced.Sat.modify (Q := fun _ => E) ?_) fun _ => .fail fun _ => id
    rintro world rfl
    exact hbroken written true hcourse

theorem sat_other {which : HostStep}
    (hbroken : ∀ written stopped, env.Breaks which written stopped → E ⟨some inst, stopped⟩) :
    Triple (· = ⟨some inst, false⟩) (Call.other env which)
      (fun _ world => world = ⟨some inst, false⟩ ∧ env.course which = .works) E :=
  sat_step hbroken

/-- The token of the host is read, if there is one. -/
theorem sat_readAgentToken (hE : readToken inst.token = none → E ⟨some inst, false⟩) :
    Triple (· = ⟨some inst, false⟩) (Call.readAgentToken name)
      (fun token world => world = ⟨some inst, false⟩ ∧ readToken inst.token = some token) E := by
  unfold Call.readAgentToken
  apply Traced.Sat.bind (Traced.Sat.read (Q := fun found world =>
    world = ⟨some inst, false⟩ ∧ found = some inst) (by rintro world rfl; exact ⟨rfl, rfl⟩))
  intro found
  apply Traced.Sat.given
  rintro rfl
  cases htoken : readToken inst.token with
  | none =>
    simp only [htoken]
    exact .fail (by rintro world rfl; exact hE htoken)
  | some token =>
    simp only [htoken]
    exact .pure fun _ h => ⟨h, rfl⟩

/-- An identity is staged in some states only. -/
theorem sat_requireIdentityStagingState {found : Option Instance} (hE : E ⟨found, false⟩) :
    Triple (· = ⟨found, false⟩) (Call.requireIdentityStagingState name)
      (fun _ world => world = ⟨found, false⟩ ∧ isName 63 name = true ∧
        ∃ inst, found = some inst ∧ ∃ state ∈ inst.state, state ∈ Call.stagingStates) E := by
  -- Being refused changes nothing.
  have hrefused : ∀ world : World, world = ⟨found, false⟩ → E world := by
    rintro world rfl
    exact hE
  unfold Call.requireIdentityStagingState
  apply Traced.Sat.bind (Traced.Sat.ofExcept (Q := fun _ world =>
    world = ⟨found, false⟩ ∧ isName 63 name = true) ?_ hrefused)
  · intro _
    apply Traced.Sat.given
    intro hname
    apply Traced.Sat.bind (Traced.Sat.read (Q := fun state world =>
      world = ⟨found, false⟩ ∧ state = found.bind Instance.state) (by
        rintro world rfl; exact ⟨rfl, rfl⟩))
    intro state
    apply Traced.Sat.given
    rintro hstate
    cases hfound : found.bind Instance.state with
    -- Without a state there is no instance to load.
    | none =>
      rw [hstate, hfound]
      exact .fail hrefused
    -- There is one, in a state of the list or not.
    | some state =>
      rw [hstate, hfound]
      obtain ⟨inst, rfl, hinst⟩ := Option.bind_eq_some_iff.mp hfound
      apply Traced.Sat.ite
      · exact fun hstaging => .pure fun _ h => ⟨h, hname, inst, rfl, state, hinst, hstaging⟩
      · exact fun _ => .fail hrefused
  · intro _ hvalid world h
    refine ⟨h, ?_⟩
    simpa [validateInstanceName, rejectIf_eq_ok] using hvalid

/-- What is done after a failure. -/
theorem sat_orElse {P R F : World → Prop} {x cleanUp : Call Unit}
    (hx : Triple P x (fun _ => R) F) (hstopped : ∀ world, F world → world.stopped = true → E world)
    (hcleanUp : Triple (fun world => F world ∧ world.stopped = false) cleanUp (fun _ => E) E) :
    Triple P (Call.orElse x cleanUp) (fun _ => R) E := by
  unfold Call.orElse
  apply Traced.Sat.bind (Traced.Sat.attempt (Q := fun result world =>
    match result with
    | .ok _ => R world
    | .error _ => F world) hx (fun _ _ => id) (by simp))
  intro result
  cases result with
  | ok _ => exact .pure fun _ h => h
  | error error =>
    apply Traced.Sat.bind (Traced.Sat.read (Q := fun stopped world =>
      F world ∧ world.stopped = stopped) fun _ h => ⟨h, rfl⟩)
    intro stopped
    apply Traced.Sat.ite
    · rintro rfl
      exact .fail fun world h => hstopped world h.1 h.2
    · intro hgoing
      obtain rfl : stopped = false := by simpa using hgoing
      exact (Traced.Sat.attempt (Q := fun _ => E) hcleanUp (fun _ _ => id) (by simp)).bind
        fun _ => .fail fun _ => id

/-- The instance with a whole seed. -/
def Instance.identified (inst : Instance) (name token : Str) : Instance :=
  { inst with
    seed := some ⟨some (tokenLine markerText), some (tokenLine name), some (tokenLine token)⟩ }

/-- A seed that is staged keeps the pair as long as the token is not in it. -/
theorem sat_stageIdentity (hpaired : Paired (some inst)) (hhost : (readToken inst.token).isSome)
    (hname : isName 63 name = true) (hwhole : StagesWhole env (some inst)) :
    Triple (· = ⟨some inst, false⟩) (Call.stageIdentity env name token)
      (fun _ world => world = ⟨some (inst.identified name token), false⟩ ∧
        env.Works [.seedDirectory, .marker, .name, .seedToken])
      (fun world => Paired world.found) := by
  unfold Call.stageIdentity
  refine Traced.Sat.bind (sat_step ?directory) ?_
  case directory =>
    intro written _ _
    cases written with
    | none => exact hpaired
    | some _ => exact hpaired.withSeed
  intro _
  apply Traced.Sat.given
  intro hdirectory
  refine Traced.Sat.bind (sat_step fun _ _ _ => hpaired.withSeed) ?_
  intro _
  apply Traced.Sat.given
  intro hmarker
  have hstarted : env.Works [.seedDirectory, .marker] := by simp [CallEnv.Works, *]
  -- From here on the seed has a marker, so the rest of it must be there before.
  have hbefore : ¬ env.Works [.name, .seedToken] → ∃ seed, inst.seed = some seed ∧
      seed.isNamed = true ∧ readToken seed.token = readToken inst.token := by
    intro hbroken
    obtain ⟨_, hinst, seed, hseed, hnamed, htoken⟩ := (hwhole hstarted).resolve_left hbroken
    cases hinst
    exact ⟨seed, hseed, hnamed, htoken⟩
  refine Traced.Sat.bind (sat_step ?name) ?_
  case name =>
    intro _ _ hbroken
    obtain ⟨seed, hseed, hnamed, htoken⟩ := hbefore (hbroken.not_works (by simp))
    exact paired_of_identity (by simp [Call.onSeed, Call.withSeed, hseed]) (isMarked_marker _ _)
      hnamed htoken hhost
  intro _
  apply Traced.Sat.given
  intro hnamed
  refine (sat_step ?token).mono (fun _ => id) ?_ fun _ => id
  case token =>
    intro _ _ hbroken
    obtain ⟨seed, hseed, -, htoken⟩ := hbefore (hbroken.not_works (by simp))
    exact paired_of_identity (by simp [Call.onSeed, Call.withSeed, hseed]) (isMarked_marker _ _)
      (isNamed_tokenLine hname _ _) htoken hhost
  rintro _ world ⟨rfl, htoken⟩
  exact ⟨rfl, by simp [CallEnv.Works, *]⟩

/-- An instance with a whole seed and the token of it is paired, whatever it was before. -/
theorem paired_identified (hname : isName 63 name = true) (htoken : isToken token = true)
    {contents : Option Str} (hcontents : readToken contents = some token) :
    Paired (some { inst.identified name token with token := contents }) :=
  paired_of_identity rfl (isMarked_marker _ _) (isNamed_tokenLine hname _ _)
    (by rw [hcontents]; exact readToken_tokenLine htoken) (by simp [hcontents])

/-- Staging an identity leaves the two tokens paired. -/
theorem sat_stageInstanceIdentity {found : Option Instance} (hpaired : Paired found)
    (hwhole : Admits name found → StagesWhole env found) :
    Triple (· = ⟨found, false⟩) (Call.stageInstanceIdentity env name)
      (fun _ world => Paired world.found) (fun world => Paired world.found) := by
  unfold Call.stageInstanceIdentity
  apply (sat_requireIdentityStagingState hpaired).bind
  intro _
  apply Traced.Sat.given
  rintro ⟨hname, inst, rfl, hstate⟩
  apply (sat_readAgentToken fun _ => hpaired).bind
  intro token
  apply Traced.Sat.given
  intro htoken
  refine (sat_stageIdentity hpaired (by simp [htoken]) hname
    (hwhole ⟨hname, inst, rfl, hstate, by simp [htoken]⟩)).mono (fun _ => id) ?_ fun _ => id
  rintro _ world ⟨rfl, -⟩
  exact paired_identified hname (isToken_of_readToken htoken) htoken

/-- So does rotating it. -/
theorem sat_rotateInstanceIdentity {found : Option Instance} (hpaired : Paired found)
    (hlasting : Lasting name found (.rotate env)) :
    Triple (· = ⟨found, false⟩) (Call.rotateInstanceIdentity env name)
      (fun _ world => Paired world.found) (fun world => Paired world.found) := by
  unfold Call.rotateInstanceIdentity
  apply (sat_requireIdentityStagingState hpaired).bind
  intro _
  apply Traced.Sat.given
  rintro ⟨hname, inst, rfl, hstate⟩
  apply (sat_readAgentToken fun _ => hpaired).bind
  intro previous
  apply Traced.Sat.given
  intro hprevious
  have hadmits : Admits name (some inst) := ⟨hname, inst, rfl, hstate, by simp [hprevious]⟩
  apply (sat_other fun _ _ _ => hpaired).bind
  intro _
  apply Traced.Sat.given
  intro hgenerate
  obtain ⟨hwhole, hchanged⟩ := hlasting hadmits (by simp [CallEnv.Works, hgenerate])
  apply (sat_stageIdentity hpaired (by simp [hprevious]) hname hwhole).bind
  intro _
  apply Traced.Sat.given
  intro hstaged
  have hnew := isToken_hexEncode env.random
  -- The seed has the new token and the host the old one, until the next write.
  apply sat_orElse (F := fun world =>
    world = ⟨some (inst.identified name (Creation.hexEncode env.random.toList)), false⟩ ∧
      env.Works [.rollBack])
  case hx =>
    refine (sat_step ?_).mono (fun _ => id) ?_ fun _ => id
    · intro written stopped hbroken
      obtain ⟨⟨failed, hfailed⟩, hback⟩ := (hchanged hstaged).resolve_left
        (hbroken.not_works (by simp))
      cases stopped with
      | true => cases hfailed.symm.trans hbroken
      | false => exact ⟨rfl, hback⟩
    · rintro _ world ⟨rfl, -⟩
      exact paired_identified hname hnew (readToken_tokenLine hnew)
  case hstopped =>
    rintro world ⟨rfl, -⟩ hstopped
    cases hstopped
  case hcleanUp =>
    refine Traced.Sat.pre (P := fun world => world = ⟨some (inst.identified name
      (Creation.hexEncode env.random.toList)), false⟩ ∧ env.Works [.rollBack])
      (Traced.Sat.given fun hback => ?_) fun _ h => h.1
    refine (sat_step fun _ _ hbroken => absurd hback (hbroken.not_works (by simp))).mono
      (fun _ => id) ?_ fun _ => id
    rintro _ world ⟨rfl, -⟩
    exact paired_identified hname (isToken_of_readToken hprevious) hprevious

/-! ### A clone -/

/-- A new file gets its contents, or a part of them. -/
theorem sat_writeNewPrivate {which : HostStep} {file : Instance → Option Str}
    {change : Option Str → Instance → Instance} {contents : Str} (hnew : file inst = none)
    (hbroken : ∀ written stopped, env.Breaks which written stopped →
      E ⟨some (change (written.map contents.take) inst), stopped⟩) :
    Triple (· = ⟨some inst, false⟩) (Call.writeNewPrivate env which file change contents)
      (fun _ world => world = ⟨some (change (some contents) inst), false⟩ ∧
        env.course which = .works) E := by
  unfold Call.writeNewPrivate
  apply Traced.Sat.bind (Traced.Sat.read (Q := fun taken world =>
    world = ⟨some inst, false⟩ ∧ taken = false) (by rintro world rfl; exact ⟨rfl, by simp [hnew]⟩))
  intro taken
  apply Traced.Sat.given
  rintro rfl
  exact sat_step hbroken

/-- What is left of a creation has no disk. -/
theorem paired_left : Paired (Call.left env) := by
  unfold Call.left
  cases env.residue with
  | none => exact paired_none
  | some residue => exact paired_of_no_disk rfl

/-- A creation makes an instance without an identity. -/
theorem sat_create {found : Option Instance} (hpaired : Paired found) :
    Triple (· = ⟨found, false⟩) (Call.create env name)
      (fun _ world => world = ⟨some (Call.created env), false⟩ ∧
        isName 63 name = true ∧ found = none ∧ env.course .create = .works)
      (fun world => Paired world.found) := by
  -- A creation that is refused leaves what there was.
  have hrefused : ∀ world : World, world = ⟨found, false⟩ → Paired world.found := by
    rintro world rfl
    exact hpaired
  unfold Call.create
  apply Traced.Sat.bind (Traced.Sat.ofExcept (Q := fun _ world =>
    world = ⟨found, false⟩ ∧ isName 63 name = true) ?_ hrefused)
  · intro _
    apply Traced.Sat.given
    intro hname
    apply Traced.Sat.bind (Traced.Sat.read (Q := fun taken world =>
      world = ⟨found, false⟩ ∧ taken = found.isSome) (by rintro world rfl; exact ⟨rfl, rfl⟩))
    intro taken
    apply Traced.Sat.given
    -- Whether the name is taken is what was found.
    rintro rfl
    apply Traced.Sat.ite
    · exact fun _ => .fail hrefused
    · intro hfree
      obtain rfl : found = none := by simpa using hfree
      -- The name is free: the creation works, or leaves a part of an instance.
      cases hcourse : env.course .create with
      | works =>
        apply Traced.Sat.modify
        rintro world rfl
        exact ⟨rfl, hname, rfl, rfl⟩
      | fails _ =>
        exact (Traced.Sat.modify (Q := fun _ world => Paired world.found)
          fun _ _ => paired_left).bind fun _ => .fail fun _ => id
      | stops _ =>
        exact (Traced.Sat.modify (Q := fun _ world => Paired world.found)
          fun _ _ => paired_left).bind fun _ => .fail fun _ => id
  · intro _ hvalid world h
    exact ⟨h, by simpa [validateInstanceName, rejectIf_eq_ok] using hvalid⟩

/-- The first step that breaks is the one that is found. -/
theorem find_of_breaks {before after : List HostStep} {which : HostStep} {written : Option Nat}
    {stopped : Bool} (hworks : env.Works before) (hbroken : env.Breaks which written stopped) :
    (before ++ which :: after).find? (fun step => env.course step ≠ .works) = some which := by
  rw [List.find?_append, List.find?_eq_none.mpr fun step hstep => by simp [hworks step hstep],
    Option.none_or, List.find?_cons_of_pos]
  simpa [CallEnv.Works] using hbroken.not_works (List.mem_singleton_self which)

/-- A clone that cannot be left as it is can be removed. -/
def Removable (env : CallEnv) (world : World) : Prop :=
  Paired world.found ∨ world.stopped = false ∧ env.Works [.remove]

/-- The identity of a clone is written, or the clone can be removed. -/
theorem sat_writeCloneIdentity {guestToken : Str} (hname : isName 63 name = true)
    (hprotected : env.course .protectOverlay = .works)
    (hremoved : ∀ before which after written stopped, identitySteps = before ++ which :: after →
      env.Works before → env.Breaks which written stopped →
      stopped = false ∧ env.Works [.remove]) :
    Triple (· = ⟨some { Call.created env with guestToken := some guestToken }, false⟩)
      (Call.writeCloneIdentity env name) (fun _ world => Paired world.found) (Removable env) := by
  -- The new token is well formed.
  have hnew := isToken_hexEncode env.random
  unfold Call.writeCloneIdentity
  -- One step after the other; each may break, and the clone is removed then.
  refine Traced.Sat.bind (sat_step fun _ _ hbroken => .inr (hremoved [.protectOverlay] _ _ _ _ rfl
    (by simp [CallEnv.Works, *]) hbroken)) ?_
  intro _
  apply Traced.Sat.given
  intro hdirectory
  refine Traced.Sat.bind (sat_writeNewPrivate rfl fun _ _ hbroken => .inr (hremoved
    [.protectOverlay, .seedDirectory] _ _ _ _ rfl (by simp [CallEnv.Works, *]) hbroken)) ?_
  intro _
  apply Traced.Sat.given
  intro hmarker
  refine Traced.Sat.bind (sat_writeNewPrivate rfl fun _ _ hbroken => .inr (hremoved
    [.protectOverlay, .seedDirectory, .marker] _ _ _ _ rfl (by simp [CallEnv.Works, *])
    hbroken)) ?_
  intro _
  apply Traced.Sat.given
  intro hnamed
  -- The host reads the token that it has just written.
  have hhost := readToken_tokenLine hnew
  refine Traced.Sat.bind (sat_readAgentToken fun hnone => by cases hhost.symm.trans hnone) ?_
  intro token
  apply Traced.Sat.given
  intro htoken
  obtain rfl : Creation.hexEncode env.random.toList = token :=
    Option.some.inj (hhost.symm.trans htoken)
  -- The last file makes the pair complete.
  refine (sat_writeNewPrivate rfl fun _ _ hbroken => .inr (hremoved
    [.protectOverlay, .seedDirectory, .marker, .name] _ _ _ _ rfl (by simp [CallEnv.Works, *])
    hbroken)).mono (fun _ => id) ?_ fun _ => id
  rintro _ world ⟨rfl, -⟩
  exact paired_of_identity rfl (isMarked_marker _ _) (isNamed_tokenLine hname _ _) rfl
    (Option.isSome_iff_exists.mpr ⟨_, hhost⟩)

/-- Cloning an instance leaves the tokens of the clone paired. -/
theorem sat_cloneInstance {found : Option Instance} {image : Result Str} (hpaired : Paired found)
    (hlasting : Lasting name found (.clone env image)) :
    Triple (· = ⟨found, false⟩) (Call.cloneInstance env name image)
      (fun _ world => Paired world.found) (fun world => Paired world.found) := by
  unfold Call.cloneInstance
  cases himage : image with
  | error error =>
    exact .bind (.fail (by rintro world rfl; exact hpaired)) fun _ =>
      .of_false (P := fun _ => False) fun _ => id
  | ok guestToken =>
    simp only [Traced.ofExcept, pure_bind]
    apply (sat_create hpaired).bind
    intro _
    apply Traced.Sat.given
    rintro ⟨hname, rfl, hcreate⟩
    apply sat_orElse (F := Removable env)
    case hx =>
      -- There is no disk up to the overlay.
      have hdiskless : ∀ stopped, Removable env ⟨some (Call.created env), stopped⟩ :=
        fun _ => .inl (paired_of_no_disk rfl)
      apply (sat_other fun _ _ _ => hdiskless _).bind
      intro _
      apply Traced.Sat.given
      intro hdirectories
      apply (sat_other fun _ _ _ => hdiskless _).bind
      intro _
      apply Traced.Sat.given
      intro hfirmware
      apply (sat_other fun _ _ _ => hdiskless _).bind
      intro _
      apply Traced.Sat.given
      intro hcanonical
      apply (sat_step fun _ _ _ => hdiskless _).bind
      intro _
      apply Traced.Sat.given
      intro hoverlay
      have hremoved : ∀ before which after written stopped,
          identitySteps = before ++ which :: after → env.Works before →
          env.Breaks which written stopped → stopped = false ∧ env.Works [.remove] := by
        intro before which after written stopped hsteps hworks hbroken
        obtain ⟨⟨failed, hfailed⟩, hremove⟩ := hlasting hname rfl (by rw [himage]; rfl)
          (by simp [CallEnv.Works, diskSteps, *]) which (hsteps ▸ find_of_breaks hworks hbroken)
        cases stopped with
        | true => cases hfailed.symm.trans hbroken
        | false => exact ⟨rfl, hremove⟩
      apply (sat_other fun written stopped hbroken => .inr (hremoved [] _ _ written stopped rfl
        (by simp [CallEnv.Works]) hbroken)).bind
      intro _
      apply Traced.Sat.given
      intro hprotected
      exact sat_writeCloneIdentity hname hprotected hremoved
    case hstopped =>
      rintro world (h | ⟨hgoing, -⟩) hstopped
      · exact h
      · simp [hgoing] at hstopped
    case hcleanUp =>
      unfold Call.remove
      cases hcourse : env.course .remove with
      | works => exact .modify fun world _ => paired_none
      | fails _ =>
        apply Traced.Sat.fail
        rintro world ⟨h | ⟨-, hworks⟩, -⟩
        · exact h
        · simp [CallEnv.Works, hcourse] at hworks
      | stops _ =>
        apply Traced.Sat.bind (Traced.Sat.modify (Q := fun _ world => Paired world.found) ?_)
          fun _ => .fail fun _ => id
        rintro world ⟨h | ⟨-, hworks⟩, -⟩
        · exact h
        · simp [CallEnv.Works, hcourse] at hworks

end Calls

/-! ## Runs -/

section Runs

variable {name : Str} {found : Option Instance} {inst : Instance}

/-- A boot takes over the token that is required after it. -/
theorem readToken_guestToken_boot {token : Str} (hdisk : inst.guestToken.isSome = true)
    (hnext : inst.nextToken = some token) :
    readToken (inst.boot .run true).guestToken = some token := by
  cases hseed : inst.seed with
  | none => simpa [Instance.boot, Instance.nextToken, hseed] using hnext
  | some seed =>
    cases hmarked : seed.isMarked with
    | false => simpa [Instance.boot, Instance.nextToken, hseed, hmarked] using hnext
    | true =>
      have hidentity : seed.identity = some token := by
        simpa [Instance.nextToken, hseed, hmarked] using hnext
      have htoken : isToken token = true := by
        unfold IdentitySeed.identity at hidentity
        split at hidentity
        · exact isToken_of_readToken hidentity
        · cases hidentity
      simp [Instance.boot, hseed, hmarked, hdisk, hidentity, readToken_tokenLine htoken]

/-- A boot does not change what is required after the next one. -/
theorem Paired.boot (h : Paired (some inst)) (phase : LaunchPhase) (replaced : Bool) :
    Paired (some (inst.boot phase replaced)) := by
  unfold Instance.boot
  split
  next seed hseed =>
    split
    next htaken =>
      split
      next token hidentity =>
        rw [paired_some_iff] at h ⊢
        intro _
        have hnext : Instance.nextToken { inst with guestToken := some (tokenLine token) } =
            inst.nextToken := by
          simp [Instance.nextToken, hseed, htaken.1]
        rw [hnext]
        exact h htaken.2.2
      next => exact h
    next => exact h
  next => exact h

/-- A step that meets the condition keeps the two sides paired. -/
theorem next_paired {event : Event} (hpaired : Paired found) (hlasting : Lasting name found event) :
    Paired (next name found event) := by
  cases event with
  | clone env image => exact (sat_cloneInstance hpaired hlasting).state rfl
  | stage env => exact (sat_stageInstanceIdentity hpaired hlasting).state rfl
  | rotate env => exact (sat_rotateInstanceIdentity hpaired hlasting).state rfl
  | boot phase replaced =>
    cases found with
    | none => exact paired_none
    | some inst => exact hpaired.boot phase replaced
  | become state =>
    cases found with
    | none => exact paired_none
    | some inst =>
      rw [paired_some_iff] at hpaired
      exact paired_some_iff.mpr hpaired

/-- In every run whose steps meet the condition, the host has the token that the agent will require
    after its next boot, after every step. -/
theorem tokens_stay_paired (name : Str) {found : Option Instance} {events before after : List Event}
    (hpaired : Paired found) (hlasting : Along (next name) (Lasting name) found events)
    (hsplit : events = before ++ after) : Paired (run (next name) found before) := by
  subst hsplit
  exact run_invariant (fun _ _ => next_paired) hpaired (along_append.mp hlasting).1

end Runs

/-! ### Calls that go wrong -/

instance (found : Option Instance) : Decidable (Paired found) :=
  match found with
  | none => isTrue paired_none
  | some _ => decidable_of_iff _ paired_some_iff.symm

/-- A call whose new token is made of one byte. -/
def callWith (random : UInt8) (course : HostStep → Course) : CallEnv where
  course
  random := .replicate 32 random
  directory := PathBuf.ofStr "/instances/guest".toList

/-- All steps work but those in the list. -/
def brokenAt (broken : List (HostStep × Course)) (step : HostStep) : Course :=
  (broken.lookup step).getD .works

def guestName : Str := "guest".toList

/-- A clone of an image with another token. -/
def cloneOf (broken : List (HostStep × Course)) : Event :=
  .clone (callWith 1 (brokenAt broken)) (.ok (tokenLine (Creation.hexEncode (List.replicate 32 7))))

/-- A rotation of a clone is rolled back. -/
def rolledBack : List Event :=
  [cloneOf [], .rotate (callWith 2 (brokenAt [(.hostToken, .fails none)])), .boot .run true]

theorem rolled_back_rotation_stays_paired : Paired (run (next guestName) none rolledBack) := by
  have hlasting : Along (next guestName) (Lasting guestName) none rolledBack := by
    refine ⟨?clone, ?rotate, trivial, trivial⟩
    case clone =>
      intro _ _ _ _ step hbroken
      simp [callWith, brokenAt, identitySteps] at hbroken
    case rotate =>
      intro _ _
      exact ⟨fun _ => .inl (by decide), fun _ => .inr ⟨⟨none, rfl⟩, by decide⟩⟩
  exact tokens_stay_paired guestName paired_none hlasting (List.append_nil rolledBack).symm

/-- When the host cannot write its token and cannot restore the seed, when its process stops between
    the two writes, and when it stops before a clone with a disk has its identity, the agent will
    require a token that the host does not have. -/
theorem broken_calls_part_tokens :
    ¬ Paired (run (next guestName) none
        [cloneOf [], .rotate (callWith 2
          (brokenAt [(.hostToken, .fails none), (.rollBack, .fails none)]))]) ∧
      ¬ Paired (run (next guestName) none
        [cloneOf [], .rotate (callWith 2 (brokenAt [(.hostToken, .stops none)]))]) ∧
      ¬ Paired (run (next guestName) none [cloneOf [(.seedDirectory, .stops none)]]) := by
  decide +kernel

end Lsw.Core.InstanceIdentity
