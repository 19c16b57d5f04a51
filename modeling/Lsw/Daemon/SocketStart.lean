import Lsw.Lib.Run
import Mathlib.Data.Fintype.Basic
import Mathlib.Logic.Function.Basic
import Mathlib.Tactic.Common

/-!
# Daemons on One Socket

`lswd` keeps a second daemon off its state directory with its socket: `prepare_socket_path` looks at
the path, tries to connect to what is there, and removes it when nothing answers; `run` then binds
the path (`main.rs`).  Nothing is locked meanwhile.

Here any number of daemons take these steps in any order, each of them one system call.  A daemon
that was refused by a stale socket removes whatever is at the path when it gets to that, also the
socket of a daemon that has bound the path in between.  `InOrder` is the condition that rules this
out.
-/

namespace Lsw.Daemon

open Lsw.Lib

/-! ## Steps -/

/-- The directory of the socket. -/
inductive SocketParent where
  | absent
  | directory (isPrivate : Bool)
  | other
  deriving DecidableEq

/-- What is at the path of the socket.  A daemon binds the path at most once, so that its socket is
    known by it. -/
inductive SocketNode (ι : Type) where
  | stale
  | boundBy (daemon : ι)
  | notSocket
  deriving DecidableEq

/-- `metadata.file_type().is_socket()`. -/
def SocketNode.isSocket {ι : Type} : SocketNode ι → Bool
  | .notSocket => false
  | _ => true

/-- How far a daemon has come. -/
inductive StartPhase (ι : Type) where
  | called
  /-- The directory of the socket did not exist. -/
  | parentAbsent
  /-- The directory of the socket has been made. -/
  | parentMade
  /-- The directory of the socket is a private one. -/
  | parentChecked
  /-- There is something at the path. -/
  | found (isSocket : Bool)
  /-- The connection was not accepted; `refusedBy` is what was at the path then. -/
  | refused (isSocket : Bool) (refusedBy : Option (SocketNode ι))
  /-- `prepare_socket_path` has returned. -/
  | prepared
  /-- The socket is bound to the path, and not listening. -/
  | bound
  | listening
  /-- The supervisor runs. -/
  | serving
  | exited (result : Except String Unit)

/-- The path, and the daemons. -/
structure SocketWorld (ι : Type) where
  parent : SocketParent
  node : Option (SocketNode ι)
  phase : ι → StartPhase ι := fun _ => .called

/-- How the next system call of a daemon ends, unless the daemon itself ends before it. -/
inductive StartEvent where
  | done
  | fails (error : String)
  | killed
  deriving DecidableEq

/-- The system call fails. -/
def StartEvent.isFailure : StartEvent → Bool
  | .fails _ => true
  | _ => false

namespace StartPhase

variable {ι : Type}

/-- The daemon lives and its socket has been bound to the path. -/
def hasBound : StartPhase ι → Bool
  | .bound | .listening | .serving => true
  | _ => false

/-- The daemon lives and its socket accepts connections. -/
def listens : StartPhase ι → Bool
  | .listening | .serving => true
  | _ => false

/-- The daemon has ended. -/
def isExited : StartPhase ι → Bool
  | .exited _ => true
  | _ => false

end StartPhase

section Steps

variable {ι : Type} [DecidableEq ι]

namespace SocketWorld

def setPhase (world : SocketWorld ι) (i : ι) (phase : StartPhase ι) : SocketWorld ι :=
  { world with phase := Function.update world.phase i phase }

/-- Return an error.  What is at the path stays there. -/
def fail (world : SocketWorld ι) (i : ι) (error : String) : SocketWorld ι :=
  world.setPhase i (.exited (.error error))

/-- Some daemon listens on the socket at the path. -/
def answers (world : SocketWorld ι) : Bool :=
  match world.node with
  | some (.boundBy j) => (world.phase j).listens
  | _ => false

/-- The checks of the directory. -/
def checkParent (world : SocketWorld ι) (parent : String) (i : ι) : SocketWorld ι :=
  match world.parent with
  | .absent => world.setPhase i .parentAbsent
  | .directory true => world.setPhase i .parentChecked
  | .directory false =>
    world.fail i s!"socket directory {parent} must not be accessible by group or other users"
  | .other => world.fail i s!"socket parent {parent} is not a directory"

/-- `create_dir_all(parent)`. -/
def createParent (world : SocketWorld ι) (i : ι) : SocketWorld ι :=
  match world.parent with
  | .absent => { world.setPhase i .parentMade with parent := .directory false }
  | .directory _ => world.setPhase i .parentMade
  | .other => world.fail i "File exists (os error 17)"

/-- `symlink_metadata(path)`. -/
def inspect (world : SocketWorld ι) (i : ι) : SocketWorld ι :=
  match world.node with
  | none => world.setPhase i .prepared
  | some node => world.setPhase i (.found node.isSocket)

/-- `UnixStream::connect(path).is_ok()`, where any failure is one of the connection. -/
def connect (world : SocketWorld ι) (path : String) (i : ι) (isSocket accepted : Bool) :
    SocketWorld ι :=
  if accepted && world.answers then
    world.fail i s!"another lswd is already listening at {path}"
  else world.setPhase i (.refused isSocket world.node)

/-- `remove_file(path)`. -/
def unlink (world : SocketWorld ι) (i : ι) : SocketWorld ι :=
  match world.node with
  | none => world.fail i "No such file or directory (os error 2)"
  | some _ => { world.setPhase i .prepared with node := none }

/-- `bind` of the socket to the path. -/
def bind (world : SocketWorld ι) (i : ι) : SocketWorld ι :=
  match world.node with
  | none => { world.setPhase i .bound with node := some (.boundBy i) }
  | some _ => world.fail i "Address already in use (os error 98)"

/-- `set_permissions(path)`, which goes by the path, whatever socket is there. -/
def makePrivate (world : SocketWorld ι) (i : ι) : SocketWorld ι :=
  match world.node with
  | none => world.fail i "No such file or directory (os error 2)"
  | some _ => world.setPhase i .serving

end SocketWorld

/-- A system call of a daemon that works: `prepare_socket_path`, `UnixListener::bind`, and what
    `run` does before its loop. -/
def startCall (path parent : String) (world : SocketWorld ι) (i : ι) : SocketWorld ι :=
  match world.phase i with
  | .called => world.checkParent parent i
  | .parentAbsent => world.createParent i
  | .parentMade => { world.setPhase i .parentChecked with parent := .directory true }
  | .parentChecked => world.inspect i
  | .found isSocket => world.connect path i isSocket true
  | .refused true _ => world.unlink i
  | .refused false _ => world.fail i s!"refusing to replace non-socket path {path}"
  | .prepared => world.bind i
  | .bound => world.setPhase i .listening
  | .listening => world.makePrivate i
  | .serving => world.setPhase i (.exited (.ok ()))
  | .exited _ => world

/-- The next step of a daemon. -/
def startStep (path parent : String) (world : SocketWorld ι) (move : ι × StartEvent) :
    SocketWorld ι :=
  match move.2, world.phase move.1 with
  | _, .exited _ => world
  | .done, _ => startCall path parent world move.1
  | .fails _, .found isSocket => world.connect path move.1 isSocket false
  | .fails error, _ => world.fail move.1 error
  | .killed, _ => world.fail move.1 "killed"

/-! ## What is meant -/

/-- The step removes the socket that another daemon listens on. -/
def UnlinksListener (world : SocketWorld ι) (move : ι × StartEvent) : Prop :=
  move.2 = .done ∧ ∃ refusedBy, world.phase move.1 = .refused true refusedBy ∧
    ∃ j, world.node = some (.boundBy j) ∧ (world.phase j).listens = true

/-- At most one daemon has bound the path. -/
def Exclusive (world : SocketWorld ι) : Prop :=
  ∀ i j, (world.phase i).hasBound = true → (world.phase j).hasBound = true → i = j

/-- No daemon has started, and at most a stale socket is at the path. -/
structure Fresh (world : SocketWorld ι) : Prop where
  called : ∀ i, world.phase i = .called
  node : world.node = none ∨ world.node = some .stale

/-- A live daemon whose socket is at the path accepts the connection, and what is removed is what
    was there when the connection was refused. -/
def InOrder (world : SocketWorld ι) (move : ι × StartEvent) : Prop :=
  match world.phase move.1 with
  | .found _ => ∀ j, world.node = some (.boundBy j) → (world.phase j).hasBound = true →
      (world.phase j).listens = true ∧ move.2.isFailure = false
  | .refused true refusedBy => world.node = none ∨ world.node = refusedBy
  | _ => True

instance [Fintype ι] (world : SocketWorld ι) (move : ι × StartEvent) :
    Decidable (InOrder world move) := by
  unfold InOrder
  split <;> infer_instance

/-! ## What a step changes -/

/-- A step of a daemon: it ends or comes further, is refused by what is at the path, removes that,
    or binds the path. -/
inductive StartChange (world : SocketWorld ι) (move : ι × StartEvent) : SocketWorld ι → Prop where
  | stays : StartChange world move world
  | moves (phase : StartPhase ι) (parent : SocketParent)
      (hlive : (world.phase move.1).isExited = false)
      (hbound : phase.hasBound = true → (world.phase move.1).hasBound = true)
      (hkept : (world.phase move.1).hasBound = true → phase.hasBound = true ∨ phase.isExited = true)
      (hrefused : ∀ isSocket refusedBy, phase ≠ .refused isSocket refusedBy) :
      StartChange world move { world.setPhase move.1 phase with parent }
  | refused (isSocket : Bool) (hfound : world.phase move.1 = .found isSocket)
      (hsilent : world.answers = true → move.2.isFailure = true) :
      StartChange world move (world.setPhase move.1 (.refused isSocket world.node))
  | unlinks (node : SocketNode ι) (refusedBy : Option (SocketNode ι))
      (hrefused : world.phase move.1 = .refused true refusedBy) (hnode : world.node = some node) :
      StartChange world move { world.setPhase move.1 .prepared with node := none }
  | binds (hprepared : world.phase move.1 = .prepared) (hnode : world.node = none) :
      StartChange world move
        { world.setPhase move.1 .bound with node := some (.boundBy move.1) }

section Change

variable {world : SocketWorld ι} {move : ι × StartEvent}

/-- A daemon that ends changes nothing else. -/
theorem StartChange.fail (hlive : (world.phase move.1).isExited = false) (error : String) :
    StartChange world move (world.fail move.1 error) :=
  .moves _ _ hlive (by simp [StartPhase.hasBound]) (by simp [StartPhase.isExited]) (by simp)

/-- A daemon that has not bound the path, and does not bind it now. -/
theorem StartChange.advance {phase : StartPhase ι} (parent : SocketParent)
    (hlive : (world.phase move.1).isExited = false)
    (hbefore : (world.phase move.1).hasBound = false) (hafter : phase.hasBound = false)
    (hrefused : ∀ isSocket refusedBy, phase ≠ .refused isSocket refusedBy) :
    StartChange world move { world.setPhase move.1 phase with parent } :=
  .moves _ _ hlive (by simp [hafter]) (by simp [hbefore]) hrefused

theorem startChange_connect {path : String} {isSocket accepted : Bool}
    (hfound : world.phase move.1 = .found isSocket)
    (hevent : accepted = false → move.2.isFailure = true) :
    StartChange world move (world.connect path move.1 isSocket accepted) := by
  unfold SocketWorld.connect
  split
  · exact .fail (by simp [hfound, StartPhase.isExited]) _
  · next hnot =>
    apply StartChange.refused isSocket hfound
    intro hanswers
    apply hevent
    simpa [hanswers] using hnot

/-- Every call of a start that has not ended is one of the changes. -/
theorem startChange_call (path parent : String) (hlive : (world.phase move.1).isExited = false) :
    StartChange world move (startCall path parent world move.1) := by
  -- One case for each phase of the start, in the order of the calls.
  unfold startCall
  split
  · next hphase =>
    -- Calls before the binding only advance the phase, or end the start.
    unfold SocketWorld.checkParent
    split
    · exact .advance _ hlive (by simp [hphase, StartPhase.hasBound]) rfl (by simp)
    · exact .advance _ hlive (by simp [hphase, StartPhase.hasBound]) rfl (by simp)
    · exact .fail hlive _
    · exact .fail hlive _
  · next hphase =>
    unfold SocketWorld.createParent
    split
    · exact .advance _ hlive (by simp [hphase, StartPhase.hasBound]) rfl (by simp)
    · exact .advance _ hlive (by simp [hphase, StartPhase.hasBound]) rfl (by simp)
    · exact .fail hlive _
  · next hphase => exact .advance _ hlive (by simp [hphase, StartPhase.hasBound]) rfl (by simp)
  · next hphase =>
    unfold SocketWorld.inspect
    split
    · exact .advance _ hlive (by simp [hphase, StartPhase.hasBound]) rfl (by simp)
    · exact .advance _ hlive (by simp [hphase, StartPhase.hasBound]) rfl (by simp)
  -- The connection that asks whether somebody listens.
  · next isSocket hphase => exact startChange_connect hphase (by simp)
  · next refusedBy hphase =>
    -- The path is freed, whatever socket has it by now.
    unfold SocketWorld.unlink
    split
    · exact .fail hlive _
    · next node hnode => exact .unlinks node refusedBy hphase hnode
  · exact .fail hlive _
  · next hphase =>
    -- Only a path that is free can be bound.
    unfold SocketWorld.bind
    split
    · next hnode => exact .binds hphase hnode
    · exact .fail hlive _
  · next hphase =>
    exact .moves _ _ hlive (by simp [hphase, StartPhase.hasBound]) (by simp [StartPhase.hasBound])
      (by simp)
  · next hphase =>
    -- What follows the binding moves no socket.
    unfold SocketWorld.makePrivate
    split
    · exact .fail hlive _
    · exact .moves _ _ hlive (by simp [hphase, StartPhase.hasBound])
        (by simp [StartPhase.hasBound]) (by simp)
  · exact .moves _ _ hlive (by simp [StartPhase.hasBound]) (by simp [StartPhase.isExited]) (by simp)
  · exact .stays

/-- So is every step. -/
theorem startChange (path parent : String) (world : SocketWorld ι) (move : ι × StartEvent) :
    StartChange world move (startStep path parent world move) := by
  have hlive : ∀ phase, world.phase move.1 = phase → (∀ result, phase ≠ .exited result) →
      (world.phase move.1).isExited = false := by
    rintro phase rfl hne
    cases hphase : world.phase move.1 with
    | exited result => exact absurd hphase (hne result)
    | _ => rfl
  unfold startStep
  split
  · exact .stays
  · next hne => exact startChange_call path parent (hlive _ rfl fun result h => hne result h)
  · next error isSocket hevent hphase => exact startChange_connect hphase fun _ => by rw [hevent]; rfl
  · next hne _ => exact .fail (hlive _ rfl fun result h => hne result h) _
  · next hne => exact .fail (hlive _ rfl fun result h => hne result h) _

end Change

end Steps

/-! ## The invariant -/

section Invariant

variable {ι : Type} {world next : SocketWorld ι} {move : ι × StartEvent}

/-- What holds at any time as long as nothing disturbs the daemons. -/
structure StartInv (world : SocketWorld ι) : Prop where
  /-- A daemon that has bound the path finds its own socket there. -/
  owner : ∀ i, (world.phase i).hasBound = true → world.node = some (.boundBy i)
  /-- A socket at the path is that of a daemon that has bound it. -/
  bound : ∀ i, world.node = some (.boundBy i) →
    (world.phase i).hasBound = true ∨ (world.phase i).isExited = true
  /-- A socket that refused a connection is that of a daemon that has ended. -/
  refused : ∀ i isSocket j, world.phase i = .refused isSocket (some (.boundBy j)) →
    (world.phase j).isExited = true

theorem Fresh.startInv (h : Fresh world) : StartInv world where
  owner := by simp [h.called, StartPhase.hasBound]
  bound := by
    intro i hnode
    rcases h.node with hnone | hstale
    · simp [hnone] at hnode
    · simp [hstale] at hnode
  refused := by simp [h.called]

theorem StartInv.exclusive (h : StartInv world) : Exclusive world := by
  intro i j hi hj
  have hnode := (h.owner i hi).symm.trans (h.owner j hj)
  simpa using hnode

/-- Nobody has bound a path at which there is nothing. -/
theorem StartInv.not_hasBound (h : StartInv world) (hnode : world.node = none) (i : ι) :
    (world.phase i).hasBound = false := by
  cases hbound : (world.phase i).hasBound with
  | false => rfl
  | true => simp [h.owner i hbound] at hnode

/-- What refused a connection in time is not the socket of a daemon that has bound the path. -/
theorem StartInv.not_hasBound_of_refused (h : StartInv world)
    (hundisturbed : InOrder world move) {refusedBy : Option (SocketNode ι)}
    (hrefused : world.phase move.1 = .refused true refusedBy) (i : ι) :
    (world.phase i).hasBound = false := by
  cases hbound : (world.phase i).hasBound with
  | false => rfl
  | true =>
    have howner := h.owner i hbound
    simp only [InOrder, hrefused, howner, reduceCtorEq, false_or] at hundisturbed
    have hexited := h.refused move.1 true i (hundisturbed ▸ hrefused)
    cases hphase : world.phase i <;> simp_all [StartPhase.hasBound, StartPhase.isExited]

/-- The socket that refuses a connection in time is that of no live daemon. -/
theorem StartInv.isExited_of_silent (h : StartInv world) (hundisturbed : InOrder world move)
    {isSocket : Bool} (hfound : world.phase move.1 = .found isSocket)
    (hsilent : world.answers = true → move.2.isFailure = true) {j : ι}
    (hnode : world.node = some (.boundBy j)) : (world.phase j).isExited = true := by
  apply (h.bound j hnode).resolve_left
  intro hbound
  simp only [InOrder, hfound] at hundisturbed
  obtain ⟨hlistens, hevent⟩ := hundisturbed j hnode hbound
  have hfails := hsilent (by simp [SocketWorld.answers, hnode, hlistens])
  rw [hevent] at hfails
  cases hfails

/-- Nothing that a daemon removes in time is listened on. -/
theorem StartInv.not_unlinksListener (h : StartInv world) (hundisturbed : InOrder world move) :
    ¬ UnlinksListener world move := by
  rintro ⟨-, refusedBy, hrefused, j, hnode, hlistens⟩
  have hnobody := h.not_hasBound_of_refused hundisturbed hrefused j
  cases hphase : world.phase j <;> simp_all [StartPhase.listens, StartPhase.hasBound]

section Update

variable [DecidableEq ι]

/-- A daemon that has not ended comes further, and is not refused by a live one. -/
theorem StartInv.refused_update (h : StartInv world) {i : ι} {phase : StartPhase ι}
    (hlive : (world.phase i).isExited = false)
    (hphase : ∀ isSocket j, phase = .refused isSocket (some (.boundBy j)) →
      (world.phase j).isExited = true) :
    ∀ k isSocket j, (world.setPhase i phase).phase k = .refused isSocket (some (.boundBy j)) →
      ((world.setPhase i phase).phase j).isExited = true := by
  intro k isSocket j hk
  have hexited : (world.phase j).isExited = true := by
    by_cases hki : k = i
    · subst hki
      exact hphase isSocket j (by simpa [SocketWorld.setPhase] using hk)
    · exact h.refused k isSocket j (by simpa [SocketWorld.setPhase, hki] using hk)
  have hji : j ≠ i := by
    rintro rfl
    rw [hlive] at hexited
    cases hexited
  simpa [SocketWorld.setPhase, hji] using hexited

/-- The step lemma. -/
theorem StartInv.change (h : StartInv world) (hundisturbed : InOrder world move)
    (hchange : StartChange world move next) : StartInv next := by
  cases hchange with
  | stays => exact h
  | moves phase parent hlive hbound hkept hrefused =>
    refine ⟨fun i hi => ?_, fun i hi => ?_, h.refused_update hlive fun _ _ hphase =>
      absurd hphase (hrefused _ _)⟩
    · apply h.owner
      by_cases heq : i = move.1
      · subst heq
        exact hbound (by simpa [SocketWorld.setPhase] using hi)
      · simpa [SocketWorld.setPhase, heq] using hi
    · have hstill := h.bound i hi
      by_cases heq : i = move.1
      · subst heq
        rw [hlive] at hstill
        simpa [SocketWorld.setPhase] using hkept (hstill.resolve_right Bool.false_ne_true)
      · simpa [SocketWorld.setPhase, heq] using hstill
  | refused isSocket hfound hsilent =>
    have hlive : (world.phase move.1).isExited = false := by simp [hfound, StartPhase.isExited]
    refine ⟨fun i hi => ?_, fun i hi => ?_, h.refused_update hlive fun _ j hphase => ?_⟩
    · apply h.owner
      by_cases heq : i = move.1
      · simp [SocketWorld.setPhase, heq, StartPhase.hasBound] at hi
      · simpa [SocketWorld.setPhase, heq] using hi
    · have hexited := h.isExited_of_silent hundisturbed hfound hsilent hi
      have heq : i ≠ move.1 := by
        rintro rfl
        rw [hlive] at hexited
        cases hexited
      right
      simpa [SocketWorld.setPhase, heq] using hexited
    · simp only [StartPhase.refused.injEq] at hphase
      exact h.isExited_of_silent hundisturbed hfound hsilent hphase.2
  | unlinks node refusedBy hrefused hnode =>
    -- Nobody has bound the path, so nobody loses a socket.
    have hnobody := h.not_hasBound_of_refused hundisturbed hrefused
    have hlive : (world.phase move.1).isExited = false := by simp [hrefused, StartPhase.isExited]
    refine ⟨fun i hi => ?_, by simp, h.refused_update hlive (by simp)⟩
    by_cases heq : i = move.1
    · simp [SocketWorld.setPhase, heq, StartPhase.hasBound] at hi
    · simp [SocketWorld.setPhase, heq, hnobody i] at hi
  | binds hprepared hnode =>
    have hlive : (world.phase move.1).isExited = false := by simp [hprepared, StartPhase.isExited]
    refine ⟨fun i hi => ?_, fun i hi => ?_, h.refused_update hlive (by simp)⟩
    · by_cases heq : i = move.1
      · rw [heq]
      · simp [SocketWorld.setPhase, heq, h.not_hasBound hnode i] at hi
    · obtain rfl : move.1 = i := by simpa using hi
      left
      simp [SocketWorld.setPhase, StartPhase.hasBound]

end Update

end Invariant

/-! ## Runs -/

section Runs

variable {ι : Type} [DecidableEq ι] (path parent : String)

/-- For any number of daemons on a path at which there is nothing or a stale socket, and every order
    of their steps in which nothing disturbs them: no daemon removes the socket that another listens
    on, and at any time at most one daemon has bound the path. -/
theorem undisturbed_start_is_exclusive {world : SocketWorld ι} (hfresh : Fresh world)
    (moves : List (ι × StartEvent))
    (hundisturbed : Along (startStep path parent) InOrder world moves) :
    Along (startStep path parent) (fun world move => ¬ UnlinksListener world move) world moves ∧
      ∀ taken rest, moves = taken ++ rest →
        Exclusive (run (startStep path parent) world taken) := by
  have hstep : ∀ (world : SocketWorld ι) (move : ι × StartEvent), StartInv world →
      InOrder world move → StartInv (startStep path parent world move) :=
    fun world move hinv hmove => hinv.change hmove (startChange path parent world move)
  constructor
  · apply along_of_invariant hstep
    · exact fun world move hinv hmove => hinv.not_unlinksListener hmove
    · exact hfresh.startInv
    · exact hundisturbed
  · rintro taken rest rfl
    apply StartInv.exclusive
    exact run_invariant hstep hfresh.startInv (along_append.mp hundisturbed).1

/-- A stale socket in a private directory. -/
def staleSocket : SocketWorld Bool where
  parent := .directory true
  node := some .stale

/-- One daemon starts up on its own, and another finds it listening. -/
def startsInTurn : List (Bool × StartEvent) :=
  List.replicate 7 (false, .done) ++ List.replicate 3 (true, .done)

theorem fresh_staleSocket : Fresh staleSocket where
  called := fun _ => rfl
  node := .inr rfl

theorem startsInTurn_is_exclusive :
    Along (startStep "lswd.sock" "run") (fun world move => ¬ UnlinksListener world move) staleSocket
        startsInTurn ∧
      ∀ taken rest, startsInTurn = taken ++ rest →
        Exclusive (run (startStep "lswd.sock" "run") staleSocket taken) :=
  undisturbed_start_is_exclusive _ _ fresh_staleSocket _ (by decide)

/-- Both daemons are refused by the stale socket, and the second gets to its removal when the first
    is listening already. -/
def removesLate : List (Bool × StartEvent) :=
  List.replicate 3 (false, .done) ++ List.replicate 3 (true, .done) ++
    List.replicate 4 (false, .done) ++ List.replicate 4 (true, .done)

/-- The second daemon removes the socket of the first, and both supervisors run. -/
theorem late_removal_unlinks_listener :
    Fresh staleSocket ∧
      ¬ (Along (startStep "lswd.sock" "run") (fun world move => ¬ UnlinksListener world move)
        staleSocket removesLate) ∧
      ¬ Exclusive (run (startStep "lswd.sock" "run") staleSocket removesLate) := by
  refine ⟨fresh_staleSocket, ?_, ?_⟩
  · intro halong
    have hlate := (along_append.mp halong).2.1
    exact hlate ⟨rfl, some .stale, rfl, false, rfl, rfl⟩
  · intro hexclusive
    cases hexclusive false true rfl rfl

end Runs

end Lsw.Daemon
