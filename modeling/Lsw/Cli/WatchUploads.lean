import Lsw.Cli.WatchSync

/-!
# What a Watched Tree Loses

The stamp that an iteration records was taken before the upload, so an edit that falls between the
two is noticed by the next snapshot.  The first snapshot is taken after the initial push: an edit
between the two is recorded without having been uploaded.  In the runs without such an edit the
guest's copies are never older than what is recorded, and a file that stops changing is uploaded.
-/

namespace Lsw.Cli.WatchSync

open Lsw.Lib

/-! ## Stamps in order -/

/-- The stamps that a file has had from the given one on. -/
def since (history : List FileStamp) (stamp : FileStamp) : List FileStamp :=
  history.takeWhile (· ≠ stamp) ++ [stamp]

theorem since_head {history : List FileStamp} {stamp : FileStamp}
    (h : history.head? = some stamp) : since history stamp = [stamp] := by
  cases history with
  | nil => cases h
  | cons first older =>
    obtain rfl := Option.some.inj h
    simp [since]

/-- The newest stamp comes after all others. -/
theorem head_mem_since {history : List FileStamp} {newest stamp : FileStamp}
    (h : history.head? = some newest) (hmem : stamp ∈ history) : newest ∈ since history stamp := by
  cases history with
  | nil => cases h
  | cons first older =>
    obtain rfl := Option.some.inj h
    by_cases heq : first = stamp
    · simp [since, heq]
    · simp [since, heq]

/-- A new stamp does not change the order of the others. -/
theorem mem_since_cons {history : List FileStamp} {fresh stamp read : FileStamp}
    (hfresh : fresh ∉ history) (hstamp : stamp ∈ history) (h : read ∈ since history stamp) :
    read ∈ since (fresh :: history) stamp := by
  have hne : fresh ≠ stamp := fun heq => hfresh (heq ▸ hstamp)
  have hcons : since (fresh :: history) stamp = fresh :: since history stamp := by
    simp [since, hne]
  rw [hcons]
  exact List.mem_cons_of_mem _ h

/-! ## What is known of a world -/

namespace World

variable {w : World} {snapshot : LocalSnapshot}

/-- The guest's copy of a file is content of a stamp or of a later one. -/
def CopiedSince (w : World) (relative : String) (stamp : FileStamp) : Prop :=
  ∃ read, w.guest relative = some read ∧ read ∈ since (w.history relative) stamp

/-- Every stamp of a snapshot is one that its file has had, and the guest's copy is not older. -/
def Covered (w : World) (snapshot : LocalSnapshot) : Prop :=
  ∀ relative stamp, snapshot.files.lookup relative = some stamp →
    stamp ∈ w.history relative ∧ w.CopiedSince relative stamp

/-- The guest's copy of a file is what the file is now. -/
def Current (w : World) (relative : String) : Prop :=
  ∃ stamp, (w.history relative).head? = some stamp ∧ w.guest relative = some stamp

/-- An upload that reads from `read` on may replace the guest's copy under a snapshot. -/
def Reads (w : World) (snapshot : LocalSnapshot) (relative : String) (read : FileStamp) : Prop :=
  ∀ stamp, snapshot.files.lookup relative = some stamp → read ∈ since (w.history relative) stamp

/-- What holds in each phase as long as no file changes behind the back of the first snapshot. -/
def PhaseInv (w : World) : Phase → Prop
  | .collecting _ => True
  | .pushing todo reading =>
    (∀ relative ∈ w.present, ⟨relative, .file⟩ ∉ todo → w.Current relative) ∧
      ∀ read relative rest, reading = some read → todo = ⟨relative, .file⟩ :: rest →
        (w.history relative).head? = some read
  | .walking none _ => ∀ relative ∈ w.present, w.Current relative
  | .stating none todo current =>
    (∀ relative ∈ w.present, ⟨relative, .file⟩ ∈ todo → w.Current relative) ∧ w.Covered current
  | .sleeping previous => w.Covered previous
  | .walking (some previous) _ => w.Covered previous
  | .stating (some previous) _ current =>
    w.Covered previous ∧ ∀ file ∈ current.files, file.2 ∈ w.history file.1
  | .updating previous next _ files reading =>
    w.Covered previous ∧ w.Covered next ∧ (∀ file ∈ files, file.2 ∈ w.history file.1) ∧
      ∀ read relative stamp rest, reading = some read → files = (relative, stamp) :: rest →
        read ∈ since (w.history relative) stamp ∧ w.Reads previous relative read ∧
          w.Reads next relative read
  | .ended => True

/-- The invariant. -/
def Inv (w : World) : Prop := w.PhaseInv w.phase

/-- A file that is edited now may be recorded by the first snapshot without having been uploaded:
    it was read for the initial push, or missed by it, and its first `stat` is still to come. -/
def Exposed (w : World) (relative : String) : Prop :=
  match w.phase with
  | .pushing todo reading =>
    ⟨relative, .file⟩ ∉ todo ∨ todo.head? = some ⟨relative, .file⟩ ∧ reading.isSome = true
  | .walking none _ => True
  | .stating none todo _ => ⟨relative, .file⟩ ∈ todo
  | _ => False

/-- No file is created or edited while it is exposed, and the walk of the initial push misses none. -/
def Undisturbed (w : World) : Event → Prop
  | .edit relative _ => ¬ w.Exposed relative
  | .collected entries =>
    w.phase.isCollecting = true → ∀ relative ∈ w.present, ⟨relative, .file⟩ ∈ entries
  | _ => True

instance decidableExposed (w : World) (relative : String) : Decidable (w.Exposed relative) :=
  match w with
  | ⟨_, _, _, .pushing todo reading⟩ =>
    inferInstanceAs (Decidable (⟨relative, .file⟩ ∉ todo ∨
      todo.head? = some ⟨relative, .file⟩ ∧ reading.isSome = true))
  | ⟨_, _, _, .walking none _⟩ => inferInstanceAs (Decidable True)
  | ⟨_, _, _, .stating none todo _⟩ => inferInstanceAs (Decidable (⟨relative, .file⟩ ∈ todo))
  | ⟨_, _, _, .walking (some _) _⟩ => inferInstanceAs (Decidable False)
  | ⟨_, _, _, .stating (some _) _ _⟩ => inferInstanceAs (Decidable False)
  | ⟨_, _, _, .collecting _⟩ => inferInstanceAs (Decidable False)
  | ⟨_, _, _, .sleeping _⟩ => inferInstanceAs (Decidable False)
  | ⟨_, _, _, .updating _ _ _ _ _⟩ => inferInstanceAs (Decidable False)
  | ⟨_, _, _, .ended⟩ => inferInstanceAs (Decidable False)

instance decidableUndisturbed (w : World) : ∀ event, Decidable (w.Undisturbed event)
  | .edit relative _ => inferInstanceAs (Decidable (¬ w.Exposed relative))
  | .collected entries =>
    inferInstanceAs (Decidable (w.phase.isCollecting = true →
      ∀ relative ∈ w.present, ⟨relative, .file⟩ ∈ entries))
  | .delete _ | .proceed | .failed | .stat | .begin | .finish _ | .directory _ =>
    inferInstanceAs (Decidable True)

/-! ## Changes of the tree -/

section Edit

variable {relative : String} {stamp : FileStamp} (hfresh : stamp ∉ w.history relative)
include hfresh

theorem edit_of_fresh : w.edit relative stamp =
    { w with
      present := relative :: w.present.filter (· ≠ relative)
      history := Function.update w.history relative (stamp :: w.history relative) } :=
  if_neg hfresh

theorem mem_history_edit {other : String} {old : FileStamp} (h : old ∈ w.history other) :
    old ∈ (w.edit relative stamp).history other := by
  rw [edit_of_fresh hfresh]
  by_cases heq : other = relative
  · subst heq
    simpa using .inr h
  · simpa [Function.update_of_ne heq] using h

theorem mem_since_edit {other : String} {old read : FileStamp} (hold : old ∈ w.history other)
    (h : read ∈ since (w.history other) old) :
    read ∈ since ((w.edit relative stamp).history other) old := by
  rw [edit_of_fresh hfresh]
  by_cases heq : other = relative
  · subst heq
    simpa using mem_since_cons hfresh hold h
  · simpa [Function.update_of_ne heq] using h

theorem Covered.edit (h : w.Covered snapshot) : (w.edit relative stamp).Covered snapshot := by
  intro other old hlookup
  obtain ⟨hold, read, hguest, hread⟩ := h other old hlookup
  refine ⟨mem_history_edit hfresh hold, read, ?_, mem_since_edit hfresh hold hread⟩
  rw [edit_of_fresh hfresh]
  exact hguest

/-- An edit leaves the other files alone. -/
theorem head_edit_of_ne {other : String} (hne : other ≠ relative) :
    (w.edit relative stamp).history other = w.history other := by
  rw [edit_of_fresh hfresh]
  exact Function.update_of_ne hne _ _

theorem Current.edit_of_ne {other : String} (hne : other ≠ relative) (h : w.Current other) :
    (w.edit relative stamp).Current other := by
  obtain ⟨newest, hhead, hguest⟩ := h
  refine ⟨newest, ?_, ?_⟩
  · rwa [head_edit_of_ne hfresh hne]
  · rw [edit_of_fresh hfresh]
    exact hguest

end Edit

/-- A file that is not exposed changes, or is created. -/
theorem Inv.edit {relative : String} {stamp : FileStamp} (h : w.Inv) (hfree : ¬ w.Exposed relative) :
    (w.edit relative stamp).Inv := by
  by_cases hfresh : stamp ∈ w.history relative
  -- A stamp that the file has had before is no edit.
  · rw [World.edit, if_pos hfresh]
    exact h
  -- An edit changes one file and no phase of the loop.
  have hphase : (w.edit relative stamp).phase = w.phase := by rw [edit_of_fresh hfresh]
  have hpresent : ∀ other, other ∈ (w.edit relative stamp).present → other ≠ relative →
      other ∈ w.present := by
    intro other hother hne
    rw [edit_of_fresh hfresh] at hother
    rcases List.mem_cons.mp hother with heq | hmem
    · exact absurd heq hne
    · exact (List.mem_filter.mp hmem).1
  -- What was read before the edit still shows that there is a change since.
  have hreads : ∀ {snapshot : LocalSnapshot} {other read}, w.Covered snapshot →
      w.Reads snapshot other read → (w.edit relative stamp).Reads snapshot other read :=
    fun hcovered hread old hlookup =>
      mem_since_edit hfresh (hcovered _ _ hlookup).1 (hread old hlookup)
  unfold Inv at h ⊢
  unfold Exposed at hfree
  rw [hphase]
  -- Only while the first snapshot is not complete can an edit be missed.
  cases hp : w.phase with
  | collecting alive => trivial
  -- The file is still to be pushed: it is among those that are, and not being read.
  | pushing todo reading =>
    rw [hp] at h hfree
    obtain ⟨hcurrent, hreading⟩ := h
    refine ⟨?_, ?_⟩
    · intro other hother hdone
      have hne : other ≠ relative := fun heq => hfree (.inl (heq ▸ hdone))
      exact (hcurrent other (hpresent other hother hne) hdone).edit_of_ne hfresh hne
    · intro read other rest hread htodo
      have hne : other ≠ relative := by
        rintro rfl
        exact hfree (.inr ⟨by rw [htodo]; rfl, by rw [hread]; rfl⟩)
      rw [head_edit_of_ne hfresh hne]
      exact hreading read other rest hread htodo
  -- Without a previous snapshot any file is exposed.
  | walking previous alive =>
    rw [hp] at h hfree
    cases previous with
    | none => exact absurd trivial hfree
    | some previous => exact Covered.edit hfresh h
  -- The first snapshot: the file is not among those that are still to be looked at.
  | stating previous todo current =>
    rw [hp] at h hfree
    cases previous with
    | none =>
      refine ⟨?_, h.2.edit hfresh⟩
      intro other hother htodo
      have hne : other ≠ relative := fun heq => hfree (heq ▸ htodo)
      exact (h.1 other (hpresent other hother hne) htodo).edit_of_ne hfresh hne
    | some previous =>
      exact ⟨h.1.edit hfresh, fun file hfile => mem_history_edit hfresh (h.2 file hfile)⟩
  | sleeping previous =>
    rw [hp] at h
    exact Covered.edit hfresh h
  -- What an upload has read stays the content of its stamp or of a later one.
  | updating previous next directories files reading =>
    rw [hp] at h
    obtain ⟨hprevious, hnext, hfiles, hreading⟩ := h
    refine ⟨hprevious.edit hfresh, hnext.edit hfresh,
      fun file hfile => mem_history_edit hfresh (hfiles file hfile), ?_⟩
    intro read other old rest hread hrest
    obtain ⟨hsince, hreadsPrevious, hreadsNext⟩ := hreading read other old rest hread hrest
    have hold : old ∈ w.history other := hfiles (other, old) (hrest ▸ List.mem_cons_self)
    exact ⟨mem_since_edit hfresh hold hsince, hreads hprevious hreadsPrevious,
      hreads hnext hreadsNext⟩
  | ended => trivial

/-- A deletion leaves fewer files to be accounted for. -/
theorem Inv.delete (h : w.Inv) (relative : String) : (w.step (.delete relative)).Inv := by
  -- A deletion leaves fewer files, and no stamp changes.
  have hpresent : ∀ other, other ∈ w.present.filter (· ≠ relative) → other ∈ w.present :=
    fun _ hother => (List.mem_filter.mp hother).1
  unfold Inv at h ⊢
  show PhaseInv _ (w.phase.forget relative)
  cases hp : w.phase with
  | collecting alive => trivial
  | pushing todo reading =>
    rw [hp] at h
    exact ⟨fun other hother => h.1 other (hpresent other hother), h.2⟩
  | walking previous alive =>
    rw [hp] at h
    cases previous with
    | none => exact fun other hother => h other (hpresent other hother)
    | some previous => exact h
  | stating previous todo current =>
    rw [hp] at h
    cases previous with
    | none => exact ⟨fun other hother => h.1 other (hpresent other hother), h.2⟩
    | some previous => exact h
  | sleeping previous =>
    rw [hp] at h
    exact h
  | updating previous next directories files reading =>
    rw [hp] at h
    exact h
  | ended => trivial

/-! ## Steps of the command -/

theorem Covered.retained {previous : LocalSnapshot} (h : w.Covered previous)
    (current : LocalSnapshot) : w.Covered (previous.retained current) := by
  intro relative stamp hlookup
  rw [LocalSnapshot.retained, lookup_retain] at hlookup
  split at hlookup
  next => exact h relative stamp hlookup
  next => cases hlookup

theorem Covered.insertFile {relative : String} {stamp : FileStamp} (h : w.Covered snapshot)
    (hstamp : stamp ∈ w.history relative) (hcopy : w.CopiedSince relative stamp) :
    w.Covered (snapshot.insertFile relative stamp) := by
  intro other old hlookup
  rw [LocalSnapshot.insertFile, lookup_insertEntry] at hlookup
  split at hlookup
  next heq =>
    obtain rfl := Option.some.inj hlookup
    subst heq
    exact ⟨hstamp, hcopy⟩
  next => exact h other old hlookup

/-- The guest's copy may be replaced by one that is read from a later stamp on. -/
theorem Covered.upload {relative : String} {read : FileStamp} (h : w.Covered snapshot)
    (hread : w.Reads snapshot relative read) : (w.upload relative read).Covered snapshot := by
  intro other old hlookup
  obtain ⟨hold, copy, hguest, hcopy⟩ := h other old hlookup
  refine ⟨hold, ?_⟩
  by_cases heq : other = relative
  · subst heq
    exact ⟨read, Function.update_self _ _ _, hread old hlookup⟩
  · exact ⟨copy, (Function.update_of_ne heq _ _).trans hguest, hcopy⟩

/-- A phase that is done hands on what it knows. -/
theorem Inv.proceed (h : w.Inv) : (w.step .proceed).Inv := by
  unfold Inv at h ⊢
  show PhaseInv _ (w.phase.proceed w.present)
  cases hp : w.phase with
  | collecting alive => trivial
  -- The push is done when no entry is left.
  | pushing todo reading =>
    rw [hp] at h
    cases todo with
    | nil => exact fun relative hrelative => h.1 relative hrelative (by simp)
    | cons entry todo => exact h
  | walking previous alive =>
    rw [hp] at h
    exact h
  -- So is a snapshot; the first one becomes the previous one.
  | stating previous todo current =>
    rw [hp] at h
    cases todo with
    | cons entry todo => cases previous <;> exact h
    | nil =>
      cases previous with
      | none => exact h.2
      -- What a later one shows to be new or changed is updated from it.
      | some previous =>
        refine ⟨h.1, h.1.retained current, ?_, ?_⟩
        · intro file hfile
          exact h.2 file (List.mem_filter.mp hfile).1
        · intro read relative stamp rest hread
          cases hread
  | sleeping previous =>
    rw [hp] at h
    exact h
  -- After an update its record is the previous snapshot.
  | updating previous next directories files reading =>
    rw [hp] at h
    cases directories with
    | cons directory directories => exact h
    | nil =>
      cases files with
      | cons file files => exact h
      | nil => exact h.2.1
  | ended => trivial

/-- A snapshot that fails leaves the recorded one; any other failure ends the loop. -/
theorem Inv.failed (h : w.Inv) : (w.step .failed).Inv := by
  unfold Inv at h ⊢
  show PhaseInv _ w.phase.failed
  cases hp : w.phase with
  | walking previous alive =>
    rw [hp] at h
    cases previous with
    | none => trivial
    | some previous => exact h
  | stating previous todo current =>
    rw [hp] at h
    cases previous with
    | none => trivial
    | some previous => exact h.1
  | sleeping previous =>
    rw [hp] at h
    exact h
  | _ => trivial

theorem covered_empty : w.Covered {} := by
  intro relative stamp hlookup
  cases hlookup

/-- A walk that ends gives the list of what is looked at next. -/
theorem Inv.collected {entries : List LocalEntry} (h : w.Inv)
    (hcalm : w.Undisturbed (.collected entries)) : (w.step (.collected entries)).Inv := by
  unfold Inv at h ⊢
  unfold Undisturbed at hcalm
  show PhaseInv _ (w.phase.collected entries)
  cases hp : w.phase with
  -- The walk of the initial push: by hypothesis it misses no file.
  | collecting alive =>
    rw [hp] at hcalm
    rw [Phase.collected]
    split
    next =>
      refine ⟨fun relative hrelative hmissed => absurd (hcalm rfl relative hrelative) hmissed, ?_⟩
      intro read relative rest hread
      cases hread
    next => trivial
  -- The walk of a snapshot, which has nothing entered yet.
  | walking previous alive =>
    rw [hp] at h
    rw [Phase.collected]
    split
    next =>
      cases previous with
      | none => exact ⟨fun relative hrelative _ => h relative hrelative, covered_empty⟩
      | some previous => exact ⟨h, by simp⟩
    next => exact h
  -- No other phase waits for a walk.
  | pushing todo reading =>
    rw [hp] at h
    exact h
  | stating previous todo current =>
    rw [hp] at h
    exact h
  | sleeping previous =>
    rw [hp] at h
    exact h
  | updating previous next directories files reading =>
    rw [hp] at h
    exact h
  | ended => trivial

/-- A stamp of the first snapshot is that of the copy; one of a later snapshot is just noted. -/
theorem Inv.stat (h : w.Inv) : w.stat.Inv := by
  unfold World.stat
  split
  -- A directory has no content.
  next previous relative todo current hp =>
    unfold Inv at h ⊢
    rw [hp] at h
    cases previous with
    | none =>
      refine ⟨fun other hother htodo => h.1 other hother (List.mem_cons_of_mem _ htodo), ?_⟩
      exact h.2
    | some previous => exact h
  next previous relative todo current hp =>
    split
    next stamp hhead =>
      split
      next hpresent =>
        unfold Inv at h ⊢
        rw [hp] at h
        -- The stamp is the newest of its file.
        have hstamp : stamp ∈ w.history relative := List.mem_of_mem_head? hhead
        cases previous with
        | none =>
          obtain ⟨hcurrent, hcovered⟩ := h
          refine ⟨fun other hother htodo =>
            hcurrent other hother (List.mem_cons_of_mem _ htodo), ?_⟩
          -- The first snapshot: the copy is still current.
          obtain ⟨newest, hnewest, hguest⟩ := hcurrent relative hpresent List.mem_cons_self
          obtain rfl : newest = stamp := Option.some.inj (hnewest.symm.trans hhead)
          exact hcovered.insertFile hstamp ⟨newest, hguest, head_mem_since hhead hstamp⟩
        | some previous =>
          -- A later one notes a stamp that the file has had.
          refine ⟨h.1, ?_⟩
          intro file hfile
          rcases mem_insertEntry hfile with hold | rfl
          · exact h.2 file hold
          · exact hstamp
      next => exact h
    next => exact h
  next => exact h

/-- A reading that begins now is not older than any stamp the file has had. -/
theorem Covered.reads_newest {relative : String} {read : FileStamp} (h : w.Covered snapshot)
    (hhead : (w.history relative).head? = some read) : w.Reads snapshot relative read :=
  fun stamp hlookup => head_mem_since hhead (h relative stamp hlookup).1

/-- What is read is content of the newest stamp. -/
theorem Inv.begin (h : w.Inv) : w.begin.Inv := by
  unfold World.begin
  split
  -- What is read for the push is the newest content.
  next relative todo hp =>
    split
    next =>
      unfold Inv at h ⊢
      rw [hp] at h
      refine ⟨h.1, ?_⟩
      intro read other rest hread htodo
      obtain ⟨heq, -⟩ := List.cons.inj htodo
      obtain rfl : relative = other := congrArg LocalEntry.relative heq
      exact hread
    next => exact h
  -- What is read for an update is not older than any stamp of the file.
  next previous next' relative stamp files hp =>
    split
    next =>
      unfold Inv at h ⊢
      rw [hp] at h
      obtain ⟨hprevious, hnext, hfiles, -⟩ := h
      refine ⟨hprevious, hnext, hfiles, ?_⟩
      intro read other old rest hread hrest
      obtain ⟨heq, -⟩ := List.cons.inj hrest
      obtain ⟨rfl, rfl⟩ := Prod.mk.inj heq
      exact ⟨head_mem_since hread (hfiles _ List.mem_cons_self), hprevious.reads_newest hread,
        hnext.reads_newest hread⟩
    next => exact h
  next => exact h

theorem Current.upload_of_ne {relative other : String} {read : FileStamp} (hne : other ≠ relative)
    (h : w.Current other) : (w.upload relative read).Current other := by
  obtain ⟨newest, hhead, hguest⟩ := h
  exact ⟨newest, hhead, (Function.update_of_ne hne _ _).trans hguest⟩

/-- An upload that ends: whatever it reports, the copy is not older than a recorded stamp. -/
theorem Inv.finish (h : w.Inv) (outcome : UploadEnd) : (w.finish outcome).Inv := by
  unfold World.finish
  split
  -- A push that is done: the copy is what was read, which is the current content.
  next relative todo read hp =>
    unfold Inv at h ⊢
    rw [hp] at h
    refine ⟨?_, fun _ _ _ hread => by cases hread⟩
    intro other hother hdone
    by_cases heq : other = relative
    · subst heq
      exact ⟨read, h.2 read other todo rfl rfl, Function.update_self _ _ _⟩
    · refine Current.upload_of_ne heq (h.1 other hother fun hmem => ?_)
      rcases List.mem_cons.mp hmem with hfirst | hrest
      · exact heq (congrArg LocalEntry.relative hfirst)
      · exact hdone hrest
  -- A push that fails ends the loop.
  next => trivial
  next => trivial
  -- An upload of the update is done: its stamp is recorded in the next snapshot.
  next previous next' relative stamp files read hp =>
    unfold Inv at h ⊢
    rw [hp] at h
    obtain ⟨hprevious, hnext, hfiles, hreading⟩ := h
    obtain ⟨hsince, hreadsPrevious, hreadsNext⟩ := hreading read relative stamp files rfl rfl
    refine ⟨hprevious.upload hreadsPrevious, ?_,
      fun file hfile => hfiles file (List.mem_cons_of_mem _ hfile), fun _ _ _ _ hread => by cases hread⟩
    refine (hnext.upload hreadsNext).insertFile (hfiles _ List.mem_cons_self) ?_
    -- The copy is what was read at that stamp or at a later one.
    exact ⟨read, Function.update_self _ _ _, hsince⟩
  -- It is reported as failed although the guest has it: nothing is recorded.
  next previous next' relative stamp files read hp =>
    unfold Inv at h ⊢
    rw [hp] at h
    obtain ⟨hprevious, hnext, hfiles, hreading⟩ := h
    obtain ⟨-, hreadsPrevious, hreadsNext⟩ := hreading read relative stamp files rfl rfl
    exact ⟨hprevious.upload hreadsPrevious, hnext.upload hreadsNext,
      fun file hfile => hfiles file (List.mem_cons_of_mem _ hfile), fun _ _ _ _ hread => by cases hread⟩
  -- It is refused: the copy stays as it was.
  next previous next' file files reading hp =>
    unfold Inv at h ⊢
    rw [hp] at h
    obtain ⟨hprevious, hnext, hfiles, -⟩ := h
    exact ⟨hprevious, hnext, fun file hfile => hfiles file (List.mem_cons_of_mem _ hfile),
      fun _ _ _ _ hread => by cases hread⟩
  next => exact h

/-- A directory has no content. -/
theorem Inv.directory (h : w.Inv) (created : Bool) : (w.step (.directory created)).Inv := by
  unfold Inv at h ⊢
  show PhaseInv _ (w.phase.directory created)
  unfold Phase.directory
  split
  next relative todo reading hp =>
    rw [hp] at h
    split
    next =>
      refine ⟨fun other hother hdone => h.1 other hother ?_, fun _ _ _ hread => by cases hread⟩
      simpa using hdone
    next => trivial
  next previous next' relative directories files reading hp =>
    rw [hp] at h
    obtain ⟨hprevious, hnext, hfiles, -⟩ := h
    refine ⟨hprevious, ?_, hfiles, fun _ _ _ _ hread => by cases hread⟩
    split
    · exact hnext
    · exact hnext
  next => exact h

theorem Inv.step {event : Event} (h : w.Inv) (hcalm : w.Undisturbed event) : (w.step event).Inv := by
  cases event with
  | edit relative stamp => exact h.edit hcalm
  | delete relative => exact h.delete relative
  | proceed => exact h.proceed
  | failed => exact h.failed
  | collected entries => exact h.collected hcalm
  | stat => exact h.stat
  | begin => exact h.begin
  | finish outcome => exact h.finish outcome
  | directory created => exact h.directory created

theorem Inv.run {events : List Event} (h : w.Inv) (hcalm : Along World.step Undisturbed w events) :
    (Lib.run World.step w events).Inv :=
  run_invariant (fun _ _ hinv hstep => hinv.step hstep) h hcalm

/-- What the invariant says of the recorded snapshot. -/
theorem Inv.covered {previous : LocalSnapshot} (h : w.Inv) (hrecorded : w.phase.recorded = some previous) :
    w.Covered previous := by
  unfold Inv at h
  cases hp : w.phase with
  | walking recorded alive =>
    rw [hp] at h hrecorded
    obtain rfl : recorded = some previous := hrecorded
    exact h
  | stating recorded todo current =>
    rw [hp] at h hrecorded
    obtain rfl : recorded = some previous := hrecorded
    exact h.1
  | sleeping recorded =>
    rw [hp] at h hrecorded
    obtain rfl : recorded = previous := Option.some.inj hrecorded
    exact h
  | updating recorded next directories files reading =>
    rw [hp] at h hrecorded
    obtain rfl : recorded = previous := Option.some.inj hrecorded
    exact h.1
  | _ =>
    rw [hp] at hrecorded
    cases hrecorded

/-! ## A file that has stopped changing -/

/-- The file that is being uploaded. -/
def uploading (w : World) : Option String :=
  match w.phase with
  | .pushing (⟨relative, .file⟩ :: _) _ => some relative
  | .updating _ _ [] ((relative, _) :: _) _ => some relative
  | _ => none

/-- The file does not change any more, snapshots do not fail, and neither do its uploads. -/
def Settled (relative : String) (w : World) : Event → Prop
  | .edit other _ => other ≠ relative
  | .delete other => other ≠ relative
  | .failed => False
  | .finish outcome => w.uploading = some relative → outcome = .done
  | _ => True

instance decidableSettled (relative : String) (w : World) :
    ∀ event, Decidable (w.Settled relative event)
  | .edit other _ | .delete other => inferInstanceAs (Decidable (other ≠ relative))
  | .failed => inferInstanceAs (Decidable False)
  | .finish outcome =>
    inferInstanceAs (Decidable (w.uploading = some relative → outcome = .done))
  | .proceed | .collected _ | .stat | .begin | .directory _ => inferInstanceAs (Decidable True)

/-- How far an iteration has come with a file whose newest stamp is `newest`. -/
def PhaseToward (w : World) (relative : String) (newest : FileStamp) : Phase → Prop
  | .walking (some _) alive => relative ∈ alive
  | .stating (some _) todo current =>
    (⟨relative, .file⟩ ∈ todo ∨ current.files.lookup relative = some newest) ∧
      ∀ stamp, (relative, stamp) ∈ current.files → stamp = newest
  | .updating _ _ _ files reading =>
    ((relative, newest) ∈ files ∨ w.guest relative = some newest) ∧
      ∀ read stamp rest, reading = some read → files = (relative, stamp) :: rest → read = newest
  | .sleeping _ => w.guest relative = some newest
  | _ => False

/-- The file is there, and the iteration will upload it or has done so. -/
structure Toward (relative : String) (newest : FileStamp) (w : World) : Prop where
  inv : w.Inv
  present : relative ∈ w.present
  head : (w.history relative).head? = some newest
  phase : w.PhaseToward relative newest w.phase

section Toward

variable {relative : String} {newest : FileStamp}

/-- Once the first snapshot is taken nothing is exposed. -/
theorem Toward.undisturbed (h : w.Toward relative newest) (event : Event) : w.Undisturbed event := by
  have hphase := h.phase
  cases event with
  | edit other stamp =>
    show ¬ w.Exposed other
    unfold Exposed
    split
    next todo reading hp => rw [hp] at hphase; exact hphase.elim
    next alive hp => rw [hp] at hphase; exact hphase.elim
    next todo current hp => rw [hp] at hphase; exact hphase.elim
    next => exact not_false
  | collected entries =>
    intro hcollecting
    cases hp : w.phase with
    | collecting alive => rw [hp] at hphase; exact hphase.elim
    | _ => rw [hp] at hcollecting; cases hcollecting
  | _ => trivial

theorem Toward.edit {other : String} (h : w.Toward relative newest) (stamp : FileStamp)
    (hne : other ≠ relative) : (w.edit other stamp).Toward relative newest := by
  by_cases hfresh : stamp ∈ w.history other
  · rw [World.edit, if_pos hfresh]
    exact h
  refine ⟨h.inv.edit (h.undisturbed (.edit other stamp)), ?_, ?_, ?_⟩
  · rw [edit_of_fresh hfresh]
    exact List.mem_cons_of_mem _ (List.mem_filter.mpr ⟨h.present, by simpa using hne.symm⟩)
  · rw [head_edit_of_ne hfresh hne.symm]
    exact h.head
  · rw [edit_of_fresh hfresh]
    exact h.phase

/-- The deletion of another file. -/
theorem Toward.delete {other : String} (h : w.Toward relative newest) (hne : other ≠ relative) :
    (w.step (.delete other)).Toward relative newest := by
  have hmem : ∀ {names : List String}, relative ∈ names → relative ∈ names.filter (· ≠ other) :=
    fun hmem => List.mem_filter.mpr ⟨hmem, by simpa using hne.symm⟩
  refine ⟨h.inv.delete other, hmem h.present, h.head, ?_⟩
  have hphase := h.phase
  show PhaseToward _ relative newest (w.phase.forget other)
  cases hp : w.phase with
  | walking previous alive =>
    rw [hp] at hphase
    cases previous with
    | none => exact hphase
    | some previous => exact hmem hphase
  | stating previous todo current => rw [hp] at hphase; exact hphase
  | sleeping previous => rw [hp] at hphase; exact hphase
  | updating previous next directories files reading => rw [hp] at hphase; exact hphase
  | collecting alive => rw [hp] at hphase; exact hphase
  | pushing todo reading => rw [hp] at hphase; exact hphase
  | ended => rw [hp] at hphase; exact hphase

/-- When the uploads begin, the file is among them unless the guest has it already. -/
theorem Toward.proceed (h : w.Toward relative newest) :
    (w.step .proceed).Toward relative newest := by
  refine ⟨h.inv.proceed, h.present, h.head, ?_⟩
  have hphase := h.phase
  have hinv := h.inv
  unfold Inv at hinv
  show PhaseToward _ relative newest (w.phase.proceed w.present)
  cases hp : w.phase with
  | collecting alive => rw [hp] at hphase; exact hphase
  | pushing todo reading => rw [hp] at hphase; exact hphase.elim
  | walking previous alive => rw [hp] at hphase; exact hphase
  -- The snapshot is complete, so the file is in it with its newest stamp.
  | stating previous todo current =>
    rw [hp] at hphase hinv
    cases todo with
    | cons entry todo => cases previous <;> exact hphase
    | nil =>
      cases previous with
      | none => exact hphase.elim
      | some previous =>
        have hlookup : current.files.lookup relative = some newest :=
          hphase.1.resolve_left (by simp)
        refine ⟨?_, fun _ _ _ hread => by cases hread⟩
        by_cases hsame : previous.files.lookup relative = some newest
        · -- The stamp is the recorded one, so the copy is content of the newest stamp.
          obtain ⟨-, read, hguest, hread⟩ := hinv.1 relative newest hsame
          rw [since_head h.head, List.mem_singleton] at hread
          exact .inr (hread ▸ hguest)
        · exact .inl (List.mem_filter.mpr ⟨mem_of_lookup hlookup, by simpa using hsame⟩)
  | sleeping previous => exact h.present
  | updating previous next directories files reading =>
    rw [hp] at hphase
    cases directories with
    | cons directory directories => exact hphase
    | nil =>
      cases files with
      | cons file files => exact hphase
      -- No upload is left, so the copy is the newest.
      | nil => exact hphase.1.resolve_left (by simp)
  | ended => rw [hp] at hphase; exact hphase

/-- A walk that ends has found the file. -/
theorem Toward.collected (h : w.Toward relative newest) (entries : List LocalEntry) :
    (w.step (.collected entries)).Toward relative newest := by
  refine ⟨h.inv.collected (h.undisturbed _), h.present, h.head, ?_⟩
  have hphase := h.phase
  show PhaseToward _ relative newest (w.phase.collected entries)
  cases hp : w.phase with
  | collecting alive => rw [hp] at hphase; exact hphase.elim
  | walking previous alive =>
    rw [hp] at hphase
    cases previous with
    | none => exact hphase.elim
    | some previous =>
      rw [Phase.collected]
      split
      next hfound => exact ⟨.inl (hfound relative hphase), by simp⟩
      next => exact hphase
  | pushing todo reading => rw [hp] at hphase; exact hphase
  | stating previous todo current => rw [hp] at hphase; exact hphase
  | sleeping previous => rw [hp] at hphase; exact hphase
  | updating previous next directories files reading => rw [hp] at hphase; exact hphase
  | ended => rw [hp] at hphase; exact hphase

/-- The file is looked at, or waits for it. -/
theorem Toward.stat (h : w.Toward relative newest) : w.stat.Toward relative newest := by
  have hinv := h.inv.stat
  have hphase := h.phase
  unfold World.stat at hinv ⊢
  split at hinv
  -- A directory is entered, and no file.
  next previous other todo current hp =>
    refine ⟨hinv, h.present, h.head, ?_⟩
    rw [hp] at hphase
    cases previous with
    | none => exact hphase
    | some previous => exact ⟨hphase.1.imp_left (by simp), hphase.2⟩
  next previous other todo current hp =>
    -- A file that is there is entered with its stamp of this moment.
    split at hinv
    next stamp hhead =>
      split at hinv
      next hpresent =>
        rw [if_pos hpresent]
        refine ⟨hinv, h.present, h.head, ?_⟩
        rw [hp] at hphase
        cases previous with
        | none => exact hphase
        | some previous =>
          -- It is the file in question, or another one whose entry changes nothing for it.
          by_cases heq : other = relative
          -- It is: the stamp entered is its newest.
          · subst heq
            obtain rfl : stamp = newest := Option.some.inj (hhead.symm.trans h.head)
            refine ⟨.inr ?_, ?_⟩
            · rw [LocalSnapshot.insertFile, lookup_insertEntry, if_pos rfl]
            · intro old hold
              rcases mem_insertEntry hold with hmem | hnew
              · exact hphase.2 old hmem
              · exact (Prod.mk.inj hnew).2
          · refine ⟨?_, ?_⟩
            · rw [LocalSnapshot.insertFile, lookup_insertEntry, if_neg (Ne.symm heq)]
              refine hphase.1.imp_left fun hmem => ?_
              rcases List.mem_cons.mp hmem with hfirst | hrest
              · exact absurd (congrArg LocalEntry.relative hfirst).symm heq
              · exact hrest
            · intro old hold
              rcases mem_insertEntry hold with hmem | hnew
              · exact hphase.2 old hmem
              · exact absurd (Prod.mk.inj hnew).1.symm heq
      next hpresent =>
        rw [if_neg hpresent]
        exact h
    next => exact h
  next => exact h

/-- What is read of the file is its newest content. -/
theorem Toward.begin (h : w.Toward relative newest) : w.begin.Toward relative newest := by
  have hinv := h.inv.begin
  have hphase := h.phase
  unfold World.begin at hinv ⊢
  split at hinv
  -- The push is over.
  next other todo hp =>
    rw [hp] at hphase
    exact hphase.elim
  -- What is read is the newest content, as there is no further edit.
  next previous next' other stamp files hp =>
    split at hinv
    next hpresent =>
      rw [if_pos hpresent]
      refine ⟨hinv, h.present, h.head, ?_⟩
      rw [hp] at hphase
      refine ⟨hphase.1, ?_⟩
      intro read old rest hread hrest
      obtain ⟨heq, -⟩ := List.cons.inj hrest
      obtain ⟨rfl, -⟩ := Prod.mk.inj heq
      exact Option.some.inj (hread.symm.trans h.head)
    next hpresent =>
      rw [if_neg hpresent]
      exact h
  next => exact h

/-- The upload of the file puts its newest content in place. -/
theorem Toward.finish {outcome : UploadEnd} (h : w.Toward relative newest)
    (hdone : w.uploading = some relative → outcome = .done) :
    (w.finish outcome).Toward relative newest := by
  have hinv := h.inv.finish outcome
  have hphase := h.phase
  -- What is left of the uploads after one of another file.
  have hrest : ∀ {other : String} {stamp : FileStamp} {files : List (String × FileStamp)},
      other ≠ relative → (relative, newest) ∈ (other, stamp) :: files →
      (relative, newest) ∈ files := by
    intro other stamp files hne hmem
    rcases List.mem_cons.mp hmem with hfirst | hrest
    · exact absurd (Prod.mk.inj hfirst).1.symm hne
    · exact hrest
  unfold World.finish at hinv ⊢
  split at hinv
  next hp => rw [hp] at hphase; exact hphase.elim
  next hp => rw [hp] at hphase; exact hphase.elim
  next hp => rw [hp] at hphase; exact hphase.elim
  next previous next' other stamp files read hp =>
    refine ⟨hinv, h.present, h.head, ?_⟩
    rw [hp] at hphase
    refine ⟨?_, fun _ _ _ hread => by cases hread⟩
    by_cases heq : other = relative
    · subst heq
      obtain rfl : read = newest := hphase.2 read stamp files rfl rfl
      exact .inr (Function.update_self _ _ _)
    · exact hphase.1.imp (hrest heq) (Function.update_of_ne (Ne.symm heq) _ _).trans
  next previous next' other stamp files read hp =>
    have hne : other ≠ relative := by
      rintro rfl
      cases hdone (by rw [uploading, hp])
    refine ⟨hinv, h.present, h.head, ?_⟩
    rw [hp] at hphase
    refine ⟨?_, fun _ _ _ hread => by cases hread⟩
    exact hphase.1.imp (hrest hne) (Function.update_of_ne (Ne.symm hne) _ _).trans
  next previous next' file files reading hp =>
    have hne : file.1 ≠ relative := by
      intro heq
      cases hdone (by rw [uploading, hp]; exact congrArg some heq)
    refine ⟨hinv, h.present, h.head, ?_⟩
    rw [hp] at hphase
    exact ⟨hphase.1.imp_left (hrest hne), fun _ _ _ hread => by cases hread⟩
  next => exact h

/-- A directory is made before any file is read. -/
theorem Toward.directory (h : w.Toward relative newest) (created : Bool) :
    (w.step (.directory created)).Toward relative newest := by
  refine ⟨h.inv.directory created, h.present, h.head, ?_⟩
  have hphase := h.phase
  show PhaseToward _ relative newest (w.phase.directory created)
  unfold Phase.directory
  split
  next other todo reading hp =>
    rw [hp] at hphase
    exact hphase.elim
  next previous next' other directories files reading hp =>
    rw [hp] at hphase
    exact ⟨hphase.1, fun _ _ _ hread => by cases hread⟩
  next => exact hphase

theorem Toward.step {event : Event} (h : w.Toward relative newest)
    (hsettled : w.Settled relative event) : (w.step event).Toward relative newest := by
  cases event with
  | edit other stamp => exact h.edit stamp hsettled
  | delete other => exact h.delete hsettled
  | proceed => exact h.proceed
  | failed => exact hsettled.elim
  | collected entries => exact h.collected entries
  | stat => exact h.stat
  | begin => exact h.begin
  | finish outcome => exact h.finish hsettled
  | directory created => exact h.directory created

theorem Toward.run {events : List Event} (h : w.Toward relative newest)
    (hsettled : Along World.step (fun w => w.Settled relative) w events) :
    (Lib.run World.step w events).Toward relative newest :=
  run_invariant (fun _ _ htoward hstep => htoward.step hstep) h hsettled

end Toward

/-! ## Whole runs -/

/-- A file that is there has a stamp. -/
def Stamped (w : World) : Prop := ∀ relative ∈ w.present, w.history relative ≠ []

theorem stamped_start (tree : List (String × FileStamp)) : (start tree).Stamped := by
  intro relative hpresent hnone
  have hlookup : tree.lookup relative = none := by simpa [start] using hnone
  obtain ⟨file, hfile, rfl⟩ := List.mem_map.mp hpresent
  rw [List.lookup_eq_none_iff] at hlookup
  simpa using hlookup file hfile

/-- Only an edit or a deletion changes the tree. -/
theorem Stamped.step (h : w.Stamped) (event : Event) : (w.step event).Stamped := by
  cases event with
  -- An edit puts one file with its stamp in front.
  | edit relative stamp =>
    show (w.edit relative stamp).Stamped
    unfold World.edit
    split
    next => exact h
    next hfresh =>
      intro other hother
      by_cases heq : other = relative
      · subst heq
        simp
      · rcases List.mem_cons.mp hother with hfirst | hmem
        · exact absurd hfirst heq
        · simpa [Function.update_of_ne heq] using h other (List.mem_filter.mp hmem).1
  -- A deletion takes one away.
  | delete relative => exact fun other hother => h other (List.mem_filter.mp hother).1
  -- The loop itself looks at the tree and leaves it.
  | stat =>
    show w.stat.Stamped
    unfold World.stat
    split
    · exact h
    · split
      · split
        · exact h
        · exact h
      · exact h
    · exact h
  | begin =>
    show w.begin.Stamped
    unfold World.begin
    split
    · split
      · exact h
      · exact h
    · split
      · exact h
      · exact h
    · exact h
  | finish outcome =>
    show (w.finish outcome).Stamped
    unfold World.finish
    split <;> exact h
  | _ => exact h

theorem Stamped.run (h : w.Stamped) (events : List Event) :
    (Lib.run World.step w events).Stamped := by
  induction events generalizing w with
  | nil => exact h
  | cons event events ih => exact ih (h.step event)

/-- In a run that does not disturb the first snapshot, the guest's copy of a file is never older than
    the recorded stamp; and an iteration after which the file has stopped changing, whose snapshot
    and whose upload of the file succeed, leaves the guest with the newest content. -/
theorem watch_uploads_every_edit (tree : List (String × FileStamp)) (events : List Event)
    (hcalm : Along step Undisturbed (start tree) events) :
    (∀ previous relative stamp,
        (Lib.run step (start tree) events).phase.recorded = some previous →
        previous.files.lookup relative = some stamp →
        (Lib.run step (start tree) events).CopiedSince relative stamp) ∧
      ∀ previous previous' relative later,
        (Lib.run step (start tree) events).phase = .sleeping previous →
        relative ∈ (Lib.run step (start tree) events).present →
        Along step (fun w => w.Settled relative) (Lib.run step (start tree) events)
          (.proceed :: later) →
        (Lib.run step (start tree) (events ++ .proceed :: later)).phase = .sleeping previous' →
        (Lib.run step (start tree) (events ++ .proceed :: later)).guest relative =
          ((Lib.run step (start tree) (events ++ .proceed :: later)).history relative).head? := by
  -- The invariant holds in every calm run.
  have hinv : (Lib.run step (start tree) events).Inv := Inv.run trivial hcalm
  -- Every file has a stamp.
  have hstamped := (stamped_start tree).run events
  refine ⟨?_, ?_⟩
  · intro previous relative stamp hrecorded hlookup
    exact (hinv.covered hrecorded relative stamp hlookup).2
  · intro previous previous' relative later hsleeping hpresent hsettled hagain
    rw [run_append, run_cons] at hagain ⊢
    generalize Lib.run step (start tree) events = w at *
    -- The content that is to reach the guest.
    obtain ⟨newest, hhead⟩ : ∃ newest, (w.history relative).head? = some newest := by
      cases hhistory : w.history relative with
      | nil => exact absurd hhistory (hstamped relative hpresent)
      | cons newest older => exact ⟨newest, rfl⟩
    -- From the beginning of the iteration on, each step keeps it on its way.
    have htoward : (w.step .proceed).Toward relative newest := by
      refine ⟨hinv.proceed, hpresent, hhead, ?_⟩
      show PhaseToward _ relative newest (w.phase.proceed w.present)
      rw [hsleeping]
      exact hpresent
    -- So it has arrived when the loop sleeps again.
    have hend := htoward.run hsettled.2
    have hphase := hend.phase
    rw [hagain] at hphase
    rw [hend.head]
    exact hphase

/-- One file, and the stamp it gets when it is edited. -/
def demoTree : List (String × FileStamp) := [("a", ⟨1, 1⟩)]

def demoEntries : List LocalEntry := [⟨"a", .file⟩]

/-- The initial push of the file. -/
def demoPush : List Event := [.collected demoEntries, .begin, .finish .done]

/-- The first snapshot. -/
def demoSnapshot : List Event := [.proceed, .collected demoEntries, .stat, .proceed]

/-- An iteration after `proceed`, with an upload if there is one to make. -/
def demoIteration : List Event :=
  [.collected demoEntries, .stat, .proceed, .begin, .finish .done, .proceed]

/-- An edit after the first snapshot is uploaded by the next iteration. -/
theorem demo_edit_is_uploaded :
    let events := demoPush ++ demoSnapshot ++ [.edit "a" ⟨2, 2⟩]
    Along step Undisturbed (start demoTree) events ∧
      (Lib.run step (start demoTree) events).CopiedSince "a" ⟨1, 1⟩ ∧
      (Lib.run step (start demoTree) (events ++ .proceed :: demoIteration)).guest "a" =
        some ⟨2, 2⟩ := by
  intro events
  have hcalm : Along step Undisturbed (start demoTree) events := by decide
  obtain ⟨hrecorded, hiteration⟩ := watch_uploads_every_edit demoTree events hcalm
  refine ⟨hcalm, hrecorded { files := demoTree } "a" ⟨1, 1⟩ (by decide) (by decide), ?_⟩
  rw [hiteration { files := demoTree } { files := [("a", ⟨2, 2⟩)] } "a" demoIteration (by decide)
    (by decide) (by decide) (by decide)]
  decide

/-- An edit between the push and the first snapshot is recorded as if it had been uploaded, and no
    iteration uploads it. -/
theorem edit_before_first_snapshot_is_lost :
    let w := Lib.run step (start demoTree) (demoPush ++ [.edit "a" ⟨2, 2⟩] ++ demoSnapshot)
    w.phase = .sleeping { files := [("a", ⟨2, 2⟩)] } ∧ ¬ w.CopiedSince "a" ⟨2, 2⟩ ∧
      (Lib.run step w (.proceed :: demoIteration)).guest "a" = some ⟨1, 1⟩ := by
  intro w
  refine ⟨by decide, ?_, by decide⟩
  rintro ⟨read, hguest, hread⟩
  have hcopy : w.guest "a" = some ⟨1, 1⟩ := by decide
  obtain rfl : read = ⟨1, 1⟩ := Option.some.inj (hguest.symm.trans hcopy)
  exact absurd hread (by decide)

end World

end Lsw.Cli.WatchSync
