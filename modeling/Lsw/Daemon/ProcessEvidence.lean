import Lsw.Daemon.ProcessIdentity

/-!
# Evidence of a QEMU Process

`qemu_process_evidence` (`runtime.rs`) says whether the QEMU of an instance is still there when
its QMP socket does not answer: a child of this daemon is; otherwise the PID file and `/proc`
decide, and what cannot be read decides nothing.

The contents of the PID file and of `/proc` are parameters.
-/

namespace Lsw.Daemon

open Lsw.Lib Lsw.Core

/-! ## What is read -/

/-- `QemuProcessEvidence`. -/
inductive QemuProcessEvidence where
  | live
  | gone
  | unknown
  deriving DecidableEq, Repr

/-- `run/qemu.pid`: its length and its text, if that can be read. -/
inductive PidFile where
  | missing
  | irregular
  | regular (length : Nat) (contents : Option Str)
  deriving DecidableEq

/-- A `cmdline` file. -/
inductive CommandLineFile where
  | missing
  | unreadable
  | contents (line : List OsUnit)
  deriving DecidableEq

/-- `/proc`: its entries, unless it cannot be read, where an entry that cannot be read has no
    name; and the command line below each name. -/
structure ProcRoot where
  entries : Option (List (Option Str))
  commandLine : Str → CommandLineFile

/-! ## What is concluded -/

/-- `value.parse::<u32>().ok().filter(|pid| *pid > 1)`. -/
def parsePid (value : Str) : Option UInt32 :=
  match parseU32 value with
  | .ok pid => if 1 < pid then some pid else none
  | .error _ => none

/-- The loop of `scan_exact_qemu_process`. -/
def scanEntries (proc : ProcRoot) (instanceDir : PathBuf) (name : Str)
    (inspectionFailed : Bool) : List (Option Str) → QemuProcessEvidence
  | [] => if inspectionFailed then .unknown else .gone
  | none :: entries => scanEntries proc instanceDir name true entries
  | some entry :: entries =>
    if (parsePid entry).isNone then scanEntries proc instanceDir name inspectionFailed entries
    else
      match proc.commandLine entry with
      | .contents line =>
        if line ≠ [] ∧ qemuCommandMatchesInstance line instanceDir name = true then .live
        else scanEntries proc instanceDir name inspectionFailed entries
      | .missing => scanEntries proc instanceDir name inspectionFailed entries
      | .unreadable => scanEntries proc instanceDir name true entries

/-- `scan_exact_qemu_process`. -/
def scanExactQemuProcess (proc : ProcRoot) (instanceDir : PathBuf) (name : Str) :
    QemuProcessEvidence :=
  match proc.entries with
  | none => .unknown
  | some entries => scanEntries proc instanceDir name false entries

/-- The process of a PID, in `qemu_process_evidence_with_proc`. -/
def evidenceOfPid (proc : ProcRoot) (instanceDir : PathBuf) (name : Str) (pid : UInt32) :
    QemuProcessEvidence :=
  match proc.commandLine (decimal pid.toNat) with
  | .missing => .gone
  | .unreadable => .unknown
  | .contents line =>
    if line ≠ [] ∧ qemuCommandMatchesInstance line instanceDir name = true then .live else .gone

/-- `qemu_process_evidence_with_proc`. -/
def qemuProcessEvidenceWithProc (pidFile : PidFile) (proc : ProcRoot) (instanceDir : PathBuf)
    (name : Str) : QemuProcessEvidence :=
  match pidFile with
  | .missing => scanExactQemuProcess proc instanceDir name
  | .irregular => .unknown
  | .regular length contents =>
    if length = 0 ∨ 32 < length then .unknown
    else
      match contents.bind fun value => parsePid (trim value) with
      | none => .unknown
      | some pid => evidenceOfPid proc instanceDir name pid

/-- `qemu_process_evidence`. -/
def qemuProcessEvidence (ownedBySupervisor : Bool) (pidFile : PidFile) (proc : ProcRoot)
    (instanceDir : PathBuf) (name : Str) : QemuProcessEvidence :=
  if ownedBySupervisor then .live
  else qemuProcessEvidenceWithProc pidFile proc instanceDir name

/-! ## The scan -/

section Scan

variable {proc : ProcRoot} {instanceDir : PathBuf} {name : Str}

/-- A scan that finds nothing has seen every process, and none of them is the QEMU of the
    instance. -/
theorem scanEntries_eq_gone {inspectionFailed : Bool} {entries : List (Option Str)}
    (h : scanEntries proc instanceDir name inspectionFailed entries = .gone) :
    inspectionFailed = false ∧ ∀ entry, some entry ∈ entries → (parsePid entry).isSome →
      ∀ line, proc.commandLine entry = .contents line →
        qemuCommandMatchesInstance line instanceDir name = false := by
  -- Over the entries of the directory.
  induction entries generalizing inspectionFailed with
  | nil =>
    rw [scanEntries] at h
    split at h <;> simp_all
  | cons first entries ih =>
    cases first with
    -- An entry that cannot be read is an inspection that failed.
    | none =>
      rw [scanEntries] at h
      exact absurd (ih h).1 (by decide)
    | some first =>
      rw [scanEntries] at h
      split at h
      -- A name that is no number is passed over.
      · rename_i hpid
        refine ⟨(ih h).1, fun entry hmem hsome line hline => ?_⟩
        rcases List.mem_cons.mp hmem with heq | hmem
        · rw [Option.some.inj heq] at hsome
          simp [Option.isNone_iff_eq_none.mp hpid] at hsome
        · exact (ih h).2 entry hmem hsome line hline
      · split at h
        -- A process whose command line can be read is compared.
        · rename_i line hline
          split at h
          · cases h
          -- It is not the QEMU of the instance, also when its line is empty.
          · rename_i hno
            refine ⟨(ih h).1, fun entry hmem hsome line' hline' => ?_⟩
            rcases List.mem_cons.mp hmem with heq | hmem
            · rw [Option.some.inj heq, hline] at hline'
              cases hline'
              by_cases hempty : line = []
              · rw [hempty]
                rfl
              · simpa [hempty] using hno
            · exact (ih h).2 entry hmem hsome line' hline'
        -- A process that has ended in the meantime has no line.
        · rename_i hmissing
          refine ⟨(ih h).1, fun entry hmem hsome line hline => ?_⟩
          rcases List.mem_cons.mp hmem with heq | hmem
          · rw [Option.some.inj heq, hmissing] at hline
            cases hline
          · exact (ih h).2 entry hmem hsome line hline
        -- Any other failure to read is kept as a failed inspection.
        · exact absurd (ih h).1 (by decide)

/-- A process that `/proc` shows with the command line of the instance is found. -/
theorem scanExactQemuProcess_ne_gone {entries : List (Option Str)} {entry : Str}
    {line : List OsUnit} (hentries : proc.entries = some entries) (hmem : some entry ∈ entries)
    (hpid : (parsePid entry).isSome) (hline : proc.commandLine entry = .contents line)
    (hmatch : qemuCommandMatchesInstance line instanceDir name = true) :
    scanExactQemuProcess proc instanceDir name ≠ .gone := by
  intro hgone
  rw [scanExactQemuProcess, hentries] at hgone
  have hno := (scanEntries_eq_gone hgone).2 entry hmem hpid line hline
  rw [hno] at hmatch
  cases hmatch

end Scan

end Lsw.Daemon
