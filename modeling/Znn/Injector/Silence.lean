import Znn.Interaction.Transcript
import Znn.Injector.Calls

/-!
# Programs that give no signal

A request that lets a process run can give it a signal. Most programs of the injector never
do: among them the release of a tracee, the expiry of a breakpoint, the return of init to its
own tracer, and the injection into a process that is past its entry point.
-/

namespace Znn.Injector

open Interaction PtraceOps Trace Mode

/-- The signal that a request gives to the process it lets run. -/
def Call.carries : Call → Option Int
  | .cont _ signal | .detach _ signal => signal
  | _ => none

/-- Calls that give no signal to anybody. -/
def Call.withholds (request : Call) : Prop :=
  request.carries = none

/-- Calls that give no signal to anybody and do not wait. -/
def Call.silent (request : Call) : Prop :=
  request.withholds ∧ ∀ target, request ≠ .waitpid target

theorem Call.silent_of_edits {target : Pid} (request : Call) (isEdit : request.edits target) :
    request.silent := by
  cases request <;> first | exact isEdit.elim | exact ⟨rfl, by simp⟩

theorem Call.silent_of_reads (request : Call) (isRead : request.reads) : request.silent :=
  silent_of_edits request (edits_of_reads 0 request isRead)

section Silence

variable [Usize] {pid : Pid} {exe : String}

/-- No request of the program gives a signal to anybody, and it waits for nobody. -/
abbrev Silent {α : Type} (program : DaemonM α) : Prop :=
  StateProg.All (I := Sys) Call.silent program

omit [Usize] in
theorem silent_reads {α : Type} {program : Prog Sys α} (calls : Only Call.reads program) :
    Silent (liftM program) :=
  StateProg.All.lift (calls.mono Call.silent_of_reads)

omit [Usize] in
theorem silent_edits {α : Type} {program : Prog Sys α} (calls : Only (Call.edits pid) program) :
    Silent (liftM program) :=
  StateProg.All.lift (calls.mono Call.silent_of_edits)

omit [Usize] in
theorem silent_detach : Silent (liftM (Ptrace.detach pid none)) :=
  StateProg.All.lift ⟨⟨rfl, by simp⟩, fun _ => trivial⟩

omit [Usize] in
theorem silent_cont : Silent (liftM (Ptrace.cont pid none)) :=
  StateProg.All.lift ⟨⟨rfl, by simp⟩, fun _ => trivial⟩

omit [Usize] in
theorem silent_recordFailure (reason : String) : Silent (Daemon.recordFailure pid exe reason) := by
  apply StateProg.All.bind
  · exact StateProg.All.lift ⟨⟨rfl, by simp⟩, fun _ => trivial⟩
  intro _
  apply StateProg.All.bind (silent_reads (reads_perform (.processName pid exe) trivial))
  intro name
  exact StateProg.All.modify _

theorem silent_undo (tracee : Tracee) : Silent (Daemon.undo pid tracee) := by
  apply StateProg.All.bind (silent_edits (edits_releaseTracee pid tracee))
  intro _
  exact silent_detach

theorem silent_startLoader (tracee : Tracee) (regs : Regs) :
    Silent (Daemon.startLoader pid tracee regs) := by
  apply StateProg.All.bind (silent_edits (edits_startFile pid tracee .loader regs))
  rintro ⟨started, next⟩
  dsimp only
  split
  · exact StateProg.All.bind (silent_undo next) fun _ => StateProg.All.pure _
  · exact StateProg.All.bind silent_cont fun _ => StateProg.All.pure _

theorem silent_trapAtLate (tracee : Tracee) : Silent (Daemon.trapAtLate pid tracee) := by
  apply StateProg.All.bind (silent_reads (reads_readRegisters pid _))
  intro regs
  cases regs with
  | none =>
      apply StateProg.All.bind (silent_edits (edits_restoreEntry pid tracee))
      intro _
      exact StateProg.All.bind silent_detach fun _ => StateProg.All.pure _
  | some regs => exact silent_startLoader _ regs

theorem silent_injectLate [Config.Build] (stopped : StoppedTarget) :
    Silent (Daemon.injectLate pid exe stopped) := by
  apply StateProg.All.bind StateProg.All.get
  intro daemon
  apply StateProg.All.bind
  · exact silent_edits ((accesses_setEntryBreakpoint pid _ _).mono (Call.edits_of_accesses pid))
  intro armed
  cases armed with
  | none => exact StateProg.All.bind silent_detach fun _ => StateProg.All.pure _
  | some tracee =>
      apply StateProg.All.bind
      · apply StateProg.All.bind (silent_trapAtLate { tracee with state := .late })
        intro progress
        cases progress with
        | tracing owned => exact StateProg.All.bind (StateProg.All.modify _) fun _ => StateProg.All.pure _
        | finished => exact StateProg.All.pure _
      intro begun
      cases begun <;> exact StateProg.All.pure _

end Silence

section Withholding

variable [Usize] {pid : Pid}

/-- No request of the program gives a signal to anybody. -/
abbrev Withholding {α : Type} (program : DaemonM α) : Prop :=
  StateProg.All (I := Sys) Call.withholds program

omit [Usize] in
theorem Silent.withholding {α : Type} {program : DaemonM α} (silent : Silent program) :
    Withholding program :=
  StateProg.All.mono silent fun _ isSilent => isSilent.1

omit [Usize] in
theorem withholding_perform (request : Call) (withholds : request.withholds) :
    Withholding (liftM (perform request)) :=
  StateProg.All.lift ⟨withholds, fun _ => trivial⟩

omit [Usize] in
theorem withholding_stopTracee (timeoutMs : Nat) :
    Withholding (liftM (stopTracee pid timeoutMs)) := by
  apply StateProg.All.lift
  refine ⟨rfl, fun interrupted => ?_⟩
  dsimp only [Prog.bind]
  split
  · trivial
  · exact ⟨rfl, fun now => ⟨rfl, fun rounds => only_waitRounds Call.withholds rfl rfl _ rounds⟩⟩

theorem withholding_expireOne : Withholding (Daemon.expireOne pid) := by
  apply StateProg.All.bind StateProg.All.get
  intro daemon
  cases daemon.tracees.lookup pid with
  | none => exact StateProg.All.pure _
  | some tracee =>
      apply StateProg.All.bind (StateProg.All.modify _)
      intro _
      apply StateProg.All.bind (withholding_stopTracee _)
      intro status
      cases status with
      | none =>
          apply StateProg.All.bind (withholding_perform .nowMs rfl)
          intro now
          exact StateProg.All.modify _
      | some status =>
          dsimp only
          split
          · apply StateProg.All.bind (silent_edits (edits_releaseTracee pid tracee)).withholding
            intro _
            apply StateProg.All.bind silent_detach.withholding
            intro _
            exact StateProg.All.modify _
          · exact StateProg.All.modify _

theorem withholding_expirePending : Withholding Daemon.expirePending := by
  apply StateProg.All.bind (withholding_perform .nowMs rfl)
  intro now
  apply StateProg.All.bind StateProg.All.get
  intro daemon
  exact StateProg.All.forM fun _ => withholding_expireOne

theorem withholding_releaseOne : Withholding (Daemon.releaseOne pid) := by
  apply StateProg.All.bind StateProg.All.get
  intro daemon
  cases daemon.tracees.lookup pid with
  | none => exact StateProg.All.pure _
  | some tracee =>
      apply StateProg.All.bind (StateProg.All.modify _)
      intro _
      apply StateProg.All.bind (withholding_stopTracee _)
      intro status
      cases status with
      | none => exact StateProg.All.bind (StateProg.All.modify _) fun _ => StateProg.All.pure _
      | some status =>
          apply StateProg.All.bind (silent_edits (edits_releaseTracee pid tracee)).withholding
          intro _
          exact StateProg.All.bind silent_detach.withholding fun _ => StateProg.All.pure _

theorem withholding_releaseTracees : Withholding Daemon.releaseTracees := by
  have each (pids : List Pid) : Withholding (Daemon.releaseEach pids) := by
    induction pids with
    | nil => exact StateProg.All.pure _
    | cons pid rest ih =>
        apply StateProg.All.bind withholding_releaseOne
        intro first
        exact StateProg.All.bind ih fun _ => StateProg.All.pure _
  exact StateProg.All.bind StateProg.All.get fun _ => each _

omit [Usize] in
theorem withholding_handOverInit : Withholding Daemon.handOverInit := by
  apply StateProg.All.bind (withholding_stopTracee _)
  intro status
  cases status with
  | none => exact StateProg.All.pure _
  | some status =>
      apply StateProg.All.bind (withholding_perform (.detach 1 none) rfl)
      intro detached
      cases detached with
      | true => exact StateProg.All.bind (StateProg.All.modify _) fun _ => StateProg.All.pure _
      | false => exact StateProg.All.bind silent_cont.withholding fun _ => StateProg.All.pure _

end Withholding

end Znn.Injector
