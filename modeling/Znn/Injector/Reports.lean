import Znn.Injector.Leaves

/-!
# The kinds of a report

A status that the kernel reports of a traced process is of one of five kinds: the process is
gone, it has run a new program, it is about to exit, it has hit a trap, or it has stopped for
a reason that is none of the injector's business. The first four change the table; at the
last the process is let run again and nothing else happens.
-/

namespace Znn.Injector

open Interaction Trace

namespace Status

def Gone (status : Status) : Prop :=
  status.isExited ∨ status.isSignaled

/-- A stop by `SIGTRAP` that is not a group stop. -/
def StopsByTrap (status : Status) : Prop :=
  status.isStopped ∧ status.trapEvent ≠ Ptrace.EVENT_STOP ∧ status.stopSignal = Signal.SIGTRAP

def Execs (status : Status) : Prop :=
  status.StopsByTrap ∧ status.trapEvent = Ptrace.EVENT_EXEC

def Exits (status : Status) : Prop :=
  status.StopsByTrap ∧ status.trapEvent = Ptrace.EVENT_EXIT

def Forks (status : Status) : Prop :=
  status.StopsByTrap ∧ (status.trapEvent = Ptrace.EVENT_FORK ∨
    status.trapEvent = Ptrace.EVENT_VFORK ∨ status.trapEvent = Ptrace.EVENT_CLONE)

def Traps (status : Status) : Prop :=
  status.StopsByTrap ∧ ¬status.Execs ∧ ¬status.Exits ∧ ¬status.Forks

instance (status : Status) : Decidable status.Gone :=
  inferInstanceAs (Decidable (_ ∨ _))

instance (status : Status) : Decidable status.StopsByTrap :=
  inferInstanceAs (Decidable (_ ∧ _))

instance (status : Status) : Decidable status.Execs :=
  inferInstanceAs (Decidable (_ ∧ _))

instance (status : Status) : Decidable status.Exits :=
  inferInstanceAs (Decidable (_ ∧ _))

theorem not_gone_of_isStopped {status : Status} (stopped : status.isStopped = true) :
    (status.isExited || status.isSignaled) = false := by
  obtain ⟨status⟩ := status
  cases status <;> first | rfl | simp [Status.isStopped] at stopped

end Status

namespace Daemon

variable [Usize] [Config.Build] {pid : Pid} {status : Status}

theorem handleEvent_gone (gone : status.Gone) :
    handleEvent pid status =
      modify fun daemon => { daemon with tracees := daemon.tracees.erase pid } := by
  have ended : (status.isExited || status.isSignaled) = true := by
    simpa [Status.Gone] using gone
  unfold handleEvent
  rw [if_pos ended]

theorem handleEvent_stopsByTrap (byTrap : status.StopsByTrap) :
    handleEvent pid status = handleTrapEvent pid status.trapEvent := by
  obtain ⟨stopped, notGroup, trap⟩ := byTrap
  unfold handleEvent
  simp [Status.not_gone_of_isStopped stopped, stopped, notGroup, trap]

theorem handleEvent_execs (execs : status.Execs) :
    handleEvent pid status = handleExec pid := by
  rw [handleEvent_stopsByTrap execs.1, execs.2]
  unfold handleTrapEvent
  rw [if_neg (by decide), if_pos rfl]

theorem handleEvent_exits (exits : status.Exits) :
    handleEvent pid status = (do
      modify fun daemon => { daemon with tracees := daemon.tracees.erase pid }
      Ptrace.cont pid none) := by
  rw [handleEvent_stopsByTrap exits.1, exits.2]
  unfold handleTrapEvent
  rw [if_neg (by decide), if_neg (by decide), if_pos rfl]

theorem handleEvent_traps (traps : status.Traps) :
    handleEvent pid status = (do
      if pid ∈ (← get).tracees then
        handleTrap pid
      else
        Ptrace.cont pid none) := by
  obtain ⟨byTrap, notExec, notExit, notFork⟩ := traps
  rw [handleEvent_stopsByTrap byTrap]
  unfold handleTrapEvent
  rw [if_neg fun forks => notFork ⟨byTrap, forks⟩, if_neg fun execs => notExec ⟨byTrap, execs⟩,
    if_neg fun exits => notExit ⟨byTrap, exits⟩]

end Daemon

section Waits

open Mode

variable {allowed : Allowed} {pid : Pid}

/-- A status that a wait for the process has returned, as the kernel reported it. -/
def Reported (allowed : Allowed) (pid : Pid) (new : List Event) (status : Status) : Prop :=
  ∃ later raw, allowed later (.waitpid pid) (.status pid raw) ∧
    WaitStatus.fromRaw raw = some status.status ∧ Event.waited pid raw ∈ new

/-- A wait does nothing to any process, and what it returns has been reported. -/
def Waits (allowed : Allowed) (pid : Pid) (program : Prog Sys (Option Status)) : Prop :=
  ∀ log, program.wp (answering allowed) (fun result log' => ∃ new, log' = log ++ new ∧
    (∀ event ∈ new, event.acts = false) ∧
    ∀ status, result = some status → Reported allowed pid new status) log

theorem Waits.none : Waits allowed pid (Prog.pure Option.none) := by
  intro log
  refine ⟨[], by simp, by simp, ?_⟩
  rintro status ⟨⟩

theorem Waits.perform_bind (request : Call) (isRead : request.reads)
    {rest : request.Answer → Prog Sys (Option Status)}
    (second : ∀ answer, Waits allowed pid (rest answer)) :
    Waits allowed pid ((perform request).bind rest) := by
  intro log answer after step
  have still : after = log := by
    have moved := step.1
    rw [ledger_step, effects_of_reads isRead, List.append_nil] at moved
    exact moved
  rw [still]
  exact second answer log

theorem waits_waitRounds (deadline rounds : Nat) :
    Waits allowed pid (waitRounds pid deadline rounds) := by
  induction rounds with
  | zero => exact Waits.none
  | succ rounds ih =>
      have again : Waits allowed pid (do
          if (← perform .nowMs) ≥ deadline then
            return Option.none
          else
            waitRounds pid deadline rounds) := by
        apply Waits.perform_bind .nowMs trivial
        intro now
        split
        · exact Waits.none
        · exact ih
      intro log
      unfold waitRounds Wait.waitpid
      simp only [Prog.bind_eq, Prog.bind_assoc']
      intro answer after step
      have extend : ∀ {program}, Waits allowed pid program → program.wp (answering allowed)
          (fun result log' => ∃ new, log' = log ++ new ∧ (∀ event ∈ new, event.acts = false) ∧
            ∀ status, result = some status → Reported allowed pid new status) after := by
        intro program waits
        apply Prog.wp_mono (waits after)
        rintro result _ ⟨new, rfl, silent, reported⟩
        refine ⟨effects (.waitpid pid) answer ++ new, ?_, ?_, ?_⟩
        · rw [step.1, List.append_assoc]
        · intro event present
          rcases List.mem_append.mp present with first | second
          · cases answer with
            | status child raw =>
                rw [List.mem_singleton.mp first]
                rfl
            | _ => exact absurd first List.not_mem_nil
          · exact silent event second
        · intro status isStatus
          rcases reported status isStatus with ⟨later, raw, isAnswer, decoded, waited⟩
          exact ⟨later, raw, isAnswer, decoded, List.mem_append_right _ waited⟩
      cases answer with
      | stillAlive => exact extend again
      | interrupted => exact extend ih
      | noChild | failed => exact extend Waits.none
      | status child raw =>
          dsimp only [Prog.bind]
          cases decoded : WaitStatus.fromRaw raw with
          | none => exact extend Waits.none
          | some status =>
              dsimp only [Prog.bind, Prog.pure_eq]
              split
              case isFalse => exact extend again
              case isTrue same =>
                subst same
                refine ⟨[.waited child raw], step.1, by simp [Event.acts], ?_⟩
                rintro _ ⟨⟩
                exact ⟨log, raw, step.2, decoded, List.mem_singleton_self _⟩

theorem waits_waitForStop (deadline : Nat) : Waits allowed pid (waitForStop pid deadline) :=
  Waits.perform_bind .waitRounds trivial fun rounds => waits_waitRounds deadline rounds

theorem waits_stopTracee (timeoutMs : Nat) :
    Waits allowed pid (stopTracee pid timeoutMs) := by
  intro log ok after step
  have still : after = log := by
    have moved := step.1
    rw [ledger_step] at moved
    simpa [effects] using moved
  rw [still]
  dsimp only [Prog.bind]
  split
  · exact Waits.none log
  · exact Waits.perform_bind .nowMs trivial (fun now => waits_waitForStop _) log

end Waits

/-- What is done to a process at a stop that means nothing to the injector: it is let run. -/
def Event.Passes (event : Event) : Prop :=
  match event with
  | .waited _ _ | .resumed _ _ | .parked _ => True
  | _ => False

namespace Daemon

variable {allowed : Allowed} {pid other : Pid} {present : Prop}

theorem passes_cont (signal : Option Int) :
    Leaves allowed pid present Event.Passes (liftM (Ptrace.cont other signal) : DaemonM Unit) := by
  have calls : Only (fun request => request = .cont other (signal.bind Signal.fromNumber))
      (Ptrace.cont other signal) := ⟨rfl, fun _ => trivial⟩
  apply Leaves.lift calls
  rintro request rfl log answer _ event present
  rw [List.mem_singleton.mp present]
  trivial

theorem passes_handleStopEvent : Leaves allowed pid present Event.Passes (handleStopEvent other) := by
  apply Leaves.bind (Leaves.reads (reads_perform (.getsiginfo other) trivial))
  intro signo
  cases signo with
  | none => exact passes_cont none
  | some signo =>
      dsimp only
      split
      · apply Leaves.bind
        · apply Leaves.lift
          · exact ⟨rfl, fun _ => trivial⟩
          rintro request rfl log answer _ event present
          cases answer with
          | true =>
              rw [List.mem_singleton.mp present]
              trivial
          | false => exact absurd present List.not_mem_nil
        intro parked
        split
        · exact passes_cont none
        · exact Leaves.pure _
      · exact passes_cont none

variable [Usize] [Config.Build] {status : Status}

/-- A report that is of no kind that changes the table lets the process run again. -/
theorem passes_quiet (notGone : ¬status.Gone) (notExec : ¬status.Execs) (notExit : ¬status.Exits)
    (notTrap : ¬status.Traps) (notFork : ¬status.Forks) :
    Leaves allowed pid present Event.Passes (handleEvent other status) := by
  have alive : ¬(status.isExited || status.isSignaled) = true := by
    simpa [Status.Gone] using notGone
  unfold handleEvent
  rw [if_neg alive]
  split
  · exact Leaves.pure _
  case isFalse stopped =>
    split
    · exact passes_handleStopEvent
    case isFalse notGroup =>
      split
      case isTrue trap =>
        have byTrap : status.StopsByTrap := ⟨by simpa using stopped, notGroup, trap⟩
        exact absurd ⟨byTrap, notExec, notExit, notFork⟩ notTrap
      · split
        · exact passes_cont _
        split
        · exact passes_cont _
        apply Leaves.bind (Leaves.reportFault other _)
        intro _
        exact passes_cont _

/-- A report that is of none of the first four kinds lets the process run again. -/
theorem passes_handleEvent (isPresent : present) (notGone : ¬status.Gone) (notExec : ¬status.Execs)
    (notExit : ¬status.Exits) (notTrap : ¬status.Traps) :
    Leaves allowed pid present Event.Passes (handleEvent other status) := by
  by_cases forks : status.Forks
  · rw [handleEvent_stopsByTrap forks.1]
    unfold handleTrapEvent
    rw [if_pos forks.2]
    apply Leaves.bind (Leaves.reads (reads_perform (.eventMessage other) trivial))
    intro child
    cases child with
    | none => exact passes_cont none
    | some child =>
        dsimp only
        split
        · apply Leaves.bind (Leaves.attachChild isPresent child)
          intro _
          exact passes_cont none
        · exact passes_cont none
  · exact passes_quiet notGone notExec notExit notTrap forks

end Daemon

end Znn.Injector
