import Znn.Injector.Step

/-!
# Every reported stop is answered

One turn of `reap_traces` takes one status from the kernel. A stopped tracee stays stopped
until somebody lets it run, so the turn has to end with exactly one request that does, and a
process that is gone has to leave the table. The dispatch does both for every status it gets
to see; what it does not get to see are the statuses with a real-time signal, which the
decoder turns into an error after the kernel has let go of them.
-/

namespace Znn.Injector

open Interaction PtraceOps Trace

/-- The events with which a process is let run. -/
def letsCount (pid : Pid) (log : List Event) : Nat :=
  log.countP fun event => event.lets && event.pid == pid

theorem letsCount_append (pid : Pid) (first second : List Event) :
    letsCount pid (first ++ second) = letsCount pid first + letsCount pid second :=
  List.countP_append

theorem letsCount_significant (pid : Pid) (log : List Event) :
    letsCount pid log = letsCount pid (significant log) := by
  rw [letsCount, letsCount, significant, List.countP_filter]
  apply List.countP_congr
  intro event _
  cases event <;> simp [Event.lets]

theorem letsCount_closing {pid : Pid} {tracee : Tracee} {records : List Event}
    (closing : Closing pid tracee records) : letsCount pid records = 0 := by
  have one : ∀ exe reason, letsCount pid [.failed pid exe reason] = 0 := by
    intro exe reason
    rfl
  cases state : tracee.state with
  | entry | late =>
      simp only [Closing, state] at closing
      rw [closing]
      rfl
  | file =>
      simp only [Closing, state] at closing
      obtain ⟨reason, rfl⟩ := closing
      exact one _ _
  | dlopen | dlsym | dlerror =>
      simp only [Closing, state] at closing
      rcases closing with rfl | ⟨reason, rfl⟩
      · rfl
      · exact one _ _
  | init =>
      simp only [Closing, state] at closing
      rw [closing]
      rfl
  | traced => simp [Closing, state] at closing

theorem letsCount_stepTally {pid : Pid} {tracee : Tracee} {progress : Progress}
    {new : List Event} (tally : StepTally pid tracee (Closing pid tracee) progress new) :
    letsCount pid new = 1 := by
  cases progress with
  | tracing next =>
      rw [tally.1]
      simp [letsCount, Event.lets, Event.pid]
  | finished =>
      obtain ⟨records, rfl, closing⟩ := tally
      rw [letsCount_append, letsCount_closing closing]
      simp [letsCount, Event.lets, Event.pid]

/-- Every run of the program lets the process run exactly once. -/
def LetsOnce {α : Type} (allowed : Allowed) (pid : Pid) (program : DaemonM α) : Prop :=
  ∀ own log, StateProg.wp (answering allowed) program
    (fun _ _ log' => ∃ new, log' = log ++ new ∧ letsCount pid new = 1) own log

namespace LetsOnce

variable {α β : Type} {allowed : Allowed} {pid : Pid}

theorem of_tallies {program : DaemonM α} {tally : α → List Event → Prop}
    (tallies : Tallies allowed pid program tally)
    (once : ∀ value new, tally value new → letsCount pid new = 1) :
    LetsOnce allowed pid program := by
  intro own log
  apply StateProg.wp_mono (tallies own log)
  rintro value own' log' ⟨new, ⟨_, events, rfl, _, significant⟩, isTally⟩
  refine ⟨events, rfl, ?_⟩
  rw [letsCount_significant, significant]
  exact once value new isTally

theorem bind_modify {change : Daemon → Daemon} {rest : PUnit → DaemonM β}
    (second : LetsOnce allowed pid (rest ⟨⟩)) :
    LetsOnce allowed pid (modify change >>= rest) := by
  intro own log
  rw [StateProg.wp_bind, StateProg.wp_modify]
  exact second (change own) log

theorem bind_get {rest : Daemon → DaemonM β}
    (second : ∀ daemon, LetsOnce allowed pid (rest daemon)) :
    LetsOnce allowed pid (get >>= rest) := by
  intro own log
  rw [StateProg.wp_bind, StateProg.wp_get]
  exact second own own log

/-- A first part that lets nothing run. -/
theorem bind_silent {program : DaemonM α} {rest : α → DaemonM β}
    (silent : Tallies allowed pid program fun _ new => new = [])
    (second : ∀ value, LetsOnce allowed pid (rest value)) :
    LetsOnce allowed pid (program >>= rest) := by
  intro own log
  rw [StateProg.wp_bind]
  apply StateProg.wp_mono (silent own log)
  rintro value own' log' ⟨_, ⟨_, first, rfl, _, none⟩, rfl⟩
  apply StateProg.wp_mono (second value own' _)
  rintro _ _ _ ⟨new, rfl, once⟩
  refine ⟨first ++ new, by simp, ?_⟩
  rw [letsCount_append, letsCount_significant pid first, none, once]
  rfl

/-- A rest that lets nothing run any more. -/
theorem bind_then {program : DaemonM α} {rest : α → DaemonM β}
    (once : LetsOnce allowed pid program)
    (silent : ∀ value own log, StateProg.wp (answering allowed) (rest value)
      (fun _ _ log' => log' = log) own log) :
    LetsOnce allowed pid (program >>= rest) := by
  intro own log
  rw [StateProg.wp_bind]
  apply StateProg.wp_mono (once own log)
  intro value own' log' done
  apply StateProg.wp_mono (silent value own' log')
  rintro _ _ _ rfl
  exact done

theorem cont (signal : Option Int) :
    LetsOnce allowed pid (liftM (Ptrace.cont pid signal) : DaemonM Unit) := by
  apply of_tallies (Tallies.cont signal)
  rintro _ _ rfl
  simp [letsCount, Event.lets, Event.pid]

theorem detach (signal : Option Int) :
    LetsOnce allowed pid (liftM (Ptrace.detach pid signal) : DaemonM Unit) := by
  apply of_tallies (Tallies.detach signal)
  rintro _ _ rfl
  simp [letsCount, Event.lets, Event.pid]

end LetsOnce

namespace Daemon

variable {allowed : Allowed} {pid : Pid}

section Exec

variable [Usize]

theorem letsOnce_handleExec : LetsOnce allowed pid (handleExec pid) := by
  apply LetsOnce.bind_get
  intro daemon
  cases daemon.tracees.lookup pid with
  | none => exact LetsOnce.detach none
  | some tracee =>
      apply LetsOnce.bind_modify
      apply LetsOnce.bind_silent ((tallies_armEntryBreakpoint tracee).mono fun _ _ => And.left)
      intro armed
      cases armed with
      | none => exact LetsOnce.detach none
      | some tracee =>
          apply LetsOnce.bind_modify
          exact LetsOnce.cont none

end Exec

theorem letsOnce_handleStopEvent : LetsOnce allowed pid (handleStopEvent pid) := by
  apply LetsOnce.bind_silent
  · apply (Tallies.edits ((reads_perform (.getsiginfo pid) trivial).mono
      (Call.edits_of_reads pid)) (.anyValue _)).mono
    exact fun _ _ silent => silent.1
  intro signo
  cases signo with
  | none => exact LetsOnce.cont none
  | some signo =>
      dsimp only
      split
      · intro own log
        rw [StateProg.wp_bind, StateProg.wp_lift]
        intro parked after step
        cases parked with
        | false =>
            have nothing : after = log := by simpa [effects] using step.1
            rw [nothing]
            exact LetsOnce.cont none own log
        | true =>
            refine ⟨[.parked pid], step.1, ?_⟩
            simp [letsCount, Event.lets, Event.pid]
      · exact LetsOnce.cont none

variable [Usize] [Config.Build]

/-- A registered tracee is stepped; the table is updated without a request. -/
theorem letsOnce_handleTrap {own : Daemon} {log : List Event} (present : pid ∈ own.tracees) :
    StateProg.wp (answering allowed) (handleTrap pid)
      (fun _ _ log' => ∃ new, log' = log ++ new ∧ letsCount pid new = 1) own log := by
  obtain ⟨tracee, found⟩ := Option.isSome_iff_exists.mp (AList.lookup_isSome.mpr present)
  unfold handleTrap
  rw [StateProg.wp_bind, StateProg.wp_get, found]
  apply LetsOnce.bind_modify
  apply LetsOnce.bind_then
  · exact LetsOnce.of_tallies (tallies_step pid tracee) fun _ _ => letsCount_stepTally
  · intro progress own log
    cases progress <;> rfl

theorem letsOnce_handleTrapEvent (event : Int) :
    LetsOnce allowed pid (handleTrapEvent pid event) := by
  unfold handleTrapEvent
  split
  · apply LetsOnce.bind_silent
    · apply (Tallies.edits ((reads_perform (.eventMessage pid) trivial).mono
        (Call.edits_of_reads pid)) (.anyValue _)).mono
      exact fun _ _ silent => silent.1
    intro child
    cases child with
    | none => exact LetsOnce.cont none
    | some child =>
        dsimp only
        split
        · apply LetsOnce.bind_modify
          exact LetsOnce.cont none
        · exact LetsOnce.cont none
  split
  · exact letsOnce_handleExec
  split
  · apply LetsOnce.bind_modify
    exact LetsOnce.cont none
  intro own log
  rw [StateProg.wp_bind, StateProg.wp_get]
  split
  case isTrue present => exact letsOnce_handleTrap present
  case isFalse absent => exact LetsOnce.cont none own log

/-- Whatever the event and the signal of a stop, its handler lets the process run once. -/
theorem letsOnce_handleEvent {status : Status} (stopped : status.isStopped = true) :
    LetsOnce allowed pid (handleEvent pid status) := by
  have alive : (status.isExited || status.isSignaled) = false := by
    obtain ⟨status⟩ := status
    cases status <;> first | rfl | simp [Status.isStopped] at stopped
  unfold handleEvent
  rw [alive, stopped]
  simp only [Bool.false_eq_true, if_false, Bool.not_true]
  split
  · exact letsOnce_handleStopEvent
  split
  · exact letsOnce_handleTrapEvent _
  split
  · exact LetsOnce.cont _
  split
  · exact LetsOnce.cont _
  apply LetsOnce.bind_silent (tallies_reportFault _)
  intro _
  exact LetsOnce.cont _

end Daemon

/-- The kernel has this status, and only this one. -/
def reporting (pid : Pid) (raw : RawStatus) : Allowed
  | _, .waitpid _, answer => answer = .status pid raw
  | _, _, _ => True

/-- The statuses the kernel reports for a traced process. -/
def Reportable : RawStatus → Prop
  | .exited _ => True
  | .signaled signal | .stopped signal _ => 1 ≤ signal ∧ signal ≤ 64
  | .continued => False

/-- A stop is answered by one request that lets the process run, an end by its removal. -/
def Answered (pid : Pid) (raw : RawStatus) (after : Daemon) (log : List Event) : Prop :=
  match raw with
  | .stopped _ _ => letsCount pid log = 1
  | .exited _ | .signaled _ => pid ∉ after.tracees
  | .continued => True

/-- Every way a turn of the loop over this status can go answers it. -/
def TurnAnswers [Usize] [Config.Build] (pid : Pid) (raw : RawStatus) (before : Daemon) : Prop :=
  ∀ goesOn after log, StateProg.Runs (answering (reporting pid raw)) Daemon.reap before []
    goesOn after log → Answered pid raw after log

/-- The decoder knows the signal, or there is nothing to do. -/
def Decodable (pid : Pid) (raw : RawStatus) (before : Daemon) : Prop :=
  match raw with
  | .stopped signal _ => signal ≤ 31
  | .signaled signal => signal ≤ 31 ∨ pid ∉ before.tracees
  | .exited _ | .continued => True

theorem fromRaw_stopped {signal : Int} (event : Int) (real : 1 ≤ signal ∧ signal ≤ 64) :
    (signal ≤ 31 → ∃ status, WaitStatus.fromRaw (.stopped signal event) = some status ∧
      Status.isStopped ⟨status⟩ = true) ∧
    (31 < signal → WaitStatus.fromRaw (.stopped signal event) = none) := by
  have notSyscall : signal ≠ 133 := by omega
  constructor
  · intro known
    have number : Signal.fromNumber signal = some signal := by
      simp [Signal.fromNumber, real.1, known]
    by_cases plain : event = 0
    · exact ⟨.stopped signal, by simp [WaitStatus.fromRaw, notSyscall, plain, number], rfl⟩
    · exact ⟨.ptraceEvent signal event,
        by simp [WaitStatus.fromRaw, notSyscall, plain, number], rfl⟩
  · intro unknown
    have number : Signal.fromNumber signal = none := by
      simp [Signal.fromNumber]
      omega
    simp [WaitStatus.fromRaw, notSyscall, number]

section Reap

open Daemon

variable [Usize] [Config.Build] {pid : Pid} {raw : RawStatus} {own : Daemon}

omit [Usize] [Config.Build] in
theorem reporting_waitpid {log after : List Event} {target : Pid} {answer : WaitResult} :
    (answering (reporting pid raw)).Step log (.waitpid target) answer after ↔
      answer = .status pid raw ∧ after = log ++ [.waited pid raw] := by
  constructor
  · rintro ⟨moved, rfl⟩
    exact ⟨rfl, moved⟩
  · rintro ⟨rfl, rfl⟩
    exact ⟨rfl, rfl⟩

/-- A turn of the loop hands the decoded status to `handle_event`. -/
theorem wp_reap_some (status : WaitStatus) (decoded : WaitStatus.fromRaw raw = some status)
    {post : Bool → Daemon → List Event → Prop} :
    StateProg.wp (answering (reporting pid raw)) reap post own [] ↔
      StateProg.wp (answering (reporting pid raw)) (handleEvent pid ⟨status⟩)
        (fun _ own' log => post true own' log) own [.waited pid raw] := by
  unfold reap Wait.waitpid
  simp only [StateProg.wp_bind, StateProg.wp_lift, Prog.bind_eq, Prog.wp_bind, Prog.wp_perform]
  constructor
  · intro holds
    have handled := holds (.status pid raw) _ (reporting_waitpid.mpr ⟨rfl, rfl⟩)
    simpa [decoded] using handled
  · intro holds answer after step
    obtain ⟨rfl, rfl⟩ := reporting_waitpid.mp step
    simpa [decoded] using holds

/-- A status that is not decoded ends the loop. -/
theorem wp_reap_none (undecoded : WaitStatus.fromRaw raw = none)
    {post : Bool → Daemon → List Event → Prop} :
    StateProg.wp (answering (reporting pid raw)) reap post own [] ↔
      post false own [.waited pid raw] := by
  unfold reap Wait.waitpid
  simp only [StateProg.wp_bind, StateProg.wp_lift, Prog.bind_eq, Prog.wp_bind, Prog.wp_perform]
  constructor
  · intro holds
    have handled := holds (.status pid raw) _ (reporting_waitpid.mpr ⟨rfl, rfl⟩)
    simpa [undecoded] using handled
  · intro holds answer after step
    obtain ⟨rfl, rfl⟩ := reporting_waitpid.mp step
    simpa [undecoded] using holds

theorem wp_reap_stopped {signal event : Int} (real : 1 ≤ signal ∧ signal ≤ 64) :
    StateProg.wp (answering (reporting pid (.stopped signal event))) reap
      (fun _ after log => Answered pid (.stopped signal event) after log) own [] ↔
        signal ≤ 31 := by
  obtain ⟨known, unknown⟩ := fromRaw_stopped event real
  constructor
  · intro holds
    by_contra beyond
    rw [wp_reap_none (unknown (by omega))] at holds
    simp [Answered, letsCount, Event.lets] at holds
  · intro small
    obtain ⟨status, decoded, stopped⟩ := known small
    rw [wp_reap_some _ decoded]
    apply StateProg.wp_mono (letsOnce_handleEvent stopped own _)
    rintro _ after _ ⟨new, rfl, once⟩
    change letsCount pid _ = 1
    rw [letsCount_append, once]
    simp [letsCount, Event.lets]

/-- The end of a process removes it from the table. -/
theorem wp_handleEvent_end {allowed : Allowed} {log : List Event} {status : WaitStatus}
    (ended : Status.isExited ⟨status⟩ || Status.isSignaled ⟨status⟩) :
    StateProg.wp (answering allowed) (handleEvent pid ⟨status⟩)
      (fun _ after _ => pid ∉ after.tracees) own log := by
  unfold handleEvent
  rw [if_pos ended, StateProg.wp_modify]
  simp

theorem wp_reap_signaled {signal : Int} (real : 1 ≤ signal ∧ signal ≤ 64) :
    StateProg.wp (answering (reporting pid (.signaled signal))) reap
      (fun _ after log => Answered pid (.signaled signal) after log) own [] ↔
        signal ≤ 31 ∨ pid ∉ own.tracees := by
  by_cases small : signal ≤ 31
  · have decoded : WaitStatus.fromRaw (.signaled signal) = some (.signaled signal) := by
      simp [WaitStatus.fromRaw, Signal.fromNumber, real.1, small]
    rw [wp_reap_some _ decoded]
    exact iff_of_true (wp_handleEvent_end rfl) (.inl small)
  · have undecoded : WaitStatus.fromRaw (.signaled signal) = none := by
      simp [WaitStatus.fromRaw, Signal.fromNumber]
      omega
    rw [wp_reap_none undecoded]
    simp [Answered, small]

/-- A turn of the loop answers a status exactly when the decoder knows its signal, or when
there was nothing to do. -/
theorem reap_answers_iff (pid : Pid) (raw : RawStatus) (own : Daemon)
    (reportable : Reportable raw) : TurnAnswers pid raw own ↔ Decodable pid raw own := by
  rw [TurnAnswers, ← StateProg.wp_iff_runs]
  cases raw with
  | exited code =>
      rw [wp_reap_some (.exited code) rfl]
      exact iff_of_true (wp_handleEvent_end rfl) trivial
  | signaled signal => exact wp_reap_signaled reportable
  | stopped signal event => exact wp_reap_stopped reportable
  | continued => exact reportable.elim

end Reap

/-- A registered tracee that is stopped by a signal of the first 31 is let run. -/
theorem reap_answers_sigsegv :
    @TurnAnswers .eight .arm64 100 (.stopped 11 0) (Daemon.attached 100) :=
  (@reap_answers_iff .eight .arm64 100 (.stopped 11 0) (Daemon.attached 100)
    ⟨by decide, by decide⟩).mpr (by decide : (11 : Int) ≤ 31)

/-- A registered tracee that is stopped by a real-time signal stays stopped. -/
theorem reap_swallows_realtime_signal :
    ¬@TurnAnswers .eight .arm64 100 (.stopped 34 0) (Daemon.attached 100) := by
  intro answers
  have known := (@wp_reap_stopped .eight .arm64 100 (Daemon.attached 100) 34 0 (by decide)).mp
    ((StateProg.wp_iff_runs _).mpr answers)
  exact absurd known (by decide)

end Znn.Injector
