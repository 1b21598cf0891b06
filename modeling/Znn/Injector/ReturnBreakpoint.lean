import Znn.Injector.Reports
import Znn.Injector.Spares

/-!
# Where injected calls advance

While a call is in progress in a target its next trap should be the return breakpoint: only
there is the return value a return value, and only there are the saved registers the ones to
put back. The daemon advances an injected call at two places, a trap and the release at
shutdown, and looks at the program counter at neither. So a run keeps to the return breakpoint
exactly as far as the stops it sees at these two places do.
-/

namespace Znn.Injector

open Interaction Trace

/-- What must not be done to a target in the middle of a call: take its return value, record a
success, replace its registers. -/
def Event.Advances (pid : Pid) (event : Event) : Prop :=
  match event with
  | .interpreted target | .succeeded target _ | .wroteRegisters target => target = pid
  | _ => False

/-- The target stands at the return breakpoint of the tracee. -/
def AtReturn [Usize] (tracee : Tracee) (registers : List UInt8) : Prop :=
  Daemon.comparedPc tracee.arch ((Regs.new tracee.arch).fill registers) = Daemon.expectedPc tracee

instance [Usize] (tracee : Tracee) (registers : List UInt8) :
    Decidable (AtReturn tracee registers) :=
  inferInstanceAs (Decidable (_ = _))

/-- Nothing has advanced a call in the process. -/
def Idle (pid : Pid) (log log' : List Event) : Prop :=
  ∃ new, log' = log ++ new ∧ ∀ event ∈ new, ¬event.Advances pid

/-- The registers of the process can neither be read nor written. -/
structure RegistersShut (allowed : Allowed) (pid : Pid) : Prop where
  unread : ∀ log length filled, allowed log (.getRegset pid length) filled → filled = none
  unwritten : ∀ log bytes ok, allowed log (.setRegset pid bytes) ok → ok = false

section Events

variable {pid : Pid} {event : Event}

theorem Event.not_advances_of_spares (spares : event.Spares pid) : ¬event.Advances pid := by
  cases event with
  | interpreted target | succeeded target exe | wroteRegisters target => exact spares rfl
  | _ => exact id

theorem Event.not_advances_of_passes (passes : event.Passes) : ¬event.Advances pid := by
  cases event <;> first | exact passes.elim | exact id

theorem Event.not_advances_of_idle (idle : event.acts = false) : ¬event.Advances pid := by
  cases event with
  | interpreted target | succeeded target exe | wroteRegisters target =>
      exact Bool.noConfusion idle
  | _ => exact id

end Events

namespace Idle

variable {pid : Pid} {own own' : Daemon} {log log' log'' : List Event}

theorem refl (pid : Pid) (log : List Event) : Idle pid log log :=
  ⟨[], by simp⟩

theorem trans (first : Idle pid log log') (second : Idle pid log' log'') :
    Idle pid log log'' := by
  rcases first with ⟨new, rfl, idle⟩
  rcases second with ⟨more, rfl, idle'⟩
  refine ⟨new ++ more, by simp, fun event present => ?_⟩
  rcases List.mem_append.mp present with inNew | inMore
  · exact idle event inNew
  · exact idle' event inMore

theorem of_left {other : Pid} {quiet : Event → Prop} (left : Left other quiet own own' log log')
    (implies : ∀ event, quiet event → ¬event.Advances pid) : Idle pid log log' := by
  rcases left with ⟨_, new, rfl, isQuiet⟩
  exact ⟨new, rfl, fun event present => implies event (isQuiet event present)⟩

end Idle

namespace Daemon

variable {allowed : Allowed} {pid : Pid}

/-- The program advances no call in the process and leaves the table alone. -/
abbrev Waiting {α : Type} (allowed : Allowed) (pid other : Pid) (program : DaemonM α) : Prop :=
  Leaves allowed other False (fun event => ¬event.Advances pid) program

section Quiet

variable {other : Pid}

theorem waiting_cont (target : Pid) (signal : Option Int) :
    Waiting allowed pid other (liftM (Ptrace.cont target signal) : DaemonM Unit) :=
  (passes_cont signal).mono fun _ => Event.not_advances_of_passes

theorem waiting_detachResult (target : Pid) (signal : Option Int) :
    Waiting allowed pid other (liftM (Ptrace.detachResult target signal) : DaemonM Bool) := by
  have calls : Only (fun request => request = .detach target (signal.bind Signal.fromNumber))
      (Ptrace.detachResult target signal) := ⟨rfl, fun _ => trivial⟩
  apply Leaves.lift calls
  rintro request rfl log answer _ event present
  rw [List.mem_singleton.mp present]
  exact id

theorem waiting_detach (target : Pid) (signal : Option Int) :
    Waiting allowed pid other (liftM (Ptrace.detach target signal) : DaemonM Unit) := by
  have calls : Only (fun request => request = .detach target (signal.bind Signal.fromNumber))
      (Ptrace.detach target signal) := ⟨rfl, fun _ => trivial⟩
  apply Leaves.lift calls
  rintro request rfl log answer _ event present
  rw [List.mem_singleton.mp present]
  exact id

theorem waiting_recordFailure (target : Pid) (exe reason : String) :
    Waiting allowed pid other (recordFailure target exe reason) := by
  have marks : Only (fun request => request = .note (.recordFailure target exe reason))
      (note (.recordFailure target exe reason)) := ⟨rfl, fun _ => trivial⟩
  apply Leaves.bind
  · apply Leaves.lift marks
    rintro request rfl log answer _ event present
    rw [List.mem_singleton.mp present]
    exact id
  intro _
  apply Leaves.bind (Leaves.reads (reads_perform (.processName target exe) trivial))
  intro name
  exact Leaves.modify fun _ => rfl

theorem waiting_stopTracee (target : Pid) (timeoutMs : Nat) :
    Waiting allowed pid other (liftM (Mode.stopTracee target timeoutMs) :
      DaemonM (Option Status)) := by
  intro own log _
  rw [StateProg.wp_lift]
  apply Prog.wp_mono (waits_stopTracee timeoutMs log)
  rintro _ _ ⟨new, rfl, silent, _⟩
  exact ⟨rfl, new, rfl, fun event present => Event.not_advances_of_idle (silent event present)⟩

/-- To hand init over is not to advance a call in it. -/
theorem waiting_handOverInit (ne : other ≠ 1) : Waiting allowed pid other handOverInit := by
  apply Leaves.bind (waiting_stopTracee 1 _)
  intro status
  cases status with
  | none => exact Leaves.pure _
  | some status =>
      apply Leaves.bind (waiting_detachResult 1 none)
      intro detached
      cases detached with
      | true =>
          apply Leaves.bind (Leaves.modify fun _ => AList.lookup_erase_ne ne)
          intro _
          exact Leaves.pure _
      | false =>
          apply Leaves.bind (waiting_cont 1 none)
          intro _
          exact Leaves.pure _

theorem waiting_giveUpDeferred (target tracer : Pid) :
    Waiting allowed pid other (giveUpDeferred target tracer) := by
  apply Leaves.bind (Leaves.reads (reads_readExePath target))
  intro exe
  apply Leaves.bind (Leaves.reads (reads_readExePath tracer))
  intro holder
  apply Leaves.bind (waiting_recordFailure _ _ _)
  intro _
  exact Leaves.modify fun _ => rfl

variable [Usize]

/-- Arming a process that has run a new program writes its memory only. -/
theorem waiting_armEntryBreakpoint (target : Pid) (tracee : Tracee) :
    Waiting allowed pid other (armEntryBreakpoint target tracee) := by
  apply Leaves.bind (Leaves.reads (reads_readExePath target))
  intro exe
  split
  · exact Leaves.pure _
  apply Leaves.bind_get
  intro daemon _
  split
  · exact Leaves.pure _
  apply Leaves.bind (Leaves.reads (reads_perform (.elfHeader target) trivial))
  intro header
  cases header with
  | none => exact Leaves.pure _
  | some header =>
      dsimp only
      split
      · exact Leaves.pure _
      apply Leaves.bind (Leaves.reads (reads_perform (.maps target) trivial))
      intro entries
      split
      · exact Leaves.pure _
      · apply Leaves.lift (accesses_setEntryBreakpoint target _ _)
        intro request isAccess log answer _ event present
        rw [effects_of_accesses isAccess] at present
        exact absurd present List.not_mem_nil

theorem idle_handleExec (own : Daemon) (log : List Event) :
    StateProg.wp (answering allowed) (handleExec pid) (fun _ _ log' => Idle pid log log')
      own log := by
  have leave : ∀ own log, StateProg.wp (answering allowed)
      (liftM (Ptrace.detach pid none) : DaemonM Unit) (fun _ _ log' => Idle pid log log')
      own log := by
    intro own log
    have waits : Waiting allowed pid 0 (liftM (Ptrace.detach pid none) : DaemonM Unit) :=
      waiting_detach pid none
    apply StateProg.wp_mono (waits own log False.elim)
    intro _ _ _ left
    exact .of_left left fun _ => id
  unfold handleExec
  rw [StateProg.wp_bind, StateProg.wp_get]
  cases own.tracees.lookup pid with
  | none => exact leave own log
  | some tracee =>
      dsimp only
      rw [StateProg.wp_bind, StateProg.wp_modify, StateProg.wp_bind]
      have arms : Waiting allowed pid 0 (armEntryBreakpoint pid tracee) :=
        waiting_armEntryBreakpoint pid tracee
      apply StateProg.wp_mono (arms _ log False.elim)
      intro armed own' log' left
      have first : Idle pid log log' := .of_left left fun _ => id
      cases armed with
      | none =>
          apply StateProg.wp_mono (leave own' log')
          intro _ _ _ second
          exact first.trans second
      | some next =>
          dsimp only
          rw [StateProg.wp_bind, StateProg.wp_modify]
          have waits : Waiting allowed pid 0 (liftM (Ptrace.cont pid none) : DaemonM Unit) :=
            waiting_cont pid none
          apply StateProg.wp_mono (waits _ log' False.elim)
          intro _ _ _ left'
          exact first.trans (.of_left left' fun _ => id)

end Quiet

section Shut

variable [Usize] {other : Pid} {tracee : Tracee}

omit [Usize] in
/-- Where the registers are shut, writing to the process changes none of them. -/
theorem waiting_edits {α : Type} (shut : RegistersShut allowed pid) {program : Prog Sys α}
    (calls : Only (Call.edits pid) program) :
    Waiting allowed pid other (liftM program : DaemonM α) := by
  apply Leaves.lift calls
  intro request isEdit log answer isAnswer event present
  by_cases isRead : request.reads
  · rw [effects_of_reads isRead] at present
    exact absurd present List.not_mem_nil
  cases request with
  | pokeData target address word => exact absurd present List.not_mem_nil
  | setRegset target bytes =>
      cases isEdit
      rw [shut.unwritten log bytes answer isAnswer] at present
      exact absurd present List.not_mem_nil
  | note mark =>
      cases mark with
      | restored target ok =>
          rw [List.mem_singleton.mp present]
          exact id
      | _ => exact isEdit.elim
  | _ => exact (isRead isEdit).elim

omit [Usize] in
theorem bind_unread {β : Type} (shut : RegistersShut allowed pid) {arch : Arch}
    {rest : Option Regs → DaemonM β} (second : Waiting allowed pid other (rest none)) :
    Waiting allowed pid other (liftM (PtraceOps.readRegisters pid arch) >>= rest) := by
  intro own log isPresent
  rw [StateProg.wp_bind, StateProg.wp_lift]
  intro filled after step
  have still : after = log := by
    have moved := step.1
    rw [ledger_step] at moved
    simpa [effects] using moved
  rw [still, shut.unread log _ filled step.2]
  exact second own log isPresent

theorem waiting_undo (shut : RegistersShut allowed pid) :
    Waiting allowed pid other (undo pid tracee) := by
  apply Leaves.bind (waiting_edits shut (edits_releaseTracee pid tracee))
  intro _
  exact waiting_detach pid none

theorem waiting_undo_finish (shut : RegistersShut allowed pid) :
    Waiting allowed pid other (do undo pid tracee; return Progress.finished) := by
  apply Leaves.bind (waiting_undo shut)
  intro _
  exact Leaves.pure _

theorem waiting_abort (shut : RegistersShut allowed pid) (reason : String) :
    Waiting allowed pid other (abort pid tracee reason) := by
  apply Leaves.bind
  · apply Leaves.bind (waiting_recordFailure pid tracee.exe reason)
    intro _
    exact waiting_undo shut
  intro _
  exact Leaves.pure _

/-- A step that cannot read the registers gives the call up, unless it is the last one. -/
theorem waiting_step [Config.Build] (shut : RegistersShut allowed pid) (calling : tracee.Calling)
    (notInit : tracee.state ≠ .init) : Waiting allowed pid other (step pid tracee) := by
  unfold step
  rcases calling with state | state | state | state | state <;> rw [state]
  · exact bind_unread shut (waiting_abort shut _)
  · exact bind_unread shut (waiting_undo_finish shut)
  · exact bind_unread shut (waiting_undo_finish shut)
  · exact absurd state notInit
  · exact bind_unread shut (waiting_undo_finish shut)

theorem idle_handleTrap [Config.Build] {own : Daemon} {log : List Event}
    (found : own.tracees.lookup pid = some tracee) (shut : RegistersShut allowed pid)
    (calling : tracee.Calling) (notInit : tracee.state ≠ .init) :
    StateProg.wp (answering allowed) (handleTrap pid) (fun _ _ log' => Idle pid log log')
      own log := by
  unfold handleTrap
  rw [StateProg.wp_bind, StateProg.wp_get, found]
  dsimp only
  rw [StateProg.wp_bind, StateProg.wp_modify, StateProg.wp_bind]
  have waits : Waiting allowed pid 0 (step pid tracee) := waiting_step shut calling notInit
  apply StateProg.wp_mono (waits _ log False.elim)
  intro progress own' log' left
  have idle : Idle pid log log' := .of_left left fun _ => id
  cases progress <;> exact idle

theorem idle_releaseOne (shut : RegistersShut allowed pid) (own : Daemon) (log : List Event) :
    StateProg.wp (answering allowed) (releaseOne pid) (fun _ _ log' => Idle pid log log')
      own log := by
  unfold releaseOne
  rw [StateProg.wp_bind, StateProg.wp_get]
  cases own.tracees.lookup pid with
  | none => exact .refl pid log
  | some tracee =>
      dsimp only
      rw [StateProg.wp_bind, StateProg.wp_modify, StateProg.wp_bind]
      have stops : Waiting allowed pid 0 (liftM (Mode.stopTracee pid INTERRUPT_TIMEOUT_MS) :
          DaemonM (Option Status)) := waiting_stopTracee pid _
      apply StateProg.wp_mono (stops _ log False.elim)
      intro status own' log' left
      have first : Idle pid log log' := .of_left left fun _ => id
      cases status with
      | none => exact first
      | some status =>
          have undoes : Waiting allowed pid 0 (do
              releaseTracee pid tracee
              Ptrace.detach pid none
              return true) := by
            apply Leaves.bind (waiting_edits shut (edits_releaseTracee pid tracee))
            intro _
            apply Leaves.bind (waiting_detach pid none)
            intro _
            exact Leaves.pure _
          apply StateProg.wp_mono (undoes own' log' False.elim)
          intro _ _ _ left'
          exact first.trans (.of_left left' fun _ => id)

end Shut

end Daemon

section Turns

variable [Usize] [Config.Build] {allowed : Allowed} {pid : Pid} {tracee : Tracee} {own : Daemon}
  {log : List Event}

/-- The stops at which the daemon advances a call are at the return breakpoint: every trap that
is reported of the target, and the stop in which the release at shutdown finds it. Where the
registers are shut there is nothing to take and nothing to replace. -/
def KeepsToReturn (allowed : Allowed) (pid : Pid) (before : Option Tracee)
    (registers : List UInt8) (turn : Turn) : Prop :=
  ∀ tracee, before = some tracee → tracee.Calling →
    match turn with
    | .report other status =>
        other = pid → status.Traps →
          AtReturn tracee registers ∨ (tracee.state ≠ .init ∧ RegistersShut allowed pid)
    | .release => AtReturn tracee registers ∨ RegistersShut allowed pid
    | _ => True

/-- A report about a process in a call advances the call at a trap only. -/
theorem idle_report (found : own.tracees.lookup pid = some tracee) (calling : tracee.Calling)
    (status : Status)
    (shut : status.Traps → tracee.state ≠ .init ∧ RegistersShut allowed pid) :
    StateProg.wp (answering allowed) (Daemon.handleEvent pid status)
      (fun _ _ log' => Idle pid log log') own log := by
  have present : pid ∈ own.tracees := by
    rw [← AList.lookup_isSome, found]
    rfl
  by_cases gone : status.Gone
  · rw [Daemon.handleEvent_gone gone, StateProg.wp_modify]
    exact .refl pid log
  by_cases execs : status.Execs
  · rw [Daemon.handleEvent_execs execs]
    exact Daemon.idle_handleExec own log
  by_cases exits : status.Exits
  · rw [Daemon.handleEvent_exits exits, StateProg.wp_bind, StateProg.wp_modify]
    have waits : Daemon.Waiting allowed pid 0 (liftM (Ptrace.cont pid none) : DaemonM Unit) :=
      Daemon.waiting_cont pid none
    apply StateProg.wp_mono (waits _ log False.elim)
    intro _ _ _ left
    exact .of_left left fun _ => id
  by_cases traps : status.Traps
  · rw [Daemon.handleEvent_traps traps, StateProg.wp_bind, StateProg.wp_get, if_pos present]
    exact Daemon.idle_handleTrap found (shut traps).2 calling (shut traps).1
  · apply StateProg.wp_mono (Daemon.passes_handleEvent trivial gone execs exits traps own log
      fun _ => present)
    intro _ _ _ left
    exact .of_left left fun _ => Event.not_advances_of_passes

theorem leaves_retryDeferred :
    Leaves allowed pid True (fun event => ¬event.Advances pid) Daemon.retryDeferred := by
  have one : ∀ now other, Leaves allowed pid True (fun event => ¬event.Advances pid)
      (Daemon.retryOne now other) := by
    intro now other
    apply Leaves.bind_get
    intro daemon _
    apply Leaves.bind (Leaves.reads (reads_perform (.foreignTracer other) trivial))
    intro tracer
    cases tracer with
    | none =>
        exact (Daemon.spares_retryFreed trivial other).mono fun _ => Event.not_advances_of_spares
    | some tracer =>
        dsimp only
        split
        · intro own log present
          exact Daemon.waiting_giveUpDeferred other tracer own log False.elim
        · exact Leaves.pure _
  apply Leaves.bind_get
  intro daemon _
  dsimp only
  split
  · exact Leaves.pure _
  apply Leaves.bind (Leaves.reads (reads_perform .nowMs trivial))
  intro now
  exact Leaves.forM fun other => one now other

/-- A turn advances a call that is in progress only at one of the two stops. -/
theorem idle_turn (found : own.tracees.lookup pid = some tracee) (calling : tracee.Calling)
    {turn : Turn} {registers : List UInt8}
    (keeps : KeepsToReturn allowed pid (some tracee) registers turn)
    (elsewhere : ¬AtReturn tracee registers) :
    StateProg.wp (answering allowed) turn.program (fun _ _ log' => Idle pid log log') own log := by
  have present : True → pid ∈ own.tracees := by
    intro _
    rw [← AList.lookup_isSome, found]
    rfl
  have kept := keeps tracee rfl calling
  by_cases isRelease : turn = .release
  · subst isRelease
    have shut : RegistersShut allowed pid := kept.resolve_left elsewhere
    unfold Turn.program
    rw [StateProg.wp_bind]
    apply Daemon.wp_releaseTracees pid (Idle.refl pid log)
    · intro own own' first second idle left
      exact idle.trans (.of_left left fun _ => Event.not_advances_of_spares)
    · intro own' log' idle
      apply StateProg.wp_mono (Daemon.idle_releaseOne shut own' log')
      intro _ _ _ more
      exact idle.trans more
  by_cases isReport : ∃ status, turn = .report pid status
  · rcases isReport with ⟨status, rfl⟩
    exact idle_report found calling status fun traps => (kept rfl traps).resolve_left elsewhere
  by_cases isExpire : turn = .expire
  · subst isExpire
    have fresh : ∀ now, allowed log .nowMs now → ¬Daemon.Overdue tracee now := by
      rintro now _ ⟨state, _⟩
      rcases calling with calls | calls | calls | calls | calls <;> simp [state] at calls
    apply StateProg.wp_mono (Daemon.spared_expirePending found fresh)
    intro _ _ _ left
    exact .of_left left fun _ => Event.not_advances_of_spares
  by_cases isRetry : turn = .retry
  · subst isRetry
    apply StateProg.wp_mono (leaves_retryDeferred own log present)
    intro _ _ _ left
    exact .of_left left fun _ => id
  have handOver : Daemon.Waiting allowed pid 0 Daemon.handOverInit :=
    Daemon.waiting_handOverInit (by decide)
  by_cases isMode : turn = .mode
  · subst isMode
    apply StateProg.wp_mono (Daemon.leaves_applyRequestedMode handOver own log False.elim)
    intro _ _ _ left
    exact .of_left left fun _ => id
  by_cases isMonitor : turn = .monitor
  · subst isMonitor
    apply StateProg.wp_mono (Daemon.leaves_watchForMonitor handOver own log False.elim)
    intro _ _ _ left
    exact .of_left left fun _ => id
  have spares : Spares allowed pid True turn.program := by
    apply spares_turn
    · rintro (same | same) <;> contradiction
    · exact fun same => absurd same isRetry
    · exact fun status same => isReport ⟨status, same⟩
    · exact isExpire
    · exact isRelease
  apply StateProg.wp_mono (spares own log present)
  intro _ _ _ left
  exact .of_left left fun _ => Event.not_advances_of_spares

/-- What the registers of the target are read as, in one turn. -/
def Stands (allowed : Allowed) (pid : Pid) (registers : List UInt8) : Prop :=
  ∀ log length filled, allowed log (.getRegset pid length) (some filled) → filled = registers

/-- One turn as the process sees it: the tracee before it, the registers with which the process
is found if it is found stopped, and what has happened. -/
structure Occasion where
  turn : Turn
  before : Option Tracee
  registers : List UInt8
  events : List Event

/-- Nothing advances a call that is in progress away from the return breakpoint. -/
def Occasion.AdvancesAtReturn (pid : Pid) (occasion : Occasion) : Prop :=
  ∀ tracee, occasion.before = some tracee → tracee.Calling →
    ∀ event ∈ occasion.events, event.Advances pid → AtReturn tracee occasion.registers

def AllAdvanceAtReturn (pid : Pid) (occasions : List Occasion) : Prop :=
  ∀ occasion ∈ occasions, occasion.AdvancesAtReturn pid

/-- A run of the daemon, turn by turn. -/
inductive Course
    (condition : Allowed → Pid → Option Tracee → List UInt8 → Turn → Prop) (pid : Pid) :
    Daemon → List Event → List Occasion → Prop
  | start (own : Daemon) (log : List Event) : Course condition pid own log []
  | turn {own own' log log' occasions allowed registers events} {turn : Turn}
      (course : Course condition pid own log occasions) (stands : Stands allowed pid registers)
      (met : condition allowed pid (own.tracees.lookup pid) registers turn)
      (run : StateProg.Runs (answering allowed) turn.program own log ⟨⟩ own' log')
      (grows : log' = log ++ events) :
      Course condition pid own' log'
        (occasions ++ [⟨turn, own.tracees.lookup pid, registers, events⟩])

/-- In every run whose traps and whose release find the target at the return breakpoint, every
injected call advances there and nowhere else. -/
theorem advances_at_return {occasions : List Occasion}
    (course : Course KeepsToReturn pid own log occasions) :
    AllAdvanceAtReturn pid occasions := by
  induction course with
  | start own log => simp [AllAdvanceAtReturn]
  | @turn own own' log log' occasions allowed registers events turn course _ met run grows ih =>
      intro occasion present
      rcases List.mem_append.mp present with earlier | latest
      · exact ih occasion earlier
      rw [List.mem_singleton.mp latest]
      intro tracee found calling event happened advances
      by_contra elsewhere
      have keeps : KeepsToReturn allowed pid (some tracee) registers turn := by
        rw [← found]
        exact met
      rcases run.of_wp (idle_turn found calling keeps elsewhere) with ⟨new, same, idle⟩
      rw [grows, List.append_cancel_left_eq] at same
      rw [same] at happened
      exact idle event happened advances

/-- No condition on a turn. -/
def anyTurn : Allowed → Pid → Option Tracee → List UInt8 → Turn → Prop :=
  fun _ _ _ _ _ => True

/-- The same of every run. -/
def AlwaysAdvancesAtReturn : Prop :=
  ∀ pid own log occasions, Course anyTurn pid own log occasions → AllAdvanceAtReturn pid occasions

end Turns

section Runs

/-- The report of a status about the process 100, which is found with its program counter at
`pc`. -/
def reportAt (pc : Nat) (status : WaitStatus) (before : (Unit × Daemon) × List Event) :
    (Unit × Daemon) × List Event :=
  Prog.eval (I := Sys) (scripted (runningA (some (registersAt pc))))
    ((@Turn.program .eight .arm64 (.report 100 ⟨status⟩)).run before.1.2) before.2

/-- The occasion of such a report. -/
def occasionAt (pc : Nat) (status : WaitStatus) (before : (Unit × Daemon) × List Event) :
    Occasion where
  turn := .report 100 ⟨status⟩
  before := before.1.2.tracees.lookup 100
  registers := registersAt pc
  events := (reportAt pc status before).2.drop before.2.length

theorem course_reportAt {condition : Allowed → Pid → Option Tracee → List UInt8 → Turn → Prop}
    {before : (Unit × Daemon) × List Event} {occasions : List Occasion}
    (course : @Course .eight .arm64 condition 100 before.1.2 before.2 occasions) (pc : Nat)
    (status : WaitStatus)
    (met : condition (following (runningA (some (registersAt pc)))) 100
      (before.1.2.tracees.lookup 100) (registersAt pc) (.report 100 ⟨status⟩))
    (grows : (reportAt pc status before).2 =
      before.2 ++ (reportAt pc status before).2.drop before.2.length) :
    @Course .eight .arm64 condition 100 (reportAt pc status before).1.2
      (reportAt pc status before).2 (occasions ++ [occasionAt pc status before]) := by
  have stands : Stands (following (runningA (some (registersAt pc)))) 100 (registersAt pc) :=
    fun _ _ _ isAnswer => Option.some.inj isAnswer
  exact @Course.turn .eight .arm64 condition 100 _ _ _ _ _ _ _ _ _ course stands met
    (runs_scripted _ _ _ _) grows

/-- The process is traced. -/
def attached : (Unit × Daemon) × List Event :=
  (((), attachedTarget), [])

/-- It has run its program. -/
def atExec : (Unit × Daemon) × List Event :=
  reportAt 0 (.ptraceEvent Signal.SIGTRAP Ptrace.EVENT_EXEC) attached

/-- It has come to the entry breakpoint, and its first injected call is in progress. -/
def inFileCall : (Unit × Daemon) × List Event :=
  reportAt 4112 (.stopped Signal.SIGTRAP) atExec

/-- The way to the first injected call. -/
def toFileCall : List Occasion :=
  [occasionAt 0 (.ptraceEvent Signal.SIGTRAP Ptrace.EVENT_EXEC) attached,
    occasionAt 4112 (.stopped Signal.SIGTRAP) atExec]

theorem course_inFileCall
    {condition : Allowed → Pid → Option Tracee → List UInt8 → Turn → Prop}
    (met : ∀ allowed before registers turn, ¬(before.any fun tracee =>
      decide (tracee.state ≠ .traced ∧ tracee.state ≠ .entry)) →
      condition allowed 100 before registers turn) :
    @Course .eight .arm64 condition 100 inFileCall.1.2 inFileCall.2 toFileCall := by
  have started : @Course .eight .arm64 condition 100 attached.1.2 attached.2 [] :=
    @Course.start .eight .arm64 condition 100 attachedTarget []
  have executed := course_reportAt started 0 (.ptraceEvent Signal.SIGTRAP Ptrace.EVENT_EXEC)
    (met _ _ _ _ (by decide)) (by decide)
  exact course_reportAt executed 4112 (.stopped Signal.SIGTRAP) (met _ _ _ _ (by decide))
    (by decide)

/-- The call returns to its breakpoint, and its value is taken there. -/
theorem advances_at_return_of_file_call : @AllAdvanceAtReturn .eight 100
    (toFileCall ++ [occasionAt 4112 (.stopped Signal.SIGTRAP) inFileCall]) := by
  have course : @Course .eight .arm64 (@KeepsToReturn .eight) 100 inFileCall.1.2 inFileCall.2
      toFileCall := by
    apply course_inFileCall
    intro allowed before registers turn notCalling tracee isTracee calling
    rw [isTracee] at notCalling
    rcases calling with state | state | state | state | state <;> simp [state] at notCalling
  apply @advances_at_return .eight .arm64 100 _ _ _
  apply course_reportAt course 4112 (.stopped Signal.SIGTRAP)
  · intro tracee found _ _ _
    have back : (inFileCall.1.2.tracees.lookup 100).all fun tracee =>
        decide (@AtReturn .eight tracee (registersAt 4112)) := by decide
    rw [found] at back
    exact .inl (of_decide_eq_true back)
  · decide

/-- The first injected call runs into a trap at 9000: its return value is taken there. -/
theorem stray_trap_taken_for_return : ¬@AlwaysAdvancesAtReturn .eight .arm64 := by
  intro always
  have inCall : @Course .eight .arm64 anyTurn 100 inFileCall.1.2 inFileCall.2 toFileCall :=
    course_inFileCall fun _ _ _ _ _ => trivial
  have course := course_reportAt inCall 9000 (.stopped Signal.SIGTRAP) trivial (by decide)
  have sound := always 100 _ _ _ course (occasionAt 9000 (.stopped Signal.SIGTRAP) inFileCall)
    (by simp)
  have stray : (inFileCall.1.2.tracees.lookup 100).any (fun tracee =>
      decide (tracee.state = .file ∧ ¬@AtReturn .eight tracee (registersAt 9000))) = true := by
    decide
  rw [Option.any_eq_true] at stray
  rcases stray with ⟨tracee, found, isStray⟩
  have ⟨calling, elsewhere⟩ := of_decide_eq_true isStray
  exact elsewhere (sound tracee found (.inl calling) (.interpreted 100) (by decide) rfl)

end Runs

end Znn.Injector
