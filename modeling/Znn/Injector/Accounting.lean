import Znn.Injector.Reports
import Znn.Injector.Spares

/-!
# Every injection is accounted for

The life of an injection begins when a breakpoint is armed and ends when the tracee leaves the
table. It should end with one record, made before the detach, unless the target is gone, has
run a new program, or the daemon shuts down. `accounted` proves this of every run in which the
steps that would quit in silence are granted what they ask for, and in which no breakpoint
that is overdue is taken back from a stopped target.
-/

namespace Znn.Injector

open Interaction Trace

/-- A record made for the process, or its detach. -/
def Event.settles (pid : Pid) (event : Event) : Bool :=
  match event with
  | .succeeded target _ | .failed target _ _ | .detached target _ => target == pid
  | _ => false

/-- The records and detaches of one process, in their order. -/
def settlements (pid : Pid) (log : List Event) : List Event :=
  log.filter (Event.settles pid)

section Settlements

variable {pid : Pid}

@[simp]
theorem settlements_append (first second : List Event) :
    settlements pid (first ++ second) = settlements pid first ++ settlements pid second :=
  List.filter_append ..

theorem settlements_eq_nil {log : List Event}
    (unsettled : ∀ event ∈ log, event.settles pid = false) : settlements pid log = [] := by
  rw [settlements, List.filter_eq_nil_iff]
  intro event present
  rw [unsettled event present]
  exact Bool.false_ne_true

theorem Event.settles_of_spares {event : Event} (spares : event.Spares pid) :
    event.settles pid = false := by
  cases event with
  | succeeded target exe | failed target exe reason | detached target signal =>
      exact beq_eq_false_iff_ne.mpr (spares rfl)
  | _ => rfl

theorem Event.settles_of_passes {event : Event} (passes : event.Passes) :
    event.settles pid = false := by
  cases event <;> first | rfl | exact passes.elim

theorem Event.settles_of_records {event : Event} (isRecord : event.records = true)
    (isPid : event.pid = pid) : event.settles pid = true := by
  cases event with
  | succeeded target exe | failed target exe reason => exact beq_iff_eq.mpr isPid
  | _ => exact absurd isRecord Bool.false_ne_true

/-- Where nothing is settled nothing is recorded. -/
theorem unrecorded_of_unsettled {log : List Event} (unsettled : settlements pid log = []) :
    ∀ event ∈ log, event.pid = pid → event.records = false := by
  intro event present isPid
  by_contra recorded
  have settles := Event.settles_of_records (Bool.eq_true_of_not_eq_false recorded) isPid
  exact absurd settles (List.filter_eq_nil_iff.mp unsettled event present)

theorem unrecorded_of_significant {log : List Event}
    (unrecorded : ∀ event ∈ significant log, event.records = false) :
    ∀ event ∈ log, event.records = false := by
  intro event present
  by_contra recorded
  have isRecord := Bool.eq_true_of_not_eq_false recorded
  have isSignificant : event ∈ significant log := by
    rw [significant, List.mem_filter]
    exact ⟨present, by simp [isRecord]⟩
  exact recorded (unrecorded event isSignificant)

/-- The settlements of a log are among its significant events. -/
theorem settlements_significant (log : List Event) :
    settlements pid log = settlements pid (significant log) := by
  rw [settlements, settlements, significant, List.filter_filter]
  apply List.filter_congr
  intro event _
  cases event <;> simp [Event.settles, Event.lets, Event.records]

end Settlements

/-- One record of the process. -/
def OneRecord (pid : Pid) (records : List Event) : Prop :=
  ∃ record, record.records = true ∧ record.pid = pid ∧ records = [record]

/-- The process has come to an end. -/
def RawStatus.Ends (raw : RawStatus) : Prop :=
  match raw with
  | .exited _ | .signaled _ => True
  | _ => False

/-- What carries a life on: the first step of a late injection, or a turn of the daemon. -/
inductive Move where
  | late (tracee : Tracee)
  | turn (daemonTurn : Turn)

namespace Move

variable [Usize] [Config.Build]

def program (pid : Pid) : Move → DaemonM Unit
  | .late tracee => do
      let _ ← Daemon.beginLateInjection pid tracee
  | .turn daemonTurn => daemonTurn.program

/-- The life ends with the move, whatever the injection has come to: the target is reported
gone, runs a new program or exits, the wait of an expiry finds it gone, or the daemon shuts
down. -/
def EndsLife (pid : Pid) (new : List Event) : Move → Prop
  | .turn (.report other status) => other = pid ∧ (status.Gone ∨ status.Execs ∨ status.Exits)
  | .turn .expire => ∃ raw, .waited pid raw ∈ new ∧ raw.Ends
  | .turn .release => True
  | _ => False

/-- The move does not quit the injection in silence: a step is granted what it asks for, an
overdue breakpoint finds the target running or gone, and init is not handed over. -/
def Undisturbed (allowed : Allowed) (pid : Pid) (own : Daemon) (log : List Event) : Move → Prop
  | .late tracee => StepGranted allowed log pid { tracee with state := .late }
  | .turn (.report other status) =>
      other = pid → status.Traps → ∀ tracee, own.tracees.lookup pid = some tracee →
        StepGranted allowed log pid tracee
  | .turn .expire =>
      ∀ tracee, own.tracees.lookup pid = some tracee →
        (∀ now, allowed log .nowMs now → ¬Daemon.Overdue tracee now) ∨
          ∀ later raw, allowed later (.waitpid pid) (.status pid raw) → raw.Ends
  | .turn .retry => ∀ later tracer, allowed later (.foreignTracer pid) tracer → tracer = none
  | .turn .mode | .turn .monitor => pid ≠ 1
  | _ => True

end Move

/-- The tracee is in the table, and nothing has been recorded about it yet. -/
structure Held (pid : Pid) (own : Daemon) (log : List Event) : Prop where
  known : ∃ tracee, own.tracees.lookup pid = some tracee ∧ tracee.arch ≠ .unknown
  unsettled : settlements pid log = []

/-- What a move makes of a life: it goes on, it ends without a record for a reason of its own,
or it ends with one record and the detach. -/
def Accounted [Usize] [Config.Build] (pid : Pid) (move : Move) (own : Daemon)
    (log new : List Event) : Prop :=
  (pid ∈ own.tracees ∧ settlements pid (log ++ new) = []) ∨
    (pid ∉ own.tracees ∧ move.EndsLife pid new ∧
      ∀ event ∈ log ++ new, event.pid = pid → event.records = false) ∨
    (pid ∉ own.tracees ∧ ∃ record, record.records = true ∧
      settlements pid (log ++ new) = [record, .detached pid none])

namespace Held

variable {pid : Pid} {own own' : Daemon} {log log' : List Event}

theorem mem (held : Held pid own log) : pid ∈ own.tracees := by
  rcases held.known with ⟨tracee, found, _⟩
  rw [← AList.lookup_isSome, found]
  rfl

theorem left {quiet : Event → Prop} (held : Held pid own log)
    (left : Left pid quiet own own' log log')
    (unsettles : ∀ event, quiet event → event.settles pid = false) : Held pid own' log' := by
  rcases left with ⟨lookup, new, rfl, isQuiet⟩
  have none : settlements pid new = [] :=
    settlements_eq_nil fun event present => unsettles event (isQuiet event present)
  exact ⟨by rw [lookup]; exact held.known, by simp [held.unsettled, none]⟩

end Held

/-- The runs of a move from a life that goes on. -/
def Continues [Usize] [Config.Build] (pid : Pid) (move : Move) (log : List Event) (own' : Daemon)
    (log' : List Event) : Prop :=
  ∃ new, log' = log ++ new ∧ Accounted pid move own' log new ∧
    (pid ∈ own'.tracees → Held pid own' log')

section Moves

variable {allowed : Allowed} {pid : Pid} {own own' : Daemon} {log log' : List Event}
  {tracee : Tracee} {move : Move}

/-- What the turns that take a breakpoint back make of a life: the tracee is still held, or it
has left the table without a record, for a reason that holds of the new events. -/
def Withdrawn (pid : Pid) (log : List Event) (reason : List Event → Prop) (own' : Daemon)
    (log' : List Event) : Prop :=
  ∃ new, log' = log ++ new ∧ (Held pid own' log' ∨ (pid ∉ own'.tracees ∧ reason new ∧
    ∀ event ∈ log', event.pid = pid → event.records = false))

theorem Withdrawn.left {reason : List Event → Prop} {start : List Event}
    (withdrawn : Withdrawn pid start reason own log)
    (grows : ∀ {new more}, reason new → reason (new ++ more))
    (left : Left pid (Event.Spares pid) own own' log log') :
    Withdrawn pid start reason own' log' := by
  rcases withdrawn with ⟨new, rfl, held | ⟨gone, isReason, unrecorded⟩⟩
  · have still := held.left left fun event => Event.settles_of_spares
    rcases left with ⟨_, more, rfl, _⟩
    exact ⟨new ++ more, by simp, .inl still⟩
  · have absent : pid ∉ own'.tracees := mt left.mem_iff.mp gone
    rcases left with ⟨_, more, rfl, spares⟩
    refine ⟨new ++ more, by simp, .inr ⟨absent, grows isReason, ?_⟩⟩
    intro event present isPid
    rcases List.mem_append.mp present with before | after
    · exact unrecorded event before isPid
    · by_contra recorded
      have settles := Event.settles_of_records (Bool.eq_true_of_not_eq_false recorded) isPid
      rw [Event.settles_of_spares (spares event after)] at settles
      exact Bool.false_ne_true settles

theorem settles_of_silent {new : List Event} (silent : ∀ event ∈ new, event.acts = false) :
    settlements pid new = [] := by
  apply settlements_eq_nil
  intro event present
  have idle := silent event present
  cases event <;> first | rfl | exact absurd idle (by simp [Event.acts])

theorem not_isStopped_of_ends {raw : RawStatus} {status : Status} (ends : raw.Ends)
    (decoded : WaitStatus.fromRaw raw = some status.status) : status.isStopped = false := by
  rcases status with ⟨status⟩
  cases raw with
  | exited code =>
      rcases decoded with ⟨⟩
      rfl
  | signaled signal =>
      simp only [WaitStatus.fromRaw, Option.map_eq_some_iff] at decoded
      rcases decoded with ⟨_, _, rfl⟩
      rfl
  | _ => exact ends.elim
variable [Usize]

/-- An exec arms the process anew, or it leaves the table without a record. -/
theorem wp_handleExec (pid : Pid) (own : Daemon) (log : List Event) :
    StateProg.wp (answering allowed) (Daemon.handleExec pid) (fun _ own' log' =>
      ∃ new, log' = log ++ new ∧
        ((settlements pid new = [] ∧
            ∃ tracee, own'.tracees.lookup pid = some tracee ∧ tracee.arch ≠ .unknown) ∨
          (pid ∉ own'.tracees ∧ ∀ event ∈ new, event.records = false))) own log := by
  have leave : ∀ (own : Daemon) (first : List Event), pid ∉ own.tracees →
      significant first = [] →
      StateProg.wp (answering allowed) (liftM (Ptrace.detach pid none) : DaemonM Unit)
        (fun _ own' log' => ∃ new, log' = log ++ new ∧
          ((settlements pid new = [] ∧
              ∃ tracee, own'.tracees.lookup pid = some tracee ∧ tracee.arch ≠ .unknown) ∨
            (pid ∉ own'.tracees ∧ ∀ event ∈ new, event.records = false)))
        own (log ++ first) := by
    intro own first absent silent
    apply StateProg.wp_mono (Tallies.detach none own (log ++ first))
    rintro _ _ _ ⟨_, ⟨⟨_, _, rfl⟩, more, rfl, _, outcome⟩, rfl⟩
    refine ⟨first ++ more, by simp, .inr ⟨absent, ?_⟩⟩
    apply unrecorded_of_significant
    simp [silent, outcome, Event.records]
  unfold Daemon.handleExec
  rw [StateProg.wp_bind, StateProg.wp_get]
  cases found : own.tracees.lookup pid with
  | none =>
      have absent : pid ∉ own.tracees := AList.lookup_eq_none.mp found
      simpa using leave own [] absent rfl
  | some tracee =>
      dsimp only
      rw [StateProg.wp_bind, StateProg.wp_modify, StateProg.wp_bind]
      apply StateProg.wp_mono (Daemon.tallies_armEntryBreakpoint tracee _ _)
      rintro armed own' log' ⟨_, ⟨⟨_, _, rfl⟩, first, rfl, _, silent⟩, rfl, known⟩
      cases armed with
      | none => exact leave _ first (by simp) silent
      | some next =>
          dsimp only
          rw [StateProg.wp_bind, StateProg.wp_modify]
          apply StateProg.wp_mono (Tallies.cont none _ _)
          rintro _ _ _ ⟨_, ⟨⟨_, _, rfl⟩, more, rfl, _, outcome⟩, rfl⟩
          refine ⟨first ++ more, by simp, .inl ⟨?_, next, by simp, known next rfl⟩⟩
          rw [settlements_significant, significant_append, silent, outcome]
          rfl
theorem withdrawn_expireOne {start : List Event}
    (ends : ∀ later raw, allowed later (.waitpid pid) (.status pid raw) → raw.Ends)
    (withdrawn : Withdrawn pid start (fun new => ∃ raw, .waited pid raw ∈ new ∧ raw.Ends) own log) :
    StateProg.wp (answering allowed) (Daemon.expireOne pid)
      (fun _ => Withdrawn pid start fun new => ∃ raw, .waited pid raw ∈ new ∧ raw.Ends)
      own log := by
  unfold Daemon.expireOne
  rw [StateProg.wp_bind, StateProg.wp_get]
  rcases withdrawn with ⟨new, rfl, held | ⟨gone, isReason, unrecorded⟩⟩
  swap
  · rw [AList.lookup_eq_none.mpr gone]
    exact ⟨new, rfl, .inr ⟨gone, isReason, unrecorded⟩⟩
  rcases held.known with ⟨tracee, found, known⟩
  rw [found]
  dsimp only
  rw [StateProg.wp_bind, StateProg.wp_modify, StateProg.wp_bind, StateProg.wp_lift]
  apply Prog.wp_mono (waits_stopTracee _ _)
  rintro status _ ⟨more, rfl, silent, reported⟩
  have unsettled : settlements pid ((start ++ new) ++ more) = [] := by
    rw [settlements_append, held.unsettled, settles_of_silent silent]
    rfl
  cases status with
  | none =>
      dsimp only
      rw [StateProg.wp_bind, StateProg.wp_lift]
      intro now after step
      have still : after = (start ++ new) ++ more := by
        have moved := step.1
        rw [ledger_step] at moved
        simpa [effects] using moved
      rw [still, Prog.wp_pure, StateProg.wp_modify]
      refine ⟨new ++ more, by simp, .inl ⟨⟨_, AList.lookup_insert _, known⟩, unsettled⟩⟩
  | some status =>
      rcases reported status rfl with ⟨later, raw, isAnswer, decoded, waited⟩
      have isEnd := ends later raw isAnswer
      dsimp only
      rw [not_isStopped_of_ends isEnd decoded, if_neg Bool.false_ne_true, StateProg.wp_modify]
      refine ⟨new ++ more, by simp, .inr ⟨by simp, ⟨raw, by simp [waited], isEnd⟩, ?_⟩⟩
      exact unrecorded_of_unsettled unsettled

theorem withdrawn_releaseOne {start : List Event}
    (withdrawn : Withdrawn pid start (fun _ => True) own log) :
    StateProg.wp (answering allowed) (Daemon.releaseOne pid)
      (fun _ => Withdrawn pid start fun _ => True) own log := by
  unfold Daemon.releaseOne
  rw [StateProg.wp_bind, StateProg.wp_get]
  rcases withdrawn with ⟨new, rfl, held | ⟨gone, isReason, unrecorded⟩⟩
  swap
  · rw [AList.lookup_eq_none.mpr gone]
    exact ⟨new, rfl, .inr ⟨gone, isReason, unrecorded⟩⟩
  rcases held.known with ⟨tracee, found, known⟩
  rw [found]
  dsimp only
  rw [StateProg.wp_bind, StateProg.wp_modify, StateProg.wp_bind, StateProg.wp_lift]
  apply Prog.wp_mono (waits_stopTracee _ _)
  rintro status _ ⟨more, rfl, silent, _⟩
  have unsettled : settlements pid ((start ++ new) ++ more) = [] := by
    rw [settlements_append, held.unsettled, settles_of_silent silent]
    rfl
  cases status with
  | none =>
      dsimp only
      rw [StateProg.wp_bind, StateProg.wp_modify]
      exact ⟨new ++ more, by simp, .inl ⟨⟨tracee, AList.lookup_insert _, known⟩, unsettled⟩⟩
  | some status =>
      dsimp only
      have undone : Tallies allowed pid (do
          releaseTracee pid tracee
          Ptrace.detach pid none
          return true) fun _ new => new = [.detached pid none] := by
        apply Tallies.bind_edits (edits_releaseTracee pid tracee)
        intro _
        apply Tallies.bind_exact (Tallies.detach none)
        intro _
        exact Tallies.pure rfl
      apply StateProg.wp_mono (undone _ _)
      rintro _ _ _ ⟨_, ⟨⟨_, _, rfl⟩, last, rfl, _, outcome⟩, rfl⟩
      refine ⟨new ++ more ++ last, by simp, .inr ⟨by simp, trivial, ?_⟩⟩
      intro event present isPid
      rcases List.mem_append.mp present with before | after
      · exact unrecorded_of_unsettled unsettled event before isPid
      · exact unrecorded_of_significant (by simp [outcome, Event.records]) event after

variable [Config.Build]

theorem Continues.of_held {new : List Event} (held : Held pid own' (log ++ new)) :
    Continues pid move log own' (log ++ new) :=
  ⟨new, rfl, .inl ⟨held.mem, held.unsettled⟩, fun _ => held⟩

theorem Continues.of_left {quiet : Event → Prop} (held : Held pid own log)
    (left : Left pid quiet own own' log log')
    (unsettles : ∀ event, quiet event → event.settles pid = false) :
    Continues pid move log own' log' := by
  have still := held.left left unsettles
  rcases left with ⟨_, new, rfl, _⟩
  exact .of_held still

/-- A granted step goes on, or ends with one record and the detach. -/
theorem tallies_granted_step {start : List Event} (known : tracee.arch ≠ .unknown)
    (granted : StepGranted allowed start pid tracee) :
    TalliesFrom allowed start pid (Daemon.step pid tracee)
      (StepTally pid tracee (OneRecord pid)) := by
  apply Daemon.tallies_step_from
  · exact fun _ _ _ => .inl ⟨known, granted⟩
  · exact fun _ reason => ⟨_, rfl, rfl, rfl⟩
  · exact fun _ => ⟨_, rfl, rfl, rfl⟩

/-- What the tally of a granted step makes of a life, once the table has been updated. -/
theorem Continues.of_stepTally {progress : Progress} {new tally : List Event}
    (unsettled : settlements pid log = []) (known : tracee.arch ≠ .unknown)
    (outcome : significant new = tally) (isTally : StepTally pid tracee (OneRecord pid) progress tally)
    (tracked : ∀ next, progress = .tracing next → own'.tracees.lookup pid = some next)
    (untracked : progress = .finished → pid ∉ own'.tracees) :
    Continues pid move log own' (log ++ new) := by
  cases progress with
  | tracing next =>
      rcases isTally with ⟨resumed, same, _⟩
      apply Continues.of_held
      refine ⟨⟨next, tracked next rfl, ?_⟩, ?_⟩
      · rwa [same.arch]
      · rw [settlements_append, unsettled, settlements_significant, outcome, resumed]
        rfl
  | finished =>
      rcases isTally with ⟨_, rfl, record, isRecord, isPid, rfl⟩
      have gone := untracked rfl
      refine ⟨new, rfl, .inr (.inr ⟨gone, record, isRecord, ?_⟩), fun present =>
        absurd present gone⟩
      rw [settlements_append, unsettled, settlements_significant, outcome]
      have detach : Event.settles pid (.detached pid none) = true := beq_self_eq_true pid
      simp [settlements, Event.settles_of_records isRecord isPid, detach]

theorem continues_handleTrap (held : Held pid own log)
    (granted : ∀ tracee, own.tracees.lookup pid = some tracee →
      StepGranted allowed log pid tracee) :
    StateProg.wp (answering allowed) (Daemon.handleTrap pid)
      (fun _ own' log' => Continues pid move log own' log') own log := by
  rcases held.known with ⟨tracee, found, known⟩
  unfold Daemon.handleTrap
  rw [StateProg.wp_bind, StateProg.wp_get, found]
  dsimp only
  rw [StateProg.wp_bind, StateProg.wp_modify, StateProg.wp_bind]
  apply StateProg.wp_mono (tallies_granted_step known (granted tracee found) _)
  rintro progress own' log' ⟨tally, ⟨⟨_, _, rfl⟩, new, rfl, _, outcome⟩, isTally⟩
  cases progress with
  | tracing next =>
      dsimp only
      rw [StateProg.wp_modify]
      apply Continues.of_stepTally held.unsettled known outcome isTally
      · rintro _ ⟨⟩
        simp
      · exact fun impossible => Progress.noConfusion impossible
  | finished =>
      apply Continues.of_stepTally held.unsettled known outcome isTally
      · exact fun _ impossible => Progress.noConfusion impossible
      · intro _
        simp

theorem continues_beginLateInjection (absent : pid ∉ own.tracees)
    (unsettled : settlements pid log = []) (known : tracee.arch ≠ .unknown)
    (granted : StepGranted allowed log pid { tracee with state := .late }) :
    StateProg.wp (answering allowed) (Daemon.beginLateInjection pid tracee)
      (fun _ own' log' => Continues pid move log own' log') own log := by
  unfold Daemon.beginLateInjection
  rw [StateProg.wp_bind]
  have lateKnown : ({ tracee with state := .late } : Tracee).arch ≠ .unknown := known
  apply StateProg.wp_mono (tallies_granted_step lateKnown granted own)
  rintro progress own' log' ⟨tally, ⟨⟨_, _, rfl⟩, new, rfl, _, outcome⟩, isTally⟩
  cases progress with
  | tracing next =>
      dsimp only
      rw [StateProg.wp_bind, StateProg.wp_modify]
      apply Continues.of_stepTally unsettled lateKnown outcome isTally
      · rintro _ ⟨⟩
        simp
      · exact fun impossible => Progress.noConfusion impossible
  | finished =>
      apply Continues.of_stepTally unsettled lateKnown outcome isTally
      · exact fun _ impossible => Progress.noConfusion impossible
      · exact fun _ => absent

/-- A report about the tracee. -/
theorem continues_report (held : Held pid own log) (status : Status)
    (granted : status.Traps → ∀ tracee, own.tracees.lookup pid = some tracee →
      StepGranted allowed log pid tracee) :
    StateProg.wp (answering allowed) (Daemon.handleEvent pid status)
      (fun _ own' log' => Continues pid (.turn (.report pid status)) log own' log') own log := by
  have ends : ∀ {own' new}, (status.Gone ∨ status.Execs ∨ status.Exits) → pid ∉ own'.tracees →
      (∀ event ∈ new, event.records = false) →
      Continues pid (.turn (.report pid status)) log own' (log ++ new) := by
    intro own' new ends gone unrecorded
    refine ⟨new, rfl, .inr (.inl ⟨gone, ⟨rfl, ends⟩, ?_⟩), fun present => absurd present gone⟩
    intro event present isPid
    rcases List.mem_append.mp present with inLog | inNew
    · exact unrecorded_of_unsettled held.unsettled event inLog isPid
    · exact unrecorded event inNew
  by_cases gone : status.Gone
  · rw [Daemon.handleEvent_gone gone, StateProg.wp_modify]
    simpa using @ends _ [] (.inl gone) (by simp) (by simp)
  by_cases execs : status.Execs
  · rw [Daemon.handleEvent_execs execs]
    apply StateProg.wp_mono (wp_handleExec pid own log)
    rintro _ own' _ ⟨new, rfl, armed | ⟨absent, unrecorded⟩⟩
    · exact .of_held ⟨armed.2, by simp [held.unsettled, armed.1]⟩
    · exact ends (.inr (.inl execs)) absent unrecorded
  by_cases exits : status.Exits
  · rw [Daemon.handleEvent_exits exits, StateProg.wp_bind, StateProg.wp_modify]
    apply StateProg.wp_mono (Tallies.cont none _ log)
    rintro _ _ _ ⟨_, ⟨⟨_, _, rfl⟩, new, rfl, _, outcome⟩, rfl⟩
    apply ends (.inr (.inr exits)) (by simp)
    apply unrecorded_of_significant
    simp [outcome, Event.records]
  by_cases traps : status.Traps
  · rw [Daemon.handleEvent_traps traps, StateProg.wp_bind, StateProg.wp_get, if_pos held.mem]
    exact continues_handleTrap held (granted traps)
  · apply StateProg.wp_mono (Daemon.passes_handleEvent trivial gone execs exits traps own log
      fun _ => held.mem)
    intro _ own' log' left
    exact .of_left held left fun event => Event.settles_of_passes

theorem Withdrawn.continues {reason : List Event → Prop}
    (withdrawn : Withdrawn pid log reason own' log')
    (ends : ∀ new, reason new → move.EndsLife pid new) : Continues pid move log own' log' := by
  rcases withdrawn with ⟨new, rfl, held | ⟨gone, isReason, unrecorded⟩⟩
  · exact .of_held held
  · exact ⟨new, rfl, .inr (.inl ⟨gone, ends new isReason, unrecorded⟩), fun present =>
      absurd present gone⟩

theorem continues_turn (held : Held pid own log) {next : Turn}
    (undisturbed : (Move.turn next).Undisturbed allowed pid own log) :
    StateProg.wp (answering allowed) next.program
      (fun _ own' log' => Continues pid (.turn next) log own' log') own log := by
  by_cases isExpire : next = .expire
  · subst isExpire
    rcases held.known with ⟨tracee, found, _⟩
    rcases undisturbed tracee found with fresh | ends
    · apply StateProg.wp_mono (Daemon.spared_expirePending found fresh)
      intro _ own' log' left
      exact .of_left held left fun event => Event.settles_of_spares
    · have start : Withdrawn pid log (fun new => ∃ raw, .waited pid raw ∈ new ∧ raw.Ends) own log :=
        ⟨[], by simp, .inl held⟩
      apply StateProg.wp_mono (Daemon.wp_expirePending pid start _ _)
      · intro _ own' log' withdrawn
        exact withdrawn.continues fun _ => id
      · intro own own' log log' withdrawn left
        apply withdrawn.left _ left
        rintro new more ⟨raw, waited, isEnd⟩
        exact ⟨raw, List.mem_append_left _ waited, isEnd⟩
      · exact fun _ _ _ _ _ own log withdrawn => withdrawn_expireOne ends withdrawn
  by_cases isRelease : next = .release
  · subst isRelease
    have start : Withdrawn pid log (fun _ => True) own log := ⟨[], by simp, .inl held⟩
    unfold Turn.program
    rw [StateProg.wp_bind]
    apply StateProg.wp_mono (Daemon.wp_releaseTracees pid start _ _)
    · intro _ own' log' withdrawn
      exact withdrawn.continues fun _ _ => trivial
    · exact fun withdrawn left => withdrawn.left (fun _ => trivial) left
    · exact fun own log withdrawn => withdrawn_releaseOne withdrawn
  by_cases isReport : ∃ status, next = .report pid status
  · rcases isReport with ⟨status, rfl⟩
    exact continues_report held status (undisturbed rfl)
  have spares : Spares allowed pid True next.program := by
    apply spares_turn
    · rintro (rfl | rfl) <;> exact undisturbed
    · rintro rfl
      exact undisturbed
    · exact fun status same => isReport ⟨status, same⟩
    · exact isExpire
    · exact isRelease
  apply StateProg.wp_mono (spares own log fun _ => held.mem)
  intro _ own' log' left
  exact .of_left held left fun event => Event.settles_of_spares

end Moves

/-- What is known of a life: a tracee in hand is of a known architecture and nothing has
happened to it yet, any other is held. -/
def Carried (pid : Pid) : Option Tracee → Daemon → List Event → Prop
  | some tracee, own, log => tracee.arch ≠ .unknown ∧ pid ∉ own.tracees ∧ log = []
  | none, own, log => Held pid own log

section Lives

variable [Usize] [Config.Build]

/-- Which moves can follow: a tracee in hand begins its injection, any other life goes on with
a turn of the daemon. -/
def Move.Follows (inHand : Option Tracee) : Move → Prop
  | .late tracee => inHand = some tracee
  | .turn _ => inHand = none

/-- The life of an injection as far as it has gone: the tracee that is still in hand, the
daemon, and the events since the breakpoint was armed. -/
inductive Living (condition : Allowed → Pid → Daemon → List Event → Move → Prop) (pid : Pid) :
    Option Tracee → Daemon → List Event → Prop
  | exec {allowed own own' log}
      (run : StateProg.Runs (answering allowed) (Daemon.handleExec pid) own [] ⟨⟩ own' log)
      (armed : pid ∈ own'.tracees) : Living condition pid none own' log
  | entry {allowed allowed' exe stopped before earlier own later own' log}
      (stops : StateProg.Runs (answering allowed) (Daemon.seizeAndStop pid exe) before earlier
        (.ok stopped) own later)
      (run : StateProg.Runs (answering allowed') (Daemon.armEntryInjection pid exe stopped) own []
        .seized own' log) : Living condition pid none own' log
  | late {allowed exe stopped before earlier own later tracee}
      (stops : StateProg.Runs (answering allowed) (Daemon.seizeAndStop pid exe) before earlier
        (.ok stopped) own later)
      (sameArch : tracee.arch = stopped.arch) (untraced : pid ∉ own.tracees) :
      Living condition pid (some tracee) own []
  | move {inHand own log allowed own' log'} {move : Move}
      (life : Living condition pid inHand own log) (follows : move.Follows inHand)
      (met : condition allowed pid own log move)
      (run : StateProg.Runs (answering allowed) (move.program pid) own log ⟨⟩ own' log')
      (tracked : pid ∈ own'.tracees) : Living condition pid none own' log'

section Starts

omit [Config.Build]
variable {allowed : Allowed} {pid : Pid} {exe : String} {own : Daemon} {log : List Event}

theorem returns_seizePlan (pid : Pid) (exe : String) :
    (Daemon.seizePlan pid exe).Returns fun plan =>
      ∀ arch is64 entry thumb, plan = some (arch, is64, entry, thumb) → arch ≠ .unknown := by
  intro header
  cases header with
  | none => rintro arch is64 entry thumb ⟨⟩
  | some header =>
      dsimp only [Prog.bind]
      split
      · rintro arch is64 entry thumb ⟨⟩
      case isFalse known =>
        intro entries
        dsimp only [Prog.bind]
        split
        · rintro arch is64 entry thumb ⟨⟩
        split
        · rintro arch is64 entry thumb ⟨⟩
        split
        · rintro arch is64 entry thumb ⟨⟩
        · rintro arch is64 entry thumb ⟨⟩
          exact known

theorem returns_seizeWith (arch : Arch) (is64 : Bool) (entry : Nat) (thumb : Bool) :
    (Daemon.seizeWith pid arch is64 entry thumb).Returns fun result =>
      ∀ stopped, result = .ok stopped → stopped.arch = arch := by
  have leave : ∀ seizure : Seizure, Prog.Returns (I := Sys) (fun result =>
      ∀ stopped : StoppedTarget, result = .ok stopped → stopped.arch = arch) (do
        Ptrace.detach pid none
        return Except.error seizure) := by
    rintro seizure _ stopped ⟨⟩
  intro seized
  cases seized with
  | permissionDenied | failed => rintro stopped ⟨⟩
  | ok =>
      intro interrupted
      dsimp only [Prog.bind]
      split
      · exact leave .giveUp
      intro now
      apply Prog.Returns.bind_any (Mode.waitForStop pid _)
      intro status
      cases status with
      | none => exact leave .giveUp
      | some status =>
          dsimp only
          split
          · exact leave .giveUp
          apply Prog.Returns.bind_any
          intro regs
          cases regs with
          | none => exact leave .giveUp
          | some regs =>
              rintro stopped ⟨⟩
              rfl

/-- The architecture of a target that `seize_and_stop` has stopped is known. -/
theorem wp_seizeAndStop_arch :
    StateProg.wp (answering allowed) (Daemon.seizeAndStop pid exe)
      (fun result _ _ => ∀ stopped, result = .ok stopped → stopped.arch ≠ .unknown) own log := by
  unfold Daemon.seizeAndStop
  rw [StateProg.wp_bind, StateProg.wp_lift]
  apply Prog.wp_mono (Yields.anyValue _ log)
  intro tracer after _
  cases tracer with
  | some tracer =>
      dsimp only
      rw [StateProg.wp_bind, StateProg.wp_modify]
      rintro stopped ⟨⟩
  | none =>
      dsimp only
      rw [StateProg.wp_bind, StateProg.wp_lift]
      apply Prog.wp_mono (returns_seizePlan pid exe).wp
      intro plan later known
      cases plan with
      | none => rintro stopped ⟨⟩
      | some plan =>
          rcases plan with ⟨arch, is64, entry, thumb⟩
          dsimp only
          rw [StateProg.wp_lift]
          apply Prog.wp_mono (returns_seizeWith arch is64 entry thumb).wp
          intro result _ same stopped isStopped
          rw [same stopped isStopped]
          exact known arch is64 entry thumb rfl

/-- A seized tracee is held. -/
theorem wp_armEntryInjection {stopped : StoppedTarget} (known : stopped.arch ≠ .unknown) :
    StateProg.wp (answering allowed) (Daemon.armEntryInjection pid exe stopped)
      (fun seizure own' log' => seizure = .seized → Held pid own' log') own [] := by
  unfold Daemon.armEntryInjection
  rw [StateProg.wp_bind, StateProg.wp_get]
  dsimp only
  have armed : ∀ tracee : Tracee, tracee.arch ≠ .unknown →
      Tallies allowed pid (liftM (setEntryBreakpoint pid tracee stopped.thumb))
        fun armed new => new = [] ∧ ∀ next, armed = some next → next.arch ≠ .unknown := by
    intro tracee known
    apply (Tallies.edits ((accesses_setEntryBreakpoint pid tracee _).mono
      (Call.edits_of_accesses pid)) (.of_returns (returns_setEntryBreakpoint _ _))).mono
    rintro armed new ⟨silent, same⟩
    refine ⟨silent, fun next isNext => ?_⟩
    rwa [(same next isNext).arch]
  apply wp_bind_reads (reads_perform .nowMs trivial)
  intro now
  rw [StateProg.wp_bind]
  apply StateProg.wp_mono (armed _ known _ _)
  rintro result _ _ ⟨_, ⟨⟨_, _, rfl⟩, first, rfl, _, silent⟩, rfl, archKnown⟩
  cases result with
  | none =>
      dsimp only
      rw [StateProg.wp_bind]
      apply StateProg.wp_mono (Tallies.detach none _ _)
      rintro _ _ _ _ ⟨⟩
  | some next =>
      dsimp only
      rw [StateProg.wp_bind, StateProg.wp_modify, StateProg.wp_bind]
      apply StateProg.wp_mono (Tallies.cont _ _ _)
      rintro _ _ _ ⟨_, ⟨⟨_, _, rfl⟩, more, rfl, _, outcome⟩, rfl⟩ _
      refine ⟨⟨next, by simp, archKnown next rfl⟩, ?_⟩
      rw [settlements_significant]
      simp [silent, outcome, settlements, Event.settles]

variable [Config.Build]

/-- One move carries a life on, or ends it as it should end. -/
theorem continues_move {inHand : Option Tracee} {move : Move} (carried : Carried pid inHand own log)
    (follows : move.Follows inHand) (undisturbed : move.Undisturbed allowed pid own log) :
    StateProg.wp (answering allowed) (move.program pid)
      (fun _ own' log' => Continues pid move log own' log') own log := by
  cases move with
  | late tracee =>
      rw [Move.Follows] at follows
      subst follows
      rcases carried with ⟨known, untraced, rfl⟩
      unfold Move.program
      rw [StateProg.wp_bind]
      exact continues_beginLateInjection untraced rfl known undisturbed
  | turn next =>
      rw [Move.Follows] at follows
      subst follows
      exact continues_turn carried undisturbed

theorem carried_of_living {inHand : Option Tracee}
    (life : Living Move.Undisturbed pid inHand own log) : Carried pid inHand own log := by
  induction life with
  | exec run armed =>
      rcases run.of_wp (wp_handleExec pid _ []) with ⟨new, rfl, ⟨unsettled, known⟩ | ⟨absent, _⟩⟩
      · exact ⟨known, unsettled⟩
      · exact absurd armed absent
  | entry stops run =>
      exact run.of_wp (wp_armEntryInjection (stops.of_wp wp_seizeAndStop_arch _ rfl)) rfl
  | late stops sameArch untraced =>
      refine ⟨?_, untraced, rfl⟩
      rw [sameArch]
      exact stops.of_wp wp_seizeAndStop_arch _ rfl
  | move life follows met run tracked ih =>
      rcases run.of_wp (continues_move ih follows met) with ⟨_, _, _, held⟩
      exact held tracked

end Starts

/-- In every run whose moves are undisturbed an injection goes on unrecorded, or it ends: with
one record and the detach, or without a record because the target or the daemon is at an
end. -/
theorem accounted {allowed : Allowed} {pid : Pid} {inHand : Option Tracee} {own own' : Daemon}
    {log log' : List Event} {move : Move} (life : Living Move.Undisturbed pid inHand own log)
    (follows : move.Follows inHand) (undisturbed : move.Undisturbed allowed pid own log)
    (run : StateProg.Runs (answering allowed) (move.program pid) own log ⟨⟩ own' log') :
    ∃ new, log' = log ++ new ∧ Accounted pid move own' log new := by
  rcases run.of_wp (continues_move (carried_of_living life) follows undisturbed) with
    ⟨new, grows, accounted, _⟩
  exact ⟨new, grows, accounted⟩

/-- The same of every run, whatever it is granted. -/
def AlwaysAccounted : Prop :=
  ∀ allowed pid inHand own own' log log' (move : Move),
    Living (fun _ _ _ _ _ => True) pid inHand own log → move.Follows inHand →
    StateProg.Runs (answering allowed) (move.program pid) own log ⟨⟩ own' log' →
    ∃ new, log' = log ++ new ∧ Accounted pid move own' log new

end Lives

section Runs

/-- The daemon and the events after the exec of the process. -/
def armedA : (Unit × Daemon) × List Event :=
  Prog.eval (I := Sys) (scripted (runningA none)) ((@Daemon.handleExec .eight 100).run attachedTarget) []

theorem living_armedA (condition : Allowed → Pid → Daemon → List Event → Move → Prop) :
    @Living .eight .arm64 condition 100 none armedA.1.2 armedA.2 :=
  @Living.exec .eight .arm64 condition 100 (following (runningA none)) attachedTarget armedA.1.2 armedA.2
    (runs_scripted (runningA none) _ attachedTarget []) (by decide)

/-- A report about the armed process, and what it makes of the daemon and the events. -/
def reportedA (status : WaitStatus) : (Unit × Daemon) × List Event :=
  Prog.eval (I := Sys) (scripted (runningA none))
    ((@Turn.program .eight .arm64 (.report 100 ⟨status⟩)).run armedA.1.2) armedA.2

/-- The daemon and the events after the trap of the armed process, whose registers are read. -/
def enteredA : (Unit × Daemon) × List Event :=
  Prog.eval (I := Sys) (scripted (runningA (some (registersAt 4112))))
    ((@Turn.program .eight .arm64 (.report 100 ⟨.stopped Signal.SIGTRAP⟩)).run armedA.1.2) armedA.2

theorem granted_armedA (tracee : Tracee) (isTracee : armedA.1.2.tracees.lookup 100 = some tracee) :
    @StepGranted .eight (following (runningA (some (registersAt 4112)))) armedA.2 100 tracee := by
  have armed : ∀ tracee ∈ armedA.1.2.tracees.lookup 100, tracee.state = .entry ∧
      tracee.arch = .arm64 ∧ @Daemon.expectedPc .eight tracee = 4112 := by
    decide
  rcases armed tracee isTracee with ⟨state, arch, expected⟩
  unfold StepGranted
  rw [state]
  refine ⟨?_, ?_, ⟨?_, ?_⟩, ⟨?_, ?_, ?_⟩⟩
  · rintro _ _ ⟨⟩
    rfl
  · rintro _ ⟨⟩
    rw [arch, expected]
    decide +kernel
  · exact fun _ => Yields.of_eval _ rfl
  · exact Yields.of_eval _ (by decide +kernel)
  · rintro _ _ _ ⟨⟩
    rfl
  · rintro _ _ _ _ ⟨⟩
    rfl
  · rintro _ _ _ ⟨⟩
    rfl
theorem living_enteredA : @Living .eight .arm64 (@Move.Undisturbed .eight) 100 none enteredA.1.2
    enteredA.2 :=
  @Living.move .eight .arm64 _ 100 none armedA.1.2 armedA.2 _ enteredA.1.2 enteredA.2
    (.turn (.report 100 ⟨.stopped Signal.SIGTRAP⟩)) (living_armedA _) rfl
    (fun _ _ tracee isTracee => granted_armedA tracee isTracee)
    (runs_scripted (runningA (some (registersAt 4112))) _ armedA.1.2 armedA.2) (by decide +kernel)

/-- The daemon and the events when it dies in the call that is to make the image of the loader. -/
def diedA : (Unit × Daemon) × List Event :=
  Prog.eval (I := Sys) (scripted (runningA none))
    ((@Turn.program .eight .arm64 (.report 100 ⟨.exited 0⟩)).run enteredA.1.2) enteredA.2

/-- The target is trapped at its entry, runs on and dies: the injection ends without a record. -/
theorem accounted_exit_of_entered : ∃ new, diedA.2 = enteredA.2 ++ new ∧
    @Accounted .eight .arm64 100 (.turn (.report 100 ⟨.exited 0⟩)) diedA.1.2 enteredA.2 new :=
  @accounted .eight .arm64 (following (runningA none)) 100 none enteredA.1.2 _ enteredA.2 _ _
    living_enteredA rfl (fun _ traps => absurd traps.1.1 Bool.false_ne_true)
    (runs_scripted (runningA none) _ enteredA.1.2 enteredA.2)

/-- A target whose registers cannot be read at its entry is detached, and nobody is told. -/
theorem unread_entry_unaccounted : ¬@AlwaysAccounted .eight .arm64 := by
  intro always
  have run := runs_scripted (runningA none)
    (@Turn.program .eight .arm64 (.report 100 ⟨.stopped Signal.SIGTRAP⟩)) armedA.1.2 armedA.2
  rcases always (following (runningA none)) 100 none _ _ _ _
      (.turn (.report 100 ⟨.stopped Signal.SIGTRAP⟩)) (living_armedA _) rfl run with
    ⟨new, grows, ⟨tracked, _⟩ | ⟨_, ⟨_, ends⟩, _⟩ | ⟨_, record, isRecord, settled⟩⟩
  · exact absurd tracked (by decide)
  · rcases ends with gone | execs | exits
    · exact absurd gone (by decide)
    · exact absurd execs (by decide)
    · exact absurd exits (by decide)
  · have quit : settlements 100 (reportedA (.stopped Signal.SIGTRAP)).2 =
        [.detached 100 none] := by decide
    rw [← grows] at settled
    have both := quit.symm.trans settled
    exact absurd both (by simp)

end Runs

end Znn.Injector
