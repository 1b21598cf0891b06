import Znn.Injector.Events

/-!
# The tally of a step

`Tallies pid program tally` says of a program that all its events are about `pid`, that it
leaves the daemon's tables alone, and which of its events matter: the requests that let the
process run and the records. One rule for each way a program is built carries the judgement
through the handlers, and `tallies_step` is their sum: whatever the system answers, a step
either resumes the tracee once and records nothing, or detaches it once after at most one
record.
-/

namespace Znn.Injector

open Interaction PtraceOps Trace

/-- The events that let a process run or record something about it. -/
def significant (log : List Event) : List Event :=
  log.filter fun event => event.lets || event.records

@[simp]
theorem significant_nil : significant [] = [] := rfl

@[simp]
theorem significant_append (first second : List Event) :
    significant (first ++ second) = significant first ++ significant second := by
  simp [significant]

theorem significant_edits {pid : Pid} {log : List Event}
    (edits : ∀ event ∈ log, event.isEdit pid) : significant log = [] := by
  rw [significant, List.filter_eq_nil_iff]
  intro event present
  have isEdit := edits event present
  cases event <;> first | exact isEdit.elim | simp [Event.lets, Event.records]

/-- Only the module table and the flag of the state file have changed. -/
def Daemon.Recorded (before after : Daemon) : Prop :=
  ∃ modules dirty, after = { before with modules := modules, dirty := dirty }

theorem Daemon.Recorded.refl (daemon : Daemon) : daemon.Recorded daemon :=
  ⟨daemon.modules, daemon.dirty, rfl⟩

theorem Daemon.Recorded.trans {first second third : Daemon} (left : first.Recorded second)
    (right : second.Recorded third) : first.Recorded third := by
  obtain ⟨_, _, rfl⟩ := left
  obtain ⟨modules, dirty, rfl⟩ := right
  exact ⟨modules, dirty, rfl⟩

/-- What a program about one process leaves: records in the daemon, events in the ledger, of
which `tally` are the significant ones. -/
structure Outcome (pid : Pid) (own own' : Daemon) (before after : List Event)
    (tally : List Event) : Prop where
  recorded : own.Recorded own'
  events : ∃ new, after = before ++ new ∧ (∀ event ∈ new, event.acts → event.pid = pid) ∧
    significant new = tally

theorem Outcome.refl (pid : Pid) (own : Daemon) (log : List Event) :
    Outcome pid own own log log [] :=
  ⟨.refl own, [], by simp⟩

theorem Outcome.trans {pid : Pid} {own own' own'' : Daemon} {log log' log'' : List Event}
    {tally tally' : List Event} (first : Outcome pid own own' log log' tally)
    (second : Outcome pid own' own'' log' log'' tally') :
    Outcome pid own own'' log log'' (tally ++ tally') := by
  obtain ⟨recorded, new, rfl, newPid, rfl⟩ := first
  obtain ⟨recorded', more, rfl, morePid, rfl⟩ := second
  refine ⟨recorded.trans recorded', new ++ more, by simp, ?_, by simp⟩
  intro event present acts
  rcases List.mem_append.mp present with inNew | inMore
  · exact newPid event inNew acts
  · exact morePid event inMore acts

/-- Every run of the program ends in a value and a tally that satisfy `tally`. -/
def Tallies {α : Type} (allowed : Allowed) (pid : Pid) (program : DaemonM α)
    (tally : α → List Event → Prop) : Prop :=
  ∀ own log, StateProg.wp (answering allowed) program (fun value own' log' =>
    ∃ new, Outcome pid own own' log log' new ∧ tally value new) own log

/-- The same of the runs that begin at `start`. -/
def TalliesFrom {α : Type} (allowed : Allowed) (start : List Event) (pid : Pid)
    (program : DaemonM α) (tally : α → List Event → Prop) : Prop :=
  ∀ own, StateProg.wp (answering allowed) program (fun value own' log' =>
    ∃ new, Outcome pid own own' start log' new ∧ tally value new) own start

namespace Tallies

variable {α β : Type} {allowed : Allowed} {pid : Pid} {tally weaker : α → List Event → Prop}

theorem mono {program : DaemonM α} (holds : Tallies allowed pid program tally)
    (implies : ∀ value new, tally value new → weaker value new) :
    Tallies allowed pid program weaker := by
  intro own log
  apply StateProg.wp_mono (holds own log)
  rintro value own' log' ⟨new, outcome, isTally⟩
  exact ⟨new, outcome, implies value new isTally⟩

theorem from_start {program : DaemonM α} (holds : Tallies allowed pid program tally)
    (start : List Event) : TalliesFrom allowed start pid program tally :=
  fun own => holds own start

theorem pure {value : α} (holds : tally value []) :
    Tallies allowed pid (Pure.pure value : DaemonM α) tally := by
  intro own log
  exact ⟨[], .refl pid own log, holds⟩

/-- Sequential composition: the tally of the first part is a front of the whole. -/
theorem bind {program : DaemonM α} {rest : α → DaemonM β} {next : β → List Event → Prop}
    (first : Tallies allowed pid program tally)
    (second : ∀ value new, tally value new →
      Tallies allowed pid (rest value) fun result more => next result (new ++ more)) :
    Tallies allowed pid (program >>= rest) next := by
  intro own log
  rw [StateProg.wp_bind]
  apply StateProg.wp_mono (first own log)
  rintro value own' log' ⟨new, outcome, isTally⟩
  apply StateProg.wp_mono (second value new isTally own' log')
  rintro result own'' log'' ⟨more, outcome', isNext⟩
  exact ⟨new ++ more, outcome.trans outcome', isNext⟩

/-- A first part whose tally is always the same list. -/
theorem bind_exact {program : DaemonM α} {rest : α → DaemonM β}
    {next : β → List Event → Prop} {exact : List Event}
    (first : Tallies allowed pid program fun _ new => new = exact)
    (second : ∀ value, Tallies allowed pid (rest value) fun result more =>
      next result (exact ++ more)) :
    Tallies allowed pid (program >>= rest) next := by
  apply bind first
  rintro value new rfl
  exact second value

theorem bind_get {rest : Daemon → DaemonM β} {next : β → List Event → Prop}
    (second : ∀ daemon, Tallies allowed pid (rest daemon) next) :
    Tallies allowed pid (get >>= rest) next := by
  intro own log
  rw [StateProg.wp_bind, StateProg.wp_get]
  exact second own own log

/-- A loop whose turns leave no tally. -/
theorem forM {items : List α} {body : α → DaemonM PUnit}
    (turn : ∀ item, Tallies allowed pid (body item) fun _ new => new = []) :
    Tallies allowed pid (items.forM body) fun _ new => new = [] := by
  induction items with
  | nil => exact pure rfl
  | cons item rest ih => exact bind_exact (turn item) fun _ => ih

section Lift

variable {program : Prog Sys α} {rest : α → DaemonM β} {next : β → List Event → Prop}
  {good : α → Prop}

theorem edits (calls : Only (Call.edits pid) program) (yields : Yields allowed program good) :
    Tallies allowed pid (liftM program : DaemonM α)
      fun value new => new = [] ∧ good value := by
  intro own log
  rw [StateProg.wp_lift]
  apply Prog.wp_mono (Prog.wp_and (wp_edits calls) (yields log))
  rintro value _ ⟨⟨new, rfl, isEdit⟩, isGood⟩
  refine ⟨[], ⟨.refl own, new, rfl, ?_, significant_edits isEdit⟩, rfl, isGood⟩
  intro event present _
  have concerns := isEdit event present
  cases event <;> first | exact concerns | exact concerns.elim

/-- A first part that only writes to the process, with what its value is known to satisfy. -/
theorem bind_yields (calls : Only (Call.edits pid) program)
    (yields : Yields allowed program good)
    (second : ∀ value, good value → Tallies allowed pid (rest value) next) :
    Tallies allowed pid (liftM program >>= rest) next := by
  apply bind (edits calls yields)
  rintro value new ⟨rfl, isGood⟩
  exact second value isGood

theorem bind_edits (calls : Only (Call.edits pid) program)
    (second : ∀ value, Tallies allowed pid (rest value) next) :
    Tallies allowed pid (liftM program >>= rest) next :=
  bind_yields calls (.anyValue program) fun value _ => second value

theorem bind_accesses (calls : Only (Call.accesses pid) program)
    (second : ∀ value, Tallies allowed pid (rest value) next) :
    Tallies allowed pid (liftM program >>= rest) next :=
  bind_edits (calls.mono (Call.edits_of_accesses pid)) second

theorem bind_reads (calls : Only Call.reads program)
    (second : ∀ value, Tallies allowed pid (rest value) next) :
    Tallies allowed pid (liftM program >>= rest) next :=
  bind_edits (calls.mono (Call.edits_of_reads pid)) second

end Lift

/-- One call, with its events. -/
theorem perform (request : Call) {exact : List Event}
    (events : ∀ answer, (∀ event ∈ effects request answer, event.acts → event.pid = pid) ∧
      significant (effects request answer) = exact) :
    Tallies allowed pid (liftM (perform request) : DaemonM request.Answer)
      fun _ new => new = exact := by
  intro own log
  rw [StateProg.wp_lift]
  intro answer after step
  exact ⟨exact, ⟨.refl own, _, step.1, (events answer).1, (events answer).2⟩, rfl⟩

theorem cont (signal : Option Int) :
    Tallies allowed pid (liftM (Ptrace.cont pid signal) : DaemonM Unit)
      fun _ new => new = [.resumed pid (signal.bind Signal.fromNumber)] := by
  apply perform
  intro answer
  constructor <;> simp [effects, Event.pid, significant, Event.lets]

theorem detach (signal : Option Int) :
    Tallies allowed pid (liftM (Ptrace.detach pid signal) : DaemonM Unit)
      fun _ new => new = [.detached pid (signal.bind Signal.fromNumber)] := by
  intro own log
  rw [StateProg.wp_lift]
  intro answer after step
  exact ⟨_, ⟨.refl own, _, step.1, by simp [effects, Event.pid],
    by simp [effects, significant, Event.lets]⟩, rfl⟩

theorem interpret :
    Tallies allowed pid (liftM (note (.interpret pid)) : DaemonM Unit)
      fun _ new => new = [] := by
  apply perform
  intro answer
  constructor <;> simp [effects, Event.ofNote, Event.pid, significant, Event.lets, Event.records]

end Tallies

namespace Daemon

variable {allowed : Allowed} {pid : Pid}

theorem recorded_updateModules (update : ModuleInfo → ModuleInfo) (daemon : Daemon) :
    daemon.Recorded (updateModules update daemon) :=
  ⟨_, _, rfl⟩

theorem tallies_recordFailure (exe reason : String) :
    Tallies allowed pid (recordFailure pid exe reason)
      fun _ new => new = [.failed pid exe reason] := by
  intro own log
  simp only [recordFailure, StateProg.wp_bind, StateProg.wp_lift, StateProg.wp_modify]
  intro _ after step name after' step'
  refine ⟨_, ⟨recorded_updateModules _ own, [.failed pid exe reason], ?_, ?_, rfl⟩, rfl⟩
  · rw [step'.1, step.1]
    simp [effects, Event.ofNote]
  · simp [Event.pid]

theorem tallies_recordSuccess (exe : String) :
    Tallies allowed pid (recordSuccess pid exe) fun _ new => new = [.succeeded pid exe] := by
  intro own log
  simp only [recordSuccess, StateProg.wp_bind, StateProg.wp_lift, StateProg.wp_modify]
  intro _ after step name after' step'
  refine ⟨_, ⟨recorded_updateModules _ own, [.succeeded pid exe], ?_, ?_, rfl⟩, rfl⟩
  · rw [step'.1, step.1]
    simp [effects, Event.ofNote]
  · simp [Event.pid]

variable [Usize]

theorem tallies_undo (tracee : Tracee) :
    Tallies allowed pid (undo pid tracee) fun _ new => new = [.detached pid none] := by
  apply Tallies.bind_edits (edits_releaseTracee pid tracee)
  intro _
  exact Tallies.detach none

theorem tallies_giveUp (tracee : Tracee) (reason : String) :
    Tallies allowed pid (giveUp pid tracee reason)
      fun _ new => new = [.failed pid tracee.exe reason, .detached pid none] := by
  apply Tallies.bind_exact (tallies_recordFailure _ _)
  intro _
  apply (tallies_undo tracee).mono
  rintro _ new rfl
  rfl

end Daemon

end Znn.Injector
