import Znn.Injector.Step

/-!
# What a program leaves alone

The daemon handles many processes in turn. `Leaves pid quiet program` says of a program that
the entry of a traced process `pid` stays what it is and that every event is `quiet`. What is
quiet is up to the statement: that no event is about the process, or that the process is let
run and nothing else is done to it.
-/

namespace Znn.Injector

open Interaction

/-- The entry of the tracee is what it was, and nothing but quiet events have happened. -/
structure Left (pid : Pid) (quiet : Event → Prop) (own own' : Daemon) (log log' : List Event) :
    Prop where
  lookup : own'.tracees.lookup pid = own.tracees.lookup pid
  events : ∃ new, log' = log ++ new ∧ ∀ event ∈ new, quiet event

namespace Left

variable {pid : Pid} {quiet weaker : Event → Prop} {own own' own'' : Daemon}
  {log log' log'' : List Event}

theorem refl (pid : Pid) (own : Daemon) (log : List Event) : Left pid quiet own own log log :=
  ⟨rfl, [], by simp⟩

theorem trans (first : Left pid quiet own own' log log')
    (second : Left pid quiet own' own'' log' log'') : Left pid quiet own own'' log log'' := by
  obtain ⟨lookup, new, rfl, isQuiet⟩ := first
  obtain ⟨lookup', more, rfl, isQuiet'⟩ := second
  refine ⟨lookup'.trans lookup, new ++ more, by simp, ?_⟩
  intro event present
  rcases List.mem_append.mp present with inNew | inMore
  · exact isQuiet event inNew
  · exact isQuiet' event inMore

theorem mono (left : Left pid quiet own own' log log')
    (implies : ∀ event, quiet event → weaker event) : Left pid weaker own own' log log' := by
  obtain ⟨lookup, new, rfl, isQuiet⟩ := left
  exact ⟨lookup, new, rfl, fun event present => implies event (isQuiet event present)⟩

theorem mem_iff (left : Left pid quiet own own' log log') :
    pid ∈ own'.tracees ↔ pid ∈ own.tracees := by
  rw [← AList.lookup_isSome, ← AList.lookup_isSome, left.lookup]

end Left

/-- Every run of the program leaves the entry of `pid` and its events are quiet; `present` says
whether the runs that count are only those that begin with `pid` in the table. -/
def Leaves {α : Type} (allowed : Allowed) (pid : Pid) (present : Prop) (quiet : Event → Prop)
    (program : DaemonM α) : Prop :=
  ∀ own log, (present → pid ∈ own.tracees) → StateProg.wp (answering allowed) program
    (fun _ own' log' => Left pid quiet own own' log log') own log

namespace Leaves

variable {α β : Type} {allowed : Allowed} {pid : Pid} {present : Prop}
  {quiet : Event → Prop}

theorem pure (value : α) : Leaves allowed pid present quiet (Pure.pure value : DaemonM α) :=
  fun own log _ => .refl pid own log

theorem bind {program : DaemonM α} {rest : α → DaemonM β}
    (first : Leaves allowed pid present quiet program)
    (second : ∀ value, Leaves allowed pid present quiet (rest value)) :
    Leaves allowed pid present quiet (program >>= rest) := by
  intro own log isPresent
  rw [StateProg.wp_bind]
  apply StateProg.wp_mono (first own log isPresent)
  intro value own' log' left
  apply StateProg.wp_mono (second value own' log' fun asked => left.mem_iff.mpr (isPresent asked))
  intro _ _ _ left'
  exact left.trans left'

/-- The rest may use that the tracee is in the table. -/
theorem bind_get {rest : Daemon → DaemonM β}
    (second : ∀ daemon, (present → pid ∈ daemon.tracees) →
      Leaves allowed pid present quiet (rest daemon)) :
    Leaves allowed pid present quiet (get >>= rest) := by
  intro own log isPresent
  rw [StateProg.wp_bind, StateProg.wp_get]
  exact second own isPresent own log isPresent

theorem modify {change : Daemon → Daemon}
    (lookup : ∀ daemon, (change daemon).tracees.lookup pid = daemon.tracees.lookup pid) :
    Leaves allowed pid present quiet (modify change) := by
  intro own log _
  rw [StateProg.wp_modify]
  exact ⟨lookup own, [], by simp⟩

theorem forM {items : List α} {body : α → DaemonM PUnit}
    (turn : ∀ item, Leaves allowed pid present quiet (body item)) :
    Leaves allowed pid present quiet (items.forM body) := by
  induction items with
  | nil => exact pure _
  | cons item rest ih => exact bind (turn item) fun _ => ih

theorem mono {weaker : Event → Prop} {program : DaemonM α}
    (leaves : Leaves allowed pid present quiet program)
    (implies : ∀ event, quiet event → weaker event) :
    Leaves allowed pid present weaker program := by
  intro own log isPresent
  apply StateProg.wp_mono (leaves own log isPresent)
  intro _ _ _ left
  exact left.mono implies

/-- A program on the system, by the events of its calls. -/
theorem lift {calls : Call → Prop} {program : Prog Sys α} (only : Only calls program)
    (isQuiet : ∀ request, calls request → ∀ log answer, allowed log request answer →
      ∀ event ∈ effects request answer, quiet event) :
    Leaves allowed pid present quiet (liftM program : DaemonM α) := by
  intro own log _
  rw [StateProg.wp_lift]
  apply Prog.wp_mono (Prog.All.wp_frame (fun before after => ∃ new,
    after = before ++ new ∧ ∀ event ∈ new, quiet event) ?_ ?_ ?_)
  · rintro value _ ⟨new, rfl, holds⟩
    exact ⟨rfl, new, rfl, holds⟩
  · apply only.mono
    intro request holds before answer after step
    exact ⟨_, step.1, isQuiet request holds before answer step.2⟩
  · exact fun state => ⟨[], by simp⟩
  · rintro first second third ⟨new, rfl, holds⟩ ⟨more, rfl, holds'⟩
    refine ⟨new ++ more, by simp, fun event present => ?_⟩
    rcases List.mem_append.mp present with inNew | inMore
    · exact holds event inNew
    · exact holds' event inMore

theorem reads {program : Prog Sys α} (calls : Only Call.reads program) :
    Leaves allowed pid present quiet (liftM program : DaemonM α) := by
  apply lift calls
  intro request isRead log answer _ event present
  rw [effects_of_reads isRead] at present
  exact absurd present List.not_mem_nil

/-- A call that only looks, and what is known of its answer. -/
theorem bind_answer (request : Call) (isRead : request.reads)
    {rest : request.Answer → DaemonM β}
    (second : ∀ log answer, allowed log request answer →
      Leaves allowed pid present quiet (rest answer)) :
    Leaves allowed pid present quiet
      ((liftM (perform request) : DaemonM request.Answer) >>= rest) := by
  intro own log isPresent
  rw [StateProg.wp_bind, StateProg.wp_lift]
  intro answer after step
  have still : after = log := by
    have moved := step.1
    rw [ledger_step, effects_of_reads isRead, List.append_nil] at moved
    exact moved
  rw [still]
  exact second log answer step.2 own log isPresent

/-- A child that is already in the table is left as it is. -/
theorem attachChild (isPresent : present) (child : Pid) :
    Leaves allowed pid present quiet (Daemon.attachChild child) := by
  intro own log asked
  unfold Daemon.attachChild
  rw [StateProg.wp_modify]
  refine ⟨?_, [], by simp⟩
  split
  · rfl
  case isFalse absent =>
    have ne : pid ≠ child := by
      rintro rfl
      exact absent (asked isPresent)
    exact AList.lookup_insert_ne ne

theorem reportFault (other : Pid) (signal : Int) :
    Leaves allowed pid present quiet (Daemon.reportFault other signal) := by
  unfold Daemon.reportFault
  split
  · apply bind_get
    intro daemon _
    cases daemon.tracees.lookup other with
    | none => exact pure _
    | some tracee =>
        apply bind (reads (reads_readRegisters other _))
        intro regs
        cases regs with
        | none => exact pure _
        | some regs =>
            apply bind (reads (reads_perform (.maps other) trivial))
            intro entries
            exact pure _
  · exact pure _

end Leaves

end Znn.Injector
