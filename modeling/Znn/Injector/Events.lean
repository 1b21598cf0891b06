import Znn.Interaction.Transcript
import Znn.Injector.Calls

/-!
# What a run does, as a list of events

The ledger reads a program against an environment that may answer every call in any way. It
keeps only what happens to a process at a call: a reported status, a request that lets it
run, a write to its registers, and the marks of the source.
-/

namespace Znn.Injector

open Interaction

inductive Event where
  | waited (pid : Pid) (raw : RawStatus)
  | resumed (pid : Pid) (signal : Option Int)
  | detached (pid : Pid) (signal : Option Int)
  | parked (pid : Pid)
  | wroteRegisters (pid : Pid)
  | interpreted (pid : Pid)
  | succeeded (pid : Pid) (exe : String)
  | failed (pid : Pid) (exe reason : String)
  | restored (pid : Pid) (ok : Bool)
  | observed (pid : Pid) (exe : String)
deriving DecidableEq, Repr

namespace Event

def ofNote : Note → Event
  | .observeTarget pid exe => .observed pid exe
  | .recordSuccess pid exe => .succeeded pid exe
  | .recordFailure pid exe reason => .failed pid exe reason
  | .interpret pid => .interpreted pid
  | .restored pid ok => .restored pid ok

/-- The process the event is about. -/
def pid : Event → Pid
  | .waited pid _ | .resumed pid _ | .detached pid _ | .parked pid | .wroteRegisters pid
  | .interpreted pid | .succeeded pid _ | .failed pid _ _ | .restored pid _
  | .observed pid _ => pid

/-- Whether the event is something the daemon does, not something it is told. -/
def acts : Event → Bool
  | .waited _ _ => false
  | _ => true

/-- A request that lets the process run: a continue, a detach or a successful listen. -/
def lets : Event → Bool
  | .resumed _ _ | .detached _ _ | .parked _ => true
  | _ => false

/-- A record made for the process. -/
def records : Event → Bool
  | .succeeded _ _ | .failed _ _ _ => true
  | _ => false

/-- What writing to the memory and the registers of a process leaves in the ledger. -/
def isEdit (pid : Pid) : Event → Prop
  | .wroteRegisters target | .restored target _ => target = pid
  | _ => False

end Event

/-- The events of one call. -/
def effects : (request : Call) → request.Answer → List Event
  | .waitpid _, .status pid raw => [.waited pid raw]
  | .cont pid signal, _ => [.resumed pid signal]
  | .detach pid signal, _ => [.detached pid signal]
  | .listen pid, true => [.parked pid]
  | .setRegset pid _, true => [.wroteRegisters pid]
  | .note mark, _ => [.ofNote mark]
  | _, _ => []

abbrev Transcript : Type :=
  List (Exchange Sys)

/-- The events of a run, from its transcript. -/
def eventsOf (transcript : Transcript) : List Event :=
  transcript.flatMap fun exchange => effects exchange.1 exchange.2

/-- The answer of a wait for the process that reports the status. -/
def stopOf (pid : Pid) (raw : RawStatus) : Exchange Sys :=
  ⟨.waitpid pid, WaitResult.status pid raw⟩

/-- The environment that answers anything and keeps the events. -/
def ledger : Machine Sys (List Event) :=
  Machine.ledger (I := Sys) effects

/-- A restriction of the answers the environment gives, by the events so far. -/
abbrev Allowed : Type := List Event → (request : Call) → request.Answer → Prop

/-- No restriction. -/
def anything : Allowed := fun _ _ _ => True

/-- The ledger of an environment that keeps to a restriction. -/
def answering (allowed : Allowed) : Machine Sys (List Event) :=
  ledger.restrict allowed

@[simp]
theorem ledger_step (before after : List Event) (request : Call) (answer : request.Answer) :
    ledger.Step before request answer after ↔ after = before ++ effects request answer :=
  Iff.rfl

theorem effects_of_reads {request : Call} (isRead : request.reads) (answer : request.Answer) :
    effects request answer = [] := by
  cases request <;> first | exact isRead.elim | rfl

theorem effects_of_accesses {pid : Pid} {request : Call} (isAccess : request.accesses pid)
    (answer : request.Answer) : effects request answer = [] := by
  by_cases isRead : request.reads
  · exact effects_of_reads isRead answer
  · cases request with
    | pokeData pid address word => rfl
    | _ => exact (isRead isAccess).elim

theorem effects_of_edits {pid : Pid} {request : Call} (isEdit : request.edits pid)
    (answer : request.Answer) : ∀ event ∈ effects request answer, event.isEdit pid := by
  by_cases isRead : request.reads
  · simp [effects_of_reads isRead answer]
  · cases request with
    | pokeData target address word => simp [effects]
    | setRegset target bytes =>
        cases answer
        · simp [effects]
        · simpa [effects, Event.isEdit, Call.edits] using isEdit
    | note mark =>
        cases mark with
        | restored target ok => simpa [effects, Event.ofNote, Event.isEdit, Call.edits] using isEdit
        | _ => exact isEdit.elim
    | _ => exact (isRead isEdit).elim

/-- Calls that act on no process but `pid`. -/
def Call.about (pid : Pid) : Call → Prop
  | .setRegset target _ | .cont target _ | .detach target _ | .listen target => target = pid
  | .note mark => (Event.ofNote mark).pid = pid
  | _ => True

theorem Call.about_of_reads (pid : Pid) (request : Call) (isRead : request.reads) :
    request.about pid := by
  cases request <;> first | exact isRead.elim | trivial

theorem Call.about_of_edits (pid : Pid) (request : Call) (isEdit : request.edits pid) :
    request.about pid := by
  by_cases isRead : request.reads
  · exact about_of_reads pid request isRead
  · cases request with
    | pokeData target address word => trivial
    | setRegset target bytes => exact isEdit
    | note mark =>
        cases mark with
        | restored target ok => exact isEdit
        | _ => exact isEdit.elim
    | _ => exact (isRead isEdit).elim

theorem effects_of_about {pid : Pid} {request : Call} (isAbout : request.about pid)
    (answer : request.Answer) :
    ∀ event ∈ effects request answer, event.acts → event.pid = pid := by
  intro event present acts
  cases request with
  | setRegset target bytes | listen target =>
      cases answer with
      | false => exact absurd present List.not_mem_nil
      | true =>
          cases List.mem_singleton.mp present
          exact isAbout
  | cont target signal | detach target signal | note mark =>
      cases List.mem_singleton.mp present
      exact isAbout
  | waitpid target =>
      cases answer with
      | status child raw =>
          cases List.mem_singleton.mp present
          exact absurd acts Bool.false_ne_true
      | _ => exact absurd present List.not_mem_nil
  | _ => exact absurd present List.not_mem_nil

/-- The environment that answers every request in one way, as a function. -/
def scripted (answers : (request : Call) → request.Answer) (request : Call) (log : List Event) :
    request.Answer × List Event :=
  (answers request, log ++ effects request (answers request))

/-- Only the answers of the script are given. -/
def following (answers : (request : Call) → request.Answer) : Allowed :=
  fun _ request answer => answer = answers request

/-- The run of a program in which every request is answered as scripted. -/
theorem runs_scripted {δ α : Type} (answers : (request : Call) → request.Answer)
    (program : StateProg Sys δ α) (own : δ) (log : List Event) :
    let result := Prog.eval (I := Sys) (scripted answers) (program.run own) log
    StateProg.Runs (answering (following answers)) program own log result.1.1 result.1.2
      result.2 :=
  have sound : ∀ request log, (answering (following answers)).Step log request
      (scripted answers request log).1 (scripted answers request log).2 :=
    fun _ _ => ⟨rfl, rfl⟩
  Prog.runs_eval sound (program.run own) log

/-- The answers of a system that has nothing to offer. -/
def bare : (request : Call) → request.Answer
  | .peekData _ _ | .getRegset _ _ | .eventMessage _ | .getsiginfo _ | .elfHeader _ => none
  | .foreignTracer _ | .readFile _ | .canonicalize _ | .listModules | .listProcesses => none
  | .lastAllocatedPid | .processAgeMs _ => none
  | .pokeData _ _ _ | .setRegset _ _ | .detach _ _ | .interrupt _ | .listen _ => false
  | .accessible _ | .writeToTargetFd _ _ _ | .isSingleThreaded _ | .zygiskNamedPresent => false
  | .startKernelTracker => false
  | .cont _ _ | .spawnCompanion _ _ _ _ | .note _ => ()
  | .seize _ _ => .failed
  | .waitpid _ => .noChild
  | .waitRounds | .nowMs | .symbolAddress _ _ _ => (0 : Nat)
  | .exeLink _ => .unknown
  | .maps _ => ([] : List MapEntry)
  | .pollKernelTracker => ([] : List KernelEvent)
  | .readToString _ => .failed
  | .processName _ _ => ""
  | .freshNonce => (0 : UInt32)
  | .freshToken => Vector.replicate 16 0

/-- A daemon that follows one process. -/
def Daemon.attached (pid : Pid) : Daemon where
  tracees := AList.singleton pid (Tracee.new .traced .unknown)

/-- A daemon that traces the process 100, in which `/a` is a target. -/
def attachedTarget : Daemon :=
  { Daemon.attached 100 with targets := [⟨false, "/a"⟩] }

/-- A 64-bit ARM program `/a`, mapped at 4096, whose memory can be written; its registers are
read as given. -/
def runningA (registers : Option (List UInt8)) : (request : Call) → request.Answer
  | .exeLink _ => .path "/a"
  | .elfHeader _ => some ⟨true, Elf.ET_DYN, Elf.EM_AARCH64, 16⟩
  | .maps _ => [⟨4096, 8192, 0, 5, "/a"⟩, ⟨8192, 12288, 0, 5, "/libc.so"⟩]
  | .symbolAddress _ _ _ => (1 : Nat)
  | .readFile _ => some [0]
  | .getRegset _ _ => registers
  | .peekData _ _ => some (List.replicate 8 0)
  | .pokeData _ _ _ | .setRegset _ _ => true
  | request => bare request

/-- The registers of a 64-bit ARM process at `pc`, the others zero. -/
def registersAt (pc : Nat) : List UInt8 :=
  List.replicate ARM64.pc 0 ++ Bytes.little ARM64.word pc ++ List.replicate ARM64.word 0

section Frames

variable {α : Type} {program : Prog Sys α} {allowed : Allowed} {log : List Event}

/-- A program that only writes to one process leaves only the events of such writes. -/
theorem wp_edits {pid : Pid} (calls : Only (Call.edits pid) program) :
    program.wp (answering allowed) (fun _ after => ∃ new, after = log ++ new ∧
      ∀ event ∈ new, event.isEdit pid) log := by
  apply Prog.wp_restrict
  apply Prog.All.wp_frame fun before after => ∃ new, after = before ++ new ∧
    ∀ event ∈ new, Event.isEdit pid event
  · refine calls.mono fun request isEdit before answer after step => ?_
    exact ⟨_, step, effects_of_edits isEdit answer⟩
  · intro state
    exact ⟨[], by simp⟩
  · rintro first second third ⟨new, rfl, newEdits⟩ ⟨more, rfl, moreEdits⟩
    refine ⟨new ++ more, by simp, fun event present => ?_⟩
    rcases List.mem_append.mp present with inNew | inMore
    · exact newEdits event inNew
    · exact moreEdits event inMore

/-- The rule for a part that only looks: any value, the same daemon and the same ledger. -/
theorem wp_bind_reads {β : Type} (calls : Only Call.reads program) {rest : α → DaemonM β}
    {post : β → Daemon → List Event → Prop} {own : Daemon}
    (holds : ∀ value, StateProg.wp (answering allowed) (rest value) post own log) :
    StateProg.wp (answering allowed) (liftM program >>= rest) post own log := by
  rw [StateProg.wp_bind, StateProg.wp_lift]
  apply Prog.wp_of_still _ holds
  apply calls.mono
  intro request isRead before answer after step
  have moved := step.1
  rwa [ledger_step, effects_of_reads isRead, List.append_nil] at moved

/-- The values a program can come to under a restriction of the answers. -/
def Yields (allowed : Allowed) (program : Prog Sys α) (good : α → Prop) : Prop :=
  ∀ log, program.wp (answering allowed) (fun value _ => good value) log

theorem Yields.of_returns {good : α → Prop} (returns : program.Returns good) :
    Yields allowed program good :=
  fun _ => returns.wp

theorem Yields.anyValue (program : Prog Sys α) : Yields allowed program fun _ => True := by
  intro log
  rw [Prog.wp_iff_runs]
  exact fun _ _ _ => trivial

end Frames

end Znn.Injector
