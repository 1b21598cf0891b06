import Mathlib.Data.Set.Basic
import Znn.Injector.Events

/-!
# A traced process

What the injector's calls do to one process: its memory, its registers, and whether it is
traced and stopped. Every request on the process may fail, and a request that fails leaves
it as it was. Only `PTRACE_DETACH` is bound to the phase: it succeeds on a stopped tracee and
on nothing else. A wait for the process reports a stop or an end of this process.
-/

namespace Znn.Injector

open Interaction Bytes

/-- Whether the process is traced by the daemon, and whether it stands still. -/
inductive Phase where
  | free
  | running
  | stopped
  | dead
deriving DecidableEq, Repr

/-- `edited` are the addresses at which the injector has changed a byte, `heard` the exchanges
of the run that are not mere reads. -/
structure Process where
  mem : Memory
  edited : Set Nat
  regs : List UInt8
  header : ElfHeader
  phase : Phase
  heard : Transcript

/-- The exchange, unless it is a mere read. -/
def kept : (request : Call) → request.Answer → Transcript
  | .pokeData pid address word, ok => [⟨.pokeData pid address word, ok⟩]
  | .setRegset pid bytes, ok => [⟨.setRegset pid bytes, ok⟩]
  | .cont pid signal, answer => [⟨.cont pid signal, answer⟩]
  | .detach pid signal, ok => [⟨.detach pid signal, ok⟩]
  | .seize pid options, result => [⟨.seize pid options, result⟩]
  | .interrupt pid, ok => [⟨.interrupt pid, ok⟩]
  | .listen pid, ok => [⟨.listen pid, ok⟩]
  | .waitpid pid, result => [⟨.waitpid pid, result⟩]
  | .note mark, answer => [⟨.note mark, answer⟩]
  | _, _ => []

namespace Process

variable [Usize]

/-- A word written by `PTRACE_POKEDATA`. -/
def poke (process : Process) (address : Nat) (word : List UInt8) : Process :=
  { process with
    mem := store process.mem address word
    edited := process.edited ∪
      { target | store process.mem address word target ≠ process.mem target } }

/-- The phase after a status was reported. -/
def phaseOf (raw : RawStatus) (phase : Phase) : Phase :=
  match raw with
  | .stopped _ _ => .stopped
  | .exited _ | .signaled _ => .dead
  | .continued => phase

/-- The answers the process may give. -/
def Answers (process : Process) : (request : Call) → request.Answer → Prop
  | .peekData _ address, answer =>
      answer = none ∨ answer = some (load process.mem address Usize.bytes)
  | .getRegset _ _, answer => answer = none ∨ answer = some process.regs
  | .elfHeader _, answer => answer = none ∨ answer = some process.header
  | .detach _ _, ok => ok = true ↔ process.phase = .stopped
  | .waitpid pid, .status child raw => child = pid ∧ raw ≠ .continued
  | _, _ => True

/-- What an answered call does to the process. -/
def change (process : Process) : (request : Call) → request.Answer → Process
  | .pokeData _ address word, true => process.poke address word
  | .setRegset _ bytes, true => { process with regs := bytes }
  | .cont _ _, _ =>
      { process with phase := if process.phase = .stopped then .running else process.phase }
  | .detach _ _, true => { process with phase := .free }
  | .seize _ _, .ok => { process with phase := .running }
  | .waitpid _, .status _ raw => { process with phase := phaseOf raw process.phase }
  | _, _ => process

/-- The environment that consists of one process. -/
def machine : Machine Sys Process where
  Step before request answer after :=
    before.Answers request answer ∧
      after = { before.change request answer with heard := before.heard ++ kept request answer }

theorem step_reads {before after : Process} {request : Call} {answer : request.Answer}
    (isRead : request.reads) (step : machine.Step before request answer after) :
    after = before := by
  rw [step.2]
  cases request <;> first | exact isRead.elim | simp [change, kept]

/-- A call that only looks, in front of a program. -/
theorem wp_read {α : Type} (request : Call) (isRead : request.reads)
    {next : request.Answer → Prog Sys α} {post : α → Process → Prop} {process : Process}
    (holds : ∀ answer, process.Answers request answer → (next answer).wp machine post process) :
    ((perform request).bind next).wp machine post process := by
  intro answer after step
  rw [step_reads isRead step]
  exact holds answer step.1

/-- A program that only looks: any value, the same process. -/
theorem wp_reads {α : Type} {program : Prog Sys α} (calls : Only Call.reads program)
    {post : α → Process → Prop} {process : Process} (holds : ∀ value, post value process) :
    program.wp machine post process := by
  apply Prog.wp_of_still _ holds
  exact calls.mono fun request isRead before answer after step => step_reads isRead step

/-- The registers are read as they are, or not at all. -/
theorem wp_readRegisters {pid : Pid} (arch : Arch) {post : Option Regs → Process → Prop}
    {process : Process} (unread : post none process)
    (read : post (some ((Regs.new arch).fill process.regs)) process) :
    (PtraceOps.readRegisters pid arch).wp machine post process := by
  apply wp_read (.getRegset pid arch.registerSize) trivial
  intro filled answer
  rcases answer with rfl | rfl
  · exact unread
  · exact read

/-- The answers of a process that grants what the script grants: its own where it has them, the
script's elsewhere. A wait finds it stopped by the interrupt. -/
def truthful (script : (request : Call) → request.Answer) (process : Process) :
    (request : Call) → request.Answer
  | .peekData pid address =>
      (script (.peekData pid address)).map fun _ => load process.mem address Usize.bytes
  | .getRegset pid length => (script (.getRegset pid length)).map fun _ => process.regs
  | .elfHeader pid => (script (.elfHeader pid)).map fun _ => process.header
  | .detach _ _ => decide (process.phase = .stopped)
  | .waitpid pid => .status pid (.stopped Signal.SIGTRAP Ptrace.EVENT_STOP)
  | request => script request

/-- The environment that answers so, as a function. -/
def scripted (script : (request : Call) → request.Answer) (request : Call) (process : Process) :
    request.Answer × Process :=
  (process.truthful script request,
    { process.change request (process.truthful script request) with
      heard := process.heard ++ kept request (process.truthful script request) })

theorem answers_truthful (script : (request : Call) → request.Answer) (process : Process)
    (request : Call) : process.Answers request (process.truthful script request) := by
  cases request with
  | peekData pid address => cases given : script (.peekData pid address) <;> simp [Answers, truthful, given]
  | getRegset pid length => cases given : script (.getRegset pid length) <;> simp [Answers, truthful, given]
  | elfHeader pid => cases given : script (.elfHeader pid) <;> simp [Answers, truthful, given]
  | detach pid signal => simp [Answers, truthful]
  | waitpid pid => simp [Answers, truthful]
  | _ => trivial

/-- A run in which every request is answered so. -/
theorem runs_scripted {δ α : Type} (script : (request : Call) → request.Answer)
    (program : StateProg Sys δ α) (own : δ) (process : Process) :
    let result := Prog.eval (I := Sys) (scripted script) (program.run own) process
    StateProg.Runs machine program own process result.1.1 result.1.2 result.2 :=
  have sound : ∀ request process, machine.Step process request
      (scripted script request process).1 (scripted script request process).2 :=
    fun request process => ⟨answers_truthful script process request, rfl⟩
  Prog.runs_eval sound (program.run own) process

/-- The same on any terms that the answers meet. -/
theorem runs_scripted_restrict {δ α : Type} {script : (request : Call) → request.Answer}
    {allowed : Process → (request : Call) → request.Answer → Prop}
    (meets : ∀ process request, allowed process request (process.truthful script request))
    (program : StateProg Sys δ α) (own : δ) (process : Process) :
    let result := Prog.eval (I := Sys) (scripted script) (program.run own) process
    StateProg.Runs (machine.restrict allowed) program own process result.1.1 result.1.2 result.2 :=
  have sound : ∀ request process, (machine.restrict allowed).Step process request
      (scripted script request process).1 (scripted script request process).2 :=
    fun request process => ⟨⟨answers_truthful script process request, rfl⟩, meets process request⟩
  Prog.runs_eval sound (program.run own) process

end Process

end Znn.Injector
