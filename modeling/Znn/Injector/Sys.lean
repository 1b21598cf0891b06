import Znn.Interaction.Semantics
import Znn.Injector.Arch
import Znn.Injector.Wait

/-!
# What the injector asks of the system

Every effect of the injector is a `Call`: the ptrace requests, the reads under `/proc`, the
files it opens, the clock. The answers carry exactly what the code looks at, so a failed
request is an answer like any other, and nothing here decides which answers occur.

A `note` is not a request. It marks a place of the source that has no effect on the system
but that statements speak about: a call of `observe_target`, a record being made, a return
value being interpreted, a result that the source drops.
-/

namespace Znn.Injector

open Interaction

structure MapEntry where
  start : Nat
  stop : Nat
  offset : Nat
  perms : Nat
  path : String
deriving DecidableEq, Repr

def MapEntry.contains (entry : MapEntry) (address : Nat) : Bool :=
  decide (address ≥ entry.start ∧ address < entry.stop)

structure ElfHeader where
  is64 : Bool
  kind : Nat
  machine : Nat
  entry : Nat
deriving DecidableEq, Repr

/-- The outcome of `PTRACE_SEIZE`, as far as the code tells errors apart. -/
inductive SeizeResult where
  | ok
  | permissionDenied
  | failed
deriving DecidableEq, Repr

/-- The outcome of `waitpid` in the kernel, before the crate decodes the status. -/
inductive WaitResult where
  | stillAlive
  | status (pid : Pid) (raw : RawStatus)
  | interrupted
  | noChild
  | failed
deriving DecidableEq, Repr

/-- The outcome of reading the link `/proc/<pid>/exe`. -/
inductive ExeLink where
  | path (target : String)
  | gone
  | unknown
deriving DecidableEq, Repr

/-- The outcome of reading a text file. -/
inductive FileText where
  | text (contents : String)
  | notFound
  | failed
deriving DecidableEq, Repr

inductive EventKind where
  | exec
  | fork
  | exit
deriving DecidableEq, Repr

structure KernelEvent where
  kind : EventKind
  pid : Pid
  uid : UInt32 := 0
  ppid : Pid := 0
  comm : Vector UInt8 16 := Vector.replicate 16 0
  filename : Option String := none
  preExec : Bool := false
deriving DecidableEq, Repr

/-- A place of the source that statements speak about. -/
inductive Note where
  | observeTarget (pid : Pid) (exe : String)
  | recordSuccess (pid : Pid) (exe : String)
  | recordFailure (pid : Pid) (exe reason : String)
  | interpret (pid : Pid)
  | restored (pid : Pid) (ok : Bool)
deriving DecidableEq, Repr

inductive Call where
  | peekData (pid : Pid) (address : Nat)
  | pokeData (pid : Pid) (address : Nat) (word : List UInt8)
  | getRegset (pid : Pid) (length : Nat)
  | setRegset (pid : Pid) (bytes : List UInt8)
  | cont (pid : Pid) (signal : Option Int)
  | detach (pid : Pid) (signal : Option Int)
  | seize (pid : Pid) (options : Nat)
  | interrupt (pid : Pid)
  | listen (pid : Pid)
  | eventMessage (pid : Pid)
  | getsiginfo (pid : Pid)
  | waitpid (pid : Pid)
  | waitRounds
  | nowMs
  | exeLink (pid : Pid)
  | foreignTracer (pid : Pid)
  | maps (pid : Pid)
  | elfHeader (pid : Pid)
  | symbolAddress (path : String) (base : Nat) (symbol : String)
  | readFile (path : String)
  | readToString (path : String)
  | accessible (path : String)
  | canonicalize (path : String)
  | listModules
  | listProcesses
  | lastAllocatedPid
  | writeToTargetFd (pid : Pid) (fd : Int) (data : List UInt8)
  | isSingleThreaded (pid : Pid)
  | processAgeMs (pid : Pid)
  | processName (pid : Pid) (exe : String)
  | zygiskNamedPresent
  | freshNonce
  | freshToken
  | spawnCompanion (path : String) (nonce index : UInt32) (token : Vector UInt8 16)
  | startKernelTracker
  | pollKernelTracker
  | note (note : Note)
deriving DecidableEq

/-- What each request is answered in. -/
abbrev Call.Answer : Call → Type
  | .peekData _ _ => Option (List UInt8)
  | .pokeData _ _ _ => Bool
  | .getRegset _ _ => Option (List UInt8)
  | .setRegset _ _ => Bool
  | .cont _ _ => Unit
  | .detach _ _ => Bool
  | .seize _ _ => SeizeResult
  | .interrupt _ => Bool
  | .listen _ => Bool
  | .eventMessage _ => Option Nat
  | .getsiginfo _ => Option Int
  | .waitpid _ => WaitResult
  | .waitRounds => Nat
  | .nowMs => Nat
  | .exeLink _ => ExeLink
  | .foreignTracer _ => Option Pid
  | .maps _ => List MapEntry
  | .elfHeader _ => Option ElfHeader
  | .symbolAddress _ _ _ => Nat
  | .readFile _ => Option (List UInt8)
  | .readToString _ => FileText
  | .accessible _ => Bool
  | .canonicalize _ => Option String
  | .listModules => Option (List String)
  | .listProcesses => Option (List Pid)
  | .lastAllocatedPid => Option Pid
  | .writeToTargetFd _ _ _ => Bool
  | .isSingleThreaded _ => Bool
  | .processAgeMs _ => Option Nat
  | .processName _ _ => String
  | .zygiskNamedPresent => Bool
  | .freshNonce => UInt32
  | .freshToken => Vector UInt8 16
  | .spawnCompanion _ _ _ _ => Unit
  | .startKernelTracker => Bool
  | .pollKernelTracker => List KernelEvent
  | .note _ => Unit

/-- The injector's interface to the system. -/
abbrev Sys : Interface where
  Call := Call
  Answer := Call.Answer

/-- Issue a call; the answer's type is spelled out for the elaborator. -/
abbrev perform (request : Call) : Prog Sys request.Answer :=
  Prog.perform (I := Sys) request

/-- Mark a place of the source. -/
abbrev note (mark : Note) : Prog Sys Unit :=
  perform (.note mark)

namespace Ptrace

/-- `ptrace::cont`: a number outside the crate's enumeration delivers no signal. -/
def cont (pid : Pid) (signalNumber : Option Int) : Prog Sys Unit :=
  perform (.cont pid (signalNumber.bind Signal.fromNumber))

def detachResult (pid : Pid) (signalNumber : Option Int) : Prog Sys Bool :=
  perform (.detach pid (signalNumber.bind Signal.fromNumber))

/-- `ptrace::detach`: the result is dropped. -/
def detach (pid : Pid) (signalNumber : Option Int) : Prog Sys Unit := do
  let _ ← detachResult pid signalNumber

end Ptrace

namespace Wait

/-- The errors of `wait::waitpid` that its callers tell apart. -/
inductive Error where
  | interrupted
  | noChild
  | other
deriving DecidableEq, Repr

/-- `wait::waitpid`: `EINVAL` from the decoder is an error like any other. -/
def waitpid (pid : Pid) : Prog Sys (Except Error (Option (Pid × Status))) := do
  match ← perform (.waitpid pid) with
  | .stillAlive => return .ok none
  | .status child raw =>
      match WaitStatus.fromRaw raw with
      | some status => return .ok (some (child, ⟨status⟩))
      | none => return .error .other
  | .interrupted => return .error .interrupted
  | .noChild => return .error .noChild
  | .failed => return .error .other

end Wait

end Znn.Injector
