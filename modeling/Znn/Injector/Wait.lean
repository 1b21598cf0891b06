import Mathlib.Data.Finset.Basic

/-!
# Signals and wait statuses

The kernel packs what happened to a child into one word. `RawStatus` is that word taken
apart, `WaitStatus` what the `nix` crate makes of it: its signal type stops at 31, and a
status with a larger signal becomes `EINVAL`, after the kernel has let go of it.
-/

namespace Znn.Injector

abbrev Pid : Type := Int

namespace Signal

def SIGILL : Int := 4
def SIGTRAP : Int := 5
def SIGABRT : Int := 6
def SIGBUS : Int := 7
def SIGFPE : Int := 8
def SIGSEGV : Int := 11
def SIGCHLD : Int := 17
def SIGSTOP : Int := 19
def SIGTSTP : Int := 20
def SIGTTIN : Int := 21
def SIGTTOU : Int := 22
def SIGSYS : Int := 31

/-- `Signal::try_from`: the enumeration runs from 1 to 31. -/
def fromNumber (number : Int) : Option Int :=
  if 1 ≤ number ∧ number ≤ 31 then some number else none

end Signal

namespace Ptrace

def EVENT_FORK : Int := 1
def EVENT_VFORK : Int := 2
def EVENT_CLONE : Int := 3
def EVENT_EXEC : Int := 4
def EVENT_EXIT : Int := 6
def EVENT_STOP : Int := 128

/-- Fork, vfork, clone, exec and exit events. -/
def TRACING_OPTIONS : Nat := 2 ||| 4 ||| 8 ||| 16 ||| 64

end Ptrace

/-- A wait status as the kernel reports it: `event` is what lies above the signal byte. -/
inductive RawStatus where
  | exited (code : Int)
  | signaled (signal : Int)
  | stopped (signal event : Int)
  | continued
deriving DecidableEq, Repr

/-- `nix::sys::wait::WaitStatus`, the pid kept beside it. -/
inductive WaitStatus where
  | exited (code : Int)
  | signaled (signal : Int)
  | stopped (signal : Int)
  | ptraceEvent (signal event : Int)
  | ptraceSyscall
  | continued
deriving DecidableEq, Repr

/-- `WaitStatus::from_raw`; `none` is `EINVAL`. -/
def WaitStatus.fromRaw : RawStatus → Option WaitStatus
  | .exited code => some (.exited code)
  | .signaled signal => (Signal.fromNumber signal).map .signaled
  | .stopped signal event =>
      if signal = 133 then
        some .ptraceSyscall
      else if event = 0 then
        (Signal.fromNumber signal).map .stopped
      else
        (Signal.fromNumber signal).map fun signal => .ptraceEvent signal event
  | .continued => some .continued

/-- `sys::wait::Status`. -/
structure Status where
  status : WaitStatus
deriving DecidableEq, Repr

namespace Status

def isExited (status : Status) : Bool :=
  match status.status with
  | .exited _ => true
  | _ => false

def isSignaled (status : Status) : Bool :=
  match status.status with
  | .signaled _ => true
  | _ => false

def isStopped (status : Status) : Bool :=
  match status.status with
  | .stopped _ | .ptraceEvent _ _ | .ptraceSyscall => true
  | _ => false

def stopSignal (status : Status) : Int :=
  match status.status with
  | .stopped signal | .ptraceEvent signal _ => signal
  | .ptraceSyscall => Signal.SIGTRAP
  | _ => 0

def trapEvent (status : Status) : Int :=
  match status.status with
  | .ptraceEvent _ event => event
  | _ => 0

end Status

end Znn.Injector
