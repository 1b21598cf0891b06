import Mathlib.Data.List.AList
import Znn.Injector.Config
import Znn.Injector.PtraceOps
import Znn.Plan.Encode

/-!
# The daemon's state

`Tracee` is what the daemon remembers of one process it traces, `Daemon` the bookkeeping of
the whole program. A method that takes `&mut self` is a program of `DaemonM`; a function
that takes a `&mut Tracee` returns the tracee with its result.
-/

namespace Znn.Injector

open Interaction

def INSTRUCTION_CAPACITY : Nat := 8

inductive State where
  | traced
  | entry
  | late
  | file
  | dlopen
  | dlsym
  | init
  | dlerror
deriving DecidableEq, Repr

inductive FilePurpose where
  | loader
  | module
deriving DecidableEq, Repr

structure Tracee where
  state : State
  arch : Arch
  entry : Nat := 0
  thumb : Bool := false
  originalInstruction : List UInt8 := List.replicate INSTRUCTION_CAPACITY 0
  breakpointSize : Nat := 0
  saved : Regs
  loader : String := ""
  content : List UInt8 := []
  exe : String := ""
  deadlineMs : Nat := 0
  initFunction : Nat := 0
  modules : List PlanModule := []
  moduleIndex : Nat := 0
  nonce : UInt32 := 0
  filePurpose : FilePurpose := .loader
  fileFd : Int32 := -1
  fileName : List UInt8 := []
  moduleContent : List UInt8 := []
deriving DecidableEq

namespace Tracee

def new (state : State) (arch : Arch) : Tracee where
  state := state
  arch := arch
  saved := Regs.new arch

/-- Where an injected call returns to: the entry point, with the Thumb bit where it has one. -/
def returnAddress (tracee : Tracee) : Nat :=
  if tracee.arch = .arm32 ∧ tracee.thumb then tracee.entry ||| 1 else tracee.entry

end Tracee

inductive Tracking where
  | kernel
  | ptrace
  | proc
  | late
deriving DecidableEq, Repr

structure Candidate where
  exe : String
  targetSinceMs : Nat
deriving DecidableEq, Repr

/-- `HashMap<Pid, _>`. -/
abbrev Table (α : Type) : Type := AList fun _ : Pid => α

/-- `retain` by key. -/
def Table.retain {α : Type} (table : Table α) (kept : List Pid) : Table α where
  entries := table.entries.filter fun entry => entry.1 ∈ kept
  nodupKeys := table.nodupKeys.sublist List.filter_sublist

/-- `HashSet<Pid>::remove`. -/
def forget (pids : List Pid) (pid : Pid) : List Pid :=
  pids.filter fun other => other ≠ pid

/-- The sets of pids are lists without an order that matters; `kernel` says whether there is
a kernel tracker. -/
structure Daemon where
  targets : List Target := []
  modules : Modules := []
  loader64 : String := ""
  loader32 : String := ""
  dirty : Bool := false
  kernel : Bool := false
  mode : Tracking := .ptrace
  requestedMode : String := ""
  tracees : Table Tracee := ∅
  done : List Pid := []
  ignored : List Pid := []
  candidates : Table Candidate := ∅
  yielded : List Pid := []
  deferred : Table Nat := ∅
  recheck : Table Nat := ∅
  ignoredRescans : Nat := 0
  lastAllocatedPid : Option Pid := none
  procScanActive : Bool := false
  lastRescanMs : Option Nat := none
  lastZygiskCheckMs : Nat := 0
  lastStateWriteMs : Nat := 0

abbrev DaemonM : Type → Type := StateProg Sys Daemon

/-- A subtraction of two `u64` clock readings. -/
def elapsedMs (now since : Nat) : Nat :=
  (now + (2 ^ 64 - since % 2 ^ 64)) % 2 ^ 64

/-- What `record_success` does to one module. -/
def ModuleInfo.addProcess (module : ModuleInfo) (pid : Pid) (exe name : String) : ModuleInfo :=
  if !Targets.moduleMatches module exe then
    module
  else if module.processes.any fun known => known.1 == pid then
    module
  else
    { module with processes := module.processes ++ [(pid, name)] }

/-- What `record_failure` does to one module. -/
def ModuleInfo.addFailure (module : ModuleInfo) (exe name reason : String) : ModuleInfo :=
  if !Targets.moduleMatches module exe then
    module
  else if module.failed.any fun known => known.1 == name && known.2 == reason then
    module
  else
    { module with failed := module.failed ++ [(name, reason)] }

namespace Daemon

def collectTargets : DaemonM Unit := do
  let modules ← Targets.collect (← get).modules
  modify fun daemon => { daemon with modules := modules, targets := Targets.flatten modules }

/-- Store an updated module table; a change marks the state file as stale. -/
def updateModules (update : ModuleInfo → ModuleInfo) (daemon : Daemon) : Daemon :=
  let modules := daemon.modules.map update
  { daemon with
    modules := modules
    dirty := daemon.dirty || decide (modules ≠ daemon.modules) }

def recordSuccess (pid : Pid) (exe : String) : DaemonM Unit := do
  note (.recordSuccess pid exe)
  let name ← perform (.processName pid exe)
  modify (updateModules fun module => module.addProcess pid exe name)

def recordFailure (pid : Pid) (exe reason : String) : DaemonM Unit := do
  note (.recordFailure pid exe reason)
  let name ← perform (.processName pid exe)
  modify (updateModules fun module => module.addFailure exe name reason)

def loaderPath (daemon : Daemon) (is64 : Bool) : String :=
  if is64 then daemon.loader64 else daemon.loader32

end Daemon

end Znn.Injector
