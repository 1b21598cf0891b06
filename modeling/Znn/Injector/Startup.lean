import Znn.Injector.Run

/-!
# The start of the daemon

`Daemon::new`: the tables are empty, the targets are collected, the records of an earlier run are
taken over and the tracking mode is selected. What that run has left in its state file is an
argument, as it comes out of the parser.
-/

namespace Znn.Injector

open Interaction

structure SnapshotProcess where
  pid : Int
  name : String
deriving DecidableEq, Repr

structure SnapshotModule where
  id : String
  processes : List SnapshotProcess
deriving DecidableEq, Repr

/-- `Pid::try_from` of an `i64`. -/
def pidFrom (number : Int) : Option Pid :=
  if -2 ^ 31 ≤ number ∧ number < 2 ^ 31 then some number else none

/-- One recorded process of `restore_processes`. -/
def ModuleInfo.restore (module : ModuleInfo) (recorded : SnapshotProcess) :
    Prog Sys ModuleInfo := do
  let some pid := pidFrom recorded.pid
    | return module
  if module.processes.any fun known => known.1 == pid then
    return module
  if ← Procfs.processGone pid then
    return module
  let exe ← Procfs.readExePath pid
  if exe ≠ "" ∧ !Targets.moduleMatches module exe then
    return module
  return { module with processes := module.processes ++ [(pid, recorded.name)] }

def ModuleInfo.restoreEach (module : ModuleInfo) : List SnapshotProcess → Prog Sys ModuleInfo
  | [] => return module
  | recorded :: rest => do
      let module ← module.restore recorded
      module.restoreEach rest

/-- The recorded modules of `restore_processes`; a module that is not there any more is skipped. -/
def Modules.restoreEach (modules : Modules) : List SnapshotModule → Prog Sys Modules
  | [] => return modules
  | recorded :: rest => do
      match modules.get? recorded.id with
      | none => restoreEach modules rest
      | some module => do
          let module ← module.restoreEach recorded.processes
          restoreEach (modules.insert module) rest

namespace Daemon

open Mode

def restoreProcesses (snapshot : Option (List SnapshotModule)) : DaemonM Unit := do
  let some recorded := snapshot
    | return
  let before := (← get).modules
  let modules ← before.restoreEach recorded
  modify fun daemon =>
    { daemon with modules := modules, dirty := daemon.dirty || decide (modules ≠ before) }

variable [Config.Build]

/-- The part of `new` that starts the kernel tracker ahead of the choice of a mode. -/
def startEarly (requested : String) : DaemonM Unit := do
  if requested = Config.MODE_KERNEL then
    let _ ← startKernelTracker
  else if requested = Config.MODE_AUTO then
    if ← monitorPresent then
      let _ ← startKernelTracker

/-- `new`, from the collection of the targets on. -/
def start (requested : String) (snapshot : Option (List SnapshotModule)) : DaemonM Unit := do
  collectTargets
  restoreProcesses snapshot
  startEarly requested
  selectMode

def new (moduleDir : String) (snapshot : Option (List SnapshotModule)) : Prog Sys Daemon := do
  let requested := (← Config.effective).mode
  let empty : Daemon :=
    { loader64 := Targets.join (Targets.join moduleDir "lib64") "libloader.so"
      loader32 := Targets.join (Targets.join moduleDir "lib") "libloader.so"
      requestedMode := requested }
  let (_, daemon) ← (start requested snapshot).run empty
  return daemon

end Daemon

end Znn.Injector
