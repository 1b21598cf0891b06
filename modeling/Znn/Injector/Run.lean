import Znn.Injector.Kernel

/-!
# The main loop

`Daemon::run` without its sleeps: `reap` is one turn of the loop of `reap_traces`, `tick` one
turn of the main loop. The two flags that signal handlers raise are arguments of the turn
that sees them.
-/

namespace Znn.Injector

open Interaction

def RESCAN_INTERVAL_MS : Nat := 5000
def STATE_WRITE_INTERVAL_MS : Nat := 2000

namespace Daemon

open Mode

variable [Usize] [Config.Build]

/-- One turn of the loop of `reap_traces`: whether the loop goes on. -/
def reap : DaemonM Bool := do
  match ← Wait.waitpid (-1) with
  | .ok (some (pid, status)) => do
      handleEvent pid status
      return true
  | .ok none => return false
  | .error .interrupted => return true
  | .error _ => return false

/-- `reap_traces`, for at most the given number of statuses. -/
def reapTraces : Nat → DaemonM Unit
  | 0 => return
  | rounds + 1 => do
      if ← reap then
        reapTraces rounds

/-- What the main loop does in ptrace mode. -/
def watchForMonitor : DaemonM Unit := do
  let now ← perform .nowMs
  let daemon ← get
  if daemon.requestedMode = Config.MODE_AUTO ∧
      elapsedMs now daemon.lastZygiskCheckMs ≥ RESCAN_INTERVAL_MS then
    modify fun daemon => { daemon with lastZygiskCheckMs := now }
    if ← monitorPresent then
      if ← handOverInit then
        let _ ← startKernelTracker
        changeMode .late

/-- The part of a turn that the mode selects. -/
def serve : DaemonM Unit := do
  let daemon ← get
  match daemon.mode with
  | .kernel => pollKernel
  | .proc => pollProcesses
  | .late => do
      if daemon.kernel then
        pollKernel
      else
        pollProcesses
      retryDeferred
  | .ptrace => watchForMonitor

/-- The part of a turn that runs every five seconds. -/
def maintain (now : Nat) : DaemonM Unit := do
  collectTargets
  modify fun daemon => { daemon with lastRescanMs := some now, dirty := true }
  let daemon ← get
  if daemon.mode = .kernel ∨ (daemon.mode = .late ∧ daemon.kernel) then
    pruneKernelBookkeeping
  if daemon.mode = .late then
    pruneDeferred
  pruneRecheck

/-- A rescan, requested by a signal. -/
def rescan : DaemonM Unit := do
  collectTargets
  applyRequestedMode
  let now ← perform .nowMs
  modify fun daemon => { daemon with lastRescanMs := some now, dirty := true }

/-- One turn of the loop of `run`; `requested` is the flag of the rescan signal. -/
def tick (requested : Bool) : DaemonM Unit := do
  if requested then
    rescan
  serve
  let rounds ← perform .waitRounds
  reapTraces rounds
  expirePending
  recheckPending
  let now ← perform .nowMs
  let due := (← get).lastRescanMs.all fun last =>
    decide (elapsedMs now last ≥ RESCAN_INTERVAL_MS)
  if due then
    maintain now
  modify fun daemon =>
    if daemon.dirty && (decide (elapsedMs now daemon.lastStateWriteMs ≥
        STATE_WRITE_INTERVAL_MS) || daemon.lastStateWriteMs == 0) then
      { daemon with dirty := false, lastStateWriteMs := now }
    else
      daemon

end Daemon

/-- The parts of which every turn of the main loop is made: the report of one status, the
passes over the daemon's tables, one kernel event, the changes of targets and mode, and the
release at shutdown. -/
inductive Turn where
  | report (pid : Pid) (status : Status)
  | expire
  | recheck
  | kernel (event : KernelEvent)
  | scan
  | retry
  | targets
  | mode
  | monitor
  | prune
  | release
deriving DecidableEq, Repr

namespace Turn

variable [Usize] [Config.Build]

def program : Turn → DaemonM Unit
  | .report pid status => Daemon.handleEvent pid status
  | .expire => Daemon.expirePending
  | .recheck => Daemon.recheckPending
  | .kernel event => Daemon.considerKernelEvent event
  | .scan => Daemon.pollProcesses
  | .retry => Daemon.retryDeferred
  | .targets => Daemon.collectTargets
  | .mode => Daemon.applyRequestedMode
  | .monitor => Daemon.watchForMonitor
  | .prune => do
      Daemon.pruneKernelBookkeeping
      Daemon.pruneDeferred
      Daemon.pruneRecheck
  | .release => do
      let _ ← Daemon.releaseTracees

end Turn

end Znn.Injector
