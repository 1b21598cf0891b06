import Znn.Injector.Mode

/-!
# Kernel events

Five kernel sources report processes, each with what it knows: an exec that has happened, an
exec that is about to happen, a fork, an exit. One handler takes them all.
-/

namespace Znn.Injector

open Interaction

def RECHECK_TIMEOUT_MS : Nat := 150

namespace Daemon

/-- `filter(|name| !name.is_empty())`. -/
def execPath (filename : Option String) : Option String :=
  filename.filter fun name => name ≠ ""

/-- `defer_recheck`: look again at a pid whose exec is still in flight. -/
def deferRecheck (pid : Pid) (filename : Option String) : DaemonM Unit := do
  let daemon ← get
  if (execPath filename).any fun path => !Targets.matches daemon.targets path then
    return ← ignore pid
  if pid ∈ daemon.recheck then
    return
  let now ← perform .nowMs
  modify fun daemon =>
    { daemon with recheck := daemon.recheck.insert pid (now + RECHECK_TIMEOUT_MS) }

/-- An exit event. -/
def forgetExited (pid : Pid) (daemon : Daemon) : Daemon :=
  { daemon with
    candidates := daemon.candidates.erase pid
    done := forget daemon.done pid
    ignored := forget daemon.ignored pid
    deferred := daemon.deferred.erase pid
    recheck := daemon.recheck.erase pid }

section

variable [Usize] [Config.Build]

/-- The part of `consider_kernel_event` for an exec event of a pid that nothing settles. -/
def considerExec (event : KernelEvent) : DaemonM Unit := do
  let pid := event.pid
  if event.preExec then
    if (← perform (.foreignTracer pid)).isNone then
      deferRecheck pid event.filename
    return
  let exe ← Procfs.readExePath pid
  if exe = "" then
    if ← Procfs.processGone pid then
      ignore pid
    return
  let targets := (← get).targets
  let isTarget := Targets.matches targets exe ||
    (execPath event.filename).any fun name => Targets.matches targets name
  if !isTarget then
    return ← ignore pid
  observeTarget pid exe

def considerKernelEvent (event : KernelEvent) : DaemonM Unit := do
  let pid := event.pid
  if pid ≤ 1 then
    return
  match event.kind with
  | .fork => return
  | .exit => modify (forgetExited pid)
  | .exec => do
      let daemon ← get
      if pid ∈ daemon.tracees ∨ pid ∈ daemon.done ∨ pid ∈ daemon.ignored then
        return
      considerExec event

def pollKernel : DaemonM Unit := do
  let events ← if (← get).kernel then perform .pollKernelTracker else pure []
  events.forM considerKernelEvent

end

/-- `retain` of a set of pids by liveness. -/
def alivePids (pids : List Pid) : Prog Sys (List Pid) :=
  Procfs.retainAlive id pids

def pruneKernelBookkeeping : DaemonM Unit := do
  let done ← alivePids (← get).done
  modify fun daemon => { daemon with done := done }
  let ignored ← alivePids (← get).ignored
  modify fun daemon => { daemon with ignored := ignored }
  let candidates ← aliveEntries (← get).candidates
  modify fun daemon => { daemon with candidates := candidates }

end Daemon

end Znn.Injector
