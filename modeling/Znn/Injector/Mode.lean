import Znn.Injector.Trace

/-!
# Tracking modes and the seizing of targets

How targets are found without following every fork, and how one is taken: `seize_and_stop`
interrupts a process that another part of the daemon has observed, and the functions above
it decide whether the process is still before its entry point.
-/

namespace Znn.Injector

open Interaction PtraceOps

def HOLD_TIMEOUT_MS : Nat := 5000
def INTERRUPT_TIMEOUT_MS : Nat := 200
def LATE_DEFER_MS : Nat := 10000
def LATE_SAFE_AGE_MS : Nat := 5000
def ENTRY_TIMEOUT_MS : Nat := 3000
def RESCANS : Nat := 15000

inductive Seizure where
  | seized
  | retry
  | giveUp
deriving DecidableEq, Repr

structure StoppedTarget where
  arch : Arch
  is64 : Bool
  entry : Nat
  thumb : Bool
  pc : Nat
  resumeSignal : Option Int
deriving DecidableEq, Repr

namespace Table

/-- The pids whose entry satisfies `select`. -/
def pidsWhere {α : Type} (table : Table α) (select : α → Bool) : List Pid :=
  (table.entries.filter fun entry => select entry.2).map Sigma.fst

/-- `entry(pid).or_insert(value)`. -/
def orInsert {α : Type} (table : Table α) (pid : Pid) (value : α) : Table α :=
  if pid ∈ table then table else table.insert pid value

end Table

namespace Mode

/-- The loop of `wait_for_stop`, for at most the given number of rounds. -/
def waitRounds (pid : Pid) (deadline : Nat) : Nat → Prog Sys (Option Status)
  | 0 => return none
  | rounds + 1 => do
      match ← Wait.waitpid pid with
      | .ok (some (waited, status)) =>
          if waited = pid then
            return some status
          else if (← perform .nowMs) ≥ deadline then
            return none
          else
            waitRounds pid deadline rounds
      | .ok none =>
          if (← perform .nowMs) ≥ deadline then
            return none
          else
            waitRounds pid deadline rounds
      | .error .interrupted => waitRounds pid deadline rounds
      | .error _ => return none

/-- `wait_for_stop`. Time decides how often the loop turns; running out of rounds is one more
way of not stopping in time. -/
def waitForStop (pid : Pid) (deadline : Nat) : Prog Sys (Option Status) := do
  let rounds ← perform .waitRounds
  waitRounds pid deadline rounds

def stopTracee (pid : Pid) (timeoutMs : Nat) : Prog Sys (Option Status) := do
  if !(← perform (.interrupt pid)) then
    return none
  let now ← perform .nowMs
  waitForStop pid (now + timeoutMs)

/-- The tracer that holds init, when it is not us. -/
def initHolder : Prog Sys (Option Pid) :=
  perform (.foreignTracer 1)

def monitorPresent : Prog Sys Bool := do
  if (← initHolder).isSome then
    return true
  perform .zygiskNamedPresent

def contains (text part : String) : Bool :=
  text.toList.tails.any fun rest => part.toList.isPrefixOf rest

/-- The load base of the executable: the last mapping of its start wins. -/
def loadBase (exe : String) (entries : List MapEntry) : Nat :=
  entries.foldl (fun base entry =>
    if entry.offset = 0 ∧ Procfs.mapPathEqualsExe entry.path exe then entry.start else base) 0

def hasLoader (entries : List MapEntry) : Bool :=
  entries.any fun entry =>
    contains entry.path "libloader.so" || contains entry.path "memfd:loader" ||
      contains entry.path "memfd:znn-loader"

end Mode

namespace Daemon

open Trace Mode

def startKernelTracker : DaemonM Bool := do
  if (← get).kernel then
    return true
  let started ← perform .startKernelTracker
  modify fun daemon => { daemon with kernel := started }
  return started

def stopKernelTracker : DaemonM Unit :=
  modify fun daemon => { daemon with kernel := false }

def handOverInit : DaemonM Bool := do
  let some _ ← stopTracee 1 INTERRUPT_TIMEOUT_MS
    | return false
  if ← Ptrace.detachResult 1 none then
    modify fun daemon => { daemon with tracees := daemon.tracees.erase 1 }
    return true
  Ptrace.cont 1 none
  return false

def seizeInit : DaemonM Bool := do
  match ← perform (.seize 1 Ptrace.TRACING_OPTIONS) with
  | .ok => do
      modify fun daemon =>
        { daemon with tracees := daemon.tracees.insert 1 (Tracee.new .traced .unknown) }
      return true
  | .permissionDenied | .failed => return false

def setMode (mode : Tracking) : DaemonM Unit :=
  modify fun daemon => { daemon with mode := mode }

/-- A change of mode while the daemon runs also marks the state file as stale. -/
def changeMode (mode : Tracking) : DaemonM Unit :=
  modify fun daemon => { daemon with mode := mode, dirty := true }

section Selection

variable [Config.Build]

def selectMode : DaemonM Unit := do
  let requested := (← Config.effective).mode
  modify fun daemon => { daemon with requestedMode := requested }
  if requested = Config.MODE_PROC then
    setMode .proc
  else if requested = Config.MODE_PTRACE then
    let seized ← seizeInit
    setMode (if seized then .ptrace else .proc)
  else if requested = Config.MODE_LATE then
    let _ ← startKernelTracker
    setMode .late
  else if requested = Config.MODE_KERNEL then
    let started ← startKernelTracker
    setMode (if started then .kernel else .proc)
  else
    if !(← monitorPresent) then
      if ← seizeInit then
        stopKernelTracker
        return ← setMode .ptrace
    if ← monitorPresent then
      let _ ← startKernelTracker
      return ← setMode .late
    let started ← startKernelTracker
    setMode (if started then .kernel else .proc)

/-- The last part of `apply_requested_mode`: the requests that no kernel tracker serves. -/
def leaveKernelMode (wanted : String) : DaemonM Unit := do
  let mode := (← get).mode
  if mode = .late ∧ wanted = Config.MODE_PROC then
    stopKernelTracker
    changeMode .proc
  else if mode = .kernel then
    stopKernelTracker
    changeMode .proc
  else if wanted = Config.MODE_PROC ∧ mode = .ptrace then
    if ← handOverInit then
      changeMode .proc

/-- The part of `apply_requested_mode` for the modes that ask for the kernel tracker. -/
def enterKernelMode (wanted : String) : DaemonM Unit := do
  if (← get).mode = .kernel then
    return
  if ← startKernelTracker then
    if (← get).mode = .ptrace then
      if !(← handOverInit) then
        return ← stopKernelTracker
    changeMode .kernel
  else
    leaveKernelMode wanted

def enterLateMode : DaemonM Unit := do
  if (← get).mode = .ptrace then
    if !(← handOverInit) then
      return
  let _ ← startKernelTracker
  changeMode .late

def applyRequestedMode : DaemonM Unit := do
  let wanted := (← Config.effective).mode
  if wanted = (← get).requestedMode then
    return
  modify fun daemon => { daemon with requestedMode := wanted }
  if wanted = Config.MODE_LATE then
    enterLateMode
  else if wanted = Config.MODE_KERNEL ∨ wanted = Config.MODE_AUTO then
    enterKernelMode wanted
  else
    leaveKernelMode wanted

end Selection

variable [Usize]

/-- One expired tracee of `expire_pending`. -/
def expireOne (pid : Pid) : DaemonM Unit := do
  let some tracee := (← get).tracees.lookup pid
    | return
  modify fun daemon => { daemon with tracees := daemon.tracees.erase pid }
  match ← stopTracee pid INTERRUPT_TIMEOUT_MS with
  | none => do
      let now ← perform .nowMs
      let tracee := { tracee with deadlineMs := now + HOLD_TIMEOUT_MS }
      modify fun daemon => { daemon with tracees := daemon.tracees.insert pid tracee }
  | some status => do
      if status.isStopped then
        releaseTracee pid tracee
        Ptrace.detach pid none
      modify fun daemon => { daemon with done := daemon.done.insert pid }

def expirePending : DaemonM Unit := do
  let now ← perform .nowMs
  let expired := (← get).tracees.pidsWhere fun tracee =>
    tracee.state = .entry && tracee.deadlineMs ≠ 0 && now ≥ tracee.deadlineMs
  expired.forM expireOne

/-- One tracee of `release_tracees`: whether it was released. -/
def releaseOne (pid : Pid) : DaemonM Bool := do
  let some tracee := (← get).tracees.lookup pid
    | return true
  modify fun daemon => { daemon with tracees := daemon.tracees.erase pid }
  match ← stopTracee pid INTERRUPT_TIMEOUT_MS with
  | none => do
      modify fun daemon => { daemon with tracees := daemon.tracees.insert pid tracee }
      return false
  | some _ => do
      releaseTracee pid tracee
      Ptrace.detach pid none
      return true

def releaseEach : List Pid → DaemonM Bool
  | [] => return true
  | pid :: rest => do
      let first ← releaseOne pid
      let others ← releaseEach rest
      return first && others

def releaseTracees : DaemonM Bool := do
  let pending := (← get).tracees.pidsWhere fun tracee => tracee.state ≠ .traced
  releaseEach pending

/-- The checks of `seize_and_stop` before the process is seized: the architecture, its width
and the entry point. -/
def seizePlan (pid : Pid) (exe : String) : Prog Sys (Option (Arch × Bool × Nat × Bool)) := do
  let some header ← perform (.elfHeader pid)
    | return none
  let arch := Elf.archOf header
  if arch = .unknown then
    return none
  let entries ← perform (.maps pid)
  let base := loadBase exe entries
  if base = 0 then
    return none
  if hasLoader entries then
    return none
  let (entry, thumb) := entryPoint arch header base
  if entry = 0 then
    return none
  return some (arch, header.is64, entry, thumb)

/-- The signal of the stop that answered the interrupt, to be given back later. -/
def resumeSignalOf (status : Status) : Option Int :=
  if status.isStopped ∧ status.stopSignal ≠ Signal.SIGTRAP then
    some status.stopSignal
  else
    none

/-- `seize_and_stop` from `PTRACE_SEIZE` on. -/
def seizeWith (pid : Pid) (arch : Arch) (is64 : Bool) (entry : Nat) (thumb : Bool) :
    Prog Sys (Except Seizure StoppedTarget) := do
  match ← perform (.seize pid 0) with
  | .permissionDenied => return .error .retry
  | .failed => return .error .giveUp
  | .ok => do
      if !(← perform (.interrupt pid)) then
        Ptrace.detach pid none
        return .error .giveUp
      let now ← perform .nowMs
      let some status ← waitForStop pid (now + INTERRUPT_TIMEOUT_MS)
        | do
          Ptrace.detach pid none
          return .error .giveUp
      if status.isExited || status.isSignaled then
        Ptrace.detach pid none
        return .error .giveUp
      let some regs ← readRegisters pid arch
        | do
          Ptrace.detach pid none
          return .error .giveUp
      return .ok {
        arch := arch
        is64 := is64
        entry := entry
        thumb := thumb
        pc := regs.pc
        resumeSignal := resumeSignalOf status }

def seizeAndStop (pid : Pid) (exe : String) : DaemonM (Except Seizure StoppedTarget) := do
  if let some tracer ← perform (.foreignTracer pid) then
    modify fun daemon => { daemon with yielded := daemon.yielded.insert tracer }
    return .error .retry
  let some (arch, is64, entry, thumb) ← seizePlan pid exe
    | return .error .giveUp
  seizeWith pid arch is64 entry thumb

def armEntryInjection (pid : Pid) (exe : String) (stopped : StoppedTarget) :
    DaemonM Seizure := do
  let loader := loaderPath (← get) stopped.is64
  let now ← perform .nowMs
  let tracee : Tracee :=
    { Tracee.new .entry stopped.arch with
      entry := stopped.entry
      thumb := stopped.thumb
      exe := exe
      loader := loader
      deadlineMs := now + ENTRY_TIMEOUT_MS }
  match ← setEntryBreakpoint pid tracee stopped.thumb with
  | none => do
      Ptrace.detach pid none
      return .giveUp
  | some tracee => do
      modify fun daemon => { daemon with tracees := daemon.tracees.insert pid tracee }
      Ptrace.cont pid stopped.resumeSignal
      return .seized

def seizeTarget (pid : Pid) (exe : String) : DaemonM Seizure := do
  match ← seizeAndStop pid exe with
  | .error seizure => return seizure
  | .ok stopped => do
      if ← Procfs.pcInExeText pid exe stopped.pc then
        recordFailure pid exe "injection window missed (already past its entry)"
        Ptrace.detach pid none
        return .giveUp
      armEntryInjection pid exe stopped

section Observation

variable [Config.Build]

/-- The end of `seize_late_target`, for a process that may be injected past its entry. -/
def injectLate (pid : Pid) (exe : String) (stopped : StoppedTarget) : DaemonM Seizure := do
  let loader := loaderPath (← get) stopped.is64
  let thumb := decide (stopped.arch = .arm32 ∧ stopped.pc % 2 ≠ 0)
  let tracee : Tracee :=
    { Tracee.new .late stopped.arch with
      exe := exe
      loader := loader
      entry := if thumb then stopped.pc - 1 else stopped.pc
      thumb := thumb }
  match ← setEntryBreakpoint pid tracee thumb with
  | none => do
      Ptrace.detach pid none
      return .giveUp
  | some tracee => do
      if ← beginLateInjection pid tracee then
        return .seized
      return .giveUp

def seizeLateTarget (pid : Pid) (exe : String) : DaemonM Seizure := do
  match ← seizeAndStop pid exe with
  | .error seizure => return seizure
  | .ok stopped => do
      if !(← Procfs.pcInExeText pid exe stopped.pc) then
        return ← armEntryInjection pid exe stopped
      let singleThreaded ← perform (.isSingleThreaded pid)
      let age ← perform (.processAgeMs pid)
      let young := age.any fun age => decide (age < LATE_SAFE_AGE_MS)
      if !singleThreaded && !young then
        recordFailure pid exe "unsafe to inject late into a running multithreaded process"
        Ptrace.detach pid none
        return .giveUp
      injectLate pid exe stopped

/-- `deferred.entry(pid).or_insert(now + LATE_DEFER_MS)`. -/
def defer (pid : Pid) : DaemonM Unit := do
  let now ← perform .nowMs
  modify fun daemon =>
    { daemon with deferred := daemon.deferred.orInsert pid (now + LATE_DEFER_MS) }

def observeLateTarget (pid : Pid) (exe : String) : DaemonM Unit := do
  if let some _ ← perform (.foreignTracer pid) then
    return ← defer pid
  match ← seizeLateTarget pid exe with
  | .retry => defer pid
  | .seized | .giveUp =>
      modify fun daemon =>
        { daemon with
          deferred := daemon.deferred.erase pid
          done := daemon.done.insert pid
          candidates := daemon.candidates.erase pid }

def observeTarget (pid : Pid) (exe : String) : DaemonM Unit := do
  note (.observeTarget pid exe)
  if (← get).mode = .late then
    observeLateTarget pid exe
  else
    match ← seizeTarget pid exe with
    | .retry => return
    | .seized | .giveUp =>
        modify fun daemon =>
          { daemon with
            done := daemon.done.insert pid
            candidates := daemon.candidates.erase pid }

def dropRecheck (pid : Pid) : DaemonM Unit :=
  modify fun daemon => { daemon with recheck := daemon.recheck.erase pid }

/-- One entry of `recheck_pending`, `now` being the time at its start. -/
def recheckOne (now : Nat) (pid : Pid) : DaemonM Unit := do
  let daemon ← get
  let deadline := (daemon.recheck.lookup pid).getD 0
  if now ≥ deadline then
    return ← dropRecheck pid
  if !(← Procfs.isAlive pid) then
    return ← dropRecheck pid
  if pid ∈ daemon.tracees ∨ pid ∈ daemon.done ∨ pid ∈ daemon.ignored then
    return ← dropRecheck pid
  let exe ← Procfs.readExePath pid
  if exe = "" ∨ !Targets.matches daemon.targets exe then
    return
  dropRecheck pid
  observeTarget pid exe

def recheckPending : DaemonM Unit := do
  let pending := (← get).recheck.keys
  if pending.isEmpty then
    return
  let now ← perform .nowMs
  pending.forM (recheckOne now)

/-- The failure recorded for a target that another tracer, or nobody, holds. -/
def heldReason (holder : String) : String :=
  if holder = "" then "no injection window" else "held by " ++ holder

/-- `abandon`: give up on a target and say why. -/
def abandon (pid : Pid) (exe : String) : DaemonM Unit := do
  let tracer ← perform (.foreignTracer pid)
  let holder ← match tracer with
    | some tracer => Procfs.processExe tracer
    | none => pure ""
  recordFailure pid exe (heldReason holder)
  modify fun daemon =>
    { daemon with
      done := daemon.done.insert pid
      candidates := daemon.candidates.erase pid }

def insertCandidate (pid : Pid) (candidate : Candidate) : DaemonM Unit :=
  modify fun daemon =>
    { daemon with candidates := daemon.candidates.insert pid candidate }

def ignore (pid : Pid) : DaemonM Unit :=
  modify fun daemon => { daemon with ignored := daemon.ignored.insert pid }

/-- A process that `poll_processes` sees for the first time. -/
def pollNew (pid : Pid) (exe : String) (isTarget : Bool) : DaemonM Unit := do
  if isTarget then
    let now ← perform .nowMs
    insertCandidate pid { exe := exe, targetSinceMs := now }
    observeTarget pid exe
  else if Procfs.isPreExecFork exe then
    insertCandidate pid { exe := exe, targetSinceMs := 0 }
  else
    ignore pid

/-- A candidate whose executable is still the one `poll_processes` knows. -/
def pollSame (pid : Pid) (exe : String) (isTarget : Bool) (candidate : Candidate) :
    DaemonM Unit := do
  if isTarget then
    if (← get).mode ≠ .late then
      let now ← perform .nowMs
      if elapsedMs now candidate.targetSinceMs > HOLD_TIMEOUT_MS then
        return ← abandon pid exe
    observeTarget pid exe

/-- A candidate that has changed its executable. -/
def pollChanged (pid : Pid) (exe : String) (isTarget : Bool) : DaemonM Unit := do
  let since ← if isTarget then perform .nowMs else pure 0
  insertCandidate pid { exe := exe, targetSinceMs := since }
  if isTarget then
    observeTarget pid exe
  else
    modify fun daemon => { daemon with candidates := daemon.candidates.erase pid }
    ignore pid

/-- One process of `poll_processes`: whether it is a target that is not settled yet. -/
def pollOne (pid : Pid) : DaemonM Bool := do
  let daemon ← get
  if pid ∈ daemon.tracees ∨ pid ∈ daemon.done ∨ pid ∈ daemon.ignored then
    return false
  let exe ← Procfs.readExePath pid
  if exe = "" then
    return false
  let isTarget := Targets.matches daemon.targets exe
  match daemon.candidates.lookup pid with
  | none => pollNew pid exe isTarget
  | some candidate =>
      if exe = candidate.exe then
        pollSame pid exe isTarget candidate
      else
        pollChanged pid exe isTarget
  return isTarget

def pollEach : List Pid → DaemonM Bool
  | [] => return false
  | pid :: rest => do
      let first ← pollOne pid
      let others ← pollEach rest
      return first || others

/-- Drop what is no longer listed, and forget the ignored pids from time to time. -/
def finishPoll (seen : List Pid) (active : Bool) (daemon : Daemon) : Daemon :=
  let rescans := daemon.ignoredRescans + 1
  { daemon with
    candidates := daemon.candidates.retain seen
    ignored := if rescans ≥ RESCANS then [] else daemon.ignored.filter fun pid => pid ∈ seen
    done := daemon.done.filter fun pid => pid ∈ seen
    yielded := daemon.yielded.filter fun pid => pid ∈ seen
    procScanActive := active
    ignoredRescans := if rescans ≥ RESCANS then 0 else rescans }

def pollProcesses : DaemonM Unit := do
  let lastPid ← perform .lastAllocatedPid
  let daemon ← get
  if lastPid.isSome ∧ lastPid = daemon.lastAllocatedPid ∧ daemon.candidates.keys = [] then
    return ← modify fun daemon => { daemon with procScanActive := false }
  modify fun daemon => { daemon with lastAllocatedPid := lastPid }
  let some listed ← perform .listProcesses
    | return
  let seen := listed.filter fun pid => decide (pid > 1)
  let active ← pollEach seen
  modify (finishPoll seen active)

/-- `retry_deferred` for a pid whose foreign tracer went away. -/
def retryFreed (pid : Pid) : DaemonM Unit := do
  modify fun daemon => { daemon with deferred := daemon.deferred.erase pid }
  if !(← Procfs.isAlive pid) then
    return
  let daemon ← get
  if pid ∈ daemon.tracees ∨ pid ∈ daemon.done ∨ pid ∈ daemon.ignored then
    return
  let exe ← Procfs.readExePath pid
  if exe = "" ∨ !Targets.matches daemon.targets exe then
    return
  observeLateTarget pid exe

/-- `retry_deferred` for a pid whose foreign tracer never let go. -/
def giveUpDeferred (pid tracer : Pid) : DaemonM Unit := do
  let exe ← Procfs.readExePath pid
  let holder ← Procfs.processExe tracer
  recordFailure pid exe (heldReason holder)
  modify fun daemon =>
    { daemon with
      deferred := daemon.deferred.erase pid
      done := daemon.done.insert pid }

def retryOne (now : Nat) (pid : Pid) : DaemonM Unit := do
  let deadline := ((← get).deferred.lookup pid).getD 0
  match ← perform (.foreignTracer pid) with
  | none => retryFreed pid
  | some tracer => if now ≥ deadline then giveUpDeferred pid tracer

def retryDeferred : DaemonM Unit := do
  let pending := (← get).deferred.keys
  if pending.isEmpty then
    return
  let now ← perform .nowMs
  pending.forM (retryOne now)

/-- `retain` of a table by liveness. -/
def aliveEntries {α : Type} (table : Table α) : Prog Sys (Table α) := do
  let kept ← Procfs.retainAlive id table.keys
  return table.retain kept

def pruneDeferred : DaemonM Unit := do
  let deferred ← aliveEntries (← get).deferred
  modify fun daemon => { daemon with deferred := deferred }

/-- The same `retain` on `recheck`, in the main loop. -/
def pruneRecheck : DaemonM Unit := do
  let recheck ← aliveEntries (← get).recheck
  modify fun daemon => { daemon with recheck := recheck }

end Observation

end Daemon

end Znn.Injector
