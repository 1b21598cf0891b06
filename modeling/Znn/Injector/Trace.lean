import Znn.Injector.Daemon

/-!
# Following a tracee

The injection itself. A tracee armed at its entry point is driven through a sequence of
calls inside the target: `memfd_create` for the loader image, `android_dlopen_ext`, `dlsym`,
one `memfd_create` for each module library and at last `znn_loader_init`. Every call returns
to the entry point, where the breakpoint traps again; `step` looks at the state to see which
call that was.
-/

namespace Znn.Injector

open Interaction PtraceOps

/-- What a step of the injection leaves behind: the tracee, or nothing to trace. -/
inductive Progress where
  | tracing (tracee : Tracee)
  | finished

def ENOSYS : Int := 38
def MFD_CLOEXEC : Nat := 1
def ANDROID_DLEXT_USE_LIBRARY_FD : Nat := 0x10
def RTLD_NOW : Nat := 2

namespace Trace

def trapReportsNextInstruction (arch : Arch) : Bool :=
  arch = .x86 || arch = .x86_64

def isGroupStop (signalNumber : Int) : Bool :=
  signalNumber = Signal.SIGSTOP || signalNumber = Signal.SIGTSTP ||
    signalNumber = Signal.SIGTTIN || signalNumber = Signal.SIGTTOU

section

variable [Usize]

/-- `address & STACK_MASK`. -/
def alignStack (address : Nat) : Nat :=
  address - address % 16

/-- `push_bytes`: the registers with the lowered stack pointer, and the address pushed to. -/
def pushBytes (pid : Pid) (regs : Regs) (bytes : List UInt8) :
    Prog Sys (Option (Regs × Nat)) := do
  let address := alignStack (Usize.wrappingSub regs.sp (bytes.length + 0x10))
  if !(← writeMemory pid address bytes) then
    return none
  return some (regs.setSp address, address)

/-- `entry_point`: the address, and whether it is Thumb code. -/
def entryPoint (arch : Arch) (header : ElfHeader) (base : Nat) : Nat × Bool :=
  let entry := header.entry % Usize.count
  let thumb := decide (arch = .arm32 ∧ entry % 2 ≠ 0)
  let entry := if thumb then entry - 1 else entry
  let entry := if Elf.isPositionIndependent header then Usize.wrappingAdd entry base else entry
  (entry, thumb)

def findLibrary (pid : Pid) (basename : String) : Prog Sys (Option (Nat × String)) := do
  let entries ← perform (.maps pid)
  return (entries.find? fun entry =>
    entry.offset == 0 && Procfs.basename entry.path == basename).map fun entry =>
      (entry.start, entry.path)

def resolveSymbol (pid : Pid) (basename symbol : String) : Prog Sys (Option Nat) := do
  let some (base, path) ← findLibrary pid basename
    | return none
  let address ← perform (.symbolAddress path base symbol)
  return if address ≠ 0 then some address else none

/-- `find_map` of `resolve_symbol`. -/
def resolveFirst (pid : Pid) : List (String × String) → Prog Sys (Option Nat)
  | [] => return none
  | (library, symbol) :: rest => do
      match ← resolveSymbol pid library symbol with
      | some address => return some address
      | none => resolveFirst pid rest

def resolveDlopenExt (pid : Pid) : Prog Sys (Option Nat) :=
  resolveFirst pid
    [("linker64", "__loader_android_dlopen_ext"), ("linker", "__loader_android_dlopen_ext"),
      ("libdl.so", "android_dlopen_ext")]

def resolveDlerror (pid : Pid) : Prog Sys (Option Nat) :=
  resolveSymbol pid "libdl.so" "dlerror"

def resolveSyscall (pid : Pid) : Prog Sys (Option Nat) :=
  resolveSymbol pid "libc.so" "syscall"

/-- `set_entry_breakpoint`; `none` where the source returns false, whose callers drop the
tracee. -/
def setEntryBreakpoint (pid : Pid) (tracee : Tracee) (thumb : Bool) :
    Prog Sys (Option Tracee) := do
  let instruction := tracee.arch.breakpoint thumb
  if instruction.isEmpty || decide (instruction.length > INSTRUCTION_CAPACITY) then
    return none
  let size := instruction.length
  let some original ← readMemory pid tracee.entry size
    | return none
  if !(← writeMemory pid tracee.entry instruction) then
    return none
  return some {
    tracee with
    originalInstruction := original ++ tracee.originalInstruction.drop size
    breakpointSize := size }

/-- `restore_entry`: the result of the write is dropped. -/
def restoreEntry (pid : Pid) (tracee : Tracee) : Prog Sys Unit := do
  if tracee.breakpointSize ≠ 0 then
    let restored ← writeMemory pid tracee.entry
      (tracee.originalInstruction.take tracee.breakpointSize)
    note (.restored pid restored)

def unskipEntryInstruction (pid : Pid) (tracee : Tracee) : Prog Sys Unit := do
  if trapReportsNextInstruction tracee.arch then
    let some regs ← readRegisters pid tracee.arch
      | return
    if regs.pc = Usize.wrappingAdd tracee.entry 1 then
      let restored ← writeRegisters pid (regs.setPc tracee.entry)
      note (.restored pid restored)

def releaseTracee (pid : Pid) (tracee : Tracee) : Prog Sys Unit := do
  restoreEntry pid tracee
  if tracee.state = .entry then
    unskipEntryInstruction pid tracee
  else
    let restored ← writeRegisters pid tracee.saved
    note (.restored pid restored)

/-- `arm_call`: whether the call was armed, and the tracee as the attempt left it. -/
def armCall (pid : Pid) (tracee : Tracee) (regs : Regs) (function : Nat)
    (arguments : List Nat) : Prog Sys (Bool × Tracee) := do
  let some regs ← setupCall pid regs function tracee.returnAddress arguments
    | return (false, tracee)
  let tracee := { tracee with state := .file }
  let written ← writeRegisters pid regs
  return (written, tracee)

def startMemfd (pid : Pid) (tracee : Tracee) (regs : Regs) : Prog Sys (Bool × Tracee) := do
  let some syscallAddress ← resolveSyscall pid
    | return (false, tracee)
  let some (regs, nameAddress) ← pushBytes pid regs tracee.fileName
    | return (false, tracee)
  armCall pid tracee regs syscallAddress
    [Int.toNat (tracee.arch.memfdCreateNumber % (Usize.count : Int)), nameAddress, MFD_CLOEXEC]

/-- The name of the memfd, with its terminator. -/
def memfdName (tracee : Tracee) (purpose : FilePurpose) : List UInt8 :=
  match purpose with
  | .loader => asBytes "znn-loader" ++ [0]
  | .module => asBytes ("znn-module-" ++ Nat.repr tracee.moduleIndex) ++ [0]

/-- `start_file` once the loader image is in memory. -/
def startNamedFile (pid : Pid) (tracee : Tracee) (purpose : FilePurpose) (regs : Regs) :
    Prog Sys (Bool × Tracee) :=
  startMemfd pid
    { tracee with
      filePurpose := purpose
      fileFd := -1
      fileName := memfdName tracee purpose } regs

def startFile (pid : Pid) (tracee : Tracee) (purpose : FilePurpose) (regs : Regs) :
    Prog Sys (Bool × Tracee) := do
  if purpose = .loader ∧ tracee.content = [] then
    let some content ← Procfs.readFile tracee.loader
      | return (false, tracee)
    startNamedFile pid { tracee with content := content } purpose regs
  else
    startNamedFile pid tracee purpose regs

/-- The `android_dlextinfo` that names the library by descriptor. -/
def extinfo (arch : Arch) (fd : Int32) : List UInt8 :=
  let libraryFdOffset := if arch.is64 then 28 else 20
  Bytes.splice (Bytes.little 8 ANDROID_DLEXT_USE_LIBRARY_FD ++ List.replicate 40 0) libraryFdOffset
    (Bytes.little 4 fd.toBitVec.toNat)

end

end Trace

namespace Daemon

open Trace

section Step

variable [Usize]

def undo (pid : Pid) (tracee : Tracee) : DaemonM Unit := do
  releaseTracee pid tracee
  Ptrace.detach pid none

def giveUp (pid : Pid) (tracee : Tracee) (reason : String) : DaemonM Unit := do
  recordFailure pid tracee.exe reason
  undo pid tracee

/-- `abort`, and the end of the injection that follows each of its calls. -/
def abort (pid : Pid) (tracee : Tracee) (reason : String) : DaemonM Progress := do
  giveUp pid tracee reason
  return .finished

/-- The last lines of `trap_at_late` and `trap_at_entry`, from `start_file` on. -/
def startLoader (pid : Pid) (tracee : Tracee) (regs : Regs) : DaemonM Progress := do
  let (started, tracee) ← startFile pid tracee .loader regs
  if !started then
    undo pid tracee
    return .finished
  Ptrace.cont pid none
  return .tracing tracee

def trapAtLate (pid : Pid) (tracee : Tracee) : DaemonM Progress := do
  let some regs ← readRegisters pid tracee.arch
    | do
      restoreEntry pid tracee
      Ptrace.detach pid none
      return .finished
  let pc := regs.pc
  let thumb := decide (tracee.arch = .arm32 ∧ pc % 2 ≠ 0)
  let entry := if thumb then pc - 1 else pc
  startLoader pid { tracee with thumb := thumb, entry := entry, saved := regs } regs

/-- The program counter of a trap at the return breakpoint. -/
def expectedPc (tracee : Tracee) : Nat :=
  if trapReportsNextInstruction tracee.arch then Usize.wrappingAdd tracee.entry 1
  else tracee.entry

/-- The program counter as `trap_at_entry` compares it: without the Thumb bit. -/
def comparedPc (arch : Arch) (regs : Regs) : Nat :=
  if arch = .arm32 then regs.pc - regs.pc % 2 else regs.pc

def trapAtEntry (pid : Pid) (tracee : Tracee) : DaemonM Progress := do
  let some regs ← readRegisters pid tracee.arch
    | do
      restoreEntry pid tracee
      Ptrace.detach pid none
      return .finished
  if comparedPc tracee.arch regs ≠ expectedPc tracee then
    restoreEntry pid tracee
    Ptrace.detach pid none
    return .finished
  let regs := if trapReportsNextInstruction tracee.arch then regs.setPc tracee.entry else regs
  startLoader pid { tracee with saved := regs } regs

/-- `start_dlopen`, with the registers of the finished `memfd_create`. -/
def startDlopen (pid : Pid) (tracee : Tracee) (regs : Regs) (fd : Int32) :
    DaemonM Progress := do
  let some dlopenAddress ← resolveDlopenExt pid
    | abort pid tracee "cannot resolve android_dlopen_ext"
  let info := extinfo tracee.arch fd
  let name := asBytes "libloader.so" ++ [0]
  let nameSize := (name.length + 7) / 8 * 8
  let stack := alignStack (Usize.wrappingSub regs.sp (nameSize + info.length + 0x10))
  if !(← writeMemory pid stack name) then
    return ← abort pid tracee "cannot write dlopen args"
  let extinfoAddress := Usize.wrappingAdd stack nameSize
  if !(← writeMemory pid extinfoAddress info) then
    return ← abort pid tracee "cannot write dlopen args"
  let some regs ← setupCall pid (regs.setSp stack) dlopenAddress tracee.returnAddress
      [stack, RTLD_NOW, extinfoAddress, tracee.entry]
    | abort pid tracee "cannot setup android_dlopen_ext"
  if !(← writeRegisters pid regs) then
    return ← abort pid tracee "cannot setup android_dlopen_ext"
  Ptrace.cont pid none
  return .tracing { tracee with state := .dlopen }

def finishInjection [Config.Build] (pid : Pid) (tracee : Tracee) : DaemonM Progress := do
  let config ← Config.effective
  let token ← perform .freshToken
  let plan : Plan :=
    { modules := tracee.modules
      inlineEngine := config.inlineHook
      pltEngine := config.pltHook
      debugdata := config.debugdata
      nonce := tracee.nonce
      token := token }
  let some bytes := plan.encode .little
    | abort pid tracee "the boot plan does not fit"
  let some regs ← readRegisters pid tracee.arch
    | abort pid tracee "cannot read registers to write the boot plan"
  let stack := alignStack (Usize.wrappingSub regs.sp (bytes.length + 0x10))
  if !(← writeMemory pid stack bytes) then
    return ← abort pid tracee "cannot write the boot plan into the target"
  plan.companions.forM fun module =>
    perform (.spawnCompanion module.path plan.nonce module.index plan.token)
  let some regs ← setupCall pid (regs.setSp stack) tracee.initFunction tracee.returnAddress
      [stack]
    | abort pid tracee "cannot enter znn_loader_init"
  if !(← writeRegisters pid regs) then
    return ← abort pid tracee "cannot enter znn_loader_init"
  Ptrace.cont pid none
  return .tracing { tracee with state := .init }

def pumpModules [Config.Build] (pid : Pid) (tracee : Tracee) : DaemonM Progress := do
  match tracee.modules[tracee.moduleIndex]? with
  | none => finishInjection pid tracee
  | some module => do
      let some content ← Procfs.readFile module.path
        | abort pid tracee "cannot read a module library"
      let tracee := { tracee with moduleContent := content }
      let some regs ← readRegisters pid tracee.arch
        | abort pid tracee "cannot read registers to start a module file"
      let (started, tracee) ← startFile pid tracee .module regs
      if !started then
        return ← abort pid tracee "cannot start a module file in the target"
      Ptrace.cont pid none
      return .tracing tracee

/-- `modules[index].fd = fd`. -/
def storeFd (modules : List PlanModule) (index : Nat) (fd : Int32) : List PlanModule :=
  modules.modify index fun module => { module with fd := fd }

def fileReady [Config.Build] (pid : Pid) (tracee : Tracee) (regs : Regs) :
    DaemonM Progress := do
  let fd := tracee.fileFd
  match tracee.filePurpose with
  | .loader => do
      if !(← perform (.writeToTargetFd pid fd.toInt tracee.content)) then
        return ← abort pid tracee "cannot fill the loader image"
      startDlopen pid tracee regs fd
  | .module => do
      if !(← perform (.writeToTargetFd pid fd.toInt tracee.moduleContent)) then
        return ← abort pid tracee "cannot fill a module library"
      pumpModules pid
        { tracee with
          modules := storeFd tracee.modules tracee.moduleIndex fd
          moduleIndex := Usize.wrappingAdd tracee.moduleIndex 1 }

def trapFile [Config.Build] (pid : Pid) (tracee : Tracee) : DaemonM Progress := do
  let some regs ← readRegisters pid tracee.arch
    | abort pid tracee "failed to get regs after memfd_create"
  note (.interpret pid)
  let fd := Int32.ofNat regs.returnValue
  if fd < 0 then
    if fd.toInt = -ENOSYS then
      giveUp pid tracee "kernel without memfd_create (needs Linux 3.17)"
    else
      giveUp pid tracee "memfd_create failed"
    return .finished
  fileReady pid { tracee with fileFd := fd } regs

/-- The branch of `trap_after_dlopen` for a handle of zero. -/
def callDlerror (pid : Pid) (tracee : Tracee) (regs : Regs) : DaemonM Progress := do
  let some dlerrorAddress ← resolveDlerror pid
    | abort pid tracee "dlopen failed (cannot resolve dlerror)"
  let some regs ← setupCall pid regs dlerrorAddress tracee.returnAddress []
    | abort pid tracee "dlopen failed (cannot resolve dlerror)"
  let _ ← writeRegisters pid regs
  Ptrace.cont pid none
  return .tracing { tracee with state := .dlerror }

/-- The branch of `trap_after_dlopen` for a handle. -/
def callDlsym (pid : Pid) (tracee : Tracee) (regs : Regs) (handle : Nat) :
    DaemonM Progress := do
  let some dlsymAddress ← resolveSymbol pid "libdl.so" "dlsym"
    | abort pid tracee "cannot resolve dlsym"
  let name := asBytes "znn_loader_init" ++ [0]
  let stack := alignStack (Usize.wrappingSub regs.sp (name.length + 0x10))
  if !(← writeMemory pid stack name) then
    undo pid tracee
    return .finished
  let some regs ← setupCall pid (regs.setSp stack) dlsymAddress tracee.returnAddress
      [handle, stack]
    | do
      undo pid tracee
      return .finished
  if !(← writeRegisters pid regs) then
    undo pid tracee
    return .finished
  Ptrace.cont pid none
  return .tracing { tracee with state := .dlsym }

def trapAfterDlopen (pid : Pid) (tracee : Tracee) : DaemonM Progress := do
  let some regs ← readRegisters pid tracee.arch
    | do
      undo pid tracee
      return .finished
  note (.interpret pid)
  let handle := regs.returnValue
  if handle = 0 then
    callDlerror pid tracee regs
  else
    callDlsym pid tracee regs handle

/-- The libraries of the modules that name the executable, as modules of a plan. -/
def planModules (libraries : List Targets.ModuleLibrary) : List PlanModule :=
  libraries.mapIdx fun index library =>
    PlanModule.new (UInt32.ofNat index) library.path library.companion

def trapAfterDlsym [Config.Build] (pid : Pid) (tracee : Tracee) : DaemonM Progress := do
  let some regs ← readRegisters pid tracee.arch
    | do
      undo pid tracee
      return .finished
  note (.interpret pid)
  let initFunction := regs.returnValue
  if initFunction = 0 then
    return ← abort pid tracee "dlsym znn_loader_init failed"
  let tracee := { tracee with initFunction := initFunction }
  let libraries ← Targets.librariesFor (← get).modules tracee.exe
  let tracee := { tracee with modules := planModules libraries }
  if tracee.modules = [] then
    return ← abort pid tracee "no module library to load"
  let nonce ← perform .freshNonce
  pumpModules pid { tracee with moduleIndex := 0, nonce := nonce }

def trapAfterDlerror (pid : Pid) (tracee : Tracee) : DaemonM Progress := do
  let some regs ← readRegisters pid tracee.arch
    | do
      undo pid tracee
      return .finished
  note (.interpret pid)
  let errorPointer := regs.returnValue
  let error ← if errorPointer = 0 then pure "(null)" else readCString pid errorPointer
  recordFailure pid tracee.exe ("dlopen failed: " ++ error)
  undo pid tracee
  return .finished

def step [Config.Build] (pid : Pid) (tracee : Tracee) : DaemonM Progress :=
  match tracee.state with
  | .entry => trapAtEntry pid tracee
  | .late => trapAtLate pid tracee
  | .file => trapFile pid tracee
  | .dlopen => trapAfterDlopen pid tracee
  | .dlsym => trapAfterDlsym pid tracee
  | .dlerror => trapAfterDlerror pid tracee
  | .init => do
      recordSuccess pid tracee.exe
      undo pid tracee
      return .finished
  | .traced => do
      Ptrace.cont pid none
      return .tracing tracee

/-- `begin_late_injection`: whether the target is still traced. -/
def beginLateInjection [Config.Build] (pid : Pid) (tracee : Tracee) : DaemonM Bool := do
  match ← step pid { tracee with state := .late } with
  | .tracing owned => do
      modify fun daemon => { daemon with tracees := daemon.tracees.insert pid owned }
      return true
  | .finished => return false

end Step

/-- Fatal signals whose place is reported. -/
def FATAL : List Int :=
  [Signal.SIGSEGV, Signal.SIGBUS, Signal.SIGABRT, Signal.SIGILL, Signal.SIGFPE, Signal.SIGSYS]

/-- `report_fault`: what it asks of the system for the line it logs. -/
def reportFault (pid : Pid) (crashSignal : Int) : DaemonM Unit := do
  if crashSignal ∈ FATAL then
    let some tracee := (← get).tracees.lookup pid
      | return
    let some _ ← readRegisters pid tracee.arch
      | return
    let _ ← perform (.maps pid)

def attachChild (child : Pid) : DaemonM Unit :=
  modify fun daemon =>
    if child ∈ daemon.tracees then
      daemon
    else
      { daemon with tracees := daemon.tracees.insert child (Tracee.new .traced .unknown) }

section Events

variable [Usize]

/-- `arm_entry_breakpoint`: the armed tracee; `none` where the source returns false, whose
caller drops the tracee. -/
def armEntryBreakpoint (pid : Pid) (tracee : Tracee) : DaemonM (Option Tracee) := do
  let exe ← Procfs.readExePath pid
  if exe = "" then
    return none
  let daemon ← get
  if !Targets.matches daemon.targets exe then
    return none
  let some header ← perform (.elfHeader pid)
    | return none
  let arch := Elf.archOf header
  if arch = .unknown then
    return none
  let entries ← perform (.maps pid)
  let base := ((entries.find? fun entry =>
    entry.offset == 0 && Procfs.mapPathEqualsExe entry.path exe).map MapEntry.start).getD 0
  let (entry, thumb) := entryPoint arch header base
  if entry = 0 then
    return none
  setEntryBreakpoint pid
    { tracee with
      exe := exe
      arch := arch
      entry := entry
      thumb := thumb
      loader := loaderPath daemon header.is64
      state := .entry
      deadlineMs := 0 } thumb

def handleExec (pid : Pid) : DaemonM Unit := do
  let some tracee := (← get).tracees.lookup pid
    | Ptrace.detach pid none
  modify fun daemon => { daemon with tracees := daemon.tracees.erase pid }
  match ← armEntryBreakpoint pid tracee with
  | some tracee => do
      modify fun daemon => { daemon with tracees := daemon.tracees.insert pid tracee }
      Ptrace.cont pid none
  | none => Ptrace.detach pid none

variable [Config.Build]

def handleTrap (pid : Pid) : DaemonM Unit := do
  let some tracee := (← get).tracees.lookup pid
    | return
  modify fun daemon => { daemon with tracees := daemon.tracees.erase pid }
  match ← step pid tracee with
  | .tracing tracee =>
      modify fun daemon => { daemon with tracees := daemon.tracees.insert pid tracee }
  | .finished => return

/-- The stop of `PTRACE_EVENT_STOP`: a group stop is parked, anything else resumed. -/
def handleStopEvent (pid : Pid) : DaemonM Unit := do
  match ← perform (.getsiginfo pid) with
  | some signo =>
      if isGroupStop signo then
        if !(← perform (.listen pid)) then
          Ptrace.cont pid none
      else
        Ptrace.cont pid none
  | none => Ptrace.cont pid none

/-- A stop by `SIGTRAP`, by its event. -/
def handleTrapEvent (pid : Pid) (event : Int) : DaemonM Unit := do
  if event = Ptrace.EVENT_FORK ∨ event = Ptrace.EVENT_VFORK ∨ event = Ptrace.EVENT_CLONE then
    if let some child ← perform (.eventMessage pid) then
      if child ≠ 0 then
        attachChild child
    Ptrace.cont pid none
  else if event = Ptrace.EVENT_EXEC then
    handleExec pid
  else if event = Ptrace.EVENT_EXIT then
    modify fun daemon => { daemon with tracees := daemon.tracees.erase pid }
    Ptrace.cont pid none
  else if pid ∈ (← get).tracees then
    handleTrap pid
  else
    Ptrace.cont pid none

def handleEvent (pid : Pid) (status : Status) : DaemonM Unit := do
  if status.isExited || status.isSignaled then
    modify fun daemon => { daemon with tracees := daemon.tracees.erase pid }
  else if !status.isStopped then
    return
  else if status.trapEvent = Ptrace.EVENT_STOP then
    handleStopEvent pid
  else if status.stopSignal = Signal.SIGTRAP then
    handleTrapEvent pid status.trapEvent
  else if isGroupStop status.stopSignal then
    Ptrace.cont pid (some status.stopSignal)
  else if status.stopSignal = Signal.SIGCHLD then
    Ptrace.cont pid (some Signal.SIGCHLD)
  else
    reportFault pid status.stopSignal
    Ptrace.cont pid (some status.stopSignal)

end Events

end Daemon

end Znn.Injector
