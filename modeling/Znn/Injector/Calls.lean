import Znn.Injector.Run

/-!
# Which calls a function can make

Most functions of the injector touch little. `reads` are the calls that change nothing in a
target, `accesses` adds writes to the memory of one process and `edits` writes to its
registers; a program all of whose calls are of one of these kinds is framed by any machine
that does not notice them.
-/

namespace Znn.Injector

open Interaction

namespace Call

/-- Calls that only look. -/
def reads : Call → Prop
  | .pokeData _ _ _ | .setRegset _ _ | .cont _ _ | .detach _ _ | .seize _ _ | .interrupt _
  | .listen _ | .waitpid _ | .note _ => False
  | _ => True

/-- Calls that look at a target or write the memory of `pid`. -/
def accesses (pid : Pid) : Call → Prop
  | .pokeData target _ _ => target = pid
  | request => request.reads

/-- Calls that look at a target or write the memory or the registers of `pid`, and the marks
of restoring writes. -/
def edits (pid : Pid) : Call → Prop
  | .pokeData target _ _ | .setRegset target _ | .note (.restored target _) => target = pid
  | request => request.reads

/-- Calls that look at the memory of `pid` or write it. -/
def touches (pid : Pid) : Call → Prop
  | .peekData target _ | .pokeData target _ _ => target = pid
  | _ => False

variable (pid : Pid)

theorem accesses_of_touches (request : Call) (touched : request.touches pid) :
    request.accesses pid := by
  cases request <;> first | exact touched | exact touched.elim | trivial

theorem accesses_of_reads (request : Call) (isRead : request.reads) :
    request.accesses pid := by
  cases request <;> first | exact isRead.elim | trivial

theorem edits_of_accesses (request : Call) (isAccess : request.accesses pid) :
    request.edits pid := by
  cases request <;> first | exact isAccess | trivial

theorem edits_of_reads (request : Call) (isRead : request.reads) : request.edits pid :=
  edits_of_accesses pid request (accesses_of_reads pid request isRead)

end Call

/-- Every call of the program satisfies `allowed`. -/
abbrev Only {α : Type} (allowed : Call → Prop) (program : Prog Sys α) : Prop :=
  Prog.All (I := Sys) allowed program

theorem reads_perform (request : Call) (isRead : request.reads) :
    Only Call.reads (perform request) :=
  ⟨isRead, fun _ => trivial⟩

open Procfs Trace PtraceOps Mode

/-- The loop of `wait_for_stop` makes two calls. -/
theorem only_waitRounds {pid : Pid} (allowed : Call → Prop) (waits : allowed (.waitpid pid))
    (asks : allowed .nowMs) (deadline rounds : Nat) :
    Only allowed (waitRounds pid deadline rounds) := by
  induction rounds with
  | zero => trivial
  | succ rounds ih =>
      unfold waitRounds
      apply Prog.All.bind
      · refine ⟨waits, fun result => ?_⟩
        cases result with
        | status child raw =>
            dsimp only [Prog.bind]
            cases WaitStatus.fromRaw raw <;> trivial
        | _ => trivial
      · intro result
        rcases result with failure | ⟨_ | ⟨waited, status⟩⟩
        · cases failure with
          | interrupted => exact ih
          | _ => trivial
        · refine ⟨asks, fun now => ?_⟩
          dsimp only [Prog.bind]
          split
          · trivial
          · exact ih
        · dsimp only
          split
          · trivial
          · refine ⟨asks, fun now => ?_⟩
            dsimp only [Prog.bind]
            split
            · trivial
            · exact ih

section Procfs

variable (pid : Pid)

theorem reads_readExePath : Only Call.reads (readExePath pid) := by
  simp only [readExePath, Prog.bind_eq, Prog.all_perform_bind]
  refine ⟨trivial, fun answer => ?_⟩
  cases answer <;> trivial

theorem reads_processGone : Only Call.reads (processGone pid) := by
  simp only [processGone, liveness, Prog.bind_eq]
  apply Prog.All.bind
  · refine ⟨trivial, fun answer => ?_⟩
    cases answer <;> trivial
  · intro value
    trivial

theorem reads_isAlive : Only Call.reads (isAlive pid) := by
  simp only [isAlive, Prog.bind_eq]
  exact Prog.All.bind (reads_processGone pid) fun value => trivial

theorem reads_retainAlive {α : Type} (pidOf : α → Pid) (items : List α) :
    Only Call.reads (retainAlive pidOf items) := by
  induction items with
  | nil => trivial
  | cons item rest ih =>
      simp only [retainAlive, Prog.bind_eq]
      apply Prog.All.bind (reads_isAlive _)
      intro alive
      exact Prog.All.bind ih fun kept => trivial

theorem reads_pcInExeText (exe : String) (pc : Nat) :
    Only Call.reads (pcInExeText pid exe pc) :=
  ⟨trivial, fun _ => trivial⟩

theorem reads_readFile (path : String) : Only Call.reads (Procfs.readFile path) := by
  simp only [Procfs.readFile, Prog.bind_eq, Prog.all_perform_bind]
  refine ⟨trivial, fun answer => ?_⟩
  cases answer <;> trivial

theorem reads_findLibrary (basename : String) : Only Call.reads (findLibrary pid basename) :=
  ⟨trivial, fun _ => trivial⟩

theorem reads_resolveSymbol (basename symbol : String) :
    Only Call.reads (resolveSymbol pid basename symbol) := by
  simp only [resolveSymbol, Prog.bind_eq]
  apply Prog.All.bind (reads_findLibrary pid basename)
  intro found
  cases found with
  | none => trivial
  | some library => exact ⟨trivial, fun _ => trivial⟩

theorem reads_resolveFirst (symbols : List (String × String)) :
    Only Call.reads (resolveFirst pid symbols) := by
  induction symbols with
  | nil => trivial
  | cons symbol rest ih =>
      simp only [resolveFirst, Prog.bind_eq]
      apply Prog.All.bind (reads_resolveSymbol pid _ _)
      intro address
      cases address with
      | none => exact ih
      | some address => trivial

theorem reads_monitorPresent : Only Call.reads monitorPresent := by
  simp only [monitorPresent, initHolder, Prog.bind_eq, Prog.all_perform_bind]
  refine ⟨trivial, fun holder => ?_⟩
  split
  · trivial
  · exact ⟨trivial, fun _ => trivial⟩

theorem reads_readRegisters (arch : Arch) : Only Call.reads (readRegisters pid arch) := by
  simp only [readRegisters, Prog.bind_eq, Prog.all_perform_bind]
  refine ⟨trivial, fun answer => ?_⟩
  cases answer <;> trivial

end Procfs

section Files

theorem reads_effective [Config.Build] : Only Call.reads Config.effective := by
  simp only [Config.effective, Config.readFile, Prog.bind_eq]
  apply Prog.All.bind
  · refine ⟨trivial, fun answer => ?_⟩
    cases answer <;> trivial
  · intro stored
    cases stored <;> trivial

theorem reads_resolveLibrary (moduleDir library : String) :
    Only Call.reads (Targets.resolveLibrary moduleDir library) := by
  simp only [Targets.resolveLibrary, Prog.bind_eq, Prog.all_perform_bind]
  refine ⟨trivial, fun path => ?_⟩
  cases path with
  | none => trivial
  | some path =>
      refine ⟨trivial, fun base => ?_⟩
      cases base with
      | none => trivial
      | some base =>
          dsimp only [Prog.bind]
          split <;> trivial

theorem reads_librariesOf (moduleDir exe : String) (declarations : List Declaration)
    (libraries : List Targets.ModuleLibrary) :
    Only Call.reads (Targets.librariesOf moduleDir exe libraries declarations) := by
  induction declarations generalizing libraries with
  | nil => trivial
  | cons declaration rest ih =>
      simp only [Targets.librariesOf]
      split
      · exact ih libraries
      · apply Prog.All.bind (reads_resolveLibrary _ _)
        intro path
        cases path with
        | none => exact ih libraries
        | some path =>
            dsimp only
            split
            · exact ih libraries
            · exact ih _

theorem reads_librariesFor (modules : Modules) (exe : String) :
    Only Call.reads (Targets.librariesFor modules exe) := by
  suffices each : ∀ libraries, Only Call.reads (Targets.librariesFrom exe libraries modules) from
    each []
  induction modules with
  | nil => intro libraries; trivial
  | cons module rest ih =>
      intro libraries
      exact Prog.All.bind (reads_librariesOf _ _ _ _) fun libraries => ih libraries

theorem reads_readProp (moduleDir key : String) :
    Only Call.reads (Targets.readProp moduleDir key) := by
  simp only [Targets.readProp, Prog.bind_eq, Prog.all_perform_bind]
  refine ⟨trivial, fun answer => ?_⟩
  cases answer <;> trivial

theorem reads_isEnabled (moduleDir : String) : Only Call.reads (Targets.isEnabled moduleDir) := by
  simp only [Targets.isEnabled, Prog.bind_eq, Prog.all_perform_bind]
  refine ⟨trivial, fun disabled => ?_⟩
  split
  · trivial
  · exact ⟨trivial, fun _ => trivial⟩

theorem reads_declarations (moduleDir : String) :
    Only Call.reads (Targets.declarations moduleDir) := by
  simp only [Targets.declarations, Prog.bind_eq, Prog.all_perform_bind]
  refine ⟨trivial, fun answer => ?_⟩
  cases answer <;> trivial

theorem reads_collectOne (previous modules : Modules) (id : String) :
    Only Call.reads (Targets.collectOne previous modules id) := by
  unfold Targets.collectOne
  split
  · trivial
  apply Prog.All.bind (reads_isEnabled _)
  intro enabled
  split
  · trivial
  apply Prog.All.bind (reads_declarations _)
  intro declared
  rcases declared with failure | declared
  · cases failure with
    | notFound => trivial
    | text contents | failed =>
        dsimp only
        cases previous.get? id <;> trivial
  · apply Prog.All.bind (reads_readProp _ _)
    intro name
    apply Prog.All.bind (reads_readProp _ _)
    intro version
    dsimp only
    split
    · trivial
    · cases previous.get? id with
      | none => trivial
      | some old => exact Prog.All.bind (reads_retainAlive _ _) fun processes => trivial

theorem reads_collect (previous : Modules) : Only Call.reads (Targets.collect previous) := by
  have each : ∀ ids modules, Only Call.reads (Targets.collectEach previous modules ids) := by
    intro ids
    induction ids with
    | nil => intro modules; trivial
    | cons id rest ih =>
        intro modules
        exact Prog.All.bind (reads_collectOne _ _ _) fun modules => ih modules
  simp only [Targets.collect, Prog.bind_eq, Prog.all_perform_bind]
  refine ⟨trivial, fun ids => ?_⟩
  cases ids with
  | none => trivial
  | some ids => exact each ids []

theorem reads_aliveEntries {α : Type} (table : Table α) :
    Only Call.reads (Daemon.aliveEntries table) :=
  Prog.All.bind (reads_retainAlive _ _) fun _ => trivial

end Files

section Memory

variable [Usize] (pid : Pid)

theorem reads_readFrom (address length fuel done : Nat) (buffer : List UInt8) :
    Only Call.reads (readFrom pid address length fuel done buffer) := by
  induction fuel generalizing done buffer with
  | zero => trivial
  | succ fuel ih =>
      unfold readFrom
      split
      · refine ⟨trivial, fun word => ?_⟩
        cases word with
        | none => trivial
        | some word => exact ih _ _
      · trivial

theorem reads_readMemory (address length : Nat) :
    Only Call.reads (readMemory pid address length) :=
  reads_readFrom pid address length length 0 []

theorem reads_readCString (address : Nat) : Only Call.reads (readCString pid address) := by
  have each : ∀ fuel bytes, Only Call.reads (readCStringFrom pid address fuel bytes) := by
    intro fuel
    induction fuel with
    | zero => intro bytes; trivial
    | succ fuel ih =>
        intro bytes
        apply Prog.All.bind (reads_readMemory pid _ _)
        intro value
        split
        · split
          · trivial
          · exact ih _
        · trivial
  exact Prog.All.bind (each _ _) fun bytes => trivial

theorem reads_seizePlan (exe : String) : Only Call.reads (Daemon.seizePlan pid exe) := by
  unfold Daemon.seizePlan
  refine ⟨trivial, fun header => ?_⟩
  cases header with
  | none => trivial
  | some header =>
      dsimp only [Prog.bind]
      split
      · trivial
      · refine ⟨trivial, fun entries => ?_⟩
        dsimp only [Prog.bind]
        split
        · trivial
        · split
          · trivial
          · split <;> trivial

theorem touches_writeFrom (address : Nat) (buffer : List UInt8) (fuel done : Nat) :
    Only (Call.touches pid) (writeFrom pid address buffer fuel done) := by
  induction fuel generalizing done with
  | zero => trivial
  | succ fuel ih =>
      unfold writeFrom
      split
      · dsimp only
        split
        · refine ⟨rfl, fun existing => ?_⟩
          cases existing with
          | none => trivial
          | some existing =>
              refine ⟨rfl, fun ok => ?_⟩
              dsimp only [Prog.bind]
              split
              · trivial
              · exact ih _
        · refine ⟨rfl, fun ok => ?_⟩
          dsimp only [Prog.bind]
          split
          · trivial
          · exact ih _
      · trivial

theorem touches_writeMemory (address : Nat) (buffer : List UInt8) :
    Only (Call.touches pid) (writeMemory pid address buffer) :=
  touches_writeFrom pid address buffer _ _

theorem touches_pushArguments (args : List Nat) (stack : Nat) :
    Only (Call.touches pid) (pushArguments pid stack args) := by
  induction args generalizing stack with
  | nil => trivial
  | cons argument rest ih =>
      apply Prog.All.bind (touches_writeMemory pid _ _)
      intro ok
      split
      · trivial
      · exact ih _

theorem touches_setupCall (regs : Regs) (function returnTo : Nat) (args : List Nat) :
    Only (Call.touches pid) (setupCall pid regs function returnTo args) := by
  unfold setupCall
  split
  · trivial
  · trivial
  · trivial
  · cases setAllArguments regs 0 args with
    | none => trivial
    | some regs =>
        apply Prog.All.bind (touches_writeMemory pid _ _)
        intro ok
        split <;> trivial
  · apply Prog.All.bind (touches_pushArguments pid _ _)
    intro stack
    cases stack with
    | none => trivial
    | some stack =>
        apply Prog.All.bind (touches_writeMemory pid _ _)
        intro ok
        split <;> trivial
  · trivial

theorem accesses_writeMemory (address : Nat) (buffer : List UInt8) :
    Only (Call.accesses pid) (writeMemory pid address buffer) :=
  (touches_writeMemory pid address buffer).mono (Call.accesses_of_touches pid)

theorem accesses_setupCall (regs : Regs) (function returnTo : Nat) (args : List Nat) :
    Only (Call.accesses pid) (setupCall pid regs function returnTo args) :=
  (touches_setupCall pid regs function returnTo args).mono (Call.accesses_of_touches pid)

theorem accesses_pushBytes (regs : Regs) (bytes : List UInt8) :
    Only (Call.accesses pid) (pushBytes pid regs bytes) := by
  apply Prog.All.bind (accesses_writeMemory pid _ _)
  intro ok
  split <;> trivial

theorem accesses_setEntryBreakpoint (tracee : Tracee) (thumb : Bool) :
    Only (Call.accesses pid) (setEntryBreakpoint pid tracee thumb) := by
  unfold setEntryBreakpoint
  dsimp only
  split
  · trivial
  · apply Prog.All.bind ((reads_readMemory pid _ _).mono (Call.accesses_of_reads pid))
    intro original
    cases original with
    | none => trivial
    | some original =>
        apply Prog.All.bind (accesses_writeMemory pid _ _)
        intro ok
        split <;> trivial

theorem edits_writeMemory (address : Nat) (buffer : List UInt8) :
    Only (Call.edits pid) (writeMemory pid address buffer) :=
  (accesses_writeMemory pid address buffer).mono (Call.edits_of_accesses pid)

omit [Usize] in
theorem edits_readRegisters (arch : Arch) : Only (Call.edits pid) (readRegisters pid arch) :=
  (reads_readRegisters pid arch).mono (Call.edits_of_reads pid)

omit [Usize] in
theorem edits_writeRegisters (regs : Regs) : Only (Call.edits pid) (writeRegisters pid regs) :=
  ⟨rfl, fun _ => trivial⟩

theorem edits_restoreEntry (tracee : Tracee) : Only (Call.edits pid) (restoreEntry pid tracee) := by
  unfold restoreEntry
  split
  · exact Prog.All.bind (edits_writeMemory pid _ _) fun ok => ⟨rfl, fun _ => trivial⟩
  · trivial

theorem edits_unskipEntryInstruction (tracee : Tracee) :
    Only (Call.edits pid) (unskipEntryInstruction pid tracee) := by
  unfold unskipEntryInstruction
  split
  · apply Prog.All.bind (edits_readRegisters pid _)
    intro regs
    cases regs with
    | none => trivial
    | some regs =>
        dsimp only
        split
        · exact ⟨rfl, fun ok => ⟨rfl, fun _ => trivial⟩⟩
        · trivial
  · trivial

theorem edits_releaseTracee (tracee : Tracee) : Only (Call.edits pid) (releaseTracee pid tracee) := by
  apply Prog.All.bind (edits_restoreEntry pid tracee)
  intro _
  split
  · exact edits_unskipEntryInstruction pid tracee
  · exact ⟨rfl, fun ok => ⟨rfl, fun _ => trivial⟩⟩

theorem edits_armCall (tracee : Tracee) (regs : Regs) (function : Nat) (arguments : List Nat) :
    Only (Call.edits pid) (armCall pid tracee regs function arguments) := by
  apply Prog.All.bind ((accesses_setupCall pid _ _ _ _).mono (Call.edits_of_accesses pid))
  intro regs
  cases regs with
  | none => trivial
  | some regs => exact ⟨rfl, fun ok => trivial⟩

theorem edits_startMemfd (tracee : Tracee) (regs : Regs) :
    Only (Call.edits pid) (startMemfd pid tracee regs) := by
  apply Prog.All.bind ((reads_resolveSymbol pid _ _).mono (Call.edits_of_reads pid))
  intro address
  cases address with
  | none => trivial
  | some address =>
      apply Prog.All.bind ((accesses_pushBytes pid _ _).mono (Call.edits_of_accesses pid))
      intro pushed
      cases pushed with
      | none => trivial
      | some pushed => exact edits_armCall pid _ _ _ _

theorem edits_startFile (tracee : Tracee) (purpose : FilePurpose) (regs : Regs) :
    Only (Call.edits pid) (startFile pid tracee purpose regs) := by
  unfold startFile
  split
  · apply Prog.All.bind ((reads_readFile _).mono (Call.edits_of_reads pid))
    intro content
    cases content with
    | none => trivial
    | some content => exact edits_startMemfd pid _ _
  · exact edits_startMemfd pid _ _

end Memory

end Znn.Injector
