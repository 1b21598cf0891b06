import Znn.Injector.Grants

/-!
# What a step does

The tally of `step` and of its parts, whatever the system answers. A tracee that stays
traced is resumed once, nothing is recorded and it is on its way through the injection; a
tracee that is done with is detached once, after the record that its state allows.
-/

namespace Znn.Injector

open Interaction PtraceOps Trace

namespace Tracee

/-- The fields that say where and how the target was stopped are the same. -/
structure SameTarget (before after : Tracee) : Prop where
  exe : after.exe = before.exe
  arch : after.arch = before.arch
  entry : after.entry = before.entry
  thumb : after.thumb = before.thumb
  originalInstruction : after.originalInstruction = before.originalInstruction
  breakpointSize : after.breakpointSize = before.breakpointSize
  saved : after.saved = before.saved

theorem SameTarget.refl (tracee : Tracee) : tracee.SameTarget tracee :=
  ⟨rfl, rfl, rfl, rfl, rfl, rfl, rfl⟩

/-- The fields that say which program the target runs are the same. -/
structure SameProgram (before after : Tracee) : Prop where
  exe : after.exe = before.exe
  arch : after.arch = before.arch

theorem SameProgram.refl (tracee : Tracee) : tracee.SameProgram tracee :=
  ⟨rfl, rfl⟩

theorem SameProgram.then {first second third : Tracee} (same : first.SameProgram second)
    (target : second.SameTarget third) : first.SameProgram third :=
  ⟨target.exe.trans same.exe, target.arch.trans same.arch⟩

/-- An injected call is running in the target. -/
def Calling (tracee : Tracee) : Prop :=
  tracee.state = .file ∨ tracee.state = .dlopen ∨ tracee.state = .dlsym ∨
    tracee.state = .init ∨ tracee.state = .dlerror

theorem Calling.notEntry {tracee : Tracee} (calling : tracee.Calling) :
    tracee.state ≠ .entry := by
  rcases calling with state | state | state | state | state <;> simp [state]

end Tracee

/-- What `start_file` leaves of a tracee: if the call was started the state says so. -/
structure Started (tracee : Tracee) (result : Bool × Tracee) : Prop where
  same : tracee.SameTarget result.2
  state : result.1 = true → result.2.state = .file

/-- The records with which a tracee in a state can be given up or finished. -/
def Closing (pid : Pid) (tracee : Tracee) (records : List Event) : Prop :=
  match tracee.state with
  | .entry | .late => records = []
  | .file => ∃ reason, records = [.failed pid tracee.exe reason]
  | .dlopen | .dlsym | .dlerror =>
      records = [] ∨ ∃ reason, records = [.failed pid tracee.exe reason]
  | .init => records = [.succeeded pid tracee.exe]
  | .traced => False

/-- The tally of one step, `closing` being the records it may end with. -/
def StepTally (pid : Pid) (tracee : Tracee) (closing : List Event → Prop) (progress : Progress)
    (new : List Event) : Prop :=
  match progress with
  | .tracing next =>
      new = [.resumed pid none] ∧ tracee.SameProgram next ∧
        (tracee.state = .traced ∧ next = tracee ∨ tracee.state ≠ .traced ∧ next.Calling)
  | .finished => ∃ records, new = records ++ [.detached pid none] ∧ closing records

/-- A tracee for which a failure is recorded when its injection fails. -/
structure Reports (pid : Pid) (tracee : Tracee) (closing : List Event → Prop) : Prop where
  notTraced : tracee.state ≠ .traced
  failed : ∀ reason, closing [.failed pid tracee.exe reason]

section

variable [Usize] {allowed : Allowed} {pid : Pid} {tracee : Tracee} {regs : Regs}

theorem returns_armCall {other : Tracee} (same : tracee.SameTarget other) (function : Nat)
    (arguments : List Nat) :
    (armCall pid other regs function arguments).Returns (Started tracee) := by
  apply Prog.Returns.bind_any
  intro regs
  cases regs with
  | none => exact ⟨same, by simp⟩
  | some regs =>
      intro written
      refine ⟨⟨same.exe, same.arch, same.entry, same.thumb, ?_, ?_, same.saved⟩, fun _ => rfl⟩
      · exact same.originalInstruction
      · exact same.breakpointSize

theorem returns_startMemfd {other : Tracee} (same : tracee.SameTarget other) :
    (startMemfd pid other regs).Returns (Started tracee) := by
  apply Prog.Returns.bind_any
  intro address
  cases address with
  | none => exact ⟨same, by simp⟩
  | some address =>
      apply Prog.Returns.bind_any
      intro pushed
      cases pushed with
      | none => exact ⟨same, by simp⟩
      | some pushed => exact returns_armCall same _ _

theorem returns_setEntryBreakpoint (tracee : Tracee) (thumb : Bool) :
    (setEntryBreakpoint pid tracee thumb).Returns fun armed =>
      ∀ next, armed = some next → tracee.SameProgram next := by
  unfold setEntryBreakpoint
  dsimp only
  split
  · rintro next ⟨⟩
  apply Prog.Returns.bind_any
  intro original
  cases original with
  | none => rintro next ⟨⟩
  | some original =>
      apply Prog.Returns.bind_any
      intro written
      split
      · rintro next ⟨⟩
      · rintro next ⟨⟩
        exact ⟨rfl, rfl⟩

theorem returns_startFile (tracee : Tracee) (purpose : FilePurpose) (regs : Regs) :
    (startFile pid tracee purpose regs).Returns (Started tracee) := by
  unfold startFile
  split
  · apply Prog.Returns.bind_any
    intro content
    cases content with
    | none => exact ⟨.refl tracee, by simp⟩
    | some content =>
        apply returns_startMemfd
        exact ⟨rfl, rfl, rfl, rfl, rfl, rfl, rfl⟩
  · apply returns_startMemfd
    exact ⟨rfl, rfl, rfl, rfl, rfl, rfl, rfl⟩

end

/-- The rule for a step's first look at the registers. -/
theorem TalliesFrom.bind_registers {β : Type} {allowed : Allowed} {start : List Event} {pid : Pid}
    {tracee : Tracee} {rest : Option Regs → DaemonM β} {next : β → List Event → Prop}
    (unread : RegistersRead allowed start pid ∨ Tallies allowed pid (rest none) next)
    (read : ∀ regs, regs.arch = tracee.arch →
      (∀ good, Reads allowed start pid tracee good → good regs) →
      Tallies allowed pid (rest (some regs)) next) :
    TalliesFrom allowed start pid (liftM (readRegisters pid tracee.arch) >>= rest) next := by
  intro own
  rw [StateProg.wp_bind, StateProg.wp_lift]
  unfold readRegisters
  simp only [Prog.bind_eq, Prog.wp_bind]
  intro filled after step
  have still : after = start := by
    have moved := step.1
    rw [ledger_step] at moved
    simpa [effects] using moved
  rw [still]
  cases filled with
  | none =>
      rcases unread with granted | unread
      · exact absurd (granted _ _ step.2) (by simp)
      · exact unread own start
  | some filled => exact read _ rfl (fun good reads => reads filled step.2) own start

namespace Daemon

section Endings

variable {allowed : Allowed} {pid : Pid} {tracee : Tracee} {closing : List Event → Prop}

/-- A step that ends in a detach. -/
theorem tallies_finish (records : List Event) {program : DaemonM Unit}
    (ends : Tallies allowed pid program fun _ new => new = records ++ [.detached pid none])
    (closes : closing records) :
    Tallies allowed pid (do program; return Progress.finished)
      (StepTally pid tracee closing) := by
  apply Tallies.bind_exact ends
  intro _
  apply Tallies.pure
  exact ⟨records, by simp, closes⟩

/-- A step that lets the target run its next call. -/
theorem tallies_resume {next : Tracee} (same : tracee.SameProgram next)
    (notTraced : tracee.state ≠ .traced) (calling : next.Calling) :
    Tallies allowed pid (do Ptrace.cont pid none; return Progress.tracing next)
      (StepTally pid tracee closing) := by
  apply Tallies.bind_exact (Tallies.cont none)
  intro _
  apply Tallies.pure
  exact ⟨rfl, same, .inr ⟨notTraced, calling⟩⟩

theorem tallies_reportFault (signal : Int) :
    Tallies allowed pid (reportFault pid signal) fun _ new => new = [] := by
  unfold reportFault
  split
  · apply Tallies.bind_get
    intro daemon
    cases daemon.tracees.lookup pid with
    | none => exact Tallies.pure rfl
    | some tracee =>
        apply Tallies.bind_reads (reads_readRegisters pid _)
        intro regs
        cases regs with
        | none => exact Tallies.pure rfl
        | some regs =>
            apply Tallies.bind_reads (reads_perform (.maps pid) trivial)
            intro entries
            exact Tallies.pure rfl
  · exact Tallies.pure rfl

end Endings

variable [Usize] {allowed : Allowed} {start : List Event} {pid : Pid} {tracee other : Tracee}
  {regs : Regs} {closing : List Event → Prop}

theorem tallies_undo_finish (silent : closing []) :
    Tallies allowed pid (do undo pid other; return Progress.finished)
      (StepTally pid tracee closing) :=
  tallies_finish [] (tallies_undo other) silent

theorem tallies_leave (silent : closing []) :
    Tallies allowed pid (do
      restoreEntry pid other
      Ptrace.detach pid none
      return Progress.finished) (StepTally pid tracee closing) := by
  apply Tallies.bind_edits (edits_restoreEntry pid other)
  intro _
  exact tallies_finish [] (Tallies.detach none) silent

theorem tallies_abort (reports : Reports pid tracee closing) (same : tracee.SameProgram other)
    (reason : String) :
    Tallies allowed pid (abort pid other reason) (StepTally pid tracee closing) := by
  apply tallies_finish [.failed pid other.exe reason] (tallies_giveUp other reason)
  rw [same.exe]
  exact reports.failed reason

/-- The start of the loader is silent when it fails, and does not fail when what it takes is
granted. -/
theorem tallies_startLoader (same : tracee.SameProgram other) (notTraced : tracee.state ≠ .traced)
    (granted : (regs.arch ≠ .unknown ∧ LoaderFound allowed pid other ∧ MemoryOpen allowed pid) ∨
      closing []) :
    Tallies allowed pid (startLoader pid other regs) (StepTally pid tracee closing) := by
  have success : Yields allowed (startFile pid other .loader regs)
      fun result => result.1 = true ∨ closing [] := by
    rcases granted with ⟨known, found, isOpen⟩ | silent
    · exact (yields_startFile isOpen found .loader known).mono fun _ => .inl
    · exact (Yields.anyValue _).mono fun _ _ => .inr silent
  apply Tallies.bind_yields (edits_startFile pid other .loader regs)
    (success.and (.of_returns (returns_startFile other .loader regs)))
  rintro ⟨started, next⟩ ⟨success, ⟨target, state⟩⟩
  cases started with
  | false =>
      rcases success with impossible | silent
      · exact absurd impossible Bool.false_ne_true
      · exact tallies_undo_finish silent
  | true => exact tallies_resume (same.then target) notTraced (.inl (state rfl))

/-- What a step may end with when it is not granted all it asks for, or is. -/
def Settles (allowed : Allowed) (start : List Event) (pid : Pid) (tracee : Tracee)
    (closing : List Event → Prop) : Prop :=
  (tracee.arch ≠ .unknown ∧ StepGranted allowed start pid tracee) ∨ closing []

theorem tallies_trapAtLate (state : tracee.state = .late)
    (settles : Settles allowed start pid tracee closing) :
    TalliesFrom allowed start pid (trapAtLate pid tracee) (StepTally pid tracee closing) := by
  simp only [Settles, StepGranted, state] at settles
  apply TalliesFrom.bind_registers
  · rcases settles with ⟨_, read, _⟩ | silent
    · exact .inl read
    · exact .inr (tallies_leave silent)
  intro regs arch _
  apply tallies_startLoader
  · exact ⟨rfl, rfl⟩
  · simp [state]
  rcases settles with ⟨known, _, found, isOpen⟩ | silent
  · exact .inl ⟨by rwa [arch], ⟨found.image, found.syscall⟩, isOpen⟩
  · exact .inr silent

theorem tallies_trapAtEntry (state : tracee.state = .entry)
    (settles : Settles allowed start pid tracee closing) :
    TalliesFrom allowed start pid (trapAtEntry pid tracee) (StepTally pid tracee closing) := by
  simp only [Settles, StepGranted, state] at settles
  apply TalliesFrom.bind_registers
  · rcases settles with ⟨_, read, _⟩ | silent
    · exact .inl read
    · exact .inr (tallies_leave silent)
  intro regs arch reads
  dsimp only
  split
  case isTrue mismatch =>
    rcases settles with ⟨_, _, stopped, _⟩ | silent
    · exact absurd (reads _ stopped) mismatch
    · exact tallies_leave silent
  case isFalse =>
    apply tallies_startLoader
    · exact ⟨rfl, rfl⟩
    · simp [state]
    rcases settles with ⟨known, _, _, found, isOpen⟩ | silent
    · refine .inl ⟨?_, ⟨found.image, found.syscall⟩, isOpen⟩
      split
      · rwa [Regs.setPc_arch, arch]
      · rwa [arch]
    · exact .inr silent

theorem tallies_startDlopen (reports : Reports pid tracee closing)
    (same : tracee.SameProgram other) (fd : Int32) :
    Tallies allowed pid (startDlopen pid other regs fd) (StepTally pid tracee closing) := by
  apply Tallies.bind_reads (reads_resolveFirst pid _)
  intro address
  cases address with
  | none => exact tallies_abort reports same _
  | some address =>
      apply Tallies.bind_accesses (accesses_writeMemory pid _ _)
      intro nameWritten
      split
      · exact tallies_abort reports same _
      apply Tallies.bind_accesses (accesses_writeMemory pid _ _)
      intro infoWritten
      split
      · exact tallies_abort reports same _
      apply Tallies.bind_accesses (accesses_setupCall pid _ _ _ _)
      intro regs
      cases regs with
      | none => exact tallies_abort reports same _
      | some regs =>
          apply Tallies.bind_edits (edits_writeRegisters pid _)
          intro written
          split
          · exact tallies_abort reports same _
          · exact tallies_resume ⟨same.exe, same.arch⟩ reports.notTraced (.inr (.inl rfl))

theorem tallies_finishInjection [Config.Build] (reports : Reports pid tracee closing)
    (same : tracee.SameProgram other) :
    Tallies allowed pid (finishInjection pid other) (StepTally pid tracee closing) := by
  apply Tallies.bind_reads reads_effective
  intro config
  apply Tallies.bind_reads (reads_perform .freshToken trivial)
  intro token
  dsimp only
  split
  swap
  · exact tallies_abort reports same _
  apply Tallies.bind_reads (reads_readRegisters pid _)
  intro regs
  cases regs with
  | none => exact tallies_abort reports same _
  | some regs =>
      apply Tallies.bind_accesses (accesses_writeMemory pid _ _)
      intro planWritten
      split
      · exact tallies_abort reports same _
      apply Tallies.bind_exact
      · apply Tallies.forM
        intro module
        apply Tallies.perform
        intro answer
        simp [effects]
      intro _
      apply Tallies.bind_accesses (accesses_setupCall pid _ _ _ _)
      intro regs
      cases regs with
      | none => exact tallies_abort reports same _
      | some regs =>
          apply Tallies.bind_edits (edits_writeRegisters pid _)
          intro written
          split
          · exact tallies_abort reports same _
          · exact tallies_resume ⟨same.exe, same.arch⟩ reports.notTraced
              (.inr (.inr (.inr (.inl rfl))))

theorem tallies_pumpModules [Config.Build] (reports : Reports pid tracee closing)
    (same : tracee.SameProgram other) :
    Tallies allowed pid (pumpModules pid other) (StepTally pid tracee closing) := by
  unfold pumpModules
  split
  · exact tallies_finishInjection reports same
  · apply Tallies.bind_reads (reads_readFile _)
    intro content
    cases content with
    | none => exact tallies_abort reports same _
    | some content =>
        apply Tallies.bind_reads (reads_readRegisters pid _)
        intro regs
        cases regs with
        | none => exact tallies_abort reports ⟨same.exe, same.arch⟩ _
        | some regs =>
            apply Tallies.bind_yields (edits_startFile pid _ .module regs)
              (.of_returns (returns_startFile _ .module regs))
            rintro ⟨started, next⟩ ⟨target, state⟩
            have nextSame : tracee.SameProgram next :=
              ⟨target.exe.trans same.exe, target.arch.trans same.arch⟩
            cases started with
            | false => exact tallies_abort reports nextSame _
            | true => exact tallies_resume nextSame reports.notTraced (.inl (state rfl))

theorem tallies_fileReady [Config.Build] (reports : Reports pid tracee closing)
    (same : tracee.SameProgram other) :
    Tallies allowed pid (fileReady pid other regs) (StepTally pid tracee closing) := by
  unfold fileReady
  dsimp only
  split
  · apply Tallies.bind_reads (reads_perform (.writeToTargetFd pid _ _) trivial)
    intro filled
    split
    · exact tallies_abort reports same _
    · exact tallies_startDlopen reports same _
  · apply Tallies.bind_reads (reads_perform (.writeToTargetFd pid _ _) trivial)
    intro filled
    split
    · exact tallies_abort reports same _
    · exact tallies_pumpModules reports ⟨same.exe, same.arch⟩

theorem tallies_trapFile [Config.Build] (reports : Reports pid tracee closing) :
    Tallies allowed pid (trapFile pid tracee) (StepTally pid tracee closing) := by
  apply Tallies.bind_reads (reads_readRegisters pid _)
  intro regs
  cases regs with
  | none => exact tallies_abort reports (.refl tracee) _
  | some regs =>
      apply Tallies.bind_exact Tallies.interpret
      intro _
      dsimp only
      split
      · split
        · exact tallies_abort reports (.refl tracee) _
        · exact tallies_abort reports (.refl tracee) _
      · exact tallies_fileReady reports ⟨rfl, rfl⟩

theorem tallies_callDlerror (reports : Reports pid tracee closing) :
    Tallies allowed pid (callDlerror pid tracee regs) (StepTally pid tracee closing) := by
  apply Tallies.bind_reads (reads_resolveSymbol pid _ _)
  intro address
  cases address with
  | none => exact tallies_abort reports (.refl tracee) _
  | some address =>
      apply Tallies.bind_accesses (accesses_setupCall pid _ _ _ _)
      intro regs
      cases regs with
      | none => exact tallies_abort reports (.refl tracee) _
      | some regs =>
          apply Tallies.bind_edits (edits_writeRegisters pid _)
          intro written
          exact tallies_resume ⟨rfl, rfl⟩ reports.notTraced (.inr (.inr (.inr (.inr rfl))))

/-- Once `dlsym` is resolved, every failure to call it is silent. -/
theorem tallies_callDlsym (reports : Reports pid tracee closing) (handle : Nat)
    (granted : (regs.arch ≠ .unknown ∧
      (Yields allowed (resolveSymbol pid "libdl.so" "dlsym") (fun address => address = none) ∨
        MemoryOpen allowed pid)) ∨ closing []) :
    Tallies allowed pid (callDlsym pid tracee regs handle) (StepTally pid tracee closing) := by
  have resolved : Yields allowed (resolveSymbol pid "libdl.so" "dlsym") fun address =>
      address = none ∨ (regs.arch ≠ .unknown ∧ MemoryOpen allowed pid) ∨ closing [] := by
    rcases granted with ⟨known, missing | isOpen⟩ | silent
    · exact missing.mono fun _ => .inl
    · exact (Yields.anyValue _).mono fun _ _ => .inr (.inl ⟨known, isOpen⟩)
    · exact (Yields.anyValue _).mono fun _ _ => .inr (.inr silent)
  apply Tallies.bind_yields ((reads_resolveSymbol pid _ _).mono (Call.edits_of_reads pid)) resolved
  rintro address outcome
  cases address with
  | none => exact tallies_abort reports (.refl tracee) _
  | some address =>
      have granted : (regs.arch ≠ .unknown ∧ MemoryOpen allowed pid) ∨ closing [] :=
        outcome.resolve_left (by simp)
      have quits : ∀ {α : Type} {program : Prog Sys α} {success : α → Prop},
          (regs.arch ≠ .unknown → MemoryOpen allowed pid → Yields allowed program success) →
          Yields allowed program fun value => success value ∨ closing [] := by
        intro α program success succeeds
        rcases granted with ⟨known, isOpen⟩ | silent
        · exact (succeeds known isOpen).mono fun _ => .inl
        · exact (Yields.anyValue _).mono fun _ _ => .inr silent
      apply Tallies.bind_yields (edits_writeMemory pid _ _)
        (quits fun _ isOpen => yields_writeMemory isOpen _ _)
      rintro nameWritten success
      split
      case isTrue failed =>
        exact tallies_undo_finish (success.resolve_left (by simpa using failed))
      apply Tallies.bind_yields
        ((accesses_setupCall pid _ _ _ _).mono (Call.edits_of_accesses pid))
        (quits fun known isOpen => yields_setupCall isOpen (by simpa using known) _ _ (by simp))
      rintro entered success
      cases entered with
      | none => exact tallies_undo_finish (success.resolve_left (by simp))
      | some entered =>
          apply Tallies.bind_yields (edits_writeRegisters pid _)
            (quits fun _ isOpen => yields_writeRegisters isOpen _)
          rintro written success
          split
          case isTrue failed =>
            exact tallies_undo_finish (success.resolve_left (by simpa using failed))
          · exact tallies_resume ⟨rfl, rfl⟩ reports.notTraced (.inr (.inr (.inl rfl)))

theorem tallies_trapAfterDlopen (state : tracee.state = .dlopen)
    (reports : Reports pid tracee closing) (settles : Settles allowed start pid tracee closing) :
    TalliesFrom allowed start pid (trapAfterDlopen pid tracee) (StepTally pid tracee closing) := by
  simp only [Settles, StepGranted, state] at settles
  apply TalliesFrom.bind_registers
  · rcases settles with ⟨_, read, _⟩ | silent
    · exact .inl read
    · exact .inr (tallies_undo_finish silent)
  intro regs arch reads
  apply Tallies.bind_exact Tallies.interpret
  intro _
  dsimp only
  split
  · exact tallies_callDlerror reports
  case isFalse handle =>
    apply tallies_callDlsym reports
    rcases settles with ⟨known, _, zero | granted⟩ | silent
    · exact absurd (reads _ zero) handle
    · exact .inl ⟨by rwa [arch], granted⟩
    · exact .inr silent

theorem tallies_trapAfterDlsym [Config.Build] (state : tracee.state = .dlsym)
    (reports : Reports pid tracee closing) (settles : Settles allowed start pid tracee closing) :
    TalliesFrom allowed start pid (trapAfterDlsym pid tracee) (StepTally pid tracee closing) := by
  simp only [Settles, StepGranted, state] at settles
  apply TalliesFrom.bind_registers
  · rcases settles with ⟨_, read⟩ | silent
    · exact .inl read
    · exact .inr (tallies_undo_finish silent)
  intro regs _ _
  apply Tallies.bind_exact Tallies.interpret
  intro _
  dsimp only
  split
  · exact tallies_abort reports (.refl tracee) _
  apply Tallies.bind_get
  intro daemon
  apply Tallies.bind_reads (reads_librariesFor _ _)
  intro libraries
  split
  · exact tallies_abort reports ⟨rfl, rfl⟩ _
  apply Tallies.bind_reads (reads_perform .freshNonce trivial)
  intro nonce
  exact tallies_pumpModules reports ⟨rfl, rfl⟩

theorem tallies_trapAfterDlerror (state : tracee.state = .dlerror)
    (reports : Reports pid tracee closing) (settles : Settles allowed start pid tracee closing) :
    TalliesFrom allowed start pid (trapAfterDlerror pid tracee)
      (StepTally pid tracee closing) := by
  simp only [Settles, StepGranted, state] at settles
  apply TalliesFrom.bind_registers
  · rcases settles with ⟨_, read⟩ | silent
    · exact .inl read
    · exact .inr (tallies_undo_finish silent)
  intro regs _ _
  apply Tallies.bind_exact Tallies.interpret
  intro _
  have record : ∀ error : String, Tallies allowed pid (do
      recordFailure pid tracee.exe ("dlopen failed: " ++ error)
      undo pid tracee
      return Progress.finished) (StepTally pid tracee closing) := by
    intro error
    apply Tallies.bind_exact (tallies_recordFailure _ _)
    intro _
    apply Tallies.bind_exact (tallies_undo tracee)
    intro _
    apply Tallies.pure
    exact ⟨_, rfl, reports.failed _⟩
  dsimp only
  split
  · exact record "(null)"
  · apply Tallies.bind_reads (reads_readCString pid _)
    exact record

/-- A step either resumes the tracee once and records nothing, or detaches it once after the
records of `closing`: a failure or a success in the states that have one to report, nothing
where a step quits without being granted what it asks for. -/
theorem tallies_step_from [Config.Build] {pid : Pid} {tracee : Tracee}
    (settles : tracee.state ≠ .file → tracee.state ≠ .init → tracee.state ≠ .traced →
      Settles allowed start pid tracee closing)
    (failed : tracee.state = .file ∨ tracee.state = .dlopen ∨ tracee.state = .dlsym ∨
      tracee.state = .dlerror → ∀ reason, closing [.failed pid tracee.exe reason])
    (succeeded : tracee.state = .init → closing [.succeeded pid tracee.exe]) :
    TalliesFrom allowed start pid (step pid tracee) (StepTally pid tracee closing) := by
  unfold step
  split
  case h_1 state => exact tallies_trapAtEntry state (settles (by simp [state]) (by simp [state])
    (by simp [state]))
  case h_2 state => exact tallies_trapAtLate state (settles (by simp [state]) (by simp [state])
    (by simp [state]))
  case h_3 state =>
    exact (tallies_trapFile ⟨by simp [state], failed (.inl state)⟩).from_start start
  case h_4 state =>
    exact tallies_trapAfterDlopen state ⟨by simp [state], failed (.inr (.inl state))⟩
      (settles (by simp [state]) (by simp [state]) (by simp [state]))
  case h_5 state =>
    exact tallies_trapAfterDlsym state ⟨by simp [state], failed (.inr (.inr (.inl state)))⟩
      (settles (by simp [state]) (by simp [state]) (by simp [state]))
  case h_6 state =>
    exact tallies_trapAfterDlerror state ⟨by simp [state], failed (.inr (.inr (.inr state)))⟩
      (settles (by simp [state]) (by simp [state]) (by simp [state]))
  case h_7 state =>
    apply Tallies.from_start
    apply Tallies.bind_exact (tallies_recordSuccess _)
    intro _
    apply Tallies.bind_exact (tallies_undo tracee)
    intro _
    apply Tallies.pure
    exact ⟨[.succeeded pid tracee.exe], rfl, succeeded state⟩
  case h_8 state =>
    apply Tallies.from_start
    apply Tallies.bind_exact (Tallies.cont none)
    intro _
    apply Tallies.pure
    exact ⟨rfl, .refl tracee, .inl ⟨state, rfl⟩⟩

/-- Whatever the system answers, a step either resumes the tracee once and records nothing, or
detaches it once after the record that its state allows. -/
theorem tallies_step [Config.Build] (pid : Pid) (tracee : Tracee) :
    Tallies allowed pid (step pid tracee) (StepTally pid tracee (Closing pid tracee)) := by
  intro own start
  apply tallies_step_from
  · intro notFile notInit notTraced
    right
    cases state : tracee.state <;> simp_all [Closing]
  · rintro (state | state | state | state) reason <;> simp [Closing, state]
  · intro state
    simp [Closing, state]

/-- Arming a tracee is silent, and an armed tracee is of a known architecture. -/
theorem tallies_armEntryBreakpoint (tracee : Tracee) :
    Tallies allowed pid (armEntryBreakpoint pid tracee) fun armed new =>
      new = [] ∧ ∀ next, armed = some next → next.arch ≠ .unknown := by
  have none : ∀ next : Tracee, Option.none = some next → next.arch ≠ .unknown := by
    rintro next ⟨⟩
  apply Tallies.bind_reads (reads_readExePath pid)
  intro exe
  split
  · exact Tallies.pure ⟨rfl, none⟩
  apply Tallies.bind_get
  intro daemon
  split
  · exact Tallies.pure ⟨rfl, none⟩
  apply Tallies.bind_reads (reads_perform (.elfHeader pid) trivial)
  intro header
  cases header with
  | none => exact Tallies.pure ⟨rfl, none⟩
  | some header =>
      dsimp only
      split
      · exact Tallies.pure ⟨rfl, none⟩
      case isFalse known =>
        apply Tallies.bind_reads (reads_perform (.maps pid) trivial)
        intro entries
        split
        · exact Tallies.pure ⟨rfl, none⟩
        · apply (Tallies.edits ((accesses_setEntryBreakpoint pid _ _).mono
            (Call.edits_of_accesses pid)) (.of_returns (returns_setEntryBreakpoint _ _))).mono
          rintro armed new ⟨silent, same⟩
          refine ⟨silent, fun next isNext => ?_⟩
          rwa [(same next isNext).arch]

end Daemon

end Znn.Injector
