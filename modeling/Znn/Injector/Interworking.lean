import Znn.Injector.Refusal
import Znn.Injector.Transparency

/-!
# Two instruction sets

An ARM32 process runs ARM or Thumb code, and the T bit of its status register says which. The
injector knows of the second instruction set through bit 0 of addresses: a symbol of Thumb code
has it set, and the breakpoint and the return address of a late injection follow bit 0 of the
program counter. The program counter that the kernel reports never has it, and no function of the
injector reads or writes the status register.
-/

namespace Znn.Injector

open Interaction PtraceOps Trace Bytes Usize

/-- Where the status register is in the register set of ARM32. -/
def CPSR : Nat := 16 * 4

section State

variable [Usize]

/-- The T bit, bit 5 of the status register: the process resumes in Thumb state. -/
def Regs.thumbState (regs : Regs) : Bool :=
  decide (regs.read CPSR / 2 ^ 5 % 2 = 1)

/-- The registers enter a function whose address has bit 0 set for Thumb code. -/
structure Regs.Enters (regs : Regs) (function : Nat) : Prop where
  pc : regs.pc = (function - function % 2) % 2 ^ 32
  state : regs.thumbState = decide (function % 2 = 1)

/-- Every call that is set up enters its function. -/
def Interworks (pid : Pid) (regs : Regs) (function returnTo : Nat) (args : List Nat) : Prop :=
  (setupCall pid regs function returnTo args).Returns fun entered =>
    ∀ next, entered = some next → next.Enters function

/-- The tracee that `seize_late_target` sets up for a stopped process. -/
def Daemon.lateTracee (own : Daemon) (exe : String) (stopped : StoppedTarget) : Tracee :=
  let thumb := decide (stopped.arch = .arm32 ∧ stopped.pc % 2 ≠ 0)
  { Tracee.new .late stopped.arch with
    exe := exe
    loader := loaderPath own stopped.is64
    entry := if thumb then stopped.pc - 1 else stopped.pc
    thumb := thumb }

/-- A late injection that has been started, from the process that was stopped to the tracee that
the daemon keeps. In between the breakpoint has been set. -/
structure LateInjection (pid : Pid) (exe : String) (stopped : StoppedTarget)
    (own : Daemon) (before : Process) where
  armed : Tracee
  trapped : Process
  sets : (setEntryBreakpoint pid (own.lateTracee exe stopped)
    (own.lateTracee exe stopped).thumb).Runs Process.machine before (some armed) trapped
  owned : Tracee
  later : Daemon
  after : Process
  begins : StateProg.Runs Process.machine (Daemon.trapAtLate pid { armed with state := .late })
    own trapped (.tracing owned) later after

/-- The breakpoint and the return address are those of one instruction set. -/
structure LateInjection.Follows {pid : Pid} {exe : String} {stopped : StoppedTarget}
    {own : Daemon} {before : Process} (late : LateInjection pid exe stopped own before)
    (thumb : Bool) : Prop where
  encoding : load late.trapped.mem late.owned.entry (Arch.arm32.breakpoint thumb).length =
    Arch.arm32.breakpoint thumb
  size : late.owned.breakpointSize = (Arch.arm32.breakpoint thumb).length
  returns : late.owned.returnAddress % 2 = thumb.toNat

end State

/-- A Thumb function is entered with bit 0 in the program counter, in ARM state. -/
theorem thumb_function_entered_as_arm :
    ¬@Interworks .eight 100 (Regs.new .arm32) 4113 4112 [] := by
  intro enters
  have entered := enters _ rfl
  have pc := @Regs.Enters.pc .eight _ _ entered
  exact absurd pc (by decide +kernel)

section Entering

variable [Usize] {pid : Pid} {regs : Regs} {function returnTo : Nat}

theorem word_lt_count (value : Nat) : value % 2 ^ 32 < count := by
  have small : value % 2 ^ 32 < 2 ^ 32 := Nat.mod_lt _ (by decide)
  rcases bytes_eq with four | eight
  · rw [count, four]
    omega
  · rw [count, eight]
    omega

theorem arch_setArgument {index value : Nat} {next : Regs}
    (set : regs.setArgument index value = some next) : next.arch = regs.arch :=
  (Regs.sp_setArgument set).1

/-- The arguments go into the first registers. -/
theorem cpsr_setArgument {index value : Nat} {next : Regs} (arm : regs.arch = .arm32)
    (set : regs.setArgument index value = some next) : next.read CPSR = regs.read CPSR := by
  rcases Option.map_eq_some_iff.mp set with ⟨argument, found, rfl⟩
  rcases Option.bind_eq_some_iff.mp found with ⟨layout, known, present⟩
  rw [arm] at known
  cases known
  have apart : ∀ offset ∈ ARM32.argRegisters, offset + ARM32.word ≤ CPSR := by decide
  have before := apart argument (List.mem_of_getElem? present)
  have inside : argument + ARM32.word ≤ REGS_CAPACITY := Nat.le_trans before (by decide)
  exact Regs.read_write_of_apart (by rw [arm]; rfl) inside (.inr before)

theorem cpsr_setArguments (args : List Nat) (index : Nat) {regs : Regs} (arm : regs.arch = .arm32) :
    (setArguments regs index args).arch = .arm32 ∧
      (setArguments regs index args).read CPSR = regs.read CPSR := by
  induction args generalizing index regs with
  | nil => exact ⟨arm, rfl⟩
  | cons argument rest ih =>
      rw [setArguments]
      split
      case h_1 next set =>
        have nextArm : next.arch = .arm32 := (arch_setArgument set).trans arm
        rcases ih (index + 1) nextArm with ⟨keepsArch, same⟩
        exact ⟨keepsArch, same.trans (cpsr_setArgument arm set)⟩
      case h_2 => exact ⟨arm, rfl⟩

/-- The call that is set up has the address of the function in the program counter, bit 0
included, and the status register of the registers it was made from. -/
theorem setupCall_arm32 (pid : Pid) (function returnTo : Nat) (arm : regs.arch = .arm32)
    (args : List Nat) :
    ∃ next, setupCall pid regs function returnTo args = Prog.pure (some next) ∧
      next.pc = function % 2 ^ 32 ∧ next.thumbState = regs.thumbState := by
  rcases cpsr_setArguments args 0 arm with ⟨argued, keeps⟩
  have linked : (setArguments regs 0 args).setLink returnTo =
      (setArguments regs 0 args).write (14 * 4) returnTo := by
    rw [Regs.setLink, argued]
    rfl
  have known : ((setArguments regs 0 args).write (14 * 4) returnTo).arch.layout = some ARM32 := by
    rw [Regs.write_arch, argued]
    rfl
  refine ⟨(((setArguments regs 0 args).setLink returnTo).setPc function), ?_, ?_, ?_⟩
  · rw [setupCall, arm]
    rfl
  · rw [linked, Regs.setPc_eq known, Regs.pc_eq (by rwa [Regs.write_arch])]
    exact Regs.read_write known (by decide) (word_lt_count function)
  · have untouched : (((setArguments regs 0 args).setLink returnTo).setPc function).read CPSR =
        regs.read CPSR := by
      rw [linked, Regs.setPc_eq known, Regs.read_write_of_apart known (by decide) (by decide),
        Regs.read_write_of_apart (by rw [argued]; rfl) (by decide) (by decide), keeps]
    rw [Regs.thumbState, Regs.thumbState, untouched]

theorem interworks_arm32 (arm : regs.arch = .arm32) (args : List Nat) :
    Interworks pid regs function returnTo args ↔
      function % 2 = 0 ∧ regs.thumbState = false := by
  rcases setupCall_arm32 pid function returnTo arm args with ⟨next, set, pc, state⟩
  rw [Interworks, set]
  constructor
  · intro enters
    have entered := enters next rfl
    have even : function % 2 = 0 := by
      have address := entered.pc
      omega
    refine ⟨even, ?_⟩
    rw [← state, entered.state, even]
    rfl
  · rintro ⟨even, arm⟩ _ ⟨⟩
    refine ⟨?_, ?_⟩
    · rw [pc, even]
      rfl
    · rw [state, arm, even]
      rfl

end Entering

section Late

variable [Usize] {pid : Pid} {exe : String} {stopped : StoppedTarget}
  {own : Daemon} {before : Process}

/-- What is known of a tracee whose breakpoint has been set. -/
structure ArmedWith (tracee : Tracee) (instruction : List UInt8) (before : Process)
    (armed : Tracee) (after : Process) : Prop where
  arch : armed.arch = tracee.arch
  entry : armed.entry = tracee.entry
  size : armed.breakpointSize = instruction.length
  code : load after.mem tracee.entry instruction.length = instruction
  regs : after.regs = before.regs

theorem wp_setEntryBreakpoint_armed {tracee : Tracee} (thumb : Bool) :
    (setEntryBreakpoint pid tracee thumb).wp Process.machine (fun result after =>
      ∀ armed, result = some armed →
        ArmedWith tracee (tracee.arch.breakpoint thumb) before armed after) before := by
  have short : (tracee.arch.breakpoint thumb).length ≤ INSTRUCTION_CAPACITY := by
    cases tracee.arch <;> cases thumb <;> decide
  have fits : (tracee.arch.breakpoint thumb).length + Usize.bytes ≤ count :=
    small_count (Nat.le_trans short (by decide))
  unfold setEntryBreakpoint
  dsimp only
  split
  · rintro armed ⟨⟩
  rw [Prog.bind_eq, Prog.wp_bind]
  apply Prog.wp_mono (wp_readMemory _)
  rintro original _ ⟨rfl, _⟩
  cases original with
  | none => rintro armed ⟨⟩
  | some original =>
      dsimp only
      rw [Prog.bind_eq, Prog.wp_bind]
      apply Prog.wp_mono (wp_writeMemory fits)
      rintro ok last ⟨upto, written, complete⟩
      cases ok with
      | false => rintro armed ⟨⟩
      | true =>
          rintro armed ⟨⟩
          exact ⟨rfl, rfl, rfl, written.load_whole (by omega) (complete.mp rfl), written.regs⟩

theorem wp_startLoader_target (tracee : Tracee) (regs : Regs) (own : Daemon) (process : Process) :
    StateProg.wp Process.machine (Daemon.startLoader pid tracee regs)
      (fun progress _ _ => ∀ next, progress = .tracing next → tracee.SameTarget next)
      own process := by
  unfold Daemon.startLoader
  rw [StateProg.wp_bind, StateProg.wp_lift]
  apply Prog.wp_mono (returns_startFile tracee .loader regs).wp
  rintro ⟨started, next⟩ after target
  cases started with
  | false =>
      dsimp only
      rw [Bool.not_false, if_pos rfl, StateProg.wp_bind]
      apply StateProg.wp_of_forall
      rintro _ _ _ owned ⟨⟩
  | true =>
      dsimp only
      rw [if_neg (by decide), StateProg.wp_bind, StateProg.wp_lift]
      intro answer resumed _
      rintro owned ⟨⟩
      exact target.same

theorem wp_trapAtLate_target {tracee : Tracee} (arm : tracee.arch = .arm32) {process : Process}
    (even : (process.registers .arm32).pc % 2 = 0) (own : Daemon) :
    StateProg.wp Process.machine (Daemon.trapAtLate pid tracee)
      (fun progress _ _ => ∀ next, progress = .tracing next →
        next.arch = .arm32 ∧ next.thumb = false ∧ next.breakpointSize = tracee.breakpointSize ∧
          next.entry = (process.registers .arm32).pc) own process := by
  unfold Daemon.trapAtLate
  rw [StateProg.wp_bind, StateProg.wp_lift]
  apply Process.wp_readRegisters
  · rw [StateProg.wp_bind]
    apply StateProg.wp_of_forall
    intro _ _ _
    rw [StateProg.wp_bind]
    apply StateProg.wp_of_forall
    rintro _ _ _ next ⟨⟩
  · rw [arm]
    apply StateProg.wp_mono (wp_startLoader_target _ _ own process)
    intro progress _ _ target next isNext
    have same := target next isNext
    have notThumb : decide (Arch.arm32 = .arm32 ∧ (process.registers .arm32).pc % 2 ≠ 0) = false := by
      simp [even]
    refine ⟨same.arch, same.thumb.trans notThumb, same.breakpointSize, same.entry.trans ?_⟩
    exact if_neg (Bool.not_eq_true _ ▸ notThumb)

/-- With bit 0 of the program counter clear a late injection is one into ARM code. -/
theorem LateInjection.follows_arm (late : LateInjection pid exe stopped own before)
    (arm : stopped.arch = .arm32) (stands : stopped.pc = (before.registers .arm32).pc)
    (even : stopped.pc % 2 = 0) : late.Follows false := by
  have notThumb : decide (stopped.arch = .arm32 ∧ stopped.pc % 2 ≠ 0) = false := by
    simp [even]
  have armed := late.sets.of_wp (wp_setEntryBreakpoint_armed _) late.armed rfl
  have isArm : late.armed.arch = .arm32 := armed.arch.trans arm
  have sameRegs : late.trapped.registers .arm32 = before.registers .arm32 := by
    rw [Process.registers, armed.regs, Process.registers]
  have lateArm : ({ late.armed with state := .late } : Tracee).arch = .arm32 := isArm
  have trappedEven : (late.trapped.registers .arm32).pc % 2 = 0 := by
    rw [sameRegs, ← stands, even]
  have owned := late.begins.of_wp (wp_trapAtLate_target lateArm trappedEven own) late.owned rfl
  rcases owned with ⟨ownedArch, ownedThumb, ownedSize, ownedEntry⟩
  have entry : late.owned.entry = stopped.pc := by
    rw [ownedEntry, sameRegs, stands]
  have isEntry : (own.lateTracee exe stopped).entry = stopped.pc := by
    rw [Daemon.lateTracee]
    dsimp only
    rw [notThumb]
    rfl
  have instruction : (own.lateTracee exe stopped).arch.breakpoint
      (own.lateTracee exe stopped).thumb = Arch.arm32.breakpoint false := by
    change stopped.arch.breakpoint (decide (stopped.arch = .arm32 ∧ stopped.pc % 2 ≠ 0)) = _
    rw [notThumb, arm]
  refine ⟨?_, ?_, ?_⟩
  · rw [entry, ← isEntry, ← instruction]
    exact armed.code
  · rw [ownedSize, ← instruction]
    exact armed.size
  · rw [Tracee.returnAddress, ownedThumb, if_neg (by simp), entry, even]
    rfl

/-- The two breakpoints have different lengths. -/
theorem LateInjection.Follows.unique {late : LateInjection pid exe stopped own before}
    {thumb other : Bool} (left : late.Follows thumb) (right : late.Follows other) :
    thumb = other := by
  have lengths := left.size.symm.trans right.size
  cases thumb <;> cases other <;> first | rfl | exact absurd lengths (by decide)

/-- Every run that seizes a target past its entry is such an injection. -/
theorem injectLate_started [Config.Build] {later : Daemon} {after : Process}
    (run : StateProg.Runs Process.machine (Daemon.injectLate pid exe stopped) own before .seized
      later after) :
    ∃ late : LateInjection pid exe stopped own before,
      later.tracees.lookup pid = some late.owned := by
  have started : StateProg.wp Process.machine (Daemon.injectLate pid exe stopped)
      (fun seizure later _ => seizure = .seized →
        ∃ late : LateInjection pid exe stopped own before,
          later.tracees.lookup pid = some late.owned) own before := by
    unfold Daemon.injectLate
    rw [StateProg.wp_bind, StateProg.wp_get]
    dsimp only
    rw [StateProg.wp_bind, StateProg.wp_lift]
    apply (Prog.wp_iff_runs _).mpr
    intro result trapped sets
    cases result with
    | none =>
        dsimp only
        rw [StateProg.wp_bind]
        apply StateProg.wp_of_forall
        rintro _ _ _ ⟨⟩
    | some armed =>
        dsimp only
        unfold Daemon.beginLateInjection
        rw [StateProg.wp_bind, StateProg.wp_bind]
        apply (StateProg.wp_iff_runs _).mpr
        intro progress kept after begins
        cases progress with
        | finished => rintro ⟨⟩
        | tracing owned =>
            dsimp only
            rw [StateProg.wp_bind, StateProg.wp_modify]
            intro _
            exact ⟨⟨armed, trapped, sets, owned, kept, after, begins⟩, AList.lookup_insert _⟩
  exact run.of_wp started rfl

/-- So a run of `seize_late_target` that seizes a target has armed its entry, or has started such
an injection of the process that was stopped. -/
theorem seizeLateTarget_started [Config.Build] {later : Daemon} {after : Process}
    (fresh : before.heard = []) (free : before.phase = .free)
    (run : StateProg.Runs Process.machine (Daemon.seizeLateTarget pid exe) own before .seized
      later after) :
    ∃ stopped middle seizing, Caught pid before stopped middle ∧
      (StateProg.Runs Process.machine (Daemon.armEntryInjection pid exe stopped) seizing middle
          .seized later after ∨
        ∃ late : LateInjection pid exe stopped seizing middle,
          later.tracees.lookup pid = some late.owned) := by
  have started : StateProg.wp Process.machine (Daemon.seizeLateTarget pid exe)
      (fun seizure later after => seizure = .seized →
        ∃ stopped middle seizing, Caught pid before stopped middle ∧
          (StateProg.Runs Process.machine (Daemon.armEntryInjection pid exe stopped) seizing middle
              seizure later after ∨
            ∃ late : LateInjection pid exe stopped seizing middle,
              later.tracees.lookup pid = some late.owned)) own before := by
    unfold Daemon.seizeLateTarget
    rw [StateProg.wp_bind]
    apply StateProg.wp_mono (wp_seizeAndStop own fresh free)
    intro result seizing middle attempt
    cases result with
    | error seizure => exact fun seized => absurd seized attempt.1
    | ok stopped =>
        have caught : Caught pid before stopped middle := attempt
        rw [StateProg.wp_bind, StateProg.wp_lift]
        apply Process.wp_reads (reads_pcInExeText pid exe stopped.pc)
        intro inText
        split
        · apply (StateProg.wp_iff_runs _).mpr
          intro seizure later after arming _
          exact ⟨stopped, middle, seizing, caught, .inl arming⟩
        rw [StateProg.wp_bind, StateProg.wp_lift]
        apply Process.wp_reads (reads_perform (.isSingleThreaded pid) trivial)
        intro singleThreaded
        rw [StateProg.wp_bind, StateProg.wp_lift]
        apply Process.wp_reads (reads_perform (.processAgeMs pid) trivial)
        intro age
        dsimp only
        split
        · rw [StateProg.wp_bind]
          apply StateProg.wp_of_forall
          intro _ _ _
          rw [StateProg.wp_bind]
          apply StateProg.wp_of_forall
          rintro _ _ _ ⟨⟩
        · apply (StateProg.wp_iff_runs _).mpr
          rintro _ later after injecting rfl
          exact ⟨stopped, middle, seizing, caught, .inr (injectLate_started injecting)⟩
  exact run.of_wp started rfl

/-- The process that was stopped is the one whose registers the injection interrupts. -/
theorem Caught.stands {middle : Process} (caught : Caught pid before stopped middle)
    (arm : stopped.arch = .arm32) : stopped.pc = (middle.registers .arm32).pc := by
  rw [caught.pc, arm, Process.registers, caught.still.regs]

/-- A call enters its function if that is ARM code and the process was in ARM state, and in no
other case. A late injection follows the state of the process if that was ARM state. -/
theorem interworks_iff (arm : stopped.arch = .arm32)
    (stands : stopped.pc = (before.registers .arm32).pc) (even : stopped.pc % 2 = 0) :
    (∀ (regs : Regs) (function returnTo : Nat) (args : List Nat), regs.arch = .arm32 →
      (Interworks pid regs function returnTo args ↔
        function % 2 = 0 ∧ regs.thumbState = false)) ∧
      ∀ late : LateInjection pid exe stopped own before,
        late.Follows (before.registers .arm32).thumbState ↔
          (before.registers .arm32).thumbState = false := by
  refine ⟨fun regs function returnTo args isArm => interworks_arm32 isArm args, ?_⟩
  intro late
  have armCode := late.follows_arm arm stands even
  constructor
  · intro follows
    exact follows.unique armCode
  · intro armState
    rw [armState]
    exact armCode

end Late

section Thumb

/-- A process stopped in Thumb code. -/
def inThumbA : Process :=
  { trappedAt .arm32 4112 with
    regs := (((Regs.new .arm32).setPc 4112).bytes.take CPSR) ++ [0x20, 0, 0, 0] ++
      List.replicate 4 0 }

def stoppedInThumbA : StoppedTarget :=
  ⟨.arm32, false, 4112, false, 4112, none⟩

/-- The tracee whose breakpoint has been set, and the process then. -/
def settingA : Option Tracee × Process :=
  Prog.eval (I := Sys) (@Process.scripted .eight (runningA (some [])))
    (@setEntryBreakpoint .eight 100 (({} : Daemon).lateTracee "/a" stoppedInThumbA) false) inThumbA

def armedThumbA : Tracee :=
  settingA.1.getD (Tracee.new .late .arm32)

/-- The late injection into this process. -/
def lateStepA : (Progress × Daemon) × Process :=
  Prog.eval (I := Sys) (@Process.scripted .eight (runningA (some [])))
    ((@Daemon.trapAtLate .eight 100 { armedThumbA with state := .late }).run {}) settingA.2

theorem sets_inThumbA :
    (@setEntryBreakpoint .eight 100 (({} : Daemon).lateTracee "/a" stoppedInThumbA) false).Runs
      (@Process.machine .eight) inThumbA (some armedThumbA) settingA.2 := by
  have sound : ∀ request process, (@Process.machine .eight).Step process request
      (@Process.scripted .eight (runningA (some [])) request process).1
      (@Process.scripted .eight (runningA (some [])) request process).2 :=
    fun request process => ⟨@Process.answers_truthful .eight _ process request, rfl⟩
  have run := Prog.runs_eval (I := Sys) sound
    (@setEntryBreakpoint .eight 100 (({} : Daemon).lateTracee "/a" stoppedInThumbA) false) inThumbA
  have set : settingA.1 = some armedThumbA := by decide +kernel
  rw [← set]
  exact run

theorem begins_inThumbA :
    StateProg.Runs (@Process.machine .eight)
      (@Daemon.trapAtLate .eight 100 { armedThumbA with state := .late }) {} settingA.2
      (.tracing (goesOn lateStepA.1.1 armedThumbA)) lateStepA.1.2 lateStepA.2 := by
  have run := @Process.runs_scripted .eight _ _ (runningA (some []))
    (@Daemon.trapAtLate .eight 100 { armedThumbA with state := .late }) {} settingA.2
  have begun : lateStepA.1.1 = .tracing (goesOn lateStepA.1.1 armedThumbA) := by decide +kernel
  rw [← begun]
  exact run

def inThumbInjection : @LateInjection .eight 100 "/a" stoppedInThumbA {} inThumbA :=
  @LateInjection.mk .eight 100 "/a" stoppedInThumbA {} inThumbA armedThumbA settingA.2 sets_inThumbA
    (goesOn lateStepA.1.1 armedThumbA) lateStepA.1.2 lateStepA.2 begins_inThumbA

/-- A process stopped in Thumb code gets the breakpoint and the return address of ARM code. A
function of ARM code is entered from ARM state. -/
theorem thumb_code_injected_as_arm :
    ¬@LateInjection.Follows .eight _ _ _ _ _ inThumbInjection true ∧
      @Interworks .eight 100 (Regs.new .arm32) 4112 4112 [] := by
  have stands : stoppedInThumbA.pc = @Regs.pc .eight (inThumbA.registers .arm32) := by decide +kernel
  have inThumb : @Regs.thumbState .eight (inThumbA.registers .arm32) = true := by decide +kernel
  have armState : @Regs.thumbState .eight (Regs.new .arm32) = false := by decide +kernel
  rcases @interworks_iff .eight 100 "/a" stoppedInThumbA {} inThumbA rfl stands (by decide) with
    ⟨enters, follows⟩
  constructor
  · have follows := follows inThumbInjection
    rw [inThumb] at follows
    intro isThumb
    exact absurd (follows.mp isThumb) (by decide)
  · exact (enters (Regs.new .arm32) 4112 4112 [] rfl).mpr ⟨by decide, armState⟩

end Thumb

end Znn.Injector
