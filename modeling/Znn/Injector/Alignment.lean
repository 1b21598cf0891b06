import Znn.Injector.SetupCall
import Znn.Injector.Helpers
import Znn.Interaction.Reach

/-!
# The stack of a call

The injector aligns the stack to sixteen bytes before most of its calls, and some of them push
words afterwards. Only `dlerror` is called on the stack that the call before it has left. What a
step does to the stack pointer is found once for all architectures, and compared with what each of
them asks for.
-/

namespace Znn.Injector

open Interaction Trace PtraceOps Bytes Usize

/-- The stack pointer that the convention of the target has at the first instruction of a
function. -/
def EntryAligned (arch : Arch) (sp : Nat) : Prop :=
  match arch with
  | .arm64 | .riscv64 => sp % 16 = 0
  | .arm32 => sp % 8 = 0
  | .x86_64 => (sp + 8) % 16 = 0
  | .x86 => (sp + 4) % 16 = 0
  | .unknown => True

/-- The stack pointer of a register set. -/
def targetSp (arch : Arch) (registers : List UInt8) : Nat :=
  arch.layout.elim 0 fun layout =>
    ((Regs.new arch).fill registers).contents layout.word layout.sp

/-- How many arguments the call has that a tracee in the state waits for. -/
def State.arguments : State → Option Nat
  | .file => some 3
  | .dlopen => some 4
  | .dlsym => some 2
  | .dlerror => some 0
  | .init => some 1
  | .traced | .entry | .late => none

/-- What a function takes from the stack when it returns: the return address, where that is on
it. The arguments stay. -/
def poppedBytes (arch : Arch) : Nat :=
  arch.layout.elim 0 fun layout => if layout.link.isSome then 0 else layout.word

section Stacks

variable [Usize]

/-- What `setup_call` pushes for a number of arguments. -/
def pushedSize (arch : Arch) (arguments : Nat) : Nat :=
  match arch with
  | .x86 => 4 * (arguments + 1)
  | .x86_64 => Usize.bytes
  | _ => 0

/-- The stack pointer of a call that is set up from some registers. -/
def loweredSp (regs : Regs) (arguments : Nat) : Nat :=
  regs.arch.layout.elim 0 fun layout =>
    if layout.link.isSome then regs.contents layout.word layout.sp
    else wrappingSub regs.sp (pushedSize regs.arch arguments) % 256 ^ layout.word

/-- The registers enter a call on a stack that has been aligned before it was set up, or, for
`dlerror`, on the one that was found. -/
def Enters (waiting : State) (arch : Arch) (found : List UInt8) (state : State)
    (registers : List UInt8) : Prop :=
  ∃ regs arguments, arch ≠ .unknown ∧ regs.arch = arch ∧ state.arguments = some arguments ∧
    targetSp arch registers = loweredSp regs arguments ∧
      (waiting = .dlopen ∧ state = .dlerror ∧ regs = (Regs.new arch).fill found ∨
        state ≠ .dlerror ∧ ∃ other address, regs = Regs.setSp other (alignStack address) ∧
          address < count)

variable {regs : Regs} {layout : Layout} {function returnTo : Nat} {args : List Nat}

theorem length_pushed (arch : Arch) (returnTo : Nat) (args : List Nat) :
    (pushed arch returnTo args).length = pushedSize arch args.length := by
  cases arch with
  | x86 =>
      rw [pushed, List.length_append, length_little, length_flatMap_little, pushedSize]
      ring
  | x86_64 => exact length_little _ _
  | _ => rfl

omit [Usize] in
/-- What the kernel was given is what the registers held. -/
theorem targetSp_bytes (known : regs.arch.layout = some layout) :
    targetSp regs.arch regs.bytes = regs.contents layout.word layout.sp := by
  have le := regs.arch.registerSize_le
  have full := regs.length_buffer
  have inside : layout.sp + layout.word ≤ regs.arch.registerSize := by
    cases arch : regs.arch <;> rw [arch] at known <;> cases known <;> decide
  rw [targetSp, known]
  change littleValue _ = littleValue _
  congr 1
  apply List.ext_getElem?
  intro index
  rw [List.getElem?_take, List.getElem?_take]
  split
  · rw [List.getElem?_drop, List.getElem?_drop, Regs.fill, Regs.bytes]
    change (((regs.buffer.take regs.arch.registerSize).take regs.arch.registerSize) ++ _)[layout.sp
      + index]? = _
    rw [List.take_take, Nat.min_self, List.getElem?_append_left (by simp; omega),
      List.getElem?_take_of_lt (by omega)]
  · rfl

/-- The stack pointer with which the function begins. -/
theorem targetSp_entering (known : regs.arch.layout = some layout) :
    targetSp regs.arch (regs.writes (entering regs layout function returnTo args)).bytes =
      loweredSp regs args.length := by
  have sameArch : (regs.writes (entering regs layout function returnTo args)).arch = regs.arch :=
    Regs.writes_arch _ _
  have sp := targetSp_bytes (by rwa [sameArch])
  rw [sameArch] at sp
  rw [sp, loweredSp, known]
  dsimp only [Option.elim]
  cases isLink : layout.link with
  | none =>
      rw [if_neg (by decide), ← length_pushed regs.arch returnTo args]
      apply contents_entering_mod known
      simp [entering, isLink]
  | some link =>
      rw [if_pos (by rfl)]
      apply Regs.contents_writes_of_apart known (fits_entering known)
      intro value present
      apply (layout_entered known).2.2 (by rw [isLink]; rfl)
      apply (entered_sublist layout args.length).subset
      rw [← map_fst_entering regs layout function returnTo]
      exact List.mem_map_of_mem present

end Stacks

/-- Calls that leave registers alone. -/
def Call.leavesRegs : Call → Prop
  | .setRegset _ _ => False
  | _ => True

/-- The registers of the process have been left alone since. -/
structure Unset (before after : Process) : Prop where
  regs : after.regs = before.regs
  heard : ∃ new, after.heard = before.heard ++ new ∧
    ∀ pid registers, (⟨.setRegset pid registers, true⟩ : Exchange Sys) ∉ new

namespace Unset

variable [Usize] {α : Type} {first second third : Process}

omit [Usize] in
theorem refl (process : Process) : Unset process process :=
  ⟨rfl, [], (List.append_nil _).symm, fun _ _ => List.not_mem_nil⟩

omit [Usize] in
theorem trans (early : Unset first second) (late : Unset second third) : Unset first third := by
  rcases early.heard with ⟨new, heard, unset⟩
  rcases late.heard with ⟨newer, heardLater, unsetLater⟩
  refine ⟨late.regs.trans early.regs, new ++ newer, ?_, ?_⟩
  · rw [heardLater, heard, List.append_assoc]
  · intro pid registers present
    rcases List.mem_append.mp present with inNew | inNewer
    · exact unset pid registers inNew
    · exact unsetLater pid registers inNewer

theorem of_step {request : Call} {answer : request.Answer} (leaves : request.leavesRegs)
    (step : Process.machine.Step first request answer second) : Unset first second := by
  rw [step.2]
  refine ⟨?_, kept request answer, rfl, ?_⟩
  · cases request with
    | setRegset pid registers => exact leaves.elim
    | pokeData pid address word => cases answer <;> rfl
    | detach pid signal => cases answer <;> rfl
    | seize pid options => cases answer <;> rfl
    | waitpid pid => cases answer <;> rfl
    | _ => rfl
  · intro pid registers present
    cases request with
    | setRegset pid registers => exact leaves.elim
    | _ => simp [kept] at present

theorem wp {program : Prog Sys α} (leaves : Only Call.leavesRegs program) (process : Process) :
    program.wp Process.machine (fun _ after => Unset process after) process := by
  apply Prog.All.wp_frame Unset _ refl trans
  apply leaves.mono
  intro request isLeft before answer after step
  exact of_step isLeft step

theorem wp_state {program : DaemonM α} (leaves : StateProg.All Call.leavesRegs program)
    (own : Daemon) (process : Process) :
    StateProg.wp Process.machine program (fun _ _ after => Unset process after) own process :=
  wp (leaves own) process

end Unset

theorem Call.leavesRegs_of_reads (request : Call) (isRead : request.reads) :
    request.leavesRegs := by
  cases request <;> first | exact isRead.elim | trivial

theorem Call.leavesRegs_of_accesses {pid : Pid} (request : Call) (isAccess : request.accesses pid) :
    request.leavesRegs := by
  cases request <;> first | exact isAccess.elim | trivial

theorem leavesRegs_note (mark : Note) : Only Call.leavesRegs (note mark) :=
  ⟨trivial, fun _ => trivial⟩

section Steps

variable [Usize] {pid : Pid} {waiting : State} {arch : Arch} {origin : Process}

/-- A call has been set up in the process that the step has found. -/
structure CalledIn (waiting : State) (arch : Arch) (origin : Process) (state : State)
    (process : Process) : Prop where
  enters : Enters waiting arch origin.regs state process.regs
  heard : ∃ new, process.heard = origin.heard ++ new ∧
    ∀ pid registers, (⟨.setRegset pid registers, true⟩ : Exchange Sys) ∈ new →
      registers = process.regs

/-- A step that goes on has set up the call that the state of the tracee waits for. Only the call
of `dlerror` may have been refused. -/
def StepCalls (waiting : State) (arch : Arch) (origin : Process) (progress : Progress)
    (after : Process) : Prop :=
  ∀ next, progress = .tracing next → next.arch = arch ∧
    (CalledIn waiting arch origin next.state after ∨ Unset origin after ∧ next.state ≠ .dlopen)

/-- A program that does so from where the registers are as the step has found them. -/
def MakesCall (waiting : State) (arch : Arch) (origin : Process) (program : DaemonM Progress) :
    Prop :=
  ∀ own process, Unset origin process →
    StateProg.wp Process.machine program
      (fun progress _ after => StepCalls waiting arch origin progress after) own process

/-- A program that ends with the tracee given up. -/
def Quits (program : DaemonM Progress) : Prop :=
  ∀ own process, StateProg.wp Process.machine program (fun progress _ _ => progress = .finished)
    own process

namespace Quits

variable {α : Type}

theorem finished : Quits (pure .finished) :=
  fun _ _ => rfl

theorem bind (program : DaemonM α) {rest : α → DaemonM Progress}
    (quits : ∀ value, Quits (rest value)) : Quits (program >>= rest) := by
  intro own process
  rw [StateProg.wp_bind]
  apply StateProg.wp_of_forall
  intro value own' middle
  exact quits value own' middle

theorem undo (pid : Pid) (tracee : Tracee) : Quits (do
    Daemon.undo pid tracee
    return .finished) :=
  bind _ fun _ => finished

theorem abort (pid : Pid) (tracee : Tracee) (reason : String) :
    Quits (Daemon.abort pid tracee reason) :=
  bind _ fun _ => finished

theorem recorded (pid : Pid) (tracee : Tracee) (record : DaemonM Unit) : Quits (do
    record
    Daemon.undo pid tracee
    return .finished) :=
  bind _ fun _ => undo pid tracee

theorem letGo (pid : Pid) (tracee : Tracee) : Quits (do
    restoreEntry pid tracee
    Ptrace.detach pid none
    return .finished) :=
  bind _ fun _ => bind _ fun _ => finished

theorem wp {program : DaemonM Progress} (quits : Quits program) (own : Daemon) (process : Process) :
    StateProg.wp Process.machine program
      (fun progress _ after => StepCalls waiting arch origin progress after) own process := by
  apply StateProg.wp_mono (quits own process)
  rintro progress own' after rfl next going
  cases going

end Quits

namespace MakesCall

variable {α : Type}

theorem ends {program : DaemonM Progress} (quits : Quits program) :
    MakesCall waiting arch origin program :=
  fun own process _ => quits.wp own process

theorem bind_all {program : DaemonM α} {rest : α → DaemonM Progress}
    (leaves : StateProg.All Call.leavesRegs program)
    (next : ∀ value, MakesCall waiting arch origin (rest value)) :
    MakesCall waiting arch origin (program >>= rest) := by
  intro own process unset
  rw [StateProg.wp_bind]
  apply StateProg.wp_mono (Unset.wp_state leaves own process)
  intro value own' middle left
  exact next value own' middle (unset.trans left)

theorem bind_reads {program : Prog Sys α} {rest : α → DaemonM Progress}
    (reads : Only Call.reads program)
    (next : ∀ value, MakesCall waiting arch origin (rest value)) :
    MakesCall waiting arch origin (liftM program >>= rest) :=
  bind_all (.lift (reads.mono Call.leavesRegs_of_reads)) next

theorem bind_accesses {program : Prog Sys α} {rest : α → DaemonM Progress}
    (accesses : Only (Call.accesses pid) program)
    (next : ∀ value, MakesCall waiting arch origin (rest value)) :
    MakesCall waiting arch origin (liftM program >>= rest) :=
  bind_all (.lift (accesses.mono Call.leavesRegs_of_accesses)) next

/-- The registers are read as the step has found them. -/
theorem bind_registers {rest : Option Regs → DaemonM Progress}
    (unread : MakesCall waiting arch origin (rest none))
    (read : MakesCall waiting arch origin (rest (some ((Regs.new arch).fill origin.regs)))) :
    MakesCall waiting arch origin (liftM (readRegisters pid arch) >>= rest) := by
  intro own before unset
  rw [StateProg.wp_bind, StateProg.wp_lift]
  apply Process.wp_readRegisters
  · exact unread own before unset
  · rw [unset.regs]
    exact read own before unset

/-- The target runs on in the call. -/
theorem resume {next : Tracee} (isArch : next.arch = arch) {process : Process}
    (called : CalledIn waiting arch origin next.state process ∨
      Unset origin process ∧ next.state ≠ .dlopen)
    (own : Daemon) :
    StateProg.wp Process.machine (do
        Ptrace.cont pid none
        return Progress.tracing next)
      (fun progress _ after => StepCalls waiting arch origin progress after) own process := by
  rw [StateProg.wp_bind, StateProg.wp_lift]
  rintro answer after step
  have leaves : Call.leavesRegs (.cont pid none) := trivial
  have left : Unset process after := Unset.of_step leaves step
  rintro next ⟨⟩
  refine ⟨isArch, ?_⟩
  rcases called with ⟨enters, new, heard, each⟩ | ⟨unset, other⟩
  · left
    rcases left.heard with ⟨newer, heardLater, none⟩
    refine ⟨by rwa [left.regs], new ++ newer, ?_, ?_⟩
    · rw [heardLater, heard, List.append_assoc]
    · intro pid registers present
      rw [left.regs]
      rcases List.mem_append.mp present with inNew | inNewer
      · exact each pid registers inNew
      · exact absurd inNewer (none pid registers)
  · exact .inr ⟨unset.trans left, other⟩

end MakesCall

/-- Registers that are written enter the call they were set up for, or are as they were. -/
theorem wp_writeRegisters_calls {state : State} {entered : Regs} {process : Process}
    (unset : Unset origin process) (enters : Enters waiting arch origin.regs state entered.bytes) :
    (writeRegisters pid entered).wp Process.machine (fun written after =>
      if written then CalledIn waiting arch origin state after else Unset origin after) process := by
  rintro written after ⟨_, isAfter⟩
  rw [isAfter]
  rcases unset.heard with ⟨new, heard, none⟩
  cases written with
  | true =>
      refine ⟨enters, new ++ [⟨.setRegset pid entered.bytes, true⟩], ?_, ?_⟩
      · change process.heard ++ _ = _
        rw [heard, List.append_assoc]
        rfl
      · intro pid registers present
        rcases List.mem_append.mp present with inNew | last
        · exact absurd inNew (none pid registers)
        · cases List.mem_singleton.mp last
          rfl
  | false =>
      refine ⟨unset.regs, new ++ [⟨.setRegset pid entered.bytes, false⟩], ?_, ?_⟩
      · change process.heard ++ _ = _
        rw [heard, List.append_assoc]
        rfl
      · intro pid registers present
        rcases List.mem_append.mp present with inNew | last
        · exact none pid registers inNew
        · cases List.mem_singleton.mp last

/-- A call that can be set up is entered on the stack of the registers it is made from. -/
theorem wp_setupCall_enters (state : State) {regs : Regs} {args : List Nat} {process : Process}
    (function returnTo : Nat) (unset : Unset origin process) (isArch : regs.arch = arch)
    (isCall : state.arguments = some args.length) (few : args.length ≤ 16)
    (stack : waiting = .dlopen ∧ state = .dlerror ∧ regs = (Regs.new arch).fill origin.regs ∨
      state ≠ .dlerror ∧ ∃ other address, regs = Regs.setSp other (alignStack address) ∧
        address < count) :
    (setupCall pid regs function returnTo args).wp Process.machine (fun result after =>
      Unset origin after ∧ ∀ entered, result = some entered →
        Enters waiting arch origin.regs state entered.bytes) process := by
  have left : (setupCall pid regs function returnTo args).wp Process.machine
      (fun _ after => Unset process after) process :=
    Unset.wp ((accesses_setupCall pid _ _ _ _).mono Call.leavesRegs_of_accesses) process
  cases known : regs.arch.layout with
  | none =>
      have unknown : regs.arch = .unknown := by
        cases arch : regs.arch <;> rw [arch] at known <;> first | rfl | cases known
      unfold setupCall
      rw [unknown]
      exact ⟨unset, by rintro entered ⟨⟩⟩
  | some layout =>
      apply Prog.wp_mono (Prog.wp_and left (wp_setupCall known few))
      rintro result after ⟨still, enters⟩
      refine ⟨unset.trans still, ?_⟩
      intro entered isEntered
      rw [(enters entered isEntered).1]
      refine ⟨regs, args.length, ?_, isArch, isCall, ?_, stack⟩
      · rintro rfl
        rw [isArch] at known
        cases known
      · rw [← isArch]
        exact targetSp_entering known

/-- What `start_file` leaves where it has started a call. -/
def StartsFile (waiting : State) (arch : Arch) (origin : Process) (result : Bool × Tracee)
    (after : Process) : Prop :=
  result.1 = true → result.2.arch = arch ∧ result.2.state = .file ∧
    CalledIn waiting arch origin .file after

theorem wp_startMemfd_calls {tracee : Tracee} {process : Process} {regs : Regs}
    (unset : Unset origin process) (isArch : tracee.arch = arch) (regsArch : regs.arch = arch) :
    (startMemfd pid tracee regs).wp Process.machine (StartsFile waiting arch origin) process := by
  unfold startMemfd
  rw [Prog.bind_eq, Prog.wp_bind]
  apply Process.wp_reads (reads_resolveSymbol pid _ _)
  intro function
  cases function with
  | none => exact nofun
  | some function =>
      dsimp only
      unfold pushBytes
      rw [Prog.bind_eq, Prog.bind_eq, Prog.wp_bind, Prog.wp_bind]
      apply Prog.wp_mono (Unset.wp ((accesses_writeMemory pid _ _).mono
        Call.leavesRegs_of_accesses) process)
      intro pushed middle left
      cases pushed with
      | false => exact nofun
      | true =>
          simp only [Bool.not_true, Bool.false_eq_true, if_false]
          rw [Prog.pure_eq, Prog.wp_pure]
          dsimp only
          unfold armCall
          rw [Prog.bind_eq, Prog.wp_bind]
          apply Prog.wp_mono (wp_setupCall_enters .file _ _ (unset.trans left)
            ((Regs.setSp_arch _ _).trans regsArch) rfl (by simp) (.inr ⟨nofun, _, _, rfl,
              wrappingSub_lt _ _⟩))
          rintro entered after ⟨still, enters⟩
          cases entered with
          | none => exact nofun
          | some entered =>
              dsimp only
              rw [Prog.bind_eq, Prog.wp_bind]
              apply Prog.wp_mono (wp_writeRegisters_calls still (enters entered rfl))
              intro written last isCalled
              rintro rfl
              exact ⟨isArch, rfl, isCalled⟩

theorem wp_startFile_calls {tracee : Tracee} {process : Process} {regs : Regs}
    (purpose : FilePurpose) (unset : Unset origin process) (isArch : tracee.arch = arch)
    (regsArch : regs.arch = arch) :
    (startFile pid tracee purpose regs).wp Process.machine (StartsFile waiting arch origin) process := by
  unfold startFile
  split
  · rw [Prog.bind_eq, Prog.wp_bind]
    apply Process.wp_reads (reads_readFile _)
    intro content
    cases content with
    | none => exact nofun
    | some content => exact wp_startMemfd_calls unset isArch regsArch
  · exact wp_startMemfd_calls unset isArch regsArch

namespace MakesCall

variable {tracee : Tracee} {regs : Regs}

theorem abort (tracee : Tracee) (reason : String) :
    MakesCall waiting arch origin (Daemon.abort pid tracee reason) :=
  ends (.abort pid tracee reason)

theorem undo (tracee : Tracee) : MakesCall waiting arch origin (do
    Daemon.undo pid tracee
    return .finished) :=
  ends (.undo pid tracee)

theorem bind_note {mark : Note} {rest : Unit → DaemonM Progress}
    (next : ∀ value, MakesCall waiting arch origin (rest value)) :
    MakesCall waiting arch origin ((liftM (note mark) : DaemonM Unit) >>= rest) :=
  bind_all (.lift (leavesRegs_note mark)) next

/-- A call on a stack that has been aligned. -/
theorem setupCall (state : State) {other : Regs} {address : Nat} {function returnTo : Nat}
    {args : List Nat} {rest : Option Regs → DaemonM Progress} (otherArch : other.arch = arch)
    (isCall : state.arguments = some args.length) (few : args.length ≤ 16)
    (notError : state ≠ .dlerror) (small : address < count)
    (refused : MakesCall waiting arch origin (rest none))
    (entered : ∀ entered, Enters waiting arch origin.regs state entered.bytes →
      MakesCall waiting arch origin (rest (some entered))) :
    MakesCall waiting arch origin (liftM (PtraceOps.setupCall pid
      (other.setSp (alignStack address)) function returnTo args) >>= rest) := by
  intro own before unset
  rw [StateProg.wp_bind, StateProg.wp_lift]
  apply Prog.wp_mono (wp_setupCall_enters state function returnTo unset
    ((Regs.setSp_arch _ _).trans otherArch) isCall few (.inr ⟨notError, _, _, rfl, small⟩))
  rintro result after ⟨still, enters⟩
  cases result with
  | none => exact refused own after still
  | some next => exact entered next (enters next rfl) own after still

/-- The registers of a call are written, and the target runs on in it. -/
theorem enter {state : State} {entered : Regs} {failed : DaemonM Progress} {next : Tracee}
    (enters : Enters waiting arch origin.regs state entered.bytes) (isArch : next.arch = arch)
    (isState : next.state = state) (refused : MakesCall waiting arch origin failed) :
    MakesCall waiting arch origin (do
      if !(← writeRegisters pid entered) then
        return ← failed
      Ptrace.cont pid none
      return .tracing next) := by
  intro own before unset
  rw [StateProg.wp_bind, StateProg.wp_lift]
  apply Prog.wp_mono (wp_writeRegisters_calls unset enters)
  intro written after isCalled
  cases written with
  | true => exact resume isArch (.inl (isState ▸ isCalled)) own
  | false =>
      simp only [Bool.not_false, if_true]
      exact refused own after isCalled

theorem startDlopen (isArch : tracee.arch = arch) (regsArch : regs.arch = arch) (fd : Int32) :
    MakesCall waiting arch origin (Daemon.startDlopen pid tracee regs fd) := by
  unfold Daemon.startDlopen
  apply bind_reads (reads_resolveFirst pid _)
  intro address
  cases address with
  | none => exact abort tracee _
  | some address =>
      apply bind_accesses (accesses_writeMemory pid _ _)
      intro named
      split
      · exact abort _ _
      apply bind_accesses (accesses_writeMemory pid _ _)
      intro described
      split
      · exact abort _ _
      apply setupCall .dlopen regsArch rfl (by simp) nofun (wrappingSub_lt _ _) (abort tracee _)
      intro entered enters
      exact enter enters isArch rfl (abort tracee _)

theorem finishInjection [Config.Build] (isArch : tracee.arch = arch) :
    MakesCall waiting arch origin (Daemon.finishInjection pid tracee) := by
  subst isArch
  unfold Daemon.finishInjection
  apply bind_reads reads_effective
  intro config
  apply bind_reads (reads_perform .freshToken trivial)
  intro token
  dsimp only
  split
  case h_2 => exact abort tracee _
  case h_1 bytes _ =>
    apply bind_registers (abort tracee _)
    apply bind_accesses (accesses_writeMemory pid _ _)
    intro planned
    split
    · exact abort _ _
    apply bind_all
    · apply StateProg.All.forM
      intro module
      exact .lift ⟨trivial, fun _ => trivial⟩
    intro _
    apply setupCall .init rfl rfl (by simp) nofun (wrappingSub_lt _ _) (abort tracee _)
    intro entered enters
    exact enter enters rfl rfl (abort tracee _)

theorem pumpModules [Config.Build] (isArch : tracee.arch = arch) :
    MakesCall waiting arch origin (Daemon.pumpModules pid tracee) := by
  unfold Daemon.pumpModules
  split
  · exact finishInjection isArch
  subst isArch
  apply bind_reads (reads_readFile _)
  intro content
  cases content with
  | none => exact abort tracee _
  | some content =>
      apply bind_registers (abort _ _)
      intro own before unset
      rw [StateProg.wp_bind, StateProg.wp_lift]
      apply Prog.wp_mono (wp_startFile_calls .module unset rfl rfl)
      rintro ⟨started, next⟩ after starts
      cases started with
      | false => exact Quits.wp (.abort _ _ _) own after
      | true =>
          rcases starts rfl with ⟨nextArch, isFile, called⟩
          exact resume nextArch (.inl (isFile ▸ called)) own

theorem fileReady [Config.Build] (isArch : tracee.arch = arch) (regsArch : regs.arch = arch) :
    MakesCall waiting arch origin (Daemon.fileReady pid tracee regs) := by
  unfold Daemon.fileReady
  dsimp only
  split
  · apply bind_reads (reads_perform (.writeToTargetFd pid _ _) trivial)
    intro filled
    split
    · exact abort _ _
    · exact startDlopen isArch regsArch _
  · apply bind_reads (reads_perform (.writeToTargetFd pid _ _) trivial)
    intro filled
    split
    · exact abort _ _
    · exact pumpModules isArch

theorem trapFile [Config.Build] :
    MakesCall waiting tracee.arch origin (Daemon.trapFile pid tracee) := by
  apply bind_registers (abort tracee _)
  apply bind_note
  intro _
  dsimp only
  split
  · split
    · exact abort _ _
    · exact abort _ _
  · exact fileReady rfl rfl

/-- The one call that is made on the stack as it was found, and the one whose registers may be
refused without the tracee being given up. -/
theorem callDlerror :
    MakesCall .dlopen tracee.arch origin (Daemon.callDlerror pid tracee
      ((Regs.new tracee.arch).fill origin.regs)) := by
  apply bind_reads (reads_resolveSymbol pid _ _)
  intro address
  cases address with
  | none => exact abort tracee _
  | some address =>
      intro own before unset
      dsimp only
      rw [StateProg.wp_bind, StateProg.wp_lift]
      apply Prog.wp_mono (wp_setupCall_enters .dlerror _ _ unset rfl rfl (by simp)
        (.inl ⟨rfl, rfl, rfl⟩))
      rintro result middle ⟨still, enters⟩
      cases result with
      | none => exact Quits.wp (.abort _ _ _) own middle
      | some entered =>
          dsimp only
          rw [StateProg.wp_bind, StateProg.wp_lift]
          apply Prog.wp_mono (wp_writeRegisters_calls still (enters entered rfl))
          intro written after isCalled
          cases written with
          | true =>
              exact @resume _ pid _ _ origin { tracee with state := .dlerror } rfl after
                (.inl isCalled) own
          | false =>
              exact @resume _ pid _ _ origin { tracee with state := .dlerror } rfl after
                (.inr ⟨isCalled, nofun⟩) own

theorem callDlsym (isArch : tracee.arch = arch) (regsArch : regs.arch = arch) (handle : Nat) :
    MakesCall waiting arch origin (Daemon.callDlsym pid tracee regs handle) := by
  apply bind_reads (reads_resolveSymbol pid _ _)
  intro address
  cases address with
  | none => exact abort tracee _
  | some address =>
      apply bind_accesses (accesses_writeMemory pid _ _)
      intro named
      split
      · exact undo tracee
      apply setupCall .dlsym regsArch rfl (by simp) nofun (wrappingSub_lt _ _) (undo tracee)
      intro entered enters
      exact enter enters isArch rfl (undo tracee)

theorem trapAfterDlopen :
    MakesCall .dlopen tracee.arch origin (Daemon.trapAfterDlopen pid tracee) := by
  apply bind_registers (undo tracee)
  apply bind_note
  intro _
  dsimp only
  split
  · exact callDlerror
  · exact callDlsym rfl rfl _

theorem trapAfterDlsym [Config.Build] :
    MakesCall waiting tracee.arch origin (Daemon.trapAfterDlsym pid tracee) := by
  apply bind_registers (undo tracee)
  apply bind_note
  intro _
  dsimp only
  split
  · exact abort _ _
  apply bind_all .get
  intro daemon
  apply bind_reads (reads_librariesFor _ _)
  intro libraries
  split
  · exact abort _ _
  apply bind_reads (reads_perform .freshNonce trivial)
  intro nonce
  exact pumpModules rfl

theorem trapAfterDlerror :
    MakesCall waiting tracee.arch origin (Daemon.trapAfterDlerror pid tracee) := by
  apply bind_registers (undo tracee)
  apply bind_note
  intro _
  dsimp only
  split
  · exact ends (.recorded pid tracee _)
  · apply bind_reads (reads_readCString pid _)
    intro error
    exact ends (.recorded pid tracee _)

theorem startLoader (isArch : tracee.arch = arch) (regsArch : regs.arch = arch) :
    MakesCall waiting arch origin (Daemon.startLoader pid tracee regs) := by
  intro own before unset
  unfold Daemon.startLoader
  rw [StateProg.wp_bind, StateProg.wp_lift]
  apply Prog.wp_mono (wp_startFile_calls .loader unset isArch regsArch)
  rintro ⟨started, next⟩ after starts
  cases started with
  | false => exact Quits.wp (.undo _ _) own after
  | true =>
      rcases starts rfl with ⟨nextArch, isFile, called⟩
      exact resume nextArch (.inl (isFile ▸ called)) own

theorem trapAtLate : MakesCall waiting tracee.arch origin (Daemon.trapAtLate pid tracee) := by
  apply bind_registers
  · exact ends (.letGo pid tracee)
  · exact startLoader rfl rfl

theorem trapAtEntry : MakesCall waiting tracee.arch origin (Daemon.trapAtEntry pid tracee) := by
  apply bind_registers
  · exact ends (.letGo pid tracee)
  · dsimp only
    split
    · exact ends (.letGo pid tracee)
    · refine startLoader ?_ ?_
      · rfl
      · split
        · exact Regs.setPc_arch _ _
        · rfl

theorem step [Config.Build] :
    MakesCall tracee.state tracee.arch origin (Daemon.step pid tracee) := by
  unfold Daemon.step
  split
  · exact trapAtEntry
  · exact trapAtLate
  · exact trapFile
  case h_4 isDlopen =>
    rw [isDlopen]
    exact trapAfterDlopen
  · exact trapAfterDlsym
  · exact trapAfterDlerror
  · exact ends (.recorded pid tracee _)
  case h_8 traced =>
    intro own before unset
    exact resume rfl (.inr ⟨unset, by rw [traced]; nofun⟩) own

end MakesCall

end Steps

section Residues

variable [Usize] {arch : Arch} {state waiting : State} {found registers : List UInt8}

theorem lowered_residue (base : Nat) {size word : Nat} (_le : size ≤ 2 ^ 16)
    (isWord : word = 4 ∨ word = 8) :
    (wrappingSub base size % 256 ^ word + size) % 16 = base % 16 := by
  rw [wrappingSub]
  rcases bytes_eq with four | eight
  · rw [count, four]
    rcases isWord with rfl | rfl <;> omega
  · rw [count, eight]
    rcases isWord with rfl | rfl <;> omega

theorem pushedSize_le {arguments : Nat} (few : arguments ≤ 16) (arch : Arch) :
    pushedSize arch arguments ≤ 2 ^ 16 := by
  have bytesLe : Usize.bytes ≤ 8 := by
    rcases bytes_eq with four | eight <;> omega
  cases arch <;> simp only [pushedSize] <;> omega

/-- On a stack that has been aligned the pushes are all that is between the stack pointer and a
multiple of sixteen. -/
theorem loweredSp_aligned {regs : Regs} {layout : Layout} {address arguments : Nat}
    (known : regs.arch.layout = some layout) (few : arguments ≤ 16) (small : address < count) :
    (loweredSp (regs.setSp (alignStack address)) arguments + pushedSize regs.arch arguments) % 16 =
      0 := by
  have isArch : (regs.setSp (alignStack address)).arch = regs.arch := Regs.setSp_arch _ _
  have smaller : alignStack address < count := Nat.lt_of_le_of_lt (Nat.sub_le _ _) small
  have aligned : alignStack address % 16 = 0 := by
    unfold alignStack
    omega
  have word := Regs.layout_word known
  rw [loweredSp, isArch, known]
  dsimp only [Option.elim]
  have held : alignStack address % 256 ^ layout.word % 16 = 0 := by
    rcases word with four | eight
    · rw [four]
      omega
    · rw [eight]
      omega
  cases isLink : layout.link with
  | some link =>
      have nothing : pushedSize regs.arch arguments = 0 := by
        cases arch : regs.arch <;> rw [arch] at known <;> cases known <;>
          first | rfl | cases isLink
      rw [if_pos (by rfl), nothing, setSp_eq known,
        Regs.contents_write known (Regs.layout_fits known).2.1]
      exact held
  | none =>
      rw [if_neg (by decide), Regs.sp_setSp known smaller,
        lowered_residue _ (pushedSize_le few _) word]
      exact held

/-- A call that is set up on an aligned stack. -/
theorem Enters.residue (enters : Enters waiting arch found state registers)
    (notError : state ≠ .dlerror) : ∃ arguments, state.arguments = some arguments ∧
      (targetSp arch registers + pushedSize arch arguments) % 16 = 0 := by
  rcases enters with ⟨regs, arguments, known, isArch, isCall, isSp, stack⟩
  rcases stack with ⟨_, isError, _⟩ | ⟨_, other, address, rfl, small⟩
  · exact absurd isError notError
  · refine ⟨arguments, isCall, ?_⟩
    rw [Regs.setSp_arch] at isArch
    subst isArch
    have few : arguments ≤ 16 := by
      cases state <;> cases isCall <;> decide
    rw [isSp]
    cases layout : other.arch.layout with
    | none =>
        cases arch : other.arch <;> rw [arch] at layout known <;>
          first | exact absurd rfl known | cases layout
    | some layout => exact loweredSp_aligned ‹_› few small

/-- The stack that `android_dlopen_ext` leaves behind. -/
def AfterDlopen (arch : Arch) (found : List UInt8) : Prop :=
  (targetSp arch found + pushedSize arch 4) % 16 = poppedBytes arch

/-- Which calls have the stack pointer that the convention of their target has. -/
def AlignedCall (arch : Arch) (state : State) : Prop :=
  match arch with
  | .x86_64 => Usize.bytes = 8
  | .x86 => state = .dlopen ∨ state = .dlerror
  | _ => True

theorem Enters.aligned_iff (enters : Enters waiting arch found state registers)
    (notError : state ≠ .dlerror) :
    EntryAligned arch (targetSp arch registers) ↔ AlignedCall arch state := by
  have known : arch ≠ .unknown := by
    rcases enters with ⟨_, _, known, _⟩
    exact known
  rcases enters.residue notError with ⟨arguments, isCall, residue⟩
  generalize targetSp arch registers = sp at *
  cases arch with
  | unknown => exact absurd rfl known
  | arm64 =>
      refine iff_of_true ?_ trivial
      exact residue
  | riscv64 =>
      refine iff_of_true ?_ trivial
      exact residue
  | arm32 =>
      refine iff_of_true ?_ trivial
      change (sp + 0) % 16 = 0 at residue
      change sp % 8 = 0
      omega
  | x86_64 =>
      change (sp + Usize.bytes) % 16 = 0 at residue
      change (sp + 8) % 16 = 0 ↔ Usize.bytes = 8
      rcases bytes_eq with four | eight <;> omega
  | x86 =>
      change (sp + 4 * (arguments + 1)) % 16 = 0 at residue
      change (sp + 4) % 16 = 0 ↔ state = .dlopen ∨ state = .dlerror
      -- The arguments are multiples of sixteen bytes only where there are four of them.
      cases state with
      | dlerror => exact absurd rfl notError
      | dlopen =>
          cases isCall
          refine iff_of_true ?_ (.inl rfl)
          omega
      | file | dlsym | init =>
          cases isCall
          refine iff_of_false ?_ (by simp)
          omega
      | traced | entry | late => cases isCall

/-- The call of `dlerror` is made where `android_dlopen_ext` has left the stack. -/
theorem Enters.aligned_iff_dlerror (enters : Enters waiting arch found .dlerror registers)
    (after : AfterDlopen arch found) :
    EntryAligned arch (targetSp arch registers) ↔ AlignedCall arch .dlerror := by
  rcases enters with ⟨regs, arguments, known, rfl, isCall, isSp, stack⟩
  rcases stack with ⟨_, _, isFound⟩ | ⟨notError, _⟩
  · cases isCall
    have isContents (layout : Layout) (isLayout : regs.arch.layout = some layout) :
        regs.contents layout.word layout.sp = targetSp regs.arch found := by
      rw [targetSp, isLayout]
      dsimp only [Option.elim]
      rw [← isFound]
    have wide : 2 ^ 32 ≤ count := word_le_count
    have narrow (layout : Layout) (isLayout : regs.arch.layout = some layout) :
        regs.sp = if targetSp regs.arch found < count then targetSp regs.arch found else 0 := by
      rw [sp_eq_contents isLayout, isContents layout isLayout]
    have small (layout : Layout) (isLayout : regs.arch.layout = some layout) :
        targetSp regs.arch found < 256 ^ layout.word := by
      rw [← isContents layout isLayout]
      exact regs.contents_lt layout.word layout.sp
    rw [isSp, loweredSp]
    unfold AfterDlopen at after
    generalize targetSp regs.arch found = sp at *
    cases arch : regs.arch with
    | unknown => exact absurd arch known
    | arm64 =>
        rw [arch] at after isContents
        refine iff_of_true ?_ trivial
        change regs.contents ARM64.word ARM64.sp % 16 = 0
        rw [isContents ARM64 rfl]
        exact after
    | riscv64 =>
        rw [arch] at after isContents
        refine iff_of_true ?_ trivial
        change regs.contents RISCV64.word RISCV64.sp % 16 = 0
        rw [isContents RISCV64 rfl]
        exact after
    | arm32 =>
        rw [arch] at after isContents
        refine iff_of_true ?_ trivial
        change regs.contents ARM32.word ARM32.sp % 8 = 0
        change sp % 16 = 0 at after
        rw [isContents ARM32 rfl]
        omega
    | x86_64 =>
        rw [arch] at after narrow small
        have below := small X86_64 rfl
        have residue := lowered_residue regs.sp (pushedSize_le (by decide : 0 ≤ 16) .x86_64)
          (.inr rfl : X86_64.word = 4 ∨ X86_64.word = 8)
        change (sp + Usize.bytes) % 16 = 8 at after
        change (wrappingSub regs.sp Usize.bytes % 256 ^ X86_64.word + Usize.bytes) % 16 = _ at residue
        change (wrappingSub regs.sp Usize.bytes % 256 ^ X86_64.word + 8) % 16 = 0 ↔ Usize.bytes = 8
        rw [narrow X86_64 rfl] at residue ⊢
        generalize wrappingSub _ _ % 256 ^ X86_64.word = lowered at *
        rcases bytes_eq with four | eight
        · split at residue <;> omega
        · have whole : sp < count := by
            rw [count, eight]
            exact below
          rw [if_pos whole] at residue
          omega
    | x86 =>
        rw [arch] at after narrow small
        have below : sp < 2 ^ 32 := small X86 rfl
        have residue := lowered_residue regs.sp (pushedSize_le (by decide : 0 ≤ 16) .x86)
          (.inl rfl : X86.word = 4 ∨ X86.word = 8)
        change (sp + 20) % 16 = 4 at after
        change (wrappingSub regs.sp 4 % 256 ^ X86.word + 4) % 16 = _ at residue
        refine iff_of_true ?_ (.inr rfl)
        change (wrappingSub regs.sp 4 % 256 ^ X86.word + 4) % 16 = 0
        rw [residue, narrow X86 rfl, if_pos (by omega)]
        omega
  · exact absurd rfl notError

end Residues

section Injecting

variable [Usize] [Config.Build] {pid : Pid} {tracee next : Tracee} {before after stopped : Process}
  {own own' : Daemon} {new : Transcript} {registers : List UInt8}

/-- The call has returned: what the function takes from the stack is gone from it, and nothing else
is known of the target. -/
def Returned (arch : Arch) (running stopped : Process) : Prop :=
  targetSp arch stopped.regs =
    (targetSp arch running.regs + poppedBytes arch) % 256 ^ arch.word

/-- The injection as the state machine has it: from the entry or from a late stop, one step after
the other, with the call of each returned before the next. -/
def injecting (pid : Pid) : System (Tracee × Process) Unit where
  Initial s := s.1.state = .entry ∨ s.1.state = .late
  Step s _ s' := ∃ own own' running,
    StateProg.Runs Process.machine (Daemon.step pid s.1) own s.2 (.tracing s'.1) own' running ∧
      Returned s'.1.arch running s'.2

theorem step_calls
    (run : StateProg.Runs Process.machine (Daemon.step pid tracee) own before (.tracing next) own'
      after) :
    next.arch = tracee.arch ∧ (CalledIn tracee.state tracee.arch before next.state after ∨
      Unset before after ∧ next.state ≠ .dlopen) :=
  run.of_wp (MakesCall.step own before (.refl before)) next rfl

/-- Where a tracee waits for `android_dlopen_ext`, the stack is as that has left it. -/
theorem afterDlopen_of_reachable (reached : (injecting pid).Reachable (tracee, before))
    (isDlopen : tracee.state = .dlopen) : AfterDlopen tracee.arch before.regs := by
  cases reached with
  | initial start =>
      rcases start with isEntry | isLate
      · rw [isDlopen] at isEntry
        cases isEntry
      · rw [isDlopen] at isLate
        cases isLate
  | step _ step =>
      rcases step with ⟨own, own', running, run, returned⟩
      rcases step_calls run with ⟨isArch, called | ⟨_, other⟩⟩
      · have enters := called.enters
        rw [← isArch] at enters
        rcases enters.residue (by rw [isDlopen]; nofun) with ⟨arguments, isCall, residue⟩
        rw [isDlopen] at isCall
        cases isCall
        unfold Returned at returned
        rw [AfterDlopen, returned]
        generalize targetSp _ running.regs = sp at *
        cases arch : tracee.arch with
        | unknown =>
            rcases enters with ⟨_, _, known, _⟩
            exact absurd arch known
        | arm64 | riscv64 =>
            rw [arch] at residue
            change (sp + 0) % 16 = 0 at residue
            change ((sp + 0) % 256 ^ 8 + 0) % 16 = 0
            omega
        | arm32 =>
            rw [arch] at residue
            change (sp + 0) % 16 = 0 at residue
            change ((sp + 0) % 256 ^ 4 + 0) % 16 = 0
            omega
        | x86_64 =>
            rw [arch] at residue
            change (sp + Usize.bytes) % 16 = 0 at residue
            change ((sp + 8) % 256 ^ 8 + Usize.bytes) % 16 = 8
            omega
        | x86 =>
            rw [arch] at residue
            change (sp + 20) % 16 = 0 at residue
            change ((sp + 4) % 256 ^ 4 + 20) % 16 = 4
            omega
      · exact absurd isDlopen other

/-- A call of an injection begins on the stack that its target asks for on the link-register
machines, on x86_64 if the tracer is a 64-bit one, and on x86 if it has four arguments or comes
right after one that has. -/
theorem entryAligned_iff (reached : (injecting pid).Reachable (tracee, before))
    (run : StateProg.Runs Process.machine (Daemon.step pid tracee) own before (.tracing next) own'
      after)
    (heard : after.heard = before.heard ++ new)
    (called : (⟨.setRegset pid registers, true⟩ : Exchange Sys) ∈ new) :
    EntryAligned next.arch (targetSp next.arch registers) ↔ AlignedCall next.arch next.state := by
  rcases step_calls run with ⟨isArch, calls | ⟨unset, _⟩⟩
  · rcases calls.heard with ⟨other, isOther, each⟩
    rw [heard, List.append_cancel_left_eq] at isOther
    subst isOther
    rw [each pid registers called, isArch]
    have enters := calls.enters
    by_cases isError : next.state = .dlerror
    · rw [isError] at enters ⊢
      apply enters.aligned_iff_dlerror
      apply afterDlopen_of_reachable reached
      rcases enters with ⟨_, _, _, _, _, _, ⟨isDlopen, _⟩ | ⟨notError, _⟩⟩
      · exact isDlopen
      · exact absurd rfl notError
    · exact enters.aligned_iff isError
  · rcases unset.heard with ⟨other, isOther, none⟩
    rw [heard, List.append_cancel_left_eq] at isOther
    subst isOther
    exact absurd called (none pid registers)

/-- The law for every call of every injection. -/
def CallsAligned : Prop :=
  ∀ pid tracee next before after own own' new registers,
    (injecting pid).Reachable (tracee, before) →
      StateProg.Runs Process.machine (Daemon.step pid tracee) own before (.tracing next) own' after →
        after.heard = before.heard ++ new →
          (⟨.setRegset pid registers, true⟩ : Exchange Sys) ∈ new →
            EntryAligned next.arch (targetSp next.arch registers)

end Injecting

section Runs

/-- The first call of an injection into a process of the architecture. -/
def firstCall (arch : Arch) : (Progress × Daemon) × Process :=
  stepAt (runningA (some [])) (traceeAt arch)
    (trappedAt arch (if trapReportsNextInstruction arch then 4113 else 4112))

/-- The tracee that waits for it. -/
def waitingFor (arch : Arch) : Tracee :=
  goesOn (firstCall arch).1.1 (traceeAt arch)

theorem runs_firstCall {arch : Arch} (going : (firstCall arch).1.1 = .tracing (waitingFor arch)) :
    StateProg.Runs (@Process.machine .eight) (@Daemon.step .eight .arm64 100 (traceeAt arch)) {}
      (trappedAt arch (if trapReportsNextInstruction arch then 4113 else 4112))
      (.tracing (waitingFor arch)) (firstCall arch).1.2 (firstCall arch).2 := by
  have run := @Process.runs_scripted .eight _ _ (runningA (some []))
    (@Daemon.step .eight .arm64 100 (traceeAt arch)) {}
    (trappedAt arch (if trapReportsNextInstruction arch then 4113 else 4112))
  change StateProg.Runs _ _ _ _ (firstCall arch).1.1 (firstCall arch).1.2 (firstCall arch).2 at run
  rwa [going] at run

/-- The call of `memfd_create` in a 32-bit x86 process pushes three arguments. -/
theorem memfd_misaligned_x86 : ¬@CallsAligned .eight .arm64 := by
  intro always
  have aligned := always 100 (traceeAt .x86) (waitingFor .x86) _ (firstCall .x86).2 _ _
    (firstCall .x86).2.heard (firstCall .x86).2.regs (.initial (.inl rfl))
    (runs_firstCall (by decide +kernel)) rfl
    (List.mem_of_getElem? (rfl : (firstCall .x86).2.heard[6]? = _))
  have arch : (waitingFor .x86).arch = .x86 := by decide +kernel
  have sp : targetSp .x86 (firstCall .x86).2.regs = 65488 := by decide +kernel
  rw [arch] at aligned
  change (targetSp .x86 (firstCall .x86).2.regs + 4) % 16 = 0 at aligned
  rw [sp] at aligned
  cases aligned

set_option maxRecDepth 8000 in
/-- A 64-bit process of the other kind is entered as it has to be. -/
theorem memfd_aligned_x86_64 :
    EntryAligned (waitingFor .x86_64).arch
      (targetSp (waitingFor .x86_64).arch (firstCall .x86_64).2.regs) := by
  have arch : (waitingFor .x86_64).arch = .x86_64 := by decide +kernel
  have going : (firstCall .x86_64).1.1 = .tracing (waitingFor .x86_64) := by decide +kernel
  have called : (⟨.setRegset 100 (firstCall .x86_64).2.regs, true⟩ : Exchange Sys) ∈
      (firstCall .x86_64).2.heard :=
    List.mem_of_getElem? (rfl : (firstCall .x86_64).2.heard[3]? = _)
  apply (@entryAligned_iff .eight .arm64 100 (traceeAt .x86_64) (waitingFor .x86_64)
    (trappedAt .x86_64 4113) (firstCall .x86_64).2 {} _ (firstCall .x86_64).2.heard
    (firstCall .x86_64).2.regs (.initial (.inl rfl)) (runs_firstCall going) rfl called).mpr
  rw [arch]
  rfl

end Runs

end Znn.Injector
