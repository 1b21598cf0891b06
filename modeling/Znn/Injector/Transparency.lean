import Znn.Injector.Confined
import Znn.Injector.Step
import Znn.Plan.RoundTrip

/-!
# A target that is let go runs on

From the trap at its entry to the end of its injection a target is borrowed: calls run in it, and
names, plans and arguments lie on its stack. When it is let go, its entry has to hold the original
instruction, its registers what they held at the trap, and whatever else was written has to lie
below the stack pointer. `Borrows` says of a part of a step that it keeps to this: the part either
goes on with the same target, or gives it back.
-/

namespace Znn.Injector

open Interaction PtraceOps Trace Bytes Usize

/-- The registers that a process has. -/
def Process.registers (process : Process) (arch : Arch) : Regs :=
  (Regs.new arch).fill process.regs

/-- The registers at the trap, with the program counter at the entry. -/
def rewound (tracee : Tracee) (regs : Regs) : Regs :=
  if trapReportsNextInstruction tracee.arch then regs.setPc tracee.entry else regs

/-- Every restoring write has been granted. -/
def AllRestored (pid : Pid) (process : Process) : Prop :=
  ∀ ok, (⟨.note (.restored pid ok), ()⟩ : Exchange Sys) ∈ process.heard → ok = true

theorem AllRestored.of_append {new : Transcript} {pid : Pid} {process after : Process}
    (restored : AllRestored pid after)
    (heard : after.heard = process.heard ++ new) : AllRestored pid process := by
  intro ok present
  apply restored ok
  rw [heard]
  exact List.mem_append_left new present

/-- The addresses below the stack pointer that the tracee was saved with. -/
def BelowSaved [Usize] (tracee : Tracee) : Set Nat :=
  { address | address < tracee.saved.sp }

/-- The addresses of the breakpoint. -/
def AtBreakpoint [Usize] (tracee : Tracee) : Set Nat :=
  { address | Covers tracee.entry tracee.breakpointSize address }

/-- The instruction that a tracee keeps has the length of its array. -/
structure KeepsInstruction (tracee : Tracee) : Prop where
  length : tracee.originalInstruction.length = INSTRUCTION_CAPACITY
  size : tracee.breakpointSize ≤ INSTRUCTION_CAPACITY

theorem Tracee.SameTarget.trans {first second third : Tracee} (left : first.SameTarget second)
    (right : second.SameTarget third) : first.SameTarget third :=
  ⟨right.exe.trans left.exe, right.arch.trans left.arch, right.entry.trans left.entry,
    right.thumb.trans left.thumb, right.originalInstruction.trans left.originalInstruction,
    right.breakpointSize.trans left.breakpointSize, right.saved.trans left.saved⟩

theorem Tracee.SameTarget.withState {origin tracee : Tracee} (same : origin.SameTarget tracee)
    {state : State} : origin.SameTarget { tracee with state := state } :=
  ⟨same.exe, same.arch, same.entry, same.thumb, same.originalInstruction, same.breakpointSize,
    same.saved⟩

section

variable [Usize]

/-- The process stands still, and has been written to in the permitted places only. -/
structure Tame (origin : Tracee) (process : Process) : Prop where
  stopped : process.phase = .stopped
  edited : process.edited ⊆ BelowSaved origin ∪ AtBreakpoint origin

/-- The process has been let go as it was. -/
structure GivenBack (origin : Tracee) (process : Process) : Prop where
  free : process.phase = .free
  code : load process.mem origin.entry origin.breakpointSize =
    origin.originalInstruction.take origin.breakpointSize
  regs : process.regs = origin.saved.bytes

/-- What a step leaves: the same target with a call in it, or a target that is given back if the
restoring writes were granted. -/
def Borrowed (pid : Pid) (origin : Tracee) (progress : Progress) (after : Process) : Prop :=
  after.edited ⊆ BelowSaved origin ∪ AtBreakpoint origin ∧
    match progress with
    | .tracing next => origin.SameTarget next ∧ next.Calling
    | .finished => AllRestored pid after → GivenBack origin after

end

section Restoring

variable [Usize] {pid : Pid} {origin tracee : Tracee} {process after : Process}

/-- What the restoring of the entry leaves. -/
structure EntryRestored (pid : Pid) (origin : Tracee) (before after : Process) : Prop where
  tame : Tame origin after
  regs : after.regs = before.regs
  code : AllRestored pid after → load after.mem origin.entry origin.breakpointSize =
    origin.originalInstruction.take origin.breakpointSize

theorem wp_restoreEntry_code (same : origin.SameTarget tracee) (keeps : KeepsInstruction origin)
    (tame : Tame origin process) :
    (restoreEntry pid tracee).wp Process.machine
      (fun _ after => EntryRestored pid origin process after) process := by
  unfold restoreEntry
  rw [same.breakpointSize, same.entry, same.originalInstruction]
  by_cases armed : origin.breakpointSize ≠ 0
  · rw [if_pos armed, Prog.bind_eq, Prog.wp_bind]
    have length : (origin.originalInstruction.take origin.breakpointSize).length =
        origin.breakpointSize := by
      rw [List.length_take, keeps.length, Nat.min_eq_left keeps.size]
    have small : origin.breakpointSize + Usize.bytes ≤ count :=
      small_count (Nat.le_trans keeps.size (by decide))
    apply Prog.wp_mono (wp_writeMemory (by omega))
    rintro ok written ⟨upto, writing, complete⟩
    rintro answer noted ⟨_, rfl⟩
    refine ⟨⟨writing.phase.trans tame.stopped, ?_⟩, writing.regs, ?_⟩
    · intro address isEdited
      rcases writing.edited isEdited with already | ⟨index, _, bound, isAddress⟩
      · exact tame.edited already
      · right
        have fits := writing.fits
        change Covers origin.entry origin.breakpointSize address
        rw [covers_iff (by omega)]
        exact ⟨index, by omega, isAddress⟩
    · intro restored
      have granted : ok = true := by
        apply restored ok
        simp [kept]
      have whole := complete.mp granted
      have stored := writing.load_whole (by omega) (complete.mp granted)
      rwa [length] at stored
  · rw [if_neg armed]
    refine ⟨tame, rfl, fun _ => ?_⟩
    rw [not_not.mp armed, List.take_zero]
    rfl

/-- A process in which the registers have been written is let go as it was. -/
theorem wp_giveBack (restoring : EntryRestored pid origin process after) (regs : Regs)
    (saved : regs.bytes = origin.saved.bytes) :
    ((perform (.setRegset pid regs.bytes)).bind fun restored =>
        (note (.restored pid restored)).bind fun _ => Ptrace.detach pid none).wp Process.machine
      (fun _ last => last.edited ⊆ BelowSaved origin ∪ AtBreakpoint origin ∧
        (AllRestored pid last → GivenBack origin last)) after := by
  rintro ok written ⟨_, rfl⟩
  rintro answer noted ⟨_, rfl⟩
  rintro detached last ⟨letGo, rfl⟩
  have stopped := restoring.tame.stopped
  cases ok with
  | false =>
      cases detached with
      | false =>
          refine ⟨restoring.tame.edited, fun restored => ?_⟩
          exact absurd (restored false (by simp [kept])) Bool.false_ne_true
      | true =>
          refine ⟨restoring.tame.edited, fun restored => ?_⟩
          exact absurd (restored false (by simp [kept])) Bool.false_ne_true
  | true =>
      cases detached with
      | false => exact absurd (letGo.mpr stopped) Bool.false_ne_true
      | true =>
          refine ⟨restoring.tame.edited, fun restored => ⟨rfl, ?_, saved⟩⟩
          apply restoring.code
          apply restored.of_append
          simp only [List.append_assoc]
          rfl

/-- A process whose registers need no writing is let go as it was. -/
theorem wp_letGoBack (restoring : EntryRestored pid origin process after)
    (saved : process.regs = origin.saved.bytes) :
    (Ptrace.detach pid none).wp Process.machine
      (fun _ last => last.edited ⊆ BelowSaved origin ∪ AtBreakpoint origin ∧
        (AllRestored pid last → GivenBack origin last)) after := by
  rintro detached last ⟨letGo, rfl⟩
  cases detached with
  | false => exact absurd (letGo.mpr restoring.tame.stopped) Bool.false_ne_true
  | true =>
      refine ⟨restoring.tame.edited, fun restored => ⟨rfl, ?_, restoring.regs.trans saved⟩⟩
      exact restoring.code (restored.of_append rfl)

theorem wp_undo_giveBack (same : origin.SameTarget tracee) (keeps : KeepsInstruction origin)
    (notEntry : tracee.state ≠ .entry) (tame : Tame origin process) (own : Daemon) :
    StateProg.wp Process.machine (Daemon.undo pid tracee)
      (fun _ _ last => Borrowed pid origin .finished last) own process := by
  unfold Daemon.undo releaseTracee
  rw [StateProg.wp_bind, StateProg.wp_lift, Prog.bind_eq, Prog.wp_bind]
  apply Prog.wp_mono (wp_restoreEntry_code same keeps tame)
  intro _ restored restoring
  rw [if_neg notEntry, same.saved]
  exact wp_giveBack restoring origin.saved rfl

end Restoring

/-- Every run of the part keeps to the places that are permitted, and ends with the same target or
gives it back. -/
def Borrows [Usize] (pid : Pid) (origin : Tracee) (holds : Process → Prop)
    (program : DaemonM Progress) : Prop :=
  ∀ own before, holds before → StateProg.wp Process.machine program
    (fun progress _ after => Borrowed pid origin progress after) own before

/-- The process stands still with the registers that were found. -/
structure Found [Usize] (origin : Tracee) (filled : List UInt8) (process : Process) : Prop where
  tame : Tame origin process
  regs : process.regs = filled

namespace Borrows

variable [Usize] {α : Type} {pid : Pid} {origin tracee : Tracee} {holds : Process → Prop}
  {filled : List UInt8}

theorem found {program : DaemonM Progress} (borrows : Borrows pid origin (Tame origin) program) :
    Borrows pid origin (Found origin filled) program :=
  fun own before isFound => borrows own before isFound.tame

theorem bind_get {rest : Daemon → DaemonM Progress}
    (next : ∀ daemon, Borrows pid origin holds (rest daemon)) :
    Borrows pid origin holds (get >>= rest) := by
  intro own before isBefore
  rw [StateProg.wp_bind, StateProg.wp_get]
  exact next own own before isBefore

theorem bind_reads {program : Prog Sys α} (calls : Only Call.reads program)
    {rest : α → DaemonM Progress} (next : ∀ value, Borrows pid origin holds (rest value)) :
    Borrows pid origin holds (liftM program >>= rest) := by
  intro own before isBefore
  rw [StateProg.wp_bind, StateProg.wp_lift]
  apply Process.wp_reads calls
  intro value
  exact next value own before isBefore

theorem bind_interpret {rest : Unit → DaemonM Progress}
    (next : ∀ answer, Borrows pid origin (Found origin filled) (rest answer)) :
    Borrows pid origin (Found origin filled)
      ((liftM (note (.interpret pid)) : DaemonM Unit) >>= rest) := by
  intro own before isFound
  rw [StateProg.wp_bind, StateProg.wp_lift]
  rintro answer noted ⟨_, rfl⟩
  exact next answer own _ ⟨⟨isFound.tame.stopped, isFound.tame.edited⟩, isFound.regs⟩

/-- The registers are read as they were found. -/
theorem bind_registers {arch : Arch} {rest : Option Regs → DaemonM Progress}
    (unread : Borrows pid origin (Found origin filled) (rest none))
    (read : Borrows pid origin (Found origin filled) (rest (some ((Regs.new arch).fill filled)))) :
    Borrows pid origin (Found origin filled) (liftM (readRegisters pid arch) >>= rest) := by
  intro own before isFound
  rw [StateProg.wp_bind, StateProg.wp_lift]
  apply Process.wp_readRegisters
  · exact unread own before isFound
  · rw [isFound.regs]
    exact read own before isFound

theorem bind_confined {program : Prog Sys α} {good : α → Prop}
    (confined : Confined pid (BelowSaved origin) program good) {rest : α → DaemonM Progress}
    (next : ∀ value, good value → Borrows pid origin (Tame origin) (rest value)) :
    Borrows pid origin (Tame origin) (liftM program >>= rest) := by
  intro own before tame
  rw [StateProg.wp_bind, StateProg.wp_lift]
  apply Prog.wp_mono (confined before)
  rintro value after ⟨isGood, inside⟩
  apply next value isGood own after
  refine ⟨inside.phase.trans tame.stopped, ?_⟩
  intro address isEdited
  rcases inside.edited isEdited with already | below
  · exact tame.edited already
  · exact .inl below

/-- A loop that only looks. -/
theorem bind_forM {items : List α} {body : α → Prog Sys PUnit}
    (calls : ∀ item, Only Call.reads (body item)) {rest : PUnit → DaemonM Progress}
    (next : ∀ value, Borrows pid origin holds (rest value)) :
    Borrows pid origin holds
      ((items.forM fun item => (liftM (body item) : DaemonM PUnit)) >>= rest) := by
  intro own before isBefore
  have still : StateProg.wp Process.machine
      (items.forM fun item => (liftM (body item) : DaemonM PUnit))
      (fun _ _ after => after = before) own before := by
    apply StateProg.wp_forM
    · rfl
    · rintro item _ own process rfl
      rw [StateProg.wp_lift]
      exact Process.wp_reads (calls item) fun _ => rfl
  rw [StateProg.wp_bind]
  apply StateProg.wp_mono still
  rintro value own' after rfl
  exact next value own' after isBefore

/-- The target runs on with a call in it. -/
theorem resume {next : Tracee} (same : origin.SameTarget next) (calling : next.Calling) :
    Borrows pid origin (Tame origin) (do
        Ptrace.cont pid none
        return .tracing next) := by
  intro own before tame
  rw [StateProg.wp_bind, StateProg.wp_lift]
  rintro answer after ⟨_, rfl⟩
  exact ⟨tame.edited, same, calling⟩

theorem recorded {mark : Note} {exe : String}
    {change : String → Daemon → Daemon} {rest : PUnit → DaemonM Progress}
    (next : ∀ value, Borrows pid origin (Tame origin) (rest value)) :
    Borrows pid origin (Tame origin) ((do
        note mark
        let name ← perform (.processName pid exe)
        modify (change name)) >>= rest) := by
  intro own before tame
  rw [StateProg.wp_bind, StateProg.wp_bind, StateProg.wp_lift]
  rintro answer noted ⟨_, rfl⟩
  rw [Prog.wp_pure, StateProg.wp_bind, StateProg.wp_lift]
  apply Process.wp_reads (reads_perform (.processName pid exe) trivial)
  intro name
  rw [StateProg.wp_modify]
  exact next _ _ _ ⟨tame.stopped, tame.edited⟩

theorem undo (same : origin.SameTarget tracee) (keeps : KeepsInstruction origin)
    (notEntry : tracee.state ≠ .entry) :
    Borrows pid origin (Tame origin) (do
        Daemon.undo pid tracee
        return .finished) := by
  intro own before tame
  rw [StateProg.wp_bind]
  exact StateProg.wp_mono (wp_undo_giveBack same keeps notEntry tame own) fun _ _ _ borrowed => borrowed

theorem abort (same : origin.SameTarget tracee) (keeps : KeepsInstruction origin)
    (notEntry : tracee.state ≠ .entry) (reason : String) :
    Borrows pid origin (Tame origin) (Daemon.abort pid tracee reason) := by
  unfold Daemon.abort Daemon.giveUp
  rw [bind_assoc]
  exact recorded fun _ => undo same keeps notEntry

end Borrows

section Starting

variable [Usize] {pid : Pid} {origin : Tracee}

/-- A region below the saved stack pointer has room where the stack pointer is far enough from
zero. -/
theorem room_belowSaved {regs : Regs} {size : Nat} (le : regs.sp ≤ origin.saved.sp)
    (enough : size ≤ regs.sp) : Room (BelowSaved origin) regs size := by
  have small := regs.sp_lt
  have below {stack size : Nat} (stackLe : stack ≤ regs.sp) (enough : size ≤ stack) :
      Below (BelowSaved origin) stack size := by
    intro depth bound
    rw [wrappingSub_of_le (by omega) (by omega)]
    change stack - (depth + 1) < origin.saved.sp
    omega
  refine ⟨below le_rfl enough, fun used bound => ?_⟩
  rw [wrappingSub_of_le (by omega) small]
  cases known : regs.arch.layout with
  | none =>
      have noStack : regs.sp = 0 := by
        rw [Regs.sp, known]
        rfl
      intro depth inRoom
      omega
  | some layout =>
      have fits : regs.sp < 256 ^ layout.word := by
        rw [Regs.sp_eq known]
        exact Regs.read_lt_word known layout.sp
      rw [Regs.sp_setSp known (by omega), Nat.mod_eq_of_lt (by omega)]
      exact below (Nat.sub_le _ _) (by omega)

/-- The call has been started as far as the state says, or nothing has been done to the
registers. -/
def StartedOrNot (before : Process) (state : State) (result : Bool × Tracee) (after : Process) :
    Prop :=
  result.2.state = .file ∨ result.2.state = state ∧ after.regs = before.regs

theorem wp_accesses_regs {α : Type} {program : Prog Sys α}
    (calls : Only (Call.accesses pid) program) (before : Process) :
    program.wp Process.machine (fun _ after => after.regs = before.regs) before := by
  apply Prog.All.wp_frame fun (before after : Process) => after.regs = before.regs
  · apply calls.mono
    intro request isAccess before answer after step
    rw [step.2]
    cases request with
    | pokeData _ _ _ => cases answer <;> rfl
    | setRegset _ _ => exact isAccess.elim
    | detach _ _ | seize _ _ | waitpid _ => exact isAccess.elim
    | _ => rfl
  · exact fun state => rfl
  · exact fun first second => second.trans first

theorem wp_startMemfd_state (tracee : Tracee) (regs : Regs) (before : Process) :
    (startMemfd pid tracee regs).wp Process.machine (StartedOrNot before tracee.state) before := by
  unfold startMemfd
  rw [Prog.bind_eq, Prog.wp_bind]
  apply Process.wp_reads (reads_resolveSymbol pid _ _)
  intro address
  cases address with
  | none => exact .inr ⟨rfl, rfl⟩
  | some address =>
      dsimp only
      rw [Prog.bind_eq, Prog.wp_bind]
      apply Prog.wp_mono (wp_accesses_regs (accesses_pushBytes pid regs _) before)
      intro pushed middle regsMiddle
      cases pushed with
      | none => exact .inr ⟨rfl, regsMiddle⟩
      | some pushed =>
          dsimp only
          unfold armCall
          rw [Prog.bind_eq, Prog.wp_bind]
          apply Prog.wp_mono (wp_accesses_regs (accesses_setupCall pid _ _ _ _) middle)
          intro entered after regsAfter
          cases entered with
          | none => exact .inr ⟨rfl, regsAfter.trans regsMiddle⟩
          | some entered =>
              intro written last _
              exact .inl rfl

theorem wp_startFile_state (tracee : Tracee) (purpose : FilePurpose) (regs : Regs)
    (before : Process) :
    (startFile pid tracee purpose regs).wp Process.machine (StartedOrNot before tracee.state)
      before := by
  unfold startFile
  split
  · rw [Prog.bind_eq, Prog.wp_bind]
    apply Process.wp_reads (reads_readFile _)
    intro content
    cases content with
    | none => exact .inr ⟨rfl, rfl⟩
    | some content => exact wp_startMemfd_state _ regs before
  · exact wp_startMemfd_state _ regs before

end Starting

/-- The tracee is the one that was taken, and a call runs in it. -/
structure InCall (origin tracee : Tracee) : Prop where
  same : origin.SameTarget tracee
  keeps : KeepsInstruction origin
  calling : tracee.Calling

/-- Any string is at most four bytes for each of its characters. -/
theorem length_asBytes_le (value : String) : (asBytes value).length ≤ 4 * value.length := by
  have each (chars : List Char) : chars.utf8Encode.data.toList.length ≤ 4 * chars.length := by
    induction chars with
    | nil => simp [List.utf8Encode]
    | cons char rest ih =>
        have fits := char.utf8Size_le_four
        simp only [List.utf8Encode, List.flatMap_cons, List.data_toByteArray, List.length_append,
          List.length_cons, String.length_utf8EncodeChar] at ih ⊢
        omega
  rw [asBytes, ← String.utf8Encode_toList]
  have bound := each value.toList
  rwa [String.length_toList] at bound

section Handlers

variable [Usize] {pid : Pid} {origin tracee : Tracee} {regs : Regs} {filled : List UInt8}

theorem count_le : count ≤ 2 ^ 64 := by
  rcases bytes_eq with four | eight
  · rw [count, four]
    decide
  · rw [count, eight]
    decide

theorem length_memfdName_module (small : tracee.moduleIndex < count) :
    (memfdName tracee .module).length ≤ 128 := by
  have digits : (Nat.repr tracee.moduleIndex).length ≤ 20 := by
    rw [Nat.length_repr_le_iff (by decide)]
    have le := count_le
    omega
  have bound := length_asBytes_le ("znn-module-" ++ Nat.repr tracee.moduleIndex)
  change (asBytes ("znn-module-" ++ Nat.repr tracee.moduleIndex) ++ [0]).length ≤ 128
  have prefixLength : ("znn-module-" : String).length = 11 := by decide
  rw [String.length_append, prefixLength] at bound
  rw [List.length_append, List.length_singleton]
  omega

omit [Usize] in
theorem length_extinfo (arch : Arch) (fd : Int32) : (extinfo arch fd).length = 48 := by
  unfold extinfo
  have whole : (Bytes.little 8 ANDROID_DLEXT_USE_LIBRARY_FD ++ List.replicate 40 0).length = 48 := by
    rw [List.length_append, length_little, List.length_replicate]
  dsimp only
  rw [length_splice, whole]
  rw [whole, length_little]
  split <;> decide

namespace Borrows

theorem giveUp (inCall : InCall origin tracee) (reason : String) :
    Borrows pid origin (Tame origin) (Daemon.abort pid tracee reason) :=
  abort inCall.same inCall.keeps inCall.calling.notEntry reason

theorem undoCall (inCall : InCall origin tracee) :
    Borrows pid origin (Tame origin) (do
        Daemon.undo pid tracee
        return .finished) :=
  undo inCall.same inCall.keeps inCall.calling.notEntry

theorem startDlopen (inCall : InCall origin tracee) (room : Room (BelowSaved origin) regs 119)
    (fd : Int32) : Borrows pid origin (Tame origin) (Daemon.startDlopen pid tracee regs fd) := by
  have same := inCall.same
  rcases alignStack_wrappingSub regs.sp (16 + 48 + 0x10) with ⟨slack, few, isStack⟩
  unfold Daemon.startDlopen
  apply bind_reads (reads_resolveFirst pid _)
  intro address
  cases address with
  | none => exact giveUp inCall _
  | some address =>
      have nameLength : (asBytes "libloader.so" ++ [0]).length = 13 := by decide
      dsimp only
      rw [nameLength, length_extinfo, isStack]
      apply bind_confined
      · apply Confined.writeMemory
        · rw [nameLength]
          exact small_count (by decide)
        · intro index inRun
          rw [nameLength] at inRun
          exact (room.1.mono (by omega)).run (by omega : 13 ≤ 80 + slack) inRun
      rintro nameWritten -
      split
      · exact giveUp inCall _
      apply bind_confined
      · apply Confined.writeMemory
        · rw [length_extinfo]
          exact small_count (by decide)
        · intro index inRun
          rw [length_extinfo] at inRun
          rw [wrappingAdd_of_wrappingSub (by omega)]
          exact (room.1.mono (by omega)).run (by omega : 48 ≤ 80 + slack - 16) inRun
      rintro infoWritten -
      split
      · exact giveUp inCall _
      apply bind_confined
      · apply confined_setupCall
        · simp
        · exact (room.2 (80 + slack) (by omega)).mono (by simp; omega)
      rintro entered -
      cases entered with
      | none => exact giveUp inCall _
      | some entered =>
          apply bind_confined (Confined.writeRegisters entered)
          rintro written -
          split
          · exact giveUp inCall _
          · exact resume same.withState (.inr (.inl rfl))

theorem finishInjection [Config.Build] (inCall : InCall origin tracee)
    (room : Room (BelowSaved origin) ((Regs.new tracee.arch).fill filled) (MAX_BYTES + 52)) :
    Borrows pid origin (Found origin filled) (Daemon.finishInjection pid tracee) := by
  apply bind_reads reads_effective
  intro config
  apply bind_reads (reads_perform .freshToken trivial)
  intro token
  dsimp only
  split
  case h_2 => exact found (giveUp inCall _)
  case h_1 bytes encoded =>
    have short := Plan.length_encode_le encoded
    apply bind_registers
    · exact found (giveUp inCall _)
    · generalize (Regs.new tracee.arch).fill filled = regs at *
      rcases alignStack_wrappingSub regs.sp (bytes.length + 0x10) with ⟨slack, few, isStack⟩
      dsimp only
      rw [isStack]
      apply found
      apply bind_confined
      · apply Confined.writeMemory
        · exact small_count (Nat.le_trans short (by decide))
        · intro index inRun
          exact (room.1.mono (by omega)).run (by omega : bytes.length ≤ bytes.length + 0x10 + slack)
            inRun
      rintro planWritten -
      split
      · exact giveUp inCall _
      apply bind_forM
      · intro module
        exact reads_perform (.spawnCompanion _ _ _ _) trivial
      intro _
      apply bind_confined
      · apply confined_setupCall
        · simp
        · exact (room.2 (bytes.length + 0x10 + slack) (by omega)).mono (by simp; omega)
      rintro entered -
      cases entered with
      | none => exact giveUp inCall _
      | some entered =>
          apply bind_confined (Confined.writeRegisters entered)
          rintro written -
          split
          · exact giveUp inCall _
          · exact resume inCall.same.withState (.inr (.inr (.inr (.inl rfl))))

theorem pumpModules [Config.Build] (inCall : InCall origin tracee)
    (small : tracee.moduleIndex < count)
    (room : Room (BelowSaved origin) ((Regs.new tracee.arch).fill filled) (MAX_BYTES + 52)) :
    Borrows pid origin (Found origin filled) (Daemon.pumpModules pid tracee) := by
  have same := inCall.same
  unfold Daemon.pumpModules
  split
  · exact finishInjection inCall room
  apply bind_reads (reads_readFile _)
  intro content
  cases content with
  | none => exact found (giveUp inCall _)
  | some content =>
      have reading : InCall origin { tracee with moduleContent := content } :=
        ⟨⟨same.exe, same.arch, same.entry, same.thumb, same.originalInstruction,
          same.breakpointSize, same.saved⟩, inCall.keeps, inCall.calling⟩
      apply bind_registers
      · exact found (giveUp reading _)
      · generalize (Regs.new tracee.arch).fill filled = regs at *
        have name := length_memfdName_module small
        have nameLength : (memfdName { tracee with moduleContent := content } .module).length ≤ 128 :=
          name
        have fits : (128 : Nat) + 52 ≤ MAX_BYTES + 52 := by decide
        have confined : Confined pid (BelowSaved origin)
            (startFile pid { tracee with moduleContent := content } .module regs) fun _ => True :=
          confined_startFile .module (by omega) (room.mono (by omega))
        apply found
        apply bind_confined (confined.and fun before =>
          Prog.wp_and (returns_startFile _ .module regs).wp (wp_startFile_state _ .module regs before))
        rintro ⟨started, next⟩ ⟨_, before, after, ⟨nextSame, isFile⟩, state⟩
        have calling : next.Calling := by
          rcases state with file | same
          · exact .inl file
          · have still := inCall.calling
            unfold Tracee.Calling at still ⊢
            rw [same.1]
            exact still
        have goes : InCall origin next := ⟨reading.same.trans nextSame, inCall.keeps, calling⟩
        cases started with
        | false => exact giveUp goes _
        | true => exact resume goes.same calling

theorem fileReady [Config.Build] (inCall : InCall origin tracee)
    (room : Room (BelowSaved origin) ((Regs.new tracee.arch).fill filled) (MAX_BYTES + 52)) :
    Borrows pid origin (Found origin filled)
      (Daemon.fileReady pid tracee ((Regs.new tracee.arch).fill filled)) := by
  have same := inCall.same
  unfold Daemon.fileReady
  dsimp only
  split
  · apply bind_reads (reads_perform (.writeToTargetFd pid _ _) trivial)
    intro filled
    split
    · exact found (giveUp inCall _)
    · exact found (startDlopen inCall (room.mono (by decide)) _)
  · apply bind_reads (reads_perform (.writeToTargetFd pid _ _) trivial)
    intro filled
    split
    · exact found (giveUp inCall _)
    · apply pumpModules
      · exact ⟨⟨same.exe, same.arch, same.entry, same.thumb, same.originalInstruction,
          same.breakpointSize, same.saved⟩, inCall.keeps, inCall.calling⟩
      · exact wrappingAdd_lt _ _
      · exact room

theorem trapFile [Config.Build] (inCall : InCall origin tracee)
    (room : Room (BelowSaved origin) ((Regs.new tracee.arch).fill filled) (MAX_BYTES + 52)) :
    Borrows pid origin (Found origin filled) (Daemon.trapFile pid tracee) := by
  have same := inCall.same
  apply bind_registers
  · exact found (giveUp inCall _)
  · apply bind_interpret
    intro _
    dsimp only
    split
    · split
      · exact found (giveUp inCall _)
      · exact found (giveUp inCall _)
    · refine fileReady ⟨⟨same.exe, same.arch, same.entry, same.thumb, same.originalInstruction,
        same.breakpointSize, same.saved⟩, inCall.keeps, inCall.calling⟩ room

theorem callDlerror (inCall : InCall origin tracee) (room : Room (BelowSaved origin) regs 63) :
    Borrows pid origin (Tame origin) (Daemon.callDlerror pid tracee regs) := by
  apply bind_reads (reads_resolveSymbol pid _ _)
  intro address
  cases address with
  | none => exact giveUp inCall _
  | some address =>
      apply bind_confined
      · apply confined_setupCall
        · simp
        · exact room.1.mono (by simp)
      rintro entered -
      cases entered with
      | none => exact giveUp inCall _
      | some entered =>
          apply bind_confined (Confined.writeRegisters entered)
          rintro written -
          exact resume inCall.same.withState (.inr (.inr (.inr (.inr rfl))))

theorem callDlsym (inCall : InCall origin tracee) (room : Room (BelowSaved origin) regs 63)
    (handle : Nat) : Borrows pid origin (Tame origin) (Daemon.callDlsym pid tracee regs handle) := by
  apply bind_reads (reads_resolveSymbol pid _ _)
  intro address
  cases address with
  | none => exact giveUp inCall _
  | some address =>
      have nameLength : (asBytes "znn_loader_init" ++ [0]).length = 16 := by decide
      rcases alignStack_wrappingSub regs.sp (16 + 0x10) with ⟨slack, few, isStack⟩
      dsimp only
      rw [nameLength, isStack]
      apply bind_confined
      · apply Confined.writeMemory
        · rw [nameLength]
          exact small_count (by decide)
        · intro index inRun
          rw [nameLength] at inRun
          exact (room.1.mono (by omega)).run (by omega : 16 ≤ 32 + slack) inRun
      rintro nameWritten -
      split
      · exact undoCall inCall
      apply bind_confined
      · apply confined_setupCall
        · simp
        · exact (room.2 (32 + slack) (by omega)).mono (by simp; omega)
      rintro entered -
      cases entered with
      | none => exact undoCall inCall
      | some entered =>
          apply bind_confined (Confined.writeRegisters entered)
          rintro written -
          split
          · exact undoCall inCall
          · exact resume inCall.same.withState (.inr (.inr (.inl rfl)))

theorem trapAfterDlopen (inCall : InCall origin tracee)
    (room : Room (BelowSaved origin) ((Regs.new tracee.arch).fill filled) 63) :
    Borrows pid origin (Found origin filled) (Daemon.trapAfterDlopen pid tracee) := by
  apply bind_registers
  · exact found (undoCall inCall)
  · apply bind_interpret
    intro _
    dsimp only
    split
    · exact found (callDlerror inCall room)
    · exact found (callDlsym inCall room _)

theorem trapAfterDlsym [Config.Build] (inCall : InCall origin tracee)
    (room : Room (BelowSaved origin) ((Regs.new tracee.arch).fill filled) (MAX_BYTES + 52)) :
    Borrows pid origin (Found origin filled) (Daemon.trapAfterDlsym pid tracee) := by
  have same := inCall.same
  apply bind_registers
  · exact found (undoCall inCall)
  · apply bind_interpret
    intro _
    dsimp only
    split
    · exact found (giveUp inCall _)
    apply bind_get
    intro daemon
    apply bind_reads (reads_librariesFor _ _)
    intro libraries
    have resolved (address : Nat) (index : Nat) (nonce : UInt32) : InCall origin
        { tracee with
          initFunction := address
          modules := Daemon.planModules libraries
          moduleIndex := index
          nonce := nonce } :=
      ⟨⟨same.exe, same.arch, same.entry, same.thumb, same.originalInstruction,
        same.breakpointSize, same.saved⟩, inCall.keeps, inCall.calling⟩
    split
    · exact found (giveUp (resolved _ tracee.moduleIndex tracee.nonce) _)
    apply bind_reads (reads_perform .freshNonce trivial)
    intro nonce
    exact pumpModules (resolved _ 0 nonce) count_pos room

theorem trapAfterDlerror (inCall : InCall origin tracee) :
    Borrows pid origin (Found origin filled) (Daemon.trapAfterDlerror pid tracee) := by
  apply bind_registers
  · exact found (undoCall inCall)
  · apply bind_interpret
    intro _
    have record (error : String) : Borrows pid origin (Found origin filled) (do
        Daemon.recordFailure pid tracee.exe ("dlopen failed: " ++ error)
        Daemon.undo pid tracee
        return Progress.finished) := by
      apply found
      exact recorded fun _ => undoCall inCall
    dsimp only
    split
    · exact record "(null)"
    · apply bind_reads (reads_readCString pid _)
      exact record

end Borrows

/-- How far below the stack pointer a step may write. -/
def stackNeed : State → Nat
  | .entry | .dlopen => 63
  | .file | .dlsym => MAX_BYTES + 52
  | .traced | .late | .init | .dlerror => 0

theorem borrows_step [Config.Build] (inCall : InCall origin tracee)
    (le : ((Regs.new tracee.arch).fill filled).sp ≤ origin.saved.sp)
    (enough : stackNeed tracee.state ≤ ((Regs.new tracee.arch).fill filled).sp) :
    Borrows pid origin (Found origin filled) (Daemon.step pid tracee) := by
  have room := room_belowSaved le enough
  rcases inCall.calling with state | state | state | state | state
  · rw [state] at room
    simp only [Daemon.step, state]
    exact Borrows.trapFile inCall room
  · rw [state] at room
    simp only [Daemon.step, state]
    exact Borrows.trapAfterDlopen inCall room
  · rw [state] at room
    simp only [Daemon.step, state]
    exact Borrows.trapAfterDlsym inCall room
  · simp only [Daemon.step, state]
    apply Borrows.found
    exact Borrows.recorded fun _ => Borrows.undoCall inCall
  · simp only [Daemon.step, state]
    exact Borrows.trapAfterDlerror inCall

end Handlers

section Entry

variable [Usize] {pid : Pid} {tracee : Tracee} {before : Process}

/-- The tracee has come to the breakpoint at its entry, and nothing has been written since. -/
structure AtEntryTrap (tracee : Tracee) (process : Process) : Prop where
  state : tracee.state = .entry
  known : tracee.arch ≠ .unknown
  keeps : KeepsInstruction tracee
  stopped : process.phase = .stopped
  edited : process.edited = ∅
  whole : process.regs.length = tracee.arch.registerSize
  pc : Daemon.comparedPc tracee.arch (process.registers tracee.arch) =
    if trapReportsNextInstruction tracee.arch then tracee.entry + 1 else tracee.entry

/-- The tracee with the registers that it has to be given back. -/
def Tracee.savedAt (tracee : Tracee) (process : Process) : Tracee :=
  { tracee with saved := rewound tracee (process.registers tracee.arch) }

theorem sp_savedAt (tracee : Tracee) (process : Process) :
    (tracee.savedAt process).saved.sp = (process.registers tracee.arch).sp := by
  change (rewound tracee (process.registers tracee.arch)).sp = _
  rw [rewound]
  split
  · exact Regs.sp_setPc _ _
  · rfl

/-- In the step at the entry of a target whose trap reports the next instruction, the registers
are read. -/
def SkidRead (tracee : Tracee) (_ : Process) : (request : Call) → request.Answer → Prop
  | .getRegset _ _, answer =>
      tracee.state = .entry → trapReportsNextInstruction tracee.arch = true → answer ≠ none
  | _, _ => True

theorem AtEntryTrap.skidded (start : AtEntryTrap tracee before)
    (skids : trapReportsNextInstruction tracee.arch = true) :
    (before.registers tracee.arch).pc = tracee.entry + 1 := by
  have pc := start.pc
  rw [if_pos skids, Daemon.comparedPc, if_neg] at pc
  · exact pc
  · intro isArm
    rw [isArm] at skids
    exact absurd skids (by decide)

theorem AtEntryTrap.wraps (start : AtEntryTrap tracee before)
    (skids : trapReportsNextInstruction tracee.arch = true) :
    wrappingAdd tracee.entry 1 = tracee.entry + 1 := by
  apply wrappingAdd_of_lt
  rw [← start.skidded skids]
  unfold Regs.pc
  cases (before.registers tracee.arch).arch.layout with
  | none => exact count_pos
  | some layout => exact (before.registers tracee.arch).read_lt layout.pc

theorem AtEntryTrap.expected (start : AtEntryTrap tracee before) :
    Daemon.comparedPc tracee.arch (before.registers tracee.arch) = Daemon.expectedPc tracee := by
  rw [start.pc, Daemon.expectedPc]
  split
  case isTrue skids => exact (start.wraps skids).symm
  · rfl

theorem AtEntryTrap.keepsSaved (start : AtEntryTrap tracee before) :
    KeepsInstruction (tracee.savedAt before) :=
  ⟨start.keeps.length, start.keeps.size⟩

theorem AtEntryTrap.tame (start : AtEntryTrap tracee before) :
    Tame (tracee.savedAt before) before := by
  refine ⟨start.stopped, ?_⟩
  rw [start.edited]
  exact Set.empty_subset _

/-- Where the trap reports the breakpoint itself, the registers are what they have to be. -/
theorem AtEntryTrap.regs (start : AtEntryTrap tracee before)
    (keepsPc : trapReportsNextInstruction tracee.arch = false) :
    before.regs = (tracee.savedAt before).saved.bytes := by
  change before.regs = (rewound tracee (before.registers tracee.arch)).bytes
  rw [rewound, keepsPc, if_neg Bool.false_ne_true, Process.registers, Regs.bytes_fill start.whole]

/-- A target that is let go before its first call, with the registers of the trap. -/
theorem wp_undo_atEntry (start : AtEntryTrap tracee before) {next : Tracee}
    (same : (tracee.savedAt before).SameTarget next) (state : next.state = .entry)
    {process : Process} (tame : Tame (tracee.savedAt before) process)
    (regs : process.regs = before.regs) (own : Daemon) :
    StateProg.wp (Process.machine.restrict (SkidRead tracee)) (Daemon.undo pid next)
      (fun _ _ last => Borrowed pid (tracee.savedAt before) .finished last) own process := by
  have arch : next.arch = tracee.arch := same.arch
  have entry : next.entry = tracee.entry := same.entry
  unfold Daemon.undo releaseTracee
  rw [StateProg.wp_bind, StateProg.wp_lift, Prog.bind_eq, Prog.wp_bind]
  apply Prog.wp_restrict
  apply Prog.wp_mono (wp_restoreEntry_code same start.keepsSaved tame)
  intro _ restored restoring
  rw [if_pos state]
  unfold unskipEntryInstruction
  rw [arch, entry]
  cases skids : trapReportsNextInstruction tracee.arch with
  | false =>
      rw [if_neg Bool.false_ne_true, Prog.pure_eq, Prog.wp_pure, StateProg.wp_lift]
      apply Prog.wp_restrict
      exact wp_letGoBack restoring (regs.trans (start.regs skids))
  | true =>
      rw [if_pos rfl]
      rintro filled after ⟨step, read⟩
      have unmoved : after = restored := by
        apply Process.step_reads _ step
        trivial
      rw [unmoved]
      rcases step.1 with unread | isRegs
      · exact absurd unread (read start.state skids)
      · rw [isRegs]
        have found : (Regs.new tracee.arch).fill restored.regs = before.registers tracee.arch := by
          rw [restoring.regs, regs]
          rfl
        have saved : ((before.registers tracee.arch).setPc tracee.entry).bytes =
            (tracee.savedAt before).saved.bytes := by
          change _ = (rewound tracee (before.registers tracee.arch)).bytes
          rw [rewound, if_pos skids]
        have atSkid : (before.registers tracee.arch).pc = wrappingAdd tracee.entry 1 := by
          rw [start.skidded skids, start.wraps skids]
        dsimp only [Prog.bind, Prog.pure_eq]
        rw [found, if_pos atSkid]
        have giving : Prog.wp (Process.machine.restrict (SkidRead tracee)) _ _ restored :=
          Prog.wp_restrict (wp_giveBack restoring _ saved)
        exact giving

theorem wp_startLoader_giveBack (start : AtEntryTrap tracee before) {process : Process}
    (tame : Tame (tracee.savedAt before) process) (regs : process.regs = before.regs)
    (room : Room (BelowSaved (tracee.savedAt before)) (tracee.savedAt before).saved 63)
    (own : Daemon) :
    StateProg.wp (Process.machine.restrict (SkidRead tracee))
      (Daemon.startLoader pid (tracee.savedAt before) (tracee.savedAt before).saved)
      (fun progress _ after => Borrowed pid (tracee.savedAt before) progress after) own process := by
  have name := length_memfdName_loader (tracee.savedAt before)
  have confined : Confined pid (BelowSaved (tracee.savedAt before))
      (startFile pid (tracee.savedAt before) .loader (tracee.savedAt before).saved)
      fun _ => True :=
    confined_startFile .loader (by rw [name]; decide) (by rw [name]; exact room)
  have state : (tracee.savedAt before).state = .entry := start.state
  unfold Daemon.startLoader
  rw [StateProg.wp_bind, StateProg.wp_lift]
  apply Prog.wp_restrict
  apply Prog.wp_mono (Prog.wp_and (confined process)
    (Prog.wp_and (returns_startFile _ .loader _).wp (wp_startFile_state _ .loader _ process)))
  rintro ⟨started, next⟩ called ⟨⟨_, inside⟩, ⟨same, isFile⟩, how⟩
  have calledTame : Tame (tracee.savedAt before) called := by
    refine ⟨inside.phase.trans tame.stopped, fun address isEdited => ?_⟩
    rcases inside.edited isEdited with already | below
    · exact tame.edited already
    · exact .inl below
  cases started with
  | true =>
      dsimp only
      rw [if_neg (by decide)]
      apply StateProg.wp_restrict
      exact Borrows.resume same (.inl (isFile rfl)) own called calledTame
  | false =>
      dsimp only
      rw [if_pos (by rfl), StateProg.wp_bind]
      rcases how with file | ⟨isEntry, sameRegs⟩
      · apply StateProg.wp_restrict
        apply wp_undo_giveBack same start.keepsSaved _ calledTame
        rw [file]
        decide
      · exact wp_undo_atEntry start same (isEntry.trans state) calledTame (sameRegs.trans regs) own

/-- The step at the entry. -/
theorem wp_trapAtEntry_giveBack (start : AtEntryTrap tracee before)
    (enough : stackNeed .entry ≤ (before.registers tracee.arch).sp) (own : Daemon) :
    StateProg.wp (Process.machine.restrict (SkidRead tracee)) (Daemon.trapAtEntry pid tracee)
      (fun progress _ after => Borrowed pid (tracee.savedAt before) progress after) own before := by
  unfold Daemon.trapAtEntry
  rw [StateProg.wp_bind, StateProg.wp_lift]
  rintro filled after ⟨step, read⟩
  have unmoved : after = before := by
    apply Process.step_reads _ step
    trivial
  rw [unmoved]
  rcases step.1 with unread | isRegs
  · have keepsPc : trapReportsNextInstruction tracee.arch = false := by
      rw [Bool.eq_false_iff]
      exact fun skids => read start.state skids unread
    have sameEntry : restoreEntry pid tracee = restoreEntry pid (tracee.savedAt before) := rfl
    rw [unread]
    dsimp only [Prog.bind, Prog.pure_eq]
    rw [Prog.wp_pure]
    apply StateProg.wp_restrict
    rw [sameEntry, StateProg.wp_bind, StateProg.wp_lift]
    apply Prog.wp_mono (wp_restoreEntry_code (.refl _) start.keepsSaved start.tame)
    intro _ restored restoring
    rw [StateProg.wp_bind, StateProg.wp_lift]
    exact wp_letGoBack restoring (start.regs keepsPc)
  · have found : (Regs.new tracee.arch).fill before.regs = before.registers tracee.arch := rfl
    rw [isRegs]
    dsimp only [Prog.bind, Prog.pure_eq]
    rw [Prog.wp_pure, found]
    dsimp only
    rw [if_neg (not_not.mpr start.expected)]
    apply wp_startLoader_giveBack start start.tame rfl
    apply room_belowSaved le_rfl
    rw [sp_savedAt]
    exact enough

end Entry

section Injections

/-- What is asked of a run besides: of the answers in the step of a tracee, and of the process
when the step begins. -/
structure Terms where
  answers : Tracee → Process → (request : Call) → request.Answer → Prop
  stop : Tracee → Process → Prop

def anyTerms : Terms where
  answers _ _ _ _ := True
  stop _ _ := True

variable [Usize]

/-- The registers are read at the entry where the trap skids, and the stack pointer is as far from
zero as the step may write below it. -/
def soundTerms : Terms where
  answers := SkidRead
  stop tracee process := stackNeed tracee.state ≤ (process.registers tracee.arch).sp

/-- The call in the target has come to an end, with a stack pointer not above the saved one. The
target may have changed everything else. -/
structure CallReturned (tracee : Tracee) (running stopped : Process) : Prop where
  phase : stopped.phase = .stopped
  edited : stopped.edited = running.edited
  heard : stopped.heard = running.heard
  sp : (stopped.registers tracee.arch).sp ≤ tracee.saved.sp

/-- The steps of an injection, each from a stop of the target, up to the one that ends it. -/
inductive Injection [Config.Build] (terms : Terms) (pid : Pid) : Tracee → Process → Process → Prop
  | finish {tracee : Tracee} {own own' : Daemon} {before after : Process}
      (stop : terms.stop tracee before)
      (run : StateProg.Runs (Process.machine.restrict (terms.answers tracee))
        (Daemon.step pid tracee) own before .finished own' after) :
      Injection terms pid tracee before after
  | call {tracee next : Tracee} {own own' : Daemon} {before running stopped after : Process}
      (stop : terms.stop tracee before)
      (run : StateProg.Runs (Process.machine.restrict (terms.answers tracee))
        (Daemon.step pid tracee) own before (.tracing next) own' running)
      (returned : CallReturned next running stopped)
      (rest : Injection terms pid next stopped after) : Injection terms pid tracee before after

/-- A target in which a call has ended. -/
structure Underway (origin tracee : Tracee) (process : Process) : Prop where
  inCall : InCall origin tracee
  tame : Tame origin process
  sp : (process.registers tracee.arch).sp ≤ origin.saved.sp

variable {pid : Pid} {origin tracee next : Tracee} {before running stopped after : Process}

theorem Underway.of_call (borrowed : Borrowed pid origin (.tracing next) running)
    (keeps : KeepsInstruction origin) (returned : CallReturned next running stopped) :
    Underway origin next stopped := by
  rcases borrowed with ⟨edited, same, calling⟩
  refine ⟨⟨same, keeps, calling⟩, ⟨returned.phase, ?_⟩, ?_⟩
  · rw [returned.edited]
    exact edited
  · rw [← same.saved]
    exact returned.sp

variable [Config.Build]

/-- One step of a target in which a call has ended. -/
theorem Underway.step {own own' : Daemon} {progress : Progress}
    (underway : Underway origin tracee before) (stop : soundTerms.stop tracee before)
    (run : StateProg.Runs (Process.machine.restrict (soundTerms.answers tracee))
      (Daemon.step pid tracee) own before progress own' after) :
    Borrowed pid origin progress after := by
  have borrows : Borrows pid origin (Found origin before.regs) (Daemon.step pid tracee) :=
    borrows_step underway.inCall underway.sp stop
  exact run.of_wp (StateProg.wp_restrict (borrows own before ⟨underway.tame, rfl⟩))

theorem Underway.givenBack (underway : Underway origin tracee before)
    (injection : Injection soundTerms pid tracee before after) :
    Borrowed pid origin .finished after := by
  induction injection with
  | finish stop run => exact underway.step stop run
  | call stop run returned rest ih =>
      exact ih (.of_call (underway.step stop run) underway.inCall.keeps returned)

/-- The target runs on from its entry as if nothing had been done to it. -/
structure Transparent (tracee : Tracee) (before after : Process) : Prop where
  resumed : after.phase = .free
  code : load after.mem tracee.entry tracee.breakpointSize =
    tracee.originalInstruction.take tracee.breakpointSize
  pc : Daemon.comparedPc tracee.arch (after.registers tracee.arch) = tracee.entry
  others : ∀ layout, tracee.arch.layout = some layout →
    ∀ index, index < layout.pc ∨ layout.pc + layout.word ≤ index →
      after.regs[index]? = before.regs[index]?
  written : ∀ address ∈ after.edited, Covers tracee.entry tracee.breakpointSize address ∨
    address < (before.registers tracee.arch).sp

omit [Config.Build] in
theorem Transparent.of_givenBack (start : AtEntryTrap tracee before)
    (edited : after.edited ⊆ BelowSaved (tracee.savedAt before) ∪ AtBreakpoint (tracee.savedAt before))
    (back : GivenBack (tracee.savedAt before) after) : Transparent tracee before after := by
  have isSaved : (tracee.savedAt before).saved =
      rewound tracee (before.registers tracee.arch) := rfl
  have registers := back.regs
  rw [isSaved, rewound] at registers
  refine ⟨back.free, back.code, ?_, ?_, ?_⟩
  · cases skids : trapReportsNextInstruction tracee.arch with
    | false =>
        have unchanged : after.regs = before.regs := back.regs.trans (start.regs skids).symm
        have pc := start.pc
        rw [skids, if_neg Bool.false_ne_true] at pc
        rw [Process.registers, unchanged]
        exact pc
    | true =>
        rw [skids, if_pos rfl] at registers
        have notArm : tracee.arch ≠ .arm32 := by
          intro isArm
          rw [isArm] at skids
          exact absurd skids (by decide)
        cases known : tracee.arch.layout with
        | none =>
            have unknown : tracee.arch = .unknown := by
              cases isArch : tracee.arch <;> rw [isArch] at known <;> first | rfl | cases known
            exact absurd unknown start.known
        | some layout =>
            have isArch : (before.registers tracee.arch).arch = tracee.arch := rfl
            have knownHere : (before.registers tracee.arch).arch.layout = some layout := known
            have read := Regs.read_lt_word knownHere layout.pc
            rw [← Regs.pc_eq knownHere, start.skidded skids] at read
            have small : tracee.entry < count := by
              have readSmall := (before.registers tracee.arch).read_lt layout.pc
              rw [← Regs.pc_eq knownHere, start.skidded skids] at readSmall
              omega
            have knownAfter : (after.registers tracee.arch).arch.layout = some layout := known
            have setArch : ((before.registers tracee.arch).setPc tracee.entry).arch =
                tracee.arch := by
              rw [Regs.setPc_arch]
              exact isArch
            rw [Daemon.comparedPc, if_neg notArm, Regs.pc_eq knownAfter, Process.registers,
              registers, Regs.read_fill_bytes setArch known (Regs.layout_pc known).1,
              ← Regs.pc_eq (by rw [setArch]; exact known), Regs.pc_setPc knownHere small,
              Nat.mod_eq_of_lt (by omega)]
  · intro layout known index apart
    have found : (before.registers tracee.arch).bytes = before.regs := Regs.bytes_fill start.whole
    rw [registers]
    split
    · rw [Regs.setPc_bytes_getElem? (by exact known) apart, found]
    · rw [found]
  · intro address isEdited
    rcases edited isEdited with below | covered
    · right
      rw [← sp_savedAt]
      exact below
    · exact .inl covered

/-- An injection that ends gives the target back as it was at the entry trap, whatever the calls
did and wherever it failed, if every step met the terms and the restoring writes were granted. -/
theorem transparent_of_injection (start : AtEntryTrap tracee before)
    (injection : Injection soundTerms pid tracee before after)
    (restored : AllRestored pid after) : Transparent tracee before after := by
  have entering {own own' : Daemon} {progress : Progress} {last : Process}
      (stop : soundTerms.stop tracee before)
      (run : StateProg.Runs (Process.machine.restrict (soundTerms.answers tracee))
        (Daemon.step pid tracee) own before progress own' last) :
      Borrowed pid (tracee.savedAt before) progress last := by
    change stackNeed tracee.state ≤ _ at stop
    rw [start.state] at stop
    have isEntry : Daemon.step pid tracee = Daemon.trapAtEntry pid tracee := by
      rw [Daemon.step, start.state]
    rw [isEntry] at run
    exact run.of_wp (wp_trapAtEntry_giveBack start stop own)
  have finished : Borrowed pid (tracee.savedAt before) .finished after := by
    cases injection with
    | finish stop run => exact entering stop run
    | call stop run returned rest =>
        exact (Underway.of_call (entering stop run) start.keepsSaved returned).givenBack rest
  exact .of_givenBack start finished.1 (finished.2 restored)

/-- The same of every run. -/
def AlwaysTransparent : Prop :=
  ∀ pid tracee before after, AtEntryTrap tracee before → Injection anyTerms pid tracee before after →
    AllRestored pid after → Transparent tracee before after

end Injections

section Runs

/-- The registers of a process at `pc`, with the given stack pointer. -/
def stackedAt (arch : Arch) (pc sp : Nat) : List UInt8 :=
  (((Regs.new arch).setPc pc).setSp sp).bytes

/-- A process at the breakpoint of its entry, which is at 4112. -/
def trappedAt (arch : Arch) (pc : Nat) : Process where
  mem := fun _ => 0
  edited := ∅
  regs := stackedAt arch pc 65536
  header := ⟨true, Elf.ET_DYN, Elf.EM_AARCH64, 16⟩
  phase := .stopped
  heard := []

/-- The tracee of such a process. -/
def traceeAt (arch : Arch) : Tracee :=
  { Tracee.new .entry arch with
    entry := 4112
    breakpointSize := (arch.breakpoint false).length
    exe := "/a" }

/-- One step of the injection. -/
def stepAt (script : (request : Call) → request.Answer) (tracee : Tracee) (process : Process) :
    (Progress × Daemon) × Process :=
  Prog.eval (I := Sys) (@Process.scripted .eight script)
    ((@Daemon.step .eight .arm64 100 tracee).run {}) process

theorem runs_stepAt {script : (request : Call) → request.Answer}
    {allowed : Process → (request : Call) → request.Answer → Prop}
    (meets : ∀ process request, allowed process request (@Process.truthful .eight script process request))
    (tracee : Tracee) (process : Process) :
    StateProg.Runs ((@Process.machine .eight).restrict allowed)
      (@Daemon.step .eight .arm64 100 tracee) {} process (stepAt script tracee process).1.1
      (stepAt script tracee process).1.2 (stepAt script tracee process).2 :=
  @Process.runs_scripted_restrict .eight _ _ script allowed meets _ _ _

deriving instance DecidableEq for Progress

/-- The tracee that a step goes on with. -/
def goesOn (progress : Progress) (otherwise : Tracee) : Tracee :=
  match progress with
  | .tracing next => next
  | .finished => otherwise

/-- The first call has been started at the entry. -/
def calledA : (Progress × Daemon) × Process :=
  stepAt (runningA (some [])) (traceeAt .arm64) (trappedAt .arm64 4112)

/-- The tracee in which the call runs. -/
def callingA : Tracee :=
  goesOn calledA.1.1 (traceeAt .arm64)

/-- The call has ended and left other registers and another memory. -/
def returnedFrom (running : Process) : Process :=
  { running with
    mem := fun address => UInt8.ofNat address
    regs := stackedAt .arm64 4112 65000
    phase := .stopped }

theorem callReturned_returnedFrom (tracee : Tracee) (running : Process)
    (le : @Regs.sp .eight ((returnedFrom running).registers tracee.arch) ≤
      @Regs.sp .eight tracee.saved) :
    @CallReturned .eight tracee running (returnedFrom running) :=
  @CallReturned.mk .eight _ _ _ rfl rfl rfl le

/-- The process in which the first call has ended. -/
def returnedA : Process :=
  returnedFrom calledA.2

/-- The loader cannot be filled in, and the target is let go. -/
def letGoA : (Progress × Daemon) × Process :=
  stepAt (runningA (some [])) callingA returnedA

theorem skidRead_runningA {tracee : Tracee} (process : Process) (request : Call) :
    SkidRead tracee process request
      (@Process.truthful .eight (runningA (some [])) process request) := by
  cases request with
  | getRegset pid length =>
      intro _ _
      simp [Process.truthful, runningA]
  | _ => trivial

/-- The marks say of every restoring write that it was granted. -/
def restoresAll (heard : Transcript) : Bool :=
  heard.all fun
    | ⟨.note (.restored _ ok), _⟩ => ok
    | _ => true

theorem allRestored_of_restoresAll {pid : Pid} {process : Process}
    (restores : restoresAll process.heard = true) : AllRestored pid process := by
  intro ok present
  exact List.all_eq_true.mp restores _ present

theorem atEntryTrap_arm64 : @AtEntryTrap .eight (traceeAt .arm64) (trappedAt .arm64 4112) :=
  @AtEntryTrap.mk .eight _ _ rfl (by decide) ⟨rfl, by decide⟩ rfl rfl (by decide +kernel)
    (by decide +kernel)

/-- A target whose loader cannot be filled in runs on from its entry. -/
theorem transparent_after_unfilled_loader :
    @Transparent .eight (traceeAt .arm64) (trappedAt .arm64 4112) letGoA.2 := by
  have started := runs_stepAt (@skidRead_runningA (traceeAt .arm64)) (traceeAt .arm64)
    (trappedAt .arm64 4112)
  have goes : (stepAt (runningA (some [])) (traceeAt .arm64) (trappedAt .arm64 4112)).1.1 =
      .tracing callingA := by decide +kernel
  rw [goes] at started
  have ended := runs_stepAt (@skidRead_runningA callingA) callingA returnedA
  have ends : (stepAt (runningA (some [])) callingA returnedA).1.1 = .finished := by
    decide +kernel
  rw [ends] at ended
  have returned : @CallReturned .eight callingA calledA.2 returnedA :=
    callReturned_returnedFrom callingA calledA.2 (by decide +kernel)
  have restores : restoresAll letGoA.2.heard = true := by decide +kernel
  have injection : @Injection .eight .arm64 (@soundTerms .eight) 100 (traceeAt .arm64)
      (trappedAt .arm64 4112) letGoA.2 := by
    apply @Injection.call .eight .arm64 (@soundTerms .eight) 100 _ _ _ _ _ _ _ _ _ started returned
    · have far : stackNeed callingA.state ≤ @Regs.sp .eight (returnedA.registers callingA.arch) := by
        decide +kernel
      exact @Injection.finish .eight .arm64 (@soundTerms .eight) 100 _ _ _ _ _ far ended
    · change 63 ≤ @Regs.sp .eight ((trappedAt .arm64 4112).registers .arm64)
      decide +kernel
  exact @transparent_of_injection .eight 100 (traceeAt .arm64) (trappedAt .arm64 4112) letGoA.2
    .arm64 atEntryTrap_arm64 injection (allRestored_of_restoresAll restores)

/-- The registers of an x86_64 target are not read at its entry: its program counter stays behind
the breakpoint. -/
theorem skid_left_by_unread_entry : ¬@AlwaysTransparent .eight ⟨.x86_64⟩ := by
  intro always
  have start : @AtEntryTrap .eight (traceeAt .x86_64) (trappedAt .x86_64 4113) :=
    @AtEntryTrap.mk .eight _ _ rfl (by decide) ⟨rfl, by decide⟩ rfl rfl (by decide +kernel)
      (by decide +kernel)
  have run := @Process.runs_scripted_restrict .eight _ _ (runningA none) (fun _ _ _ => True)
    (fun _ _ => trivial) (@Daemon.step .eight ⟨.x86_64⟩ 100 (traceeAt .x86_64)) {}
    (trappedAt .x86_64 4113)
  dsimp only at run
  generalize isEnd : Prog.eval (I := Sys) (@Process.scripted .eight (runningA none))
    ((@Daemon.step .eight ⟨.x86_64⟩ 100 (traceeAt .x86_64)).run {}) (trappedAt .x86_64 4113) = last
    at run
  have ends : last.1.1 = .finished := by
    rw [← isEnd]
    decide +kernel
  have restores : restoresAll last.2.heard = true := by
    rw [← isEnd]
    decide +kernel
  have pc : @Daemon.comparedPc .eight .x86_64 (last.2.registers .x86_64) = 4113 := by
    rw [← isEnd]
    decide +kernel
  rw [ends] at run
  have injection : @Injection .eight ⟨.x86_64⟩ anyTerms 100 (traceeAt .x86_64)
      (trappedAt .x86_64 4113) last.2 :=
    @Injection.finish .eight ⟨.x86_64⟩ anyTerms 100 _ _ _ _ _ trivial run
  have transparent := always 100 _ _ _ start injection (allRestored_of_restoresAll restores)
  have rewindsTo : @Daemon.comparedPc .eight .x86_64 (last.2.registers .x86_64) = 4112 :=
    @Transparent.pc .eight _ _ _ transparent
  exact absurd (pc.symm.trans rewindsTo) (by decide)

end Runs

end Znn.Injector
