import Znn.Injector.Alignment
import Znn.Injector.Breakpoint

/-!
# The stack below a late stop

A late injection interrupts a function anywhere. On x86_64 the function may keep data in the 128
bytes below its stack pointer. The injector goes 16 bytes below the stack pointer, with the name of
its first memfd: so a late injection leaves those bytes alone only if it writes nothing.
-/

namespace Znn.Injector

open Interaction Trace PtraceOps Bytes Usize

variable [Usize] {pid : Pid} {tracee next : Tracee} {before middle after : Process} {entry size : Nat}

/-- A word of the target's stack is written: one that has no byte of the breakpoint. -/
def StackPoke (entry size : Nat) : Exchange Sys → Prop
  | ⟨.pokeData _ address _, true⟩ =>
      ∀ offset < Usize.bytes, ¬Covers entry size (wrappingAdd address offset)
  | _ => False

/-- The word that is written is below the red zone. -/
def BelowRedZone (sp : Nat) : Exchange Sys → Prop
  | ⟨.pokeData _ address _, _⟩ => address + Usize.bytes + 128 ≤ sp
  | _ => True

/-- Everything that is written to the stack is. -/
def RedZoneKept (entry size sp : Nat) (transcript : Transcript) : Prop :=
  ∀ exchange ∈ transcript, StackPoke entry size exchange → BelowRedZone sp exchange

/-- A target that a late injection has stopped: the tracee has its program counter for the entry,
and the breakpoint there is not in the red zone. -/
structure LateStop (tracee : Tracee) (process : Process) : Prop where
  state : tracee.state = .late
  arch : tracee.arch = .x86_64
  keeps : KeepsInstruction tracee
  entry : (process.registers tracee.arch).pc = tracee.entry
  code : ∀ depth, 0 < depth → depth ≤ 128 →
    ¬Covers tracee.entry tracee.breakpointSize
      (wrappingSub (process.registers tracee.arch).sp depth)

/-- Nothing has been written to the stack since. -/
def StackKept (entry size : Nat) (before after : Process) : Prop :=
  ∃ new, after.heard = before.heard ++ new ∧ ∀ exchange ∈ new, ¬StackPoke entry size exchange

/-- Something has been written to the red zone or above it since. -/
def RedZoneHit (entry size sp : Nat) (before after : Process) : Prop :=
  ∃ new, after.heard = before.heard ++ new ∧
    ∃ exchange ∈ new, StackPoke entry size exchange ∧ ¬BelowRedZone sp exchange

section Histories

variable {α : Type} {program : Prog Sys α}

/-- What a process has heard it keeps. -/
theorem wp_heard (program : Prog Sys α) (process : Process) :
    program.wp Process.machine (fun _ after => ∃ new, after.heard = process.heard ++ new) process := by
  induction program generalizing process with
  | pure value => exact ⟨[], (List.append_nil _).symm⟩
  | call request next ih =>
      rintro answer middle ⟨_, isMiddle⟩
      apply Prog.wp_mono (ih answer middle)
      rintro value after ⟨new, heard⟩
      refine ⟨kept request answer ++ new, ?_⟩
      rw [heard, isMiddle, List.append_assoc]

theorem StackKept.refl (process : Process) : StackKept entry size process process :=
  ⟨[], (List.append_nil _).symm, fun _ present => absurd present List.not_mem_nil⟩

theorem StackKept.trans (early : StackKept entry size before middle)
    (late : StackKept entry size middle after) : StackKept entry size before after := by
  rcases early with ⟨new, heard, none⟩
  rcases late with ⟨newer, heardLater, noneLater⟩
  refine ⟨new ++ newer, ?_, List.forall_mem_append.mpr ⟨none, noneLater⟩⟩
  rw [heardLater, heard, List.append_assoc]

/-- A hit stays one, whatever follows. -/
theorem RedZoneHit.later {sp : Nat} {new : Transcript} (hit : RedZoneHit entry size sp before middle)
    (heard : after.heard = middle.heard ++ new) : RedZoneHit entry size sp before after := by
  rcases hit with ⟨first, isFirst, exchange, present, hits⟩
  refine ⟨first ++ new, ?_, exchange, List.mem_append_left new present, hits⟩
  rw [heard, isFirst, List.append_assoc]

/-- Calls that write no memory. -/
def Call.noPoke : Call → Prop
  | .pokeData _ _ _ => False
  | _ => True

theorem wp_noPoke (calls : Only Call.noPoke program) (process : Process) :
    program.wp Process.machine (fun _ after => StackKept entry size process after) process := by
  apply Prog.All.wp_frame (StackKept entry size) _ StackKept.refl StackKept.trans
  apply calls.mono
  intro request noPoke before answer after step
  refine ⟨kept request answer, by rw [step.2], ?_⟩
  intro exchange present
  cases request <;> first
    | exact noPoke.elim
    | exact absurd present List.not_mem_nil
    | (cases List.mem_singleton.mp present; exact id)

end Histories

section Writes

theorem alignStack_dvd (address : Nat) : Usize.bytes ∣ alignStack address := by
  have sixteen : 16 ∣ alignStack address := Nat.dvd_sub_mod address
  apply Nat.dvd_trans _ sixteen
  rcases bytes_eq with four | eight
  · rw [four]
    decide
  · rw [eight]
    decide

/-- The words of the breakpoint are not of the stack. -/
theorem Written.stackKept {buffer : List UInt8} {upto : Nat}
    (written : Written pid entry buffer 0 upto before after) (short : buffer.length ≤ size)
    (small : size ≤ count) : StackKept entry size before after := by
  rcases written.heard with ⟨new, heard, _, atWord⟩
  refine ⟨new, heard, ?_⟩
  rintro ⟨request, answer⟩ present isStack
  cases request with
  | pokeData target address word =>
      cases answer with
      | false => exact isStack
      | true =>
          have poked : word ∈ pokesAt address new := mem_pokesAt.mpr ⟨target, present⟩
          rcases atWord address with ⟨none, _⟩ | ⟨_, ⟨index, _, bound, isWord⟩, _⟩
          · rw [none] at poked
            exact absurd poked List.not_mem_nil
          · have fits := written.fits
            have near := sub_alignDown_lt (wrappingAdd entry index)
            apply isStack (wrappingAdd entry index - alignDown (wrappingAdd entry index)) near
            rw [← isWord, wrappingAdd_alignDown (wrappingAdd_lt _ _), covers_iff small]
            exact ⟨index, by omega, rfl⟩
  | _ => exact isStack

theorem wp_restoreEntry_kept {process : Process} (keeps : KeepsInstruction tracee) :
    (restoreEntry pid tracee).wp Process.machine (fun _ after =>
      StackKept tracee.entry tracee.breakpointSize process after) process := by
  have small : tracee.breakpointSize + Usize.bytes ≤ count :=
    small_count (Nat.le_trans keeps.size (by decide))
  unfold restoreEntry
  split
  · rw [Prog.bind_eq, Prog.wp_bind]
    have length : (tracee.originalInstruction.take tracee.breakpointSize).length ≤
        tracee.breakpointSize := List.length_take_le _ _
    apply Prog.wp_mono (wp_writeMemory (by omega))
    rintro ok written ⟨upto, writing, _⟩
    have marks : Only Call.noPoke (note (.restored pid ok)) := ⟨trivial, fun _ => trivial⟩
    apply Prog.wp_mono (wp_noPoke marks written)
    intro _ after kept
    exact (writing.stackKept length (by omega)).trans kept
  · exact .refl process

/-- Bytes pushed near the stack pointer hit the red zone with their first word. -/
theorem wp_pushed_hit {regs : Regs} {bytes : List UInt8} {process : Process}
    (some : 0 < bytes.length) (short : bytes.length ≤ 64)
    (code : ∀ depth, 0 < depth → depth ≤ 128 → ¬Covers entry size (wrappingSub regs.sp depth)) :
    (writeMemory pid (alignStack (wrappingSub regs.sp (bytes.length + 0x10))) bytes).wp
      Process.machine (fun ok after => RedZoneHit entry size regs.sp process after ∨
        ok = false ∧ StackKept entry size process after) process := by
  have room : bytes.length + Usize.bytes ≤ count := small_count (by omega)
  have bytesLe : Usize.bytes ≤ 8 := by
    rcases bytes_eq with four | eight <;> omega
  rcases alignStack_wrappingSub regs.sp (bytes.length + 0x10) with ⟨slack, few, isStack⟩
  have aligned : alignDown (alignStack (wrappingSub regs.sp (bytes.length + 0x10))) =
      alignStack (wrappingSub regs.sp (bytes.length + 0x10)) := by
    rw [alignDown, Nat.mod_eq_zero_of_dvd (alignStack_dvd _), Nat.sub_zero]
  rw [isStack] at aligned ⊢
  generalize isDepth : bytes.length + 0x10 + slack = depth at *
  have wide : 2 ^ 32 ≤ count := word_le_count
  have spLt := regs.sp_lt
  have below : ¬wrappingSub regs.sp depth + Usize.bytes + 128 ≤ regs.sp := by
    by_cases wraps : depth ≤ regs.sp
    · rw [wrappingSub_of_le wraps spLt]
      omega
    · rw [wrappingSub, Nat.mod_eq_of_lt (by omega : depth < count), Nat.mod_eq_of_lt (by omega)]
      omega
  apply Prog.wp_mono (wp_writeMemory room)
  rintro ok after ⟨upto, written, complete⟩
  rcases Nat.eq_zero_or_pos upto with none | reached
  · subst none
    have notWhole : ok = false := by
      cases ok with
      | false => rfl
      | true =>
          have whole := complete.mp rfl
          omega
    refine .inr ⟨notWhole, ?_⟩
    rcases written.heard with ⟨new, heard, pokes, atWord⟩
    refine ⟨new, heard, ?_⟩
    rintro ⟨request, answer⟩ present isStack
    cases request with
    | pokeData target address word =>
        cases answer with
        | false => exact isStack
        | true =>
            have poked : word ∈ pokesAt address new := mem_pokesAt.mpr ⟨target, present⟩
            rcases atWord address with ⟨none, _⟩ | ⟨_, ⟨index, _, bound, _⟩, _⟩
            · rw [none] at poked
              exact absurd poked List.not_mem_nil
            · omega
    | _ => exact isStack
  · left
    rcases written.heard with ⟨new, heard, _, atWord⟩
    refine ⟨new, heard, ?_⟩
    have start : wrappingAdd (wrappingSub regs.sp depth) 0 = wrappingSub regs.sp depth := by
      rw [wrappingAdd_zero (wrappingSub_lt _ _)]
    rcases atWord (wrappingSub regs.sp depth) with ⟨_, untouched⟩ | ⟨poked, _⟩
    · apply absurd _ (untouched 0 (Nat.le_refl 0) reached)
      rw [start, aligned]
    · have member : load after.mem (wrappingSub regs.sp depth) Usize.bytes ∈
          pokesAt (wrappingSub regs.sp depth) new := by
        rw [poked]
        exact List.mem_singleton_self _
      rcases mem_pokesAt.mp member with ⟨target, present⟩
      refine ⟨_, present, ?_, below⟩
      intro offset inWord
      rw [wrappingAdd_of_wrappingSub (by omega)]
      exact code _ (by omega) (by omega)

end Writes

section Steps

variable {sp : Nat} {regs : Regs} {process : Process}

/-- The start of a file either hits the red zone, or has failed before it wrote anything. -/
def Strikes (entry size sp : Nat) (origin : Process) (started : Bool) (after : Process) : Prop :=
  RedZoneHit entry size sp origin after ∨ started = false ∧ StackKept entry size origin after

omit [Usize] in
theorem Call.noPoke_of_reads (request : Call) (isRead : request.reads) : request.noPoke := by
  cases request <;> first | exact isRead.elim | trivial

theorem wp_startMemfd_strikes (some : 0 < tracee.fileName.length)
    (short : tracee.fileName.length ≤ 64)
    (code : ∀ depth, 0 < depth → depth ≤ 128 → ¬Covers entry size (wrappingSub regs.sp depth)) :
    (startMemfd pid tracee regs).wp Process.machine
      (fun result after => Strikes entry size regs.sp process result.1 after) process := by
  unfold startMemfd
  rw [Prog.bind_eq, Prog.wp_bind]
  apply Process.wp_reads (reads_resolveSymbol pid _ _)
  intro function
  cases function with
  | none => exact .inr ⟨rfl, .refl process⟩
  | some function =>
      dsimp only
      unfold pushBytes
      rw [Prog.bind_eq, Prog.bind_eq, Prog.wp_bind, Prog.wp_bind]
      apply Prog.wp_mono (wp_pushed_hit some short code)
      rintro ok middle (hit | ⟨rfl, stackKept⟩)
      · -- Whatever the rest of the call does, the name is where it is.
        rw [← Prog.wp_bind]
        apply Prog.wp_mono (wp_heard _ middle)
        rintro result after ⟨new, heard⟩
        exact .inl (hit.later heard)
      · exact .inr ⟨rfl, stackKept⟩

theorem wp_startFile_strikes
    (code : ∀ depth, 0 < depth → depth ≤ 128 → ¬Covers entry size (wrappingSub regs.sp depth)) :
    (startFile pid tracee .loader regs).wp Process.machine
      (fun result after => Strikes entry size regs.sp process result.1 after) process := by
  have name := length_memfdName_loader tracee
  unfold startFile
  split
  · rw [Prog.bind_eq, Prog.wp_bind]
    apply Process.wp_reads (reads_readFile _)
    intro content
    cases content with
    | none => exact .inr ⟨rfl, .refl process⟩
    | some content =>
        apply wp_startMemfd_strikes _ _ code
        · exact Nat.lt_of_lt_of_eq (by decide : 0 < 11) name.symm
        · exact Nat.le_trans (Nat.le_of_eq name) (by decide)
  · apply wp_startMemfd_strikes _ _ code
    · exact Nat.lt_of_lt_of_eq (by decide : 0 < 11) name.symm
    · exact Nat.le_trans (Nat.le_of_eq name) (by decide)

theorem noPoke_unskip (tracee : Tracee) :
    Only Call.noPoke (unskipEntryInstruction pid tracee) := by
  unfold unskipEntryInstruction
  split
  · apply Prog.All.bind ((reads_readRegisters pid _).mono Call.noPoke_of_reads)
    intro regs
    cases regs with
    | none => trivial
    | some regs =>
        dsimp only
        split
        · exact ⟨trivial, fun ok => ⟨trivial, fun _ => trivial⟩⟩
        · trivial
  · trivial

theorem wp_undo_kept (keeps : KeepsInstruction next) (own : Daemon) :
    StateProg.wp Process.machine (Daemon.undo pid next)
      (fun _ _ after => StackKept next.entry next.breakpointSize process after) own process := by
  have lets : Only Call.noPoke (Ptrace.detach pid none) := ⟨trivial, fun _ => trivial⟩
  unfold Daemon.undo releaseTracee
  rw [StateProg.wp_bind, StateProg.wp_lift, Prog.bind_eq, Prog.wp_bind]
  apply Prog.wp_mono (wp_restoreEntry_kept keeps)
  intro _ restored restoring
  have gives : Only Call.noPoke (if next.state = .entry then unskipEntryInstruction pid next
      else do
        let restored ← writeRegisters pid next.saved
        note (.restored pid restored)) := by
    split
    · exact noPoke_unskip next
    · exact ⟨trivial, fun ok => ⟨trivial, fun _ => trivial⟩⟩
  apply Prog.wp_mono (wp_noPoke gives restored)
  intro _ released releasing
  rw [StateProg.wp_lift]
  apply Prog.wp_mono (wp_noPoke lets released)
  intro _ after letting
  exact (restoring.trans releasing).trans letting

/-- The first step of a late injection hits the red zone, or it is the last and has written nothing
to the stack. -/
theorem wp_trapAtLate_strikes (stop : LateStop tracee before) (own : Daemon) :
    StateProg.wp Process.machine (Daemon.trapAtLate pid tracee) (fun progress _ after =>
      RedZoneHit tracee.entry tracee.breakpointSize (before.registers tracee.arch).sp before after ∨
        progress = .finished ∧ StackKept tracee.entry tracee.breakpointSize before after)
      own before := by
  have lets : Only Call.noPoke (Ptrace.detach pid none) := ⟨trivial, fun _ => trivial⟩
  unfold Daemon.trapAtLate
  rw [StateProg.wp_bind, StateProg.wp_lift]
  apply Process.wp_readRegisters
  · rw [StateProg.wp_bind, StateProg.wp_lift]
    apply Prog.wp_mono (wp_restoreEntry_kept stop.keeps)
    intro _ restored restoring
    rw [StateProg.wp_bind, StateProg.wp_lift]
    apply Prog.wp_mono (wp_noPoke lets restored)
    intro _ after letting
    exact .inr ⟨rfl, restoring.trans letting⟩
  · have notArm : decide (tracee.arch = .arm32 ∧
        (before.registers tracee.arch).pc % 2 ≠ 0) = false := by
      rw [stop.arch]
      rfl
    change StateProg.wp Process.machine (Daemon.startLoader pid
      { tracee with
        thumb := decide (tracee.arch = .arm32 ∧ (before.registers tracee.arch).pc % 2 ≠ 0)
        entry := if decide (tracee.arch = .arm32 ∧ (before.registers tracee.arch).pc % 2 ≠ 0) then
          (before.registers tracee.arch).pc - 1 else (before.registers tracee.arch).pc
        saved := before.registers tracee.arch } (before.registers tracee.arch)) _ own before
    rw [notArm, if_neg Bool.false_ne_true, stop.entry]
    unfold Daemon.startLoader
    rw [StateProg.wp_bind, StateProg.wp_lift]
    apply Prog.wp_mono (Prog.wp_and (wp_startFile_strikes stop.code)
      (returns_startFile _ .loader _).wp)
    rintro ⟨started, next⟩ after ⟨hit | ⟨rfl, stackKept⟩, same, _⟩
    · apply Prog.wp_mono (wp_heard _ after)
      rintro result last ⟨new, heard⟩
      exact .inl (hit.later heard)
    · have keeps : KeepsInstruction next := by
        refine ⟨?_, ?_⟩
        · rw [same.originalInstruction]
          exact stop.keeps.length
        · rw [same.breakpointSize]
          exact stop.keeps.size
      dsimp only
      rw [if_pos (by rfl), StateProg.wp_bind]
      apply StateProg.wp_mono (wp_undo_kept keeps own)
      intro _ own' last undone
      rw [same.entry, same.breakpointSize] at undone
      exact .inr ⟨rfl, stackKept.trans undone⟩

end Steps

section Injections

variable [Config.Build] {new : Transcript}

theorem Injection.heard {terms : Terms} (injection : Injection terms pid tracee before after) :
    ∃ new, after.heard = before.heard ++ new := by
  have grows {tracee : Tracee} {own own' : Daemon} {progress : Progress} {before after : Process}
      (run : StateProg.Runs (Process.machine.restrict (terms.answers tracee))
        (Daemon.step pid tracee) own before progress own' after) :
      ∃ new, after.heard = before.heard ++ new := by
    have holds : StateProg.wp Process.machine (Daemon.step pid tracee)
        (fun _ _ after => ∃ new, after.heard = before.heard ++ new) own before :=
      wp_heard _ before
    exact run.of_wp (StateProg.wp_restrict holds)
  induction injection with
  | finish stop run => exact grows run
  | call stop run returned rest ih =>
      rcases grows run with ⟨first, isFirst⟩
      rcases ih with ⟨later, isLater⟩
      refine ⟨first ++ later, ?_⟩
      rw [isLater, returned.heard, isFirst, List.append_assoc]

/-- A late injection leaves the red zone alone exactly if it writes nothing to the stack at all. -/
theorem redZoneKept_iff (stop : LateStop tracee before)
    (injection : Injection anyTerms pid tracee before after)
    (heard : after.heard = before.heard ++ new) :
    RedZoneKept tracee.entry tracee.breakpointSize (before.registers tracee.arch).sp new ↔
      ∀ exchange ∈ new, ¬StackPoke tracee.entry tracee.breakpointSize exchange := by
  have first {own own' : Daemon} {progress : Progress} {last : Process}
      (run : StateProg.Runs (Process.machine.restrict (anyTerms.answers tracee))
        (Daemon.step pid tracee) own before progress own' last) :
      RedZoneHit tracee.entry tracee.breakpointSize (before.registers tracee.arch).sp before last ∨
        progress = .finished ∧ StackKept tracee.entry tracee.breakpointSize before last := by
    have isLate : Daemon.step pid tracee = Daemon.trapAtLate pid tracee := by
      rw [Daemon.step, stop.state]
    rw [isLate] at run
    exact run.of_wp (StateProg.wp_restrict (wp_trapAtLate_strikes stop own))
  have cases : RedZoneHit tracee.entry tracee.breakpointSize (before.registers tracee.arch).sp
      before after ∨ StackKept tracee.entry tracee.breakpointSize before after := by
    cases injection with
    | finish _ run =>
        rcases first run with hit | ⟨_, stackKept⟩
        · exact .inl hit
        · exact .inr stackKept
    | call _ run returned rest =>
        rcases first run with hit | ⟨going, _⟩
        · rcases rest.heard with ⟨later, isLater⟩
          rw [returned.heard] at isLater
          exact .inl (hit.later isLater)
        · cases going
  rcases cases with ⟨other, isOther, exchange, present, isStack, above⟩ | ⟨other, isOther, none⟩
  · rw [heard, List.append_cancel_left_eq] at isOther
    subst isOther
    exact iff_of_false (fun kept => above (kept exchange present isStack))
      (fun none => none exchange present isStack)
  · rw [heard, List.append_cancel_left_eq] at isOther
    subst isOther
    exact iff_of_true (fun exchange present isStack => absurd isStack (none exchange present)) none

/-- The law for every late injection. -/
def RedZonesKept : Prop :=
  ∀ pid tracee before after new, LateStop tracee before →
    Injection anyTerms pid tracee before after → after.heard = before.heard ++ new →
      RedZoneKept tracee.entry tracee.breakpointSize (before.registers tracee.arch).sp new

end Injections

section Runs

/-- A late target whose stack pointer is `0x10000`. -/
def lateX : Tracee :=
  { traceeAt .x86_64 with state := .late }

omit [Usize] in
theorem lateStop_lateX : @LateStop .eight lateX (trappedAt .x86_64 4112) := by
  refine @LateStop.mk .eight _ _ rfl rfl ⟨by decide, by decide⟩ (by decide +kernel) ?_
  intro depth some few covered
  have sp : @Regs.sp .eight ((trappedAt .x86_64 4112).registers lateX.arch) = 65536 := by
    decide +kernel
  have near := covered.2
  change @wrappingSub .eight (@wrappingSub .eight _ depth) 4112 < 1 at near
  rw [sp] at near
  have isCount : @count .eight = 256 ^ 8 := rfl
  simp only [wrappingSub, isCount] at near
  omega

/-- Its injection, given up in the first step. -/
def givenUpX (script : (request : Call) → request.Answer) : (Progress × Daemon) × Process :=
  stepAt script lateX (trappedAt .x86_64 4112)

omit [Usize] in
theorem injection_givenUpX {script : (request : Call) → request.Answer}
    (ends : (givenUpX script).1.1 = .finished) :
    @Injection .eight .arm64 anyTerms 100 lateX (trappedAt .x86_64 4112) (givenUpX script).2 := by
  have run := @runs_stepAt script (fun _ _ _ => True) (fun _ _ => trivial) lateX
    (trappedAt .x86_64 4112)
  change StateProg.Runs _ _ _ _ (givenUpX script).1.1 (givenUpX script).1.2 (givenUpX script).2 at run
  rw [ends] at run
  exact @Injection.finish .eight .arm64 anyTerms 100 lateX {} _ (trappedAt .x86_64 4112)
    (givenUpX script).2 trivial run

omit [Usize] in
/-- The name of the first memfd is written 32 bytes below the stack pointer. -/
theorem red_zone_overwritten : ¬@RedZonesKept .eight .arm64 := by
  intro always
  have zoneKept := always 100 lateX _ (givenUpX unwritableA).2 (givenUpX unwritableA).2.heard
    lateStop_lateX (injection_givenUpX (by decide +kernel)) rfl
  have present : (⟨.pokeData 100 65504 [122, 110, 110, 45, 108, 111, 97, 100], true⟩ :
      Exchange Sys) ∈ (givenUpX unwritableA).2.heard :=
    List.mem_of_getElem? (rfl : (givenUpX unwritableA).2.heard[0]? = _)
  have below := zoneKept _ present (by
    intro offset inWord covered
    have near := covered.2
    change @wrappingSub .eight (@wrappingAdd .eight 65504 offset) 4112 < 1 at near
    change offset < 8 at inWord
    have isCount : @count .eight = 256 ^ 8 := rfl
    simp only [wrappingSub, wrappingAdd, isCount] at near
    omega)
  have sp : @Regs.sp .eight ((trappedAt .x86_64 4112).registers lateX.arch) = 65536 := by
    decide +kernel
  change 65504 + 8 + 128 ≤ @Regs.sp .eight _ at below
  rw [sp] at below
  omega

/-- Nothing can be written. -/
def unpokedX : (request : Call) → request.Answer
  | .pokeData _ _ _ => false
  | request => runningA (some []) request

omit [Usize] in
/-- Where nothing can be written the red zone is left alone. -/
theorem red_zone_unpoked :
    @RedZoneKept .eight lateX.entry lateX.breakpointSize
      (@Regs.sp .eight ((trappedAt .x86_64 4112).registers lateX.arch))
      (givenUpX unpokedX).2.heard := by
  apply (@redZoneKept_iff .eight 100 lateX (trappedAt .x86_64 4112) (givenUpX unpokedX).2 .arm64
    (givenUpX unpokedX).2.heard lateStop_lateX (injection_givenUpX (by decide +kernel)) rfl).mpr
  have refused : (givenUpX unpokedX).2.heard.all (fun exchange => match exchange with
      | ⟨.pokeData _ _ _, true⟩ => false
      | _ => true) = true := by
    decide +kernel
  rintro ⟨request, answer⟩ present isStack
  have one := List.all_eq_true.mp refused _ present
  cases request with
  | pokeData pid address word =>
      cases answer with
      | false => exact isStack
      | true => cases one
  | _ => exact isStack

end Runs

end Znn.Injector
