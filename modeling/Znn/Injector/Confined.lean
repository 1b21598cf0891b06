import Znn.Injector.Writes
import Znn.Injector.Registers

/-!
# Calls prepared on the stack of the target

What the injector puts into a target for a call lies below the stack pointer: names, plans,
arguments, return addresses. `Confined pid region program` says that a program writes nothing
outside a region of the memory; `Room` that the region has space below a stack pointer.
-/

namespace Znn.Injector

open Interaction PtraceOps Trace Bytes Usize

variable [Usize]

/-- The process is as before, up to its registers and the bytes in the region. -/
structure Inside (pid : Pid) (region : Set Nat) (before after : Process) : Prop where
  header : after.header = before.header
  phase : after.phase = before.phase
  mem : ∀ address ∉ region, after.mem address = before.mem address
  edited : after.edited ⊆ before.edited ∪ region
  heard : ∃ new, after.heard = before.heard ++ new ∧
    (∀ exchange ∈ new, exchange.1.edits pid) ∧
    ∀ word, (∀ address ∈ region, alignDown address ≠ word) → pokesAt word new = []

section Inside

variable {pid : Pid} {region : Set Nat} {first second third : Process}

theorem Inside.refl (process : Process) : Inside pid region process process :=
  ⟨rfl, rfl, fun _ _ => rfl, Set.subset_union_left, [], by simp, by simp, fun _ _ => rfl⟩

theorem Inside.trans (left : Inside pid region first second)
    (right : Inside pid region second third) : Inside pid region first third := by
  rcases left.heard with ⟨new, heard, edits, apart⟩
  rcases right.heard with ⟨more, heardMore, editsMore, apartMore⟩
  refine ⟨right.header.trans left.header, right.phase.trans left.phase, ?_, ?_,
    new ++ more, ?_, ?_, ?_⟩
  · intro address outside
    rw [right.mem address outside, left.mem address outside]
  · intro address isEdited
    rcases right.edited isEdited with already | inside
    · exact left.edited already
    · exact .inr inside
  · rw [heardMore, heard, List.append_assoc]
  · intro exchange present
    rcases List.mem_append.mp present with inNew | inMore
    · exact edits exchange inNew
    · exact editsMore exchange inMore
  · intro word outside
    rw [pokesAt_append, apart word outside, apartMore word outside]
    rfl

theorem Inside.of_written {address done upto : Nat} {buffer : List UInt8}
    (written : Written pid address buffer done upto first second)
    (short : buffer.length ≤ count)
    (inside : ∀ index < buffer.length, wrappingAdd address index ∈ region) :
    Inside pid region first second := by
  have fits := written.fits
  refine ⟨written.header, written.phase, ?_, ?_, ?_⟩
  · intro target outside
    rw [written.mem, store_of_not_covers]
    rw [covers_iff (by simp; omega)]
    rintro ⟨index, near, same⟩
    simp only [List.length_take, List.length_drop] at near
    rw [wrappingAdd_wrappingAdd] at same
    exact outside (same ▸ inside (done + index) (by omega))
  · intro target isEdited
    rcases written.edited isEdited with already | ⟨index, _, bound, same⟩
    · exact .inl already
    · exact .inr (same ▸ inside index (by omega))
  · rcases written.heard with ⟨new, heard, arePokes, atWord⟩
    refine ⟨new, heard, ?_, ?_⟩
    · intro exchange present
      rcases arePokes exchange present with ⟨target, word, isPoke⟩
      rw [isPoke]
      rfl
    · intro word outside
      rcases atWord word with ⟨none, _⟩ | ⟨_, ⟨index, _, bound, same⟩, _⟩
      · exact none
      · exact absurd same (outside _ (inside index (by omega)))

end Inside

/-- Every run of the program writes inside the region only and ends in a good value. -/
def Confined {α : Type} (pid : Pid) (region : Set Nat) (program : Prog Sys α)
    (good : α → Prop) : Prop :=
  ∀ before, program.wp Process.machine
    (fun value after => good value ∧ Inside pid region before after) before

namespace Confined

variable {α β : Type} {pid : Pid} {region : Set Nat} {good : α → Prop} {better : β → Prop}

theorem pure {value : α} (holds : good value) : Confined pid region (Prog.pure value) good :=
  fun before => ⟨holds, Inside.refl before⟩

theorem bind {program : Prog Sys α} {rest : α → Prog Sys β}
    (head : Confined pid region program good)
    (tail : ∀ value, good value → Confined pid region (rest value) better) :
    Confined pid region (program.bind rest) better := by
  intro before
  rw [Prog.wp_bind]
  apply Prog.wp_mono (head before)
  rintro value middle ⟨isGood, inside⟩
  apply Prog.wp_mono (tail value isGood middle)
  rintro result after ⟨isBetter, insideTail⟩
  exact ⟨isBetter, inside.trans insideTail⟩

theorem mono {weaker : α → Prop} {program : Prog Sys α}
    (confined : Confined pid region program good) (implies : ∀ value, good value → weaker value) :
    Confined pid region program weaker := by
  intro before
  apply Prog.wp_mono (confined before)
  rintro value after ⟨isGood, inside⟩
  exact ⟨implies value isGood, inside⟩

/-- What is known of the results besides. -/
theorem and {weaker : α → Process → Process → Prop} {program : Prog Sys α}
    (confined : Confined pid region program good)
    (holds : ∀ before, program.wp Process.machine (fun value after => weaker value before after)
      before) :
    Confined pid region program fun value => good value ∧ ∃ before after, weaker value before after := by
  intro before
  apply Prog.wp_mono (Prog.wp_and (confined before) (holds before))
  rintro value after ⟨⟨isGood, inside⟩, isWeaker⟩
  exact ⟨⟨isGood, before, after, isWeaker⟩, inside⟩

theorem reads {program : Prog Sys α} (calls : Only Call.reads program)
    (returns : program.Returns good) : Confined pid region program good := by
  intro before
  have same : program.wp Process.machine (fun _ after => after = before) before :=
    Process.wp_reads calls fun _ => rfl
  apply Prog.wp_mono (Prog.wp_and returns.wp same)
  rintro value _ ⟨isGood, rfl⟩
  exact ⟨isGood, Inside.refl _⟩

theorem anyValue {program : Prog Sys α} (calls : Only Call.reads program) :
    Confined pid region program fun _ => True :=
  reads calls (Prog.Returns.of_forall program fun _ => trivial)

theorem writeMemory {address : Nat} {buffer : List UInt8}
    (short : buffer.length + Usize.bytes ≤ count)
    (inside : ∀ index < buffer.length, wrappingAdd address index ∈ region) :
    Confined pid region (writeMemory pid address buffer) fun _ => True := by
  intro before
  apply Prog.wp_mono (wp_writeMemory short)
  rintro ok after ⟨upto, written, _⟩
  exact ⟨trivial, Inside.of_written written (by omega) inside⟩

theorem writeRegisters (regs : Regs) :
    Confined pid region (writeRegisters pid regs) fun _ => True := by
  intro before ok after step
  have moved := step.2
  refine ⟨trivial, ?_⟩
  cases ok with
  | true =>
      rw [moved]
      refine ⟨rfl, rfl, fun _ _ => rfl, Set.subset_union_left, _, rfl, ?_, fun _ _ => rfl⟩
      intro exchange present
      cases List.mem_singleton.mp present
      rfl
  | false =>
      rw [moved]
      refine ⟨rfl, rfl, fun _ _ => rfl, Set.subset_union_left, _, rfl, ?_, fun _ _ => rfl⟩
      intro exchange present
      cases List.mem_singleton.mp present
      rfl

theorem restored (ok : Bool) : Confined pid region (note (.restored pid ok)) fun _ => True := by
  intro before answer after step
  refine ⟨trivial, ?_⟩
  rw [step.2]
  refine ⟨rfl, rfl, fun _ _ => rfl, Set.subset_union_left, _, rfl, ?_, fun _ _ => rfl⟩
  intro exchange present
  cases List.mem_singleton.mp present
  rfl

end Confined

/-- The `size` bytes below the stack pointer are in the region. -/
def Below (region : Set Nat) (stack size : Nat) : Prop :=
  ∀ depth < size, wrappingSub stack (depth + 1) ∈ region

/-- The region has `size` bytes below the stack pointer of the registers, and still has what is
left of them when the stack pointer is lowered. -/
def Room (region : Set Nat) (regs : Regs) (size : Nat) : Prop :=
  Below region regs.sp size ∧ ∀ used ≤ size,
    Below region (regs.setSp (wrappingSub regs.sp used)).sp (size - used)

section Stack

variable {pid : Pid} {region : Set Nat} {regs : Regs}

theorem Below.mono {stack less more : Nat} (below : Below region stack more) (le : less ≤ more) :
    Below region stack less :=
  fun depth bound => below depth (by omega)

theorem Below.lower {stack used size : Nat} (below : Below region stack (used + size)) :
    Below region (wrappingSub stack used) size := by
  intro depth bound
  rw [wrappingSub_wrappingSub]
  exact below (used + depth) (by omega)

/-- A run of bytes that starts below the stack pointer and ends at or under it. -/
theorem Below.run {stack depth length index : Nat} (below : Below region stack depth)
    (le : length ≤ depth) (inRun : index < length) :
    wrappingAdd (wrappingSub stack depth) index ∈ region := by
  rw [wrappingAdd_of_wrappingSub (by omega)]
  have member := below (depth - index - 1) (by omega)
  rwa [Nat.sub_add_cancel (by omega)] at member

theorem Room.mono {less more : Nat} (room : Room region regs more) (le : less ≤ more) :
    Room region regs less := by
  refine ⟨room.1.mono le, fun used bound => ?_⟩
  exact (room.2 used (by omega)).mono (by omega)

theorem alignStack_wrappingSub (stack depth : Nat) :
    ∃ slack < 16, alignStack (wrappingSub stack depth) = wrappingSub stack (depth + slack) := by
  have small := wrappingSub_lt stack depth
  refine ⟨wrappingSub stack depth % 16, Nat.mod_lt _ (by decide), ?_⟩
  rw [← wrappingSub_wrappingSub, wrappingSub_of_le (Nat.mod_le _ _) small]
  rfl

theorem small_count {size : Nat} (bound : size ≤ 2 ^ 16) : size + Usize.bytes ≤ count := by
  rcases bytes_eq with four | eight
  · rw [count, four]
    omega
  · rw [count, eight]
    omega

theorem confined_pushArguments (arguments : List Nat) {stack : Nat} (small : stack < count)
    (below : Below region stack (4 * arguments.length)) :
    Confined pid region (pushArguments pid stack arguments) fun lowered =>
      ∀ address, lowered = some address → address = wrappingSub stack (4 * arguments.length) := by
  induction arguments generalizing stack with
  | nil =>
      apply Confined.pure
      rintro address ⟨⟩
      exact (wrappingSub_of_le (Nat.zero_le stack) small).symm
  | cons argument rest ih =>
      rw [List.length_cons] at below ⊢
      apply Confined.bind
      · apply Confined.writeMemory
        · rw [length_little]
          exact small_count (by decide)
        · intro index inRun
          rw [length_little] at inRun
          exact (below.mono (by omega)).run le_rfl inRun
      rintro ok -
      split
      · apply Confined.pure
        rintro address ⟨⟩
      · apply Confined.mono (ih (wrappingSub_lt stack 4) (Below.lower (below.mono (by omega))))
        intro lowered isLowered address found
        rw [isLowered address found, wrappingSub_wrappingSub]
        congr 1
        omega

/-- A call is prepared below the stack pointer. -/
theorem confined_setupCall (function returnTo : Nat) {arguments : List Nat}
    (few : arguments.length ≤ 16) (below : Below region regs.sp (8 + 4 * arguments.length)) :
    Confined pid region (setupCall pid regs function returnTo arguments) fun _ => True := by
  have bytesLe : Usize.bytes ≤ 8 := by
    rcases bytes_eq with four | eight <;> omega
  unfold setupCall
  split
  · exact Confined.pure trivial
  · exact Confined.pure trivial
  · exact Confined.pure trivial
  · cases set : setAllArguments regs 0 arguments with
    | none => exact Confined.pure trivial
    | some next =>
        dsimp only
        rw [(Regs.sp_setAllArguments arguments set).2]
        apply Confined.bind
        · apply Confined.writeMemory
          · rw [length_little]
            exact small_count (by omega)
          · intro index inRun
            rw [length_little] at inRun
            exact (below.mono (by omega)).run le_rfl inRun
        rintro ok -
        split <;> exact Confined.pure trivial
  · apply Confined.bind
    · apply confined_pushArguments _ regs.sp_lt
      rw [List.length_reverse]
      exact below.mono (by omega)
    intro lowered isLowered
    cases lowered with
    | none => exact Confined.pure trivial
    | some stack =>
        rw [isLowered stack rfl, List.length_reverse]
        apply Confined.bind
        · apply Confined.writeMemory
          · rw [length_little]
            exact small_count (by decide)
          · intro index inRun
            rw [length_little] at inRun
            rw [wrappingSub_wrappingSub]
            exact (below.mono (by omega)).run (by omega) inRun
        rintro ok -
        split <;> exact Confined.pure trivial
  · exact Confined.pure trivial

/-- What `push_bytes` returns: the stack pointer has been lowered to where the bytes are. -/
def Pushed (regs : Regs) (size : Nat) (pushed : Option (Regs × Nat)) : Prop :=
  ∀ lowered address, pushed = some (lowered, address) →
    ∃ slack < 16, address = wrappingSub regs.sp (size + 0x10 + slack) ∧
      lowered = regs.setSp address

theorem confined_pushBytes {bytes : List UInt8} (short : bytes.length ≤ 2 ^ 15)
    (below : Below region regs.sp (bytes.length + 32)) :
    Confined pid region (pushBytes pid regs bytes) (Pushed regs bytes.length) := by
  rcases alignStack_wrappingSub regs.sp (bytes.length + 0x10) with ⟨slack, few, isAddress⟩
  unfold pushBytes
  dsimp only
  rw [isAddress]
  apply Confined.bind
  · apply Confined.writeMemory (small_count (by omega))
    intro index inRun
    exact (below.mono (by omega)).run (by omega) inRun
  rintro ok -
  split
  · apply Confined.pure
    rintro lowered address ⟨⟩
  · apply Confined.pure
    rintro lowered address ⟨⟩
    exact ⟨slack, few, rfl, rfl⟩

theorem confined_armCall (tracee : Tracee) (function : Nat) {arguments : List Nat}
    (few : arguments.length ≤ 16) (below : Below region regs.sp (8 + 4 * arguments.length)) :
    Confined pid region (armCall pid tracee regs function arguments) fun _ => True := by
  apply Confined.bind (confined_setupCall function _ few below)
  rintro entered -
  cases entered with
  | none => exact Confined.pure trivial
  | some entered =>
      apply Confined.bind (Confined.writeRegisters entered)
      rintro written -
      exact Confined.pure trivial

theorem confined_startMemfd {tracee : Tracee} (short : tracee.fileName.length ≤ 2 ^ 15)
    (room : Room region regs (tracee.fileName.length + 52)) :
    Confined pid region (startMemfd pid tracee regs) fun _ => True := by
  apply Confined.bind (Confined.anyValue (reads_resolveSymbol pid _ _))
  rintro address -
  cases address with
  | none => exact Confined.pure trivial
  | some address =>
      apply Confined.bind (confined_pushBytes short (room.1.mono (by omega)))
      intro pushed isPushed
      cases pushed with
      | none => exact Confined.pure trivial
      | some pushed =>
          rcases pushed with ⟨lowered, name⟩
          rcases isPushed lowered name rfl with ⟨slack, few, rfl, rfl⟩
          apply confined_armCall _ _ (by simp)
          exact (room.2 _ (by omega)).mono (by simp; omega)

omit [Usize] in
theorem length_memfdName_loader (tracee : Tracee) : (memfdName tracee .loader).length = 11 := by
  change (asBytes "znn-loader" ++ [0]).length = 11
  decide

theorem confined_startFile {tracee : Tracee} (purpose : FilePurpose)
    (short : (memfdName tracee purpose).length ≤ 2 ^ 15)
    (room : Room region regs ((memfdName tracee purpose).length + 52)) :
    Confined pid region (startFile pid tracee purpose regs) fun _ => True := by
  unfold startFile
  split
  · apply Confined.bind (Confined.anyValue (reads_readFile _))
    rintro content -
    cases content with
    | none => exact Confined.pure trivial
    | some content => exact confined_startMemfd short room
  · exact confined_startMemfd short room

end Stack

section Release

variable {pid : Pid}

theorem confined_unskipEntryInstruction (region : Set Nat) (tracee : Tracee) :
    Confined pid region (unskipEntryInstruction pid tracee) fun _ => True := by
  unfold unskipEntryInstruction
  split
  · apply Confined.bind (Confined.anyValue (reads_readRegisters pid _))
    rintro regs -
    cases regs with
    | none => exact Confined.pure trivial
    | some regs =>
        dsimp only
        split
        · apply Confined.bind (Confined.writeRegisters _)
          rintro ok -
          exact Confined.restored ok
        · exact Confined.pure trivial
  · exact Confined.pure trivial

/-- Once the entry is restored, releasing a tracee is a matter of its registers. -/
theorem confined_releaseRegisters (region : Set Nat) (tracee : Tracee) :
    Confined pid region (if tracee.state = .entry then
        unskipEntryInstruction pid tracee
      else do
        let restored ← writeRegisters pid tracee.saved
        note (.restored pid restored)) fun _ => True := by
  split
  · exact confined_unskipEntryInstruction region tracee
  · apply Confined.bind (Confined.writeRegisters _)
    rintro ok -
    exact Confined.restored ok

/-- A program that writes nowhere changes no byte. -/
theorem Inside.nowhere {before after : Process} (inside : Inside pid ∅ before after) :
    after.mem = before.mem ∧ ∀ word, pokesAt word after.heard = pokesAt word before.heard := by
  constructor
  · funext address
    exact inside.mem address (Set.notMem_empty address)
  · intro word
    rcases inside.heard with ⟨new, heard, _, apart⟩
    rw [heard, pokesAt_append, apart word (by simp), List.append_nil]

end Release

end Znn.Injector
