import Znn.Injector.Interworking

/-!
# Calls as they are entered

`setup_call` writes registers of a layout and pushes what the convention of the target has on the
stack. Here the pushes are one run of bytes below the stack pointer, and the registers one list of
writes, so that the five layouts differ only in the two.
-/

namespace Znn.Injector

open Interaction PtraceOps Bytes Usize

namespace Regs

/-- Two registers of a width that do not overlap. -/
def Apart (word first second : Nat) : Prop :=
  first + word ≤ second ∨ second + word ≤ first

instance (word first second : Nat) : Decidable (Apart word first second) :=
  inferInstanceAs (Decidable (_ ∨ _))

theorem Apart.symm {word first second : Nat} (apart : Apart word first second) :
    Apart word second first :=
  Or.symm apart

/-- What a register holds, whatever the width of the tracer. -/
def contents (regs : Regs) (word offset : Nat) : Nat :=
  littleValue ((regs.buffer.drop offset).take word)

/-- Registers written one after the other. -/
def writes (regs : Regs) (values : List (Nat × Nat)) : Regs :=
  values.foldl (fun regs value => regs.write value.1 value.2) regs

variable {regs : Regs} {layout : Layout} {offset other value : Nat} {values : List (Nat × Nat)}

theorem writes_arch (regs : Regs) (values : List (Nat × Nat)) :
    (regs.writes values).arch = regs.arch := by
  induction values generalizing regs with
  | nil => rfl
  | cons first rest ih => exact (ih _).trans (write_arch _ _ _)

theorem writes_append (regs : Regs) (first second : List (Nat × Nat)) :
    regs.writes (first ++ second) = (regs.writes first).writes second :=
  List.foldl_append

theorem contents_lt (regs : Regs) (word offset : Nat) : regs.contents word offset < 256 ^ word := by
  apply Nat.lt_of_lt_of_le (littleValue_lt _)
  apply Nat.pow_le_pow_right (by omega)
  simp

theorem contents_write (known : regs.arch.layout = some layout)
    (fits : offset + layout.word ≤ REGS_CAPACITY) :
    (regs.write offset value).contents layout.word offset = value % 256 ^ layout.word := by
  have full := regs.length_buffer
  have slice := splice_slice_self regs.buffer (little layout.word value)
    (by omega : offset ≤ regs.buffer.length)
  rw [length_little] at slice
  rw [contents, write_buffer known fits, slice, littleValue_little]

/-- A byte outside the register that is written stays. -/
theorem write_getElem? (known : regs.arch.layout = some layout)
    (fits : offset + layout.word ≤ REGS_CAPACITY) {index : Nat}
    (outside : index < offset ∨ offset + layout.word ≤ index) :
    (regs.write offset value).buffer[index]? = regs.buffer[index]? := by
  have full := regs.length_buffer
  rw [write_buffer known fits]
  apply splice_getElem?_of_apart
  · rw [length_little]
    omega
  · rwa [length_little]

theorem writes_getElem? (known : regs.arch.layout = some layout)
    (fit : ∀ value ∈ values, value.1 + layout.word ≤ REGS_CAPACITY) {index : Nat}
    (outside : ∀ value ∈ values, index < value.1 ∨ value.1 + layout.word ≤ index) :
    (regs.writes values).buffer[index]? = regs.buffer[index]? := by
  induction values generalizing regs with
  | nil => rfl
  | cons first rest ih =>
      rw [List.forall_mem_cons] at fit outside
      have knownNext : (regs.write first.1 first.2).arch.layout = some layout := by
        rwa [write_arch]
      exact (ih knownNext fit.2 outside.2).trans (write_getElem? known fit.1 outside.1)

theorem contents_writes_of_apart (known : regs.arch.layout = some layout)
    (fit : ∀ value ∈ values, value.1 + layout.word ≤ REGS_CAPACITY)
    (apart : ∀ value ∈ values, Apart layout.word other value.1) :
    (regs.writes values).contents layout.word other = regs.contents layout.word other := by
  have slice : ((regs.writes values).buffer.drop other).take layout.word =
      (regs.buffer.drop other).take layout.word := by
    apply List.ext_getElem?
    intro index
    rw [List.getElem?_take, List.getElem?_take]
    split
    · rw [List.getElem?_drop, List.getElem?_drop]
      apply writes_getElem? known fit
      intro value present
      have := apart value present
      unfold Apart at this
      omega
    · rfl
  rw [contents, contents, slice]

/-- Each of several registers apart from each other holds what was written to it. -/
theorem contents_writes (known : regs.arch.layout = some layout)
    (fit : ∀ value ∈ values, value.1 + layout.word ≤ REGS_CAPACITY)
    (apart : values.Pairwise fun first second => Apart layout.word first.1 second.1)
    (written : (offset, value) ∈ values) :
    (regs.writes values).contents layout.word offset = value % 256 ^ layout.word := by
  induction values generalizing regs with
  | nil => exact absurd written List.not_mem_nil
  | cons first rest ih =>
      rw [List.forall_mem_cons] at fit
      rw [List.pairwise_cons] at apart
      have knownNext : (regs.write first.1 first.2).arch.layout = some layout := by
        rwa [write_arch]
      rcases List.mem_cons.mp written with rfl | later
      · exact (contents_writes_of_apart knownNext fit.2 apart.1).trans
          (contents_write known fit.1)
      · exact ih knownNext fit.2 apart.2 later

end Regs

section Pushing

variable [Usize] {pid : Pid} {regs : Regs} {layout : Layout} {function returnTo : Nat}
  {args : List Nat} {before : Process}

/-- What `setup_call` leaves on the stack, from the new stack pointer upwards. -/
def pushed (arch : Arch) (returnTo : Nat) (args : List Nat) : List UInt8 :=
  match arch with
  | .x86 => little 4 returnTo ++ args.flatMap (little 4)
  | .x86_64 => little Usize.bytes returnTo
  | _ => []

/-- The registers it writes: the arguments that have one, the return address or the stack pointer
below what was pushed, and the program counter. -/
def entering (regs : Regs) (layout : Layout) (function returnTo : Nat) (args : List Nat) :
    List (Nat × Nat) :=
  layout.argRegisters.zip args ++
    [match layout.link with
      | some link => (link, returnTo)
      | none => (layout.sp, wrappingSub regs.sp (pushed regs.arch returnTo args).length),
      (layout.pc, function)]

omit [Usize] in
theorem length_flatMap_little (word : Nat) (args : List Nat) :
    (args.flatMap (little word)).length = word * args.length := by
  induction args with
  | nil => rfl
  | cons first rest ih =>
      rw [List.flatMap_cons, List.length_append, length_little, ih, List.length_cons]
      ring

omit [Usize] in
theorem setArguments_eq (known : regs.arch.layout = some layout) (index : Nat) (args : List Nat) :
    setArguments regs index args = regs.writes ((layout.argRegisters.drop index).zip args) := by
  induction args generalizing regs index with
  | nil => rw [List.zip_nil_right]; rfl
  | cons argument rest ih =>
      rw [setArguments, Regs.setArgument, known]
      dsimp only [Option.bind_some]
      cases found : layout.argRegisters[index]? with
      | none =>
          rw [List.drop_eq_nil_of_le (List.getElem?_eq_none_iff.mp found)]
          rfl
      | some offset =>
          rcases List.getElem?_eq_some_iff.mp found with ⟨inside, rfl⟩
          rw [List.drop_eq_getElem_cons inside, List.zip_cons_cons]
          exact ih (by rwa [Regs.write_arch]) (index + 1)

omit [Usize] in
theorem setAllArguments_eq (known : regs.arch.layout = some layout) {index : Nat} {next : Regs}
    (set : setAllArguments regs index args = some next) :
    next = regs.writes ((layout.argRegisters.drop index).zip args) := by
  induction args generalizing regs index with
  | nil =>
      cases set
      rw [List.zip_nil_right]
      rfl
  | cons argument rest ih =>
      rw [setAllArguments, Regs.setArgument, known] at set
      dsimp only [Option.bind_some] at set
      cases found : layout.argRegisters[index]? with
      | none =>
          rw [found] at set
          cases set
      | some offset =>
          rw [found] at set
          rcases List.getElem?_eq_some_iff.mp found with ⟨inside, rfl⟩
          rw [List.drop_eq_getElem_cons inside, List.zip_cons_cons]
          exact ih (by rwa [Regs.write_arch]) set

/-- A word pushed below a run of bytes is in front of it. -/
theorem store_push (memory : Memory) (stack : Nat) (word : List UInt8) {depth : Nat}
    {below : List UInt8} (isDepth : below.length = depth) (fits : depth + word.length ≤ count) :
    store (store memory (wrappingSub stack depth) below)
        (wrappingSub (wrappingSub stack depth) word.length) word =
      store memory (wrappingSub stack (depth + word.length)) (word ++ below) := by
  have place : wrappingSub stack depth =
      wrappingAdd (wrappingSub stack (depth + word.length)) word.length := by
    rw [wrappingAdd_of_wrappingSub (by omega), Nat.add_sub_cancel]
  rw [wrappingSub_wrappingSub, ← store_prepend _ _ _ _ (by omega), ← place]

/-- A write that is whole is one store. -/
theorem wp_writeMemory_whole {address : Nat} {buffer : List UInt8}
    (short : buffer.length + Usize.bytes ≤ count) :
    (writeMemory pid address buffer).wp Process.machine (fun ok after =>
      ok = true → after.mem = store before.mem (wrappingAdd address 0) buffer) before := by
  apply Prog.wp_mono (wp_writeMemory short)
  rintro ok after ⟨upto, written, complete⟩ isOk
  rw [written.mem, complete.mp isOk]
  simp

/-- The pushes of the x86 convention put the arguments one above the other. -/
theorem wp_pushArguments {stack : Nat} {above : List UInt8} {start : Process}
    (short : above.length + 4 * args.length + Usize.bytes ≤ count)
    (isBefore : before.mem = store start.mem (wrappingSub stack above.length) above) :
    (pushArguments pid (wrappingSub stack above.length) args).wp Process.machine
      (fun lowered after => ∀ low, lowered = some low →
        low = wrappingSub stack (above.length + 4 * args.length) ∧
          after.mem = store start.mem low (args.reverse.flatMap (little 4) ++ above)) before := by
  induction args generalizing above before with
  | nil =>
      rintro low ⟨⟩
      exact ⟨rfl, isBefore⟩
  | cons argument rest ih =>
      rw [List.length_cons] at short
      have small := wrappingSub_lt (wrappingSub stack above.length) 4
      unfold pushArguments
      dsimp only
      rw [Prog.bind_eq, Prog.wp_bind]
      apply Prog.wp_mono (wp_writeMemory_whole (by rw [length_little]; omega))
      intro ok middle isMiddle
      cases ok with
      | false => rintro low ⟨⟩
      | true =>
          have stored : middle.mem = store start.mem
              (wrappingSub stack (little 4 argument ++ above).length)
                (little 4 argument ++ above) := by
            rw [isMiddle rfl, wrappingAdd_zero small, isBefore]
            have push := store_push start.mem stack (little 4 argument)
              (rfl : above.length = above.length) (by rw [length_little]; omega)
            rw [length_little] at push
            rw [push, List.length_append, length_little, Nat.add_comm 4]
          have place : wrappingSub (wrappingSub stack above.length) 4 =
              wrappingSub stack (little 4 argument ++ above).length := by
            rw [wrappingSub_wrappingSub, List.length_append, length_little, Nat.add_comm 4]
          simp only [Bool.not_true, Bool.false_eq_true, if_false]
          rw [place]
          apply Prog.wp_mono (ih (by rw [List.length_append, length_little]; omega) stored)
          intro lowered after done low isLow
          rcases done low isLow with ⟨isDepth, isAfter⟩
          refine ⟨?_, ?_⟩
          · rw [isDepth, List.length_append, length_little, List.length_cons]
            congr 1
            omega
          · rw [isAfter, List.reverse_cons, List.flatMap_append, List.append_assoc]
            simp

omit [Usize] in
theorem setLink_eq {link : Nat} (known : regs.arch.layout = some layout)
    (isLink : layout.link = some link) : regs.setLink returnTo = regs.write link returnTo := by
  rw [Regs.setLink, known, Option.bind_some, isLink]
  rfl

omit [Usize] in
theorem setSp_eq {stack : Nat} (known : regs.arch.layout = some layout) :
    regs.setSp stack = regs.write layout.sp stack := by
  rw [Regs.setSp, known]
  rfl

/-- The registers that have been written when the return address and the function are. -/
theorem writes_entering {argued : Regs} {slot value : Nat}
    (isArgued : argued = regs.writes (layout.argRegisters.zip args))
    (known : regs.arch.layout = some layout)
    (isSlot : (slot, value) = match layout.link with
      | some link => (link, returnTo)
      | none => (layout.sp, wrappingSub regs.sp (pushed regs.arch returnTo args).length)) :
    (argued.write slot value).setPc function =
      regs.writes (entering regs layout function returnTo args) := by
  have argues : argued.arch.layout = some layout := by
    rwa [isArgued, Regs.writes_arch]
  rw [Regs.setPc_eq (by rwa [Regs.write_arch]), entering, Regs.writes_append, ← isSlot, isArgued]
  rfl

/-- A call that is set up has its pushes in the memory and its values in the registers. -/
theorem wp_setupCall (known : regs.arch.layout = some layout) (few : args.length ≤ 16) :
    (setupCall pid regs function returnTo args).wp Process.machine (fun result after =>
      ∀ entered, result = some entered →
        entered = regs.writes (entering regs layout function returnTo args) ∧
          after.mem = store before.mem
            (wrappingSub regs.sp (pushed regs.arch returnTo args).length)
            (pushed regs.arch returnTo args)) before := by
  have room : 8 * 16 + Usize.bytes ≤ count := small_count (by decide)
  have bytesLe : Usize.bytes ≤ 8 := by
    rcases bytes_eq with four | eight <;> omega
  have linked {link : Nat} (isLink : layout.link = some link)
      (none : pushed regs.arch returnTo args = []) :
      (Prog.pure (some (((setArguments regs 0 args).setLink returnTo).setPc function)) :
        Prog Sys (Option Regs)).wp Process.machine (fun result after =>
          ∀ entered, result = some entered →
            entered = regs.writes (entering regs layout function returnTo args) ∧
              after.mem = store before.mem
                (wrappingSub regs.sp (pushed regs.arch returnTo args).length)
                (pushed regs.arch returnTo args)) before := by
    rintro entered ⟨⟩
    have argued := setArguments_eq known 0 args
    rw [setLink_eq (by rwa [argued, Regs.writes_arch]) isLink, none, store_nil]
    refine ⟨?_, rfl⟩
    apply writes_entering argued known
    rw [isLink]
  unfold setupCall
  split
  case h_1 arch =>
    rw [arch] at known
    cases known
    exact linked rfl (by rw [arch]; rfl)
  case h_2 arch =>
    rw [arch] at known
    cases known
    exact linked rfl (by rw [arch]; rfl)
  case h_3 arch =>
    rw [arch] at known
    cases known
    exact linked rfl (by rw [arch]; rfl)
  case h_4 arch =>
    have isLayout := known
    rw [arch] at isLayout
    cases isLayout
    cases set : setAllArguments regs 0 args with
    | none => rintro entered ⟨⟩
    | some argued =>
        have isArgued := setAllArguments_eq known set
        have same := (Regs.sp_setAllArguments args set).2
        dsimp only
        rw [same, Prog.bind_eq, Prog.wp_bind]
        apply Prog.wp_mono (wp_writeMemory_whole (by rw [length_little]; omega))
        intro ok after isAfter
        cases ok with
        | false => rintro entered ⟨⟩
        | true =>
            rintro entered ⟨⟩
            have isPushed : pushed regs.arch returnTo args = little Usize.bytes returnTo := by
              rw [arch]
              rfl
            have argues : argued.arch.layout = some X86_64 := by
              rw [isArgued, Regs.writes_arch]
              exact known
            refine ⟨?_, ?_⟩
            · rw [setSp_eq argues]
              apply writes_entering isArgued known
              rw [isPushed, length_little]
              rfl
            · rw [isPushed, length_little, isAfter rfl,
                wrappingAdd_zero (wrappingSub_lt _ _)]
  case h_5 arch =>
    have isLayout := known
    rw [arch] at isLayout
    cases isLayout
    rw [Prog.bind_eq, Prog.wp_bind]
    have push := @wp_pushArguments _ pid args.reverse before regs.sp [] before (by simp; omega)
      (by simp)
    rw [List.length_nil, wrappingSub_of_le (Nat.zero_le _) regs.sp_lt, Nat.sub_zero] at push
    apply Prog.wp_mono push
    intro lowered middle isMiddle
    cases lowered with
    | none => rintro entered ⟨⟩
    | some stack =>
        rcases isMiddle stack rfl with ⟨isStack, stored⟩
        rw [Nat.zero_add, List.length_reverse] at isStack
        rw [List.reverse_reverse, List.append_nil, isStack] at stored
        dsimp only
        rw [Prog.bind_eq, Prog.wp_bind]
        apply Prog.wp_mono (wp_writeMemory_whole (by rw [length_little]; omega))
        intro ok after isAfter
        cases ok with
        | false => rintro entered ⟨⟩
        | true =>
            rintro entered ⟨⟩
            have isPushed : pushed regs.arch returnTo args =
                little 4 returnTo ++ args.flatMap (little 4) := by
              rw [arch]
              rfl
            have depth : (pushed regs.arch returnTo args).length = 4 * args.length + 4 := by
              rw [isPushed, List.length_append, length_little, length_flatMap_little, Nat.add_comm]
            refine ⟨?_, ?_⟩
            · rw [setSp_eq known]
              apply writes_entering rfl known
              rw [depth, isStack, wrappingSub_wrappingSub]
              rfl
            · have push := store_push before.mem regs.sp (little 4 returnTo)
                (length_flatMap_little 4 args)
                (by rw [length_little]; omega)
              rw [length_little] at push
              rw [depth, isPushed, isAfter rfl,
                wrappingAdd_zero (wrappingSub_lt _ _), stored, isStack, push]
  case h_6 arch =>
    rintro entered ⟨⟩

end Pushing

section Placing

/-- The bytes lie in the memory of the target from an address on. -/
def Holds (memory : Memory) (address : Nat) (bytes : List UInt8) : Prop :=
  ∀ index (inside : index < bytes.length), memory (address + index) = bytes[index]

/-- The registers that a call with some arguments is entered with. -/
def Layout.entered (layout : Layout) (arguments : Nat) : List Nat :=
  layout.argRegisters.take arguments ++ [layout.link.getD layout.sp, layout.pc]

/-- The convention of the target: the arguments in their registers or above the return address,
the return address in its register or on top of the stack, and nothing else changed. -/
structure CallPlaced (layout : Layout) (function returnTo : Nat) (args : List Nat)
    (regs entered : Regs) (before after : Memory) : Prop where
  arguments : ∀ index (inside : index < args.length),
    match layout.argRegisters with
    | [] => Holds after (entered.contents layout.word layout.sp + layout.word * (index + 1))
        (little layout.word args[index])
    | registers => ∃ register, registers[index]? = some register ∧
        entered.contents layout.word register = args[index]
  returns : match layout.link with
    | some link => entered.contents layout.word link = returnTo
    | none => Holds after (entered.contents layout.word layout.sp) (little layout.word returnTo)
  pc : entered.contents layout.word layout.pc = function
  arch : entered.arch = regs.arch
  others : ∀ index, (∀ register ∈ layout.entered args.length,
    index < register ∨ register + layout.word ≤ index) →
      entered.buffer[index]? = regs.buffer[index]?
  frame : ∀ address, address < entered.contents layout.word layout.sp ∨
    regs.contents layout.word layout.sp ≤ address → after address = before address

/-- How many bytes the convention of the target has a call push. -/
def stackBytes (arch : Arch) (arguments : Nat) : Nat :=
  match arch with
  | .x86 => 4 * (arguments + 1)
  | .x86_64 => 8
  | _ => 0

/-- The registers of a call are within the buffer and apart from each other, and apart from the
stack pointer where that is not one of them. -/
theorem layout_entered {arch : Arch} {layout : Layout} (known : arch.layout = some layout) :
    (∀ register ∈ layout.entered layout.argRegisters.length,
        register + layout.word ≤ REGS_CAPACITY) ∧
      (layout.entered layout.argRegisters.length).Pairwise (Regs.Apart layout.word) ∧
      (layout.link.isSome → ∀ register ∈ layout.entered layout.argRegisters.length,
        Regs.Apart layout.word layout.sp register) := by
  cases arch <;> cases known <;> decide

theorem entered_sublist (layout : Layout) (arguments : Nat) :
    (layout.entered arguments).Sublist (layout.entered layout.argRegisters.length) := by
  rw [Layout.entered, Layout.entered, List.take_length]
  exact (List.take_sublist _ _).append_right _

theorem map_fst_zip_take (registers args : List Nat) :
    (registers.zip args).map Prod.fst = registers.take args.length := by
  induction registers generalizing args with
  | nil => simp
  | cons register rest ih =>
      cases args with
      | nil => rfl
      | cons argument others =>
          rw [List.zip_cons_cons, List.map_cons, ih]
          rfl

variable [Usize] {pid : Pid} {regs entered : Regs} {layout : Layout} {function returnTo : Nat}
  {args : List Nat} {before after : Process}

theorem map_fst_entering (regs : Regs) (layout : Layout) (function returnTo : Nat)
    (args : List Nat) :
    (entering regs layout function returnTo args).map Prod.fst = layout.entered args.length := by
  rw [entering, List.map_append, map_fst_zip_take, Layout.entered]
  cases layout.link <;> rfl

theorem fits_entering (known : regs.arch.layout = some layout) :
    ∀ value ∈ entering regs layout function returnTo args,
      value.1 + layout.word ≤ REGS_CAPACITY := by
  intro value present
  apply (layout_entered known).1 value.1
  apply (entered_sublist layout args.length).subset
  rw [← map_fst_entering]
  exact List.mem_map_of_mem present

theorem apart_entering (known : regs.arch.layout = some layout) :
    (entering regs layout function returnTo args).Pairwise
      fun first second => Regs.Apart layout.word first.1 second.1 := by
  rw [← List.pairwise_map, map_fst_entering]
  exact (layout_entered known).2.1.sublist (entered_sublist layout args.length)

omit [Usize] in
theorem Holds.append {memory : Memory} {address : Nat} {first second : List UInt8} :
    Holds memory address (first ++ second) ↔
      Holds memory address first ∧ Holds memory (address + first.length) second := by
  constructor
  · intro holds
    constructor
    · intro index inside
      rw [holds index (by simp; omega), List.getElem_append_left inside]
    · intro index inside
      rw [Nat.add_assoc, holds (first.length + index) (by simp; omega),
        List.getElem_append_right (by omega)]
      simp
  · rintro ⟨left, right⟩ index inside
    by_cases inFirst : index < first.length
    · rw [left index inFirst, List.getElem_append_left inFirst]
    · rcases Nat.exists_eq_add_of_le (Nat.le_of_not_lt inFirst) with ⟨rest, rfl⟩
      rw [List.length_append] at inside
      rw [← Nat.add_assoc, right rest (by omega), List.getElem_append_right (by omega)]
      simp

theorem holds_store {memory : Memory} {address : Nat} {bytes : List UInt8}
    (fits : address + bytes.length ≤ count) : Holds (store memory address bytes) address bytes := by
  intro index inside
  rw [← wrappingAdd_of_lt (by omega : address + index < count)]
  exact store_at inside (by omega)

theorem contents_entering_mod {offset value : Nat} (known : regs.arch.layout = some layout)
    (written : (offset, value) ∈ entering regs layout function returnTo args) :
    (regs.writes (entering regs layout function returnTo args)).contents layout.word offset =
      value % 256 ^ layout.word :=
  Regs.contents_writes known (fits_entering known) (apart_entering known) written

theorem contents_entering {offset value : Nat} (known : regs.arch.layout = some layout)
    (small : value < 256 ^ layout.word)
    (written : (offset, value) ∈ entering regs layout function returnTo args) :
    (regs.writes (entering regs layout function returnTo args)).contents layout.word offset =
      value :=
  (contents_entering_mod known written).trans (Nat.mod_eq_of_lt small)

/-- The stack pointer that the tracer reads is the one of the target, unless that is too wide. -/
theorem sp_eq_contents (known : regs.arch.layout = some layout) :
    regs.sp = if regs.contents layout.word layout.sp < count then
      regs.contents layout.word layout.sp else 0 := by
  rw [Regs.sp_eq known, Regs.read, known]
  dsimp only
  rw [if_pos (Regs.layout_fits known).2.1]
  rfl

/-- What is pushed ends at the stack pointer, or where the tracer's addresses do. -/
theorem lowered_add {size : Nat} (known : regs.arch.layout = some layout) (some : 0 < size)
    (short : size < count) (room : size ≤ regs.contents layout.word layout.sp) :
    wrappingSub regs.sp size + size = min (regs.contents layout.word layout.sp) count := by
  rw [sp_eq_contents known]
  split
  case isTrue small =>
    rw [wrappingSub_of_le room small]
    omega
  case isFalse wide =>
    rw [wrappingSub, Nat.mod_eq_of_lt short, Nat.zero_add, Nat.mod_eq_of_lt (by omega)]
    omega

theorem others_entering (known : regs.arch.layout = some layout) {index : Nat}
    (outside : ∀ register ∈ layout.entered args.length,
      index < register ∨ register + layout.word ≤ index) :
    (regs.writes (entering regs layout function returnTo args)).buffer[index]? =
      regs.buffer[index]? := by
  apply Regs.writes_getElem? known (fits_entering known)
  intro value present
  apply outside value.1
  rw [← map_fst_entering regs layout function returnTo]
  exact List.mem_map_of_mem present

theorem argument_entering (function returnTo : Nat) (known : regs.arch.layout = some layout)
    (enough : args.length ≤ layout.argRegisters.length)
    (small : ∀ argument ∈ args, argument < 256 ^ layout.word) {index : Nat}
    (inside : index < args.length) :
    ∃ register, layout.argRegisters[index]? = some register ∧
      (regs.writes (entering regs layout function returnTo args)).contents layout.word register =
        args[index] := by
  refine ⟨layout.argRegisters[index], List.getElem?_eq_getElem (by omega), ?_⟩
  apply contents_entering known (small _ (List.getElem_mem inside))
  apply List.mem_append_left
  rw [List.mem_iff_getElem]
  exact ⟨index, by simp; omega, List.getElem_zip⟩

/-- A target that has the return address on the stack. -/
theorem placed_on_stack {start : Nat} (known : regs.arch.layout = some layout)
    (onStack : layout.link = none)
    (isStart : start = wrappingSub regs.sp (pushed regs.arch returnTo args).length)
    (small : start < 256 ^ layout.word)
    (fits : start + (pushed regs.arch returnTo args).length =
      min (regs.contents layout.word layout.sp) count)
    (isFunction : function < 256 ^ layout.word)
    (isEntered : entered = regs.writes (entering regs layout function returnTo args))
    (isAfter : after.mem = store before.mem start (pushed regs.arch returnTo args))
    (argued : ∀ index (inside : index < args.length),
      match layout.argRegisters with
      | [] => Holds after.mem (start + layout.word * (index + 1)) (little layout.word args[index])
      | registers => ∃ register, registers[index]? = some register ∧
          entered.contents layout.word register = args[index]) :
    CallPlaced layout function returnTo args regs entered before.mem after.mem ↔
      Holds after.mem start (little layout.word returnTo) := by
  have lowered : entered.contents layout.word layout.sp = start := by
    rw [isEntered]
    apply contents_entering known small
    rw [entering, onStack, isStart]
    simp
  constructor
  · intro placed
    have returns := placed.returns
    rw [onStack, lowered] at returns
    exact returns
  · intro returns
    refine ⟨?_, ?_, ?_, ?_, ?_, ?_⟩
    · rw [lowered]
      exact argued
    · rw [onStack, lowered]
      exact returns
    · rw [isEntered]
      exact contents_entering known isFunction (by simp [entering])
    · rw [isEntered, Regs.writes_arch]
    · intro index outside
      rw [isEntered]
      exact others_entering known outside
    · intro address outside
      rw [lowered] at outside
      rw [isAfter]
      exact store_outside (by omega) (by omega)

/-- A target that has the return address in a register. -/
theorem placed_in_register {link : Nat} {registers : List Nat} {first : Nat}
    (known : regs.arch.layout = some layout) (inRegister : layout.link = some link)
    (haveRegisters : layout.argRegisters = first :: registers)
    (enough : args.length ≤ layout.argRegisters.length)
    (small : ∀ value ∈ function :: returnTo :: args, value < 256 ^ layout.word)
    (isEntered : entered = regs.writes (entering regs layout function returnTo args))
    (isAfter : after.mem = before.mem) :
    CallPlaced layout function returnTo args regs entered before.mem after.mem := by
  rw [List.forall_mem_cons, List.forall_mem_cons] at small
  subst isEntered
  refine ⟨?_, ?_, ?_, ?_, ?_, ?_⟩
  · intro index inside
    have argued := argument_entering function returnTo known enough
      small.2.2 inside
    rw [haveRegisters] at argued ⊢
    exact argued
  · rw [inRegister]
    exact contents_entering known small.2.1 (by simp [entering, inRegister])
  · exact contents_entering known small.1 (by simp [entering])
  · exact Regs.writes_arch _ _
  · intro index outside
    exact others_entering known outside
  · intro address _
    rw [isAfter]

omit [Usize] in
/-- The pushes of an x86 call, found from the new stack pointer on. -/
theorem holds_arguments {start index : Nat} {memory : Memory}
    (holds : Holds memory start (args.flatMap (little 4))) (inside : index < args.length) :
    Holds memory (start + 4 * index) (little 4 args[index]) := by
  induction args generalizing start index with
  | nil => exact absurd inside (Nat.not_lt_zero index)
  | cons argument rest ih =>
      rw [List.flatMap_cons, Holds.append, length_little] at holds
      cases index with
      | zero => exact holds.1
      | succ index =>
          have later := ih holds.2 (Nat.lt_of_succ_lt_succ inside)
          rw [Nat.add_assoc, Nat.add_comm 4, ← Nat.mul_succ] at later
          exact later

theorem placed_x86 (arch : regs.arch = .x86)
    (small : ∀ value ∈ function :: returnTo :: args, value < 256 ^ X86.word)
    (few : args.length ≤ 4) (room : 4 * (args.length + 1) ≤ regs.contents X86.word X86.sp)
    (isEntered : entered = regs.writes (entering regs X86 function returnTo args))
    (isAfter : after.mem = store before.mem
      (wrappingSub regs.sp (pushed regs.arch returnTo args).length)
      (pushed regs.arch returnTo args)) :
    CallPlaced X86 function returnTo args regs entered before.mem after.mem := by
  have known : regs.arch.layout = some X86 := by
    rw [arch]
    rfl
  have isPushed : pushed regs.arch returnTo args =
      little 4 returnTo ++ args.flatMap (little 4) := by
    rw [arch]
    rfl
  have depth : (pushed regs.arch returnTo args).length = 4 * (args.length + 1) := by
    rw [isPushed, List.length_append, length_little, length_flatMap_little]
    omega
  have wide : 2 ^ 32 ≤ count := word_le_count
  have fits := lowered_add known (by omega : 0 < 4 * (args.length + 1)) (by omega) room
  have narrow : regs.contents X86.word X86.sp < 2 ^ 32 := regs.contents_lt 4 _
  rw [← depth] at fits
  generalize isStart : wrappingSub regs.sp (pushed regs.arch returnTo args).length = start at *
  have holds : Holds after.mem start (little 4 returnTo ++ args.flatMap (little 4)) := by
    rw [← isPushed, isAfter]
    exact holds_store (by omega)
  rw [Holds.append, length_little] at holds
  apply (placed_on_stack known rfl isStart.symm (?_ : start < 2 ^ 32) fits ?_ isEntered isAfter
    ?_).mpr holds.1
  · omega
  · exact small function List.mem_cons_self
  · intro index inside
    have argued := holds_arguments holds.2 inside
    rw [Nat.add_assoc, Nat.add_comm 4, ← Nat.mul_succ] at argued
    exact argued

/-- A 32-bit tracer pushes the lower half of a 64-bit return address. -/
theorem placed_x86_64_iff (arch : regs.arch = .x86_64)
    (small : ∀ value ∈ function :: returnTo :: args, value < count ∧ value < 256 ^ X86_64.word)
    (few : args.length ≤ 4) (room : 8 ≤ regs.contents X86_64.word X86_64.sp)
    (isEntered : entered = regs.writes (entering regs X86_64 function returnTo args))
    (isAfter : after.mem = store before.mem
      (wrappingSub regs.sp (pushed regs.arch returnTo args).length)
      (pushed regs.arch returnTo args)) :
    CallPlaced X86_64 function returnTo args regs entered before.mem after.mem ↔
      Usize.bytes = 8 ∨
        ∀ index < 4, before.mem (min (regs.contents X86_64.word X86_64.sp) count + index) = 0 := by
  have known : regs.arch.layout = some X86_64 := by
    rw [arch]
    rfl
  have isPushed : pushed regs.arch returnTo args = little Usize.bytes returnTo := by
    rw [arch]
    rfl
  have depth : (pushed regs.arch returnTo args).length = Usize.bytes := by
    rw [isPushed, length_little]
  have wide : 2 ^ 32 ≤ count := word_le_count
  have bytesPos := bytes_pos
  have bytesLe : Usize.bytes ≤ 8 := by
    rcases bytes_eq with four | eight <;> omega
  have fits := lowered_add known bytesPos (by omega) (Nat.le_trans bytesLe room)
  have narrow : regs.contents X86_64.word X86_64.sp < 256 ^ 8 := regs.contents_lt 8 _
  rw [← depth] at fits
  generalize isStart : wrappingSub regs.sp (pushed regs.arch returnTo args).length = start at *
  have holds : Holds after.mem start (little Usize.bytes returnTo) := by
    rw [← isPushed, isAfter]
    exact holds_store (by omega)
  rw [placed_on_stack known rfl isStart.symm (by change start < 256 ^ 8; omega) fits
    (small function List.mem_cons_self).2 isEntered isAfter ?argued]
  case argued =>
    intro index inside
    subst isEntered
    apply argument_entering function returnTo known few _ inside
    intro argument present
    exact (small argument (by simp [present])).2
  change Holds after.mem start (little 8 returnTo) ↔ _
  rcases bytes_eq with four | eight
  · have word : count = 256 ^ 4 := by rw [count, four]
    have zero : returnTo / 256 ^ 4 = 0 := by
      rw [← word]
      exact Nat.div_eq_of_lt (small returnTo (by simp)).1
    rw [four] at holds
    have halves : Holds after.mem start (little 8 returnTo) ↔
        Holds after.mem (start + 4) [0, 0, 0, 0] := by
      rw [show (8 : Nat) = 4 + 4 from rfl, little_add, zero, Holds.append, length_little]
      exact and_iff_right holds
    have above : start + 4 = min (regs.contents X86_64.word X86_64.sp) count := by omega
    have untouched (index : Nat) : after.mem (start + 4 + index) = before.mem (start + 4 + index) := by
      rw [isAfter]
      exact store_outside (by omega) (by omega)
    rw [halves, or_iff_right (by omega), ← above]
    constructor
    · intro zeros index inside
      rw [← untouched, zeros index inside]
      rcases index with _ | _ | _ | _ | index <;> first | rfl | omega
    · intro zeros index inside
      rw [untouched, zeros index inside]
      rcases index with _ | _ | _ | _ | index <;> first | rfl | (simp at inside; omega)
  · rw [eight] at holds
    exact iff_of_true holds (.inl eight)

/-- A call that `setup_call` sets up is placed as the convention of its target has it, unless a
32-bit tracer has pushed only half of a 64-bit return address and the memory above is not zero. -/
theorem callPlaced_iff (known : regs.arch.layout = some layout)
    (small : ∀ value ∈ function :: returnTo :: args, value < count ∧ value < 256 ^ layout.word)
    (few : args.length ≤ 4)
    (room : stackBytes regs.arch args.length ≤ regs.contents layout.word layout.sp)
    (run : (setupCall pid regs function returnTo args).Runs Process.machine before
      (some entered) after) :
    CallPlaced layout function returnTo args regs entered before.mem after.mem ↔
      Usize.bytes = 8 ∨ regs.arch ≠ .x86_64 ∨
        ∀ index < 4, before.mem (min (regs.contents layout.word layout.sp) count + index) = 0 := by
  rcases run.of_wp (wp_setupCall known (by omega)) entered rfl with ⟨isEntered, isAfter⟩
  have narrow : ∀ value ∈ function :: returnTo :: args, value < 256 ^ layout.word :=
    fun value present => (small value present).2
  cases arch : regs.arch with
  | unknown =>
      rw [arch] at known
      cases known
  | arm64 =>
      have isLayout := known
      rw [arch] at isLayout
      cases isLayout
      refine iff_of_true ?_ (.inr (.inl nofun))
      have nothing : pushed regs.arch returnTo args = [] := by
        rw [arch]
        rfl
      rw [nothing, store_nil] at isAfter
      exact placed_in_register known rfl rfl few narrow isEntered isAfter
  | arm32 =>
      have isLayout := known
      rw [arch] at isLayout
      cases isLayout
      refine iff_of_true ?_ (.inr (.inl nofun))
      have nothing : pushed regs.arch returnTo args = [] := by
        rw [arch]
        rfl
      rw [nothing, store_nil] at isAfter
      exact placed_in_register known rfl rfl few narrow isEntered isAfter
  | riscv64 =>
      have isLayout := known
      rw [arch] at isLayout
      cases isLayout
      refine iff_of_true ?_ (.inr (.inl nofun))
      have nothing : pushed regs.arch returnTo args = [] := by
        rw [arch]
        rfl
      rw [nothing, store_nil] at isAfter
      exact placed_in_register known rfl rfl (Nat.le_trans few (by decide)) narrow isEntered isAfter
  | x86 =>
      have isLayout := known
      rw [arch] at isLayout
      cases isLayout
      refine iff_of_true ?_ (.inr (.inl nofun))
      rw [arch] at room
      exact placed_x86 arch narrow few room isEntered isAfter
  | x86_64 =>
      have isLayout := known
      rw [arch] at isLayout
      cases isLayout
      rw [arch] at room
      rw [placed_x86_64_iff arch small few room isEntered isAfter]
      simp

/-- A tracer that is as wide as its target places every call that it sets up. -/
theorem call_placed (known : regs.arch.layout = some layout) (wide : layout.word ≤ Usize.bytes)
    (small : ∀ value ∈ function :: returnTo :: args, value < 256 ^ layout.word)
    (few : args.length ≤ 4)
    (room : stackBytes regs.arch args.length ≤ regs.contents layout.word layout.sp)
    (run : (setupCall pid regs function returnTo args).Runs Process.machine before
      (some entered) after) :
    CallPlaced layout function returnTo args regs entered before.mem after.mem := by
  have fits : ∀ value ∈ function :: returnTo :: args, value < count ∧ value < 256 ^ layout.word :=
    fun value present => ⟨(small value present).trans_le (Nat.pow_le_pow_right (by decide) wide),
      small value present⟩
  apply (callPlaced_iff known fits few room run).mpr
  by_cases arch : regs.arch = .x86_64
  · rw [arch] at known
    cases known
    left
    rcases bytes_eq with four | eight
    · rw [four] at wide
      exact absurd wide (by decide)
    · exact eight
  · exact .inr (.inl arch)

end Placing

section Runs

/-- The registers of a process whose stack is at `0x10000`. -/
def stackedX (arch : Arch) : Regs :=
  (Regs.new arch).setSp 0x10000

/-- A call of two arguments in such a process, whose memory is all ones. -/
def callingX (build : Usize) (arch : Arch) : Option Regs × Process :=
  Prog.eval (I := Sys) (@Process.scripted build (runningA (some [])))
    (@setupCall build 100 (stackedX arch) 0x2000 0x1000 [1, 2])
    { trappedAt arch 0x1000 with mem := fun _ => 0xFF }

theorem runs_callingX (build : Usize) (arch : Arch) :
    (@setupCall build 100 (stackedX arch) 0x2000 0x1000 [1, 2]).Runs (@Process.machine build)
      { trappedAt arch 0x1000 with mem := fun _ => 0xFF } (callingX build arch).1
      (callingX build arch).2 := by
  have sound : ∀ request process, (@Process.machine build).Step process request
      (@Process.scripted build (runningA (some [])) request process).1
      (@Process.scripted build (runningA (some [])) request process).2 :=
    fun request process => ⟨@Process.answers_truthful build _ process request, rfl⟩
  exact Prog.runs_eval (I := Sys) sound _ _

/-- What the call is entered with. -/
def enteredX (build : Usize) (arch : Arch) : Regs :=
  (callingX build arch).1.getD (stackedX arch)

theorem runs_enteredX (build : Usize) (arch : Arch) (some : (callingX build arch).1.isSome = true) :
    (@setupCall build 100 (stackedX arch) 0x2000 0x1000 [1, 2]).Runs (@Process.machine build)
      { trappedAt arch 0x1000 with mem := fun _ => 0xFF } (.some (enteredX build arch))
      (callingX build arch).2 := by
  have run := runs_callingX build arch
  rcases Option.isSome_iff_exists.mp some with ⟨entered, isEntered⟩
  rw [enteredX, isEntered]
  rw [isEntered] at run
  exact run

/-- The pushes of a 64-bit tracer in a 32-bit process. -/
theorem placed_arguments_pushed :
    CallPlaced X86 0x2000 0x1000 [1, 2] (stackedX .x86) (enteredX .eight .x86) (fun _ => 0xFF)
      (callingX .eight .x86).2.mem :=
  @call_placed .eight 100 (stackedX .x86) (enteredX .eight .x86) X86 0x2000 0x1000 [1, 2] _ _
    rfl (by decide) (by decide) (by decide) (by decide) (runs_enteredX .eight .x86 (by decide +kernel))

end Runs

end Znn.Injector
