import Znn.Injector.Grants

/-!
# Reading registers that were written

A register set is bytes, so what one register reads after another was written follows from
where the layout puts the two. The stack pointer keeps the value it was given, up to the width
of the target, and no argument register overlaps it.
-/

namespace Bytes

variable {offset other length : Nat}

theorem splice_slice_self (bytes part : List UInt8) (fits : offset ≤ bytes.length) :
    ((splice bytes offset part).drop offset).take part.length = part := by
  rw [splice, List.drop_left' (by simp [fits]), List.take_left' rfl]

/-- Outside the part that was replaced the bytes are the same. -/
theorem splice_getElem?_of_apart (bytes part : List UInt8)
    (fits : offset + part.length ≤ bytes.length)
    (apart : other < offset ∨ offset + part.length ≤ other) :
    (splice bytes offset part)[other]? = bytes[other]? := by
  rw [splice, List.getElem?_append]
  rcases apart with before | behind
  · rw [if_pos (by simp; omega), List.getElem?_take_of_lt before]
  · rw [if_neg (by simp; omega), List.getElem?_append_right (by simp; omega), List.getElem?_drop]
    congr 1
    simp
    omega

/-- A slice that does not meet the part that was replaced is the same. -/
theorem splice_slice_of_apart (bytes part : List UInt8)
    (fits : offset + part.length ≤ bytes.length)
    (apart : other + length ≤ offset ∨ offset + part.length ≤ other) :
    ((splice bytes offset part).drop other).take length = (bytes.drop other).take length := by
  apply List.ext_getElem?
  intro index
  rw [List.getElem?_take, List.getElem?_take]
  split
  · rw [List.getElem?_drop, List.getElem?_drop]
    exact splice_getElem?_of_apart bytes part fits (by omega)
  · rfl

end Bytes

namespace Znn.Injector

namespace Regs

open Usize

section Buffers

variable {regs : Regs} {layout : Layout} {offset value : Nat}

theorem write_buffer (known : regs.arch.layout = some layout)
    (fits : offset + layout.word ≤ REGS_CAPACITY) :
    (regs.write offset value).buffer =
      Bytes.splice regs.buffer offset (Bytes.little layout.word value) := by
  rw [write, known]
  simp only [fits, dif_pos, Bytes.splice, Bytes.length_little]

theorem bytes_fill {filled : List UInt8} (whole : filled.length = regs.arch.registerSize) :
    (regs.fill filled).bytes = filled := by
  change (filled.take regs.arch.registerSize ++
    regs.buffer.drop (filled.take regs.arch.registerSize).length).take regs.arch.registerSize = filled
  rw [← whole]
  simp

/-- The program counter is among the bytes the kernel is given, apart from the stack pointer. -/
theorem layout_pc {arch : Arch} (known : arch.layout = some layout) :
    layout.pc + layout.word ≤ arch.registerSize ∧
      (layout.sp + layout.word ≤ layout.pc ∨ layout.pc + layout.word ≤ layout.sp) := by
  cases arch <;> cases known <;> decide

/-- Every register of a layout is within the capacity, and the stack pointer is apart from the
argument registers. -/
theorem layout_fits {arch : Arch} (known : arch.layout = some layout) :
    layout.pc + layout.word ≤ REGS_CAPACITY ∧ layout.sp + layout.word ≤ REGS_CAPACITY ∧
      ∀ argument ∈ layout.argRegisters, argument + layout.word ≤ REGS_CAPACITY ∧
        (layout.sp + layout.word ≤ argument ∨ argument + layout.word ≤ layout.sp) := by
  cases arch <;> cases known <;> decide

theorem layout_word {arch : Arch} (known : arch.layout = some layout) :
    layout.word = 4 ∨ layout.word = 8 := by
  cases arch <;> cases known <;> decide

theorem setPc_eq (known : regs.arch.layout = some layout) :
    regs.setPc value = regs.write layout.pc value := by
  rw [setPc, known]
  rfl

/-- Setting the program counter changes no other byte. -/
theorem setPc_bytes_getElem? (known : regs.arch.layout = some layout) {index : Nat}
    (apart : index < layout.pc ∨ layout.pc + layout.word ≤ index) :
    (regs.setPc value).bytes[index]? = regs.bytes[index]? := by
  have fits := (layout_fits known).1
  have full := regs.length_buffer
  have same : (regs.setPc value).buffer[index]? = regs.buffer[index]? := by
    rw [setPc_eq known, write_buffer known fits]
    apply Bytes.splice_getElem?_of_apart
    · rw [Bytes.length_little]
      omega
    · rwa [Bytes.length_little]
  rw [bytes, bytes, List.getElem?_take, List.getElem?_take, same, setPc_eq known, write_arch]

end Buffers

variable [Usize] {regs : Regs} {layout : Layout} {offset other value : Nat}

theorem read_write (known : regs.arch.layout = some layout)
    (fits : offset + layout.word ≤ REGS_CAPACITY) (small : value % 256 ^ layout.word < count) :
    (regs.write offset value).read offset = value % 256 ^ layout.word := by
  have full := regs.length_buffer
  have slice := Bytes.splice_slice_self regs.buffer (Bytes.little layout.word value)
    (by omega : offset ≤ regs.buffer.length)
  rw [Bytes.length_little] at slice
  rw [read, write_arch, known]
  dsimp only
  rw [if_pos fits, write_buffer known fits, slice, Bytes.littleValue_little, if_pos small]

/-- A register reads the same after a write of a register apart from it. -/
theorem read_write_of_apart (known : regs.arch.layout = some layout)
    (fits : offset + layout.word ≤ REGS_CAPACITY)
    (apart : other + layout.word ≤ offset ∨ offset + layout.word ≤ other) :
    (regs.write offset value).read other = regs.read other := by
  have full := regs.length_buffer
  have slice : ((Bytes.splice regs.buffer offset (Bytes.little layout.word value)).drop other).take
      layout.word = (regs.buffer.drop other).take layout.word := by
    apply Bytes.splice_slice_of_apart
    · rw [Bytes.length_little]
      omega
    · rwa [Bytes.length_little]
  rw [read, read, write_arch, known]
  dsimp only
  rw [write_buffer known fits, slice]

theorem sp_eq (known : regs.arch.layout = some layout) : regs.sp = regs.read layout.sp := by
  rw [sp, known]
  rfl

theorem pc_eq (known : regs.arch.layout = some layout) : regs.pc = regs.read layout.pc := by
  rw [pc, known]
  rfl

theorem sp_setSp (known : regs.arch.layout = some layout) (small : value < count) :
    (regs.setSp value).sp = value % 256 ^ layout.word := by
  have written : regs.setSp value = regs.write layout.sp value := by
    rw [setSp, known]
    rfl
  rw [written, sp_eq (by rwa [write_arch])]
  exact read_write known (layout_fits known).2.1 (Nat.lt_of_le_of_lt (Nat.mod_le _ _) small)

theorem pc_setPc (known : regs.arch.layout = some layout) (small : value < count) :
    (regs.setPc value).pc = value % 256 ^ layout.word := by
  rw [setPc_eq known, pc_eq (by rwa [write_arch])]
  exact read_write known (layout_fits known).1 (Nat.lt_of_le_of_lt (Nat.mod_le _ _) small)

theorem sp_setArgument {index : Nat} {next : Regs} (set : regs.setArgument index value = some next) :
    next.arch = regs.arch ∧ next.sp = regs.sp := by
  rcases Option.map_eq_some_iff.mp set with ⟨argument, found, rfl⟩
  rcases Option.bind_eq_some_iff.mp found with ⟨layout, known, present⟩
  have fits := (layout_fits known).2.2 argument (List.mem_of_getElem? present)
  refine ⟨write_arch _ _ _, ?_⟩
  rw [sp_eq (by rwa [write_arch]), sp_eq known]
  exact read_write_of_apart known fits.1 fits.2

theorem sp_setAllArguments (arguments : List Nat) {index : Nat} {regs next : Regs}
    (set : PtraceOps.setAllArguments regs index arguments = some next) :
    next.arch = regs.arch ∧ next.sp = regs.sp := by
  induction arguments generalizing index regs with
  | nil =>
      cases set
      exact ⟨rfl, rfl⟩
  | cons argument rest ih =>
      rw [PtraceOps.setAllArguments] at set
      split at set
      case h_1 first found =>
        have one := sp_setArgument found
        have others := ih set
        exact ⟨others.1.trans one.1, others.2.trans one.2⟩
      case h_2 => cases set

theorem sp_setPc (regs : Regs) (value : Nat) : (regs.setPc value).sp = regs.sp := by
  cases known : regs.arch.layout with
  | none =>
      have same : regs.setPc value = regs := by
        rw [setPc, known]
        rfl
      rw [same]
  | some layout =>
      rw [setPc_eq known, sp_eq (by rwa [write_arch]), sp_eq known]
      exact read_write_of_apart known (layout_fits known).1 (layout_pc known).2

/-- What the kernel was given is read back. -/
theorem read_fill_bytes {arch : Arch} (isArch : regs.arch = arch)
    (known : arch.layout = some layout) (fits : offset + layout.word ≤ arch.registerSize) :
    ((Regs.new arch).fill regs.bytes).read offset = regs.read offset := by
  have le := arch.registerSize_le
  have full := regs.length_buffer
  have slice : ((((Regs.new arch).fill regs.bytes).buffer).drop offset).take layout.word =
      (regs.buffer.drop offset).take layout.word := by
    apply List.ext_getElem?
    intro index
    rw [List.getElem?_take, List.getElem?_take]
    split
    · rw [List.getElem?_drop, List.getElem?_drop, fill, bytes, isArch]
      change (((regs.buffer.take arch.registerSize).take arch.registerSize) ++ _)[offset + index]? = _
      rw [List.take_take, Nat.min_self, List.getElem?_append_left (by simp; omega),
        List.getElem?_take_of_lt (by omega)]
    · rfl
  have filled : ((Regs.new arch).fill regs.bytes).arch = arch := rfl
  rw [read, read, filled, isArch, known]
  dsimp only
  rw [slice]

/-- What a register reads fits its width. -/
theorem read_lt_word (known : regs.arch.layout = some layout) (offset : Nat) :
    regs.read offset < 256 ^ layout.word := by
  have positive : 0 < 256 ^ layout.word := Nat.pow_pos (by omega)
  rw [read, known]
  dsimp only
  split
  · split
    · have small := Bytes.littleValue_lt ((regs.buffer.drop offset).take layout.word)
      apply Nat.lt_of_lt_of_le small
      apply Nat.pow_le_pow_right (by omega)
      simp
    · exact positive
  · exact positive

theorem read_lt (regs : Regs) (offset : Nat) : regs.read offset < count := by
  unfold read
  split
  · exact count_pos
  · split
    · dsimp only
      split
      · assumption
      · exact count_pos
    · exact count_pos

theorem sp_lt (regs : Regs) : regs.sp < count := by
  unfold sp
  cases regs.arch.layout with
  | none => exact count_pos
  | some layout => exact regs.read_lt layout.sp

end Regs

end Znn.Injector
