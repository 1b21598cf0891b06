import Znn.Injector.Writes

/-!
# Memory as a caller sees it

The loops of `read_memory` and `write_memory` cut a range at the boundaries of words, and a write
stores the neighbours of its bytes along with them. Seen from outside none of this shows: a write
lays its buffer over the memory and a read returns a range of it.
-/

namespace Znn.Injector

open Interaction PtraceOps Bytes Usize

variable [Usize]

/-- A buffer. No slice is longer than `isize::MAX`. -/
structure Slice where
  bytes : List UInt8
  bounded : 2 * bytes.length < count

theorem Slice.short (buffer : Slice) : buffer.bytes.length + Usize.bytes ≤ count := by
  have bounded := buffer.bounded
  have wide := word_le_count
  rcases bytes_eq with four | eight <;> omega

/-- `after` is `before` with exactly the bytes from the address on replaced. -/
structure Overlay (before after : Memory) (address : Nat) (bytes : List UInt8) : Prop where
  inside : ∀ index, ∀ near : index < bytes.length, after (wrappingAdd address index) = bytes[index]
  outside : ∀ target, (∀ index < bytes.length, target ≠ wrappingAdd address index) →
    after target = before target

/-- Addresses count up to the width of the build. -/
theorem store_wrappingAdd_zero (memory : Memory) (start : Nat) (bytes : List UInt8) :
    store memory (wrappingAdd start 0) bytes = store memory start bytes := by
  have same : ∀ target, wrappingSub target (wrappingAdd start 0) = wrappingSub target start := by
    intro target
    rw [wrappingSub, wrappingAdd, Nat.add_zero, Nat.mod_mod, wrappingSub]
  funext target
  simp only [store, same]

theorem overlay_store (memory : Memory) (address : Nat) {bytes : List UInt8}
    (fits : bytes.length ≤ count) : Overlay memory (store memory address bytes) address bytes := by
  constructor
  · intro index near
    exact store_at near fits
  · intro target apart
    apply store_of_not_covers
    rw [covers_iff fits]
    rintro ⟨index, near, same⟩
    exact apart index near same

/-- What a write leaves is its buffer up to some place, and all of it if it succeeds. -/
theorem Written.overlay {pid : Pid} {address upto : Nat} {buffer : Slice} {before after : Process}
    (written : Written pid address buffer.bytes 0 upto before after) :
    Overlay before.mem after.mem address (buffer.bytes.take upto) := by
  have short := buffer.short
  have memory : after.mem = store before.mem address (buffer.bytes.take upto) := by
    rw [written.mem, List.drop_zero, Nat.sub_zero, store_wrappingAdd_zero]
  rw [memory]
  apply overlay_store
  rw [List.length_take]
  omega

variable (pid : Pid) (address : Nat)

theorem wp_writeMemory_overlay (buffer : Slice) (before : Process) :
    (writeMemory pid address buffer.bytes).wp Process.machine
      (fun ok after => ∃ upto ≤ buffer.bytes.length, (ok = true → upto = buffer.bytes.length) ∧
        Overlay before.mem after.mem address (buffer.bytes.take upto)) before := by
  apply Prog.wp_mono (wp_writeMemory buffer.short)
  rintro ok after ⟨upto, written, complete⟩
  exact ⟨upto, written.fits, complete.mp, written.overlay⟩

/-- `write_memory` of a buffer and `read_memory` of the same range, if the write succeeds. -/
def writeThenRead (buffer : Slice) : Prog Sys (Option (List UInt8)) := do
  if ← writeMemory pid address buffer.bytes then
    readMemory pid address buffer.bytes.length
  else
    return none

/-- What has been written is read. -/
theorem wp_writeThenRead (buffer : Slice) (before : Process) :
    (writeThenRead pid address buffer).wp Process.machine
      (fun filled _ => ∀ bytes, filled = some bytes → bytes = buffer.bytes) before := by
  have short := buffer.short
  change (Prog.bind _ _).wp _ _ _
  rw [Prog.wp_bind]
  apply Prog.wp_mono (wp_writeMemory buffer.short)
  rintro ok after ⟨upto, written, complete⟩
  cases ok with
  | false =>
      rintro bytes ⟨⟩
  | true =>
      apply Prog.wp_mono (wp_readMemory buffer.bytes.length)
      rintro filled last ⟨_, read⟩ bytes isFilled
      rw [read bytes isFilled, written.load_whole (by omega) (complete.mp rfl)]

/-- Access by words is access by bytes: a write that succeeds lays its buffer over the memory and
one that fails a front part of it, a read that succeeds returns what is there, and a write that is
read back is read as it was written. -/
theorem memory_access_exact (buffer : Slice) (before : Process) :
    (writeMemory pid address buffer.bytes).wp Process.machine
      (fun ok after => ∃ upto ≤ buffer.bytes.length, (ok = true → upto = buffer.bytes.length) ∧
        Overlay before.mem after.mem address (buffer.bytes.take upto)) before ∧
    (readMemory pid address buffer.bytes.length).wp Process.machine
      (fun filled after => after = before ∧ ∀ bytes, filled = some bytes →
        bytes = load before.mem address buffer.bytes.length) before ∧
    (writeThenRead pid address buffer).wp Process.machine
      (fun filled _ => ∀ bytes, filled = some bytes → bytes = buffer.bytes) before :=
  ⟨wp_writeMemory_overlay pid address buffer before, wp_readMemory buffer.bytes.length,
    wp_writeThenRead pid address buffer before⟩

end Znn.Injector
