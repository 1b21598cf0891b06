import Mathlib.Data.Nat.ModEq
import Znn.Bytes.Usize

/-!
# A flat memory

A memory maps addresses to bytes, and addresses wrap at the width of the build. `store`
writes a run of bytes and `load` reads one. A byte that a store covers is found by its
distance from the address of the store, so stores of consecutive pieces add up.
-/

namespace Bytes

variable [Usize]

open Usize

abbrev Memory : Type := Nat → UInt8

/-- The address lies within `length` bytes from `start` on. -/
def Covers (start length address : Nat) : Prop :=
  address < count ∧ wrappingSub address start < length

/-- The memory with `bytes` written from `start` on. -/
def store (memory : Memory) (start : Nat) (bytes : List UInt8) : Memory := fun address =>
  if address < count then bytes.getD (wrappingSub address start) (memory address)
  else memory address

/-- The `length` bytes from `start` on. -/
def load (memory : Memory) (start length : Nat) : List UInt8 :=
  (List.range length).map fun index => memory (wrappingAdd start index)

theorem wrappingAdd_lt (start offset : Nat) : wrappingAdd start offset < count :=
  Nat.mod_lt _ count_pos

theorem wrappingSub_lt (left right : Nat) : wrappingSub left right < count :=
  Nat.mod_lt _ count_pos

/-- An address is found at its distance. -/
theorem wrappingAdd_wrappingSub {address : Nat} (small : address < count) (start : Nat) :
    wrappingAdd start (wrappingSub address start) = address := by
  have reduced := Nat.mod_lt start count_pos
  rw [wrappingAdd, wrappingSub, Nat.add_mod_mod, ← Nat.mod_add_mod]
  have regroup : start % count + (address + (count - start % count)) = address + count := by omega
  rw [regroup, Nat.add_mod_right, Nat.mod_eq_of_lt small]

/-- The distance of an address given by a distance. -/
theorem wrappingSub_wrappingAdd {offset : Nat} (small : offset < count) (start : Nat) :
    wrappingSub (wrappingAdd start offset) start = offset := by
  have reduced := Nat.mod_lt start count_pos
  rw [wrappingAdd, wrappingSub, Nat.mod_add_mod]
  have regroup : start + offset + (count - start % count) =
      offset + count + count * (start / count) := by
    have split := Nat.div_add_mod start count
    omega
  rw [regroup, Nat.add_mul_mod_self_left, Nat.add_mod_right, Nat.mod_eq_of_lt small]

theorem wrappingAdd_wrappingAdd (start first second : Nat) :
    wrappingAdd (wrappingAdd start first) second = wrappingAdd start (first + second) := by
  rw [wrappingAdd, wrappingAdd, wrappingAdd, Nat.mod_add_mod, Nat.add_assoc]

theorem wrappingSub_wrappingSub (start first second : Nat) :
    wrappingSub (wrappingSub start first) second = wrappingSub start (first + second) := by
  have firstLt := Nat.mod_lt first count_pos
  have secondLt := Nat.mod_lt second count_pos
  rw [wrappingSub, wrappingSub, wrappingSub, Nat.mod_add_mod, Nat.add_mod first second]
  generalize first % count = low at *
  generalize second % count = high at *
  by_cases wraps : low + high < count
  · rw [Nat.mod_eq_of_lt wraps]
    have regroup : start + (count - low) + (count - high) =
        start + (count - (low + high)) + count := by omega
    rw [regroup, Nat.add_mod_right]
  · have reduced : (low + high) % count = low + high - count := by
      rw [Nat.mod_eq_sub_mod (by omega), Nat.mod_eq_of_lt (by omega)]
    rw [reduced]
    congr 1
    omega

/-- Going down and up again. -/
theorem wrappingAdd_of_wrappingSub {start depth offset : Nat} (le : offset ≤ depth) :
    wrappingAdd (wrappingSub start depth) offset = wrappingSub start (depth - offset) := by
  have back := wrappingAdd_wrappingSub (wrappingSub_lt start (depth - offset)) offset
  rw [wrappingSub_wrappingSub, Nat.sub_add_cancel le] at back
  rw [wrappingAdd, Nat.add_comm]
  exact back

theorem wrappingAdd_cancel {start first second : Nat} (firstSmall : first < count)
    (secondSmall : second < count)
    (same : wrappingAdd start first = wrappingAdd start second) : first = second := by
  rw [← wrappingSub_wrappingAdd firstSmall start, same, wrappingSub_wrappingAdd secondSmall]

theorem covers_iff {start length address : Nat} (fits : length ≤ count) :
    Covers start length address ↔ ∃ index < length, address = wrappingAdd start index := by
  constructor
  · rintro ⟨small, near⟩
    exact ⟨wrappingSub address start, near, (wrappingAdd_wrappingSub small start).symm⟩
  · rintro ⟨index, near, rfl⟩
    refine ⟨wrappingAdd_lt start index, ?_⟩
    rw [wrappingSub_wrappingAdd (by omega : index < count)]
    exact near

/-- What is in one part of a run is not in another. -/
theorem not_covers_apart {start within length index : Nat} (small : index < count)
    (fits : within + length ≤ count) (apart : index < within ∨ within + length ≤ index) :
    ¬Covers (wrappingAdd start within) length (wrappingAdd start index) := by
  rw [covers_iff (by omega)]
  rintro ⟨other, near, same⟩
  rw [wrappingAdd_wrappingAdd] at same
  have distance := wrappingAdd_cancel small (by omega) same
  omega

theorem Covers.mono {start short long address : Nat} (covered : Covers start short address)
    (le : short ≤ long) : Covers start long address :=
  ⟨covered.1, Nat.lt_of_lt_of_le covered.2 le⟩

theorem store_of_not_covers {memory : Memory} {start address : Nat} {bytes : List UInt8}
    (outside : ¬Covers start bytes.length address) :
    store memory start bytes address = memory address := by
  unfold store
  split
  · rename_i small
    have far : bytes.length ≤ wrappingSub address start := by
      by_contra near
      exact outside ⟨small, by omega⟩
    rw [List.getD_eq_getElem?_getD, List.getElem?_eq_none far, Option.getD_none]
  · rfl

theorem store_outside {memory : Memory} {address target : Nat} {bytes : List UInt8}
    (fits : address + bytes.length ≤ count)
    (outside : target < address ∨ address + bytes.length ≤ target) :
    store memory address bytes target = memory target := by
  apply store_of_not_covers
  rw [covers_iff (by omega)]
  rintro ⟨index, near, same⟩
  rw [wrappingAdd_of_lt (by omega)] at same
  omega

theorem store_at {memory : Memory} {start index : Nat} {bytes : List UInt8}
    (inside : index < bytes.length) (fits : bytes.length ≤ count) :
    store memory start bytes (wrappingAdd start index) = bytes[index] := by
  rw [store, if_pos (wrappingAdd_lt start index),
    wrappingSub_wrappingAdd (by omega : index < count) start]
  simp [inside]

@[simp]
theorem store_nil (memory : Memory) (start : Nat) : store memory start [] = memory := by
  funext address
  simp [store]

@[simp]
theorem length_load (memory : Memory) (start length : Nat) :
    (load memory start length).length = length := by
  simp [load]

theorem load_store {memory : Memory} {start : Nat} {bytes : List UInt8}
    (fits : bytes.length ≤ count) : load (store memory start bytes) start bytes.length = bytes := by
  apply List.ext_getElem
  · simp
  · intro index inside inside'
    simp only [load, List.getElem_map, List.getElem_range]
    exact store_at inside' fits

/-- Storing what is already there changes nothing. -/
theorem store_load (memory : Memory) (start length : Nat) :
    store memory start (load memory start length) = memory := by
  funext address
  by_cases covered : Covers start (load memory start length).length address
  · obtain ⟨small, near⟩ := covered
    rw [store, if_pos small]
    simp only [load, List.getD_eq_getElem?_getD, List.getElem?_map]
    rw [length_load] at near
    rw [List.getElem?_range near]
    simp [wrappingAdd_wrappingSub small start]
  · exact store_of_not_covers covered

/-- Two stores of consecutive pieces are one. -/
theorem store_append (memory : Memory) (start : Nat) (first second : List UInt8)
    (fits : first.length + second.length ≤ count) :
    store (store memory start first) (wrappingAdd start first.length) second =
      store memory start (first ++ second) := by
  funext address
  by_cases covered : Covers start (first ++ second).length address
  · rw [covers_iff (by simpa using fits)] at covered
    obtain ⟨index, near, rfl⟩ := covered
    rw [store_at near (by simpa using fits)]
    rw [List.length_append] at near
    by_cases inFirst : index < first.length
    · have apart : ¬Covers (wrappingAdd start first.length) second.length
          (wrappingAdd start index) := not_covers_apart (by omega) fits (.inl inFirst)
      rw [store_of_not_covers apart, store_at inFirst (by omega),
        List.getElem_append_left inFirst]
    · obtain ⟨rest, rfl⟩ := Nat.exists_eq_add_of_le (Nat.le_of_not_lt inFirst)
      rw [← wrappingAdd_wrappingAdd, store_at (by omega : rest < second.length) (by omega),
        List.getElem_append_right (by omega)]
      simp
  · rw [store_of_not_covers covered]
    rw [store_of_not_covers, store_of_not_covers]
    · intro inFirst
      exact covered (inFirst.mono (by simp))
    · intro inSecond
      apply covered
      rw [covers_iff (by omega)] at inSecond
      rw [covers_iff (by simpa using fits)]
      obtain ⟨index, near, rfl⟩ := inSecond
      refine ⟨first.length + index, by simpa using near, ?_⟩
      rw [wrappingAdd_wrappingAdd]

/-- Storing in front of what has been stored. -/
theorem store_prepend (memory : Memory) (start : Nat) (first second : List UInt8)
    (fits : first.length + second.length ≤ count) :
    store (store memory (wrappingAdd start first.length) second) start first =
      store memory start (first ++ second) := by
  rw [← store_append memory start first second fits]
  funext address
  by_cases inFirst : Covers start first.length address
  · rw [covers_iff (by omega)] at inFirst
    rcases inFirst with ⟨index, inside, rfl⟩
    have apart : ¬Covers (wrappingAdd start first.length) second.length
        (wrappingAdd start index) := not_covers_apart (by omega) fits (.inl inside)
    rw [store_at inside (by omega), store_of_not_covers apart, store_at inside (by omega)]
  · rw [store_of_not_covers inFirst]
    by_cases inSecond : Covers (wrappingAdd start first.length) second.length address
    · rw [covers_iff (by omega)] at inSecond
      rcases inSecond with ⟨index, inside, rfl⟩
      rw [store_at inside (by omega), store_at inside (by omega)]
    · rw [store_of_not_covers inSecond, store_of_not_covers inSecond, store_of_not_covers inFirst]

/-- `bytes[within..within + part.len()]` replaced by `part`. -/
def splice (bytes : List UInt8) (within : Nat) (part : List UInt8) : List UInt8 :=
  bytes.take within ++ (part ++ bytes.drop (within + part.length))

omit [Usize] in
theorem length_splice {bytes part : List UInt8} {within : Nat}
    (inside : within + part.length ≤ bytes.length) :
    (splice bytes within part).length = bytes.length := by
  simp only [splice, List.length_append, List.length_take, List.length_drop]
  omega

theorem load_append (memory : Memory) (start first second : Nat) :
    load memory start (first + second) =
      load memory start first ++ load memory (wrappingAdd start first) second := by
  simp only [load, List.range_add, List.map_append, List.map_map]
  congr 1
  apply List.map_congr_left
  intro index _
  simp [wrappingAdd_wrappingAdd]

/-- A piece of a run is a run. -/
theorem load_slice (memory : Memory) (start within length part : Nat)
    (inside : within + part ≤ length) :
    ((load memory start length).drop within).take part =
      load memory (wrappingAdd start within) part := by
  rcases Nat.exists_eq_add_of_le inside with ⟨rest, rfl⟩
  rw [Nat.add_assoc, load_append, List.drop_left' (by simp), load_append, List.take_left' (by simp)]

/-- Storing a run with a part of it replaced stores the part. -/
theorem store_splice (memory : Memory) (start within length : Nat) (part : List UInt8)
    (inside : within + part.length ≤ length) (fits : length ≤ count) :
    store memory start (splice (load memory start length) within part) =
      store memory (wrappingAdd start within) part := by
  obtain ⟨rest, rfl⟩ := Nat.exists_eq_add_of_le inside
  have front : (load memory start (within + part.length + rest)).take within =
      load memory start within := by
    rw [Nat.add_assoc, load_append, List.take_left' (by simp)]
  have back : (load memory start (within + part.length + rest)).drop (within + part.length) =
      load memory (wrappingAdd start (within + part.length)) rest := by
    rw [load_append, List.drop_left' (by simp)]
  rw [splice, front, back, ← store_append _ _ _ _ (by simp; omega), store_load, length_load,
    ← store_append _ _ _ _ (by simp; omega)]
  have untouched : load memory (wrappingAdd start (within + part.length)) rest =
      load (store memory (wrappingAdd start within) part)
        (wrappingAdd (wrappingAdd start within) part.length) rest := by
    rw [wrappingAdd_wrappingAdd]
    apply List.map_congr_left
    intro index near
    rw [List.mem_range] at near
    rw [wrappingAdd_wrappingAdd,
      store_of_not_covers (not_covers_apart (by omega) (by omega) (by omega))]
  rw [untouched, store_load]

end Bytes
