import Mathlib.Data.List.Basic
import Mathlib.Tactic.Ring

/-!
# Numbers as bytes

A number is laid out as a fixed count of bytes, least significant first or last. The host's
own order is a parameter, since a format written and read on one machine never names it.
-/

namespace Bytes

/-- The `count` low bytes of `value`, least significant first. -/
def little : (count value : Nat) → List UInt8
  | 0, _ => []
  | count + 1, value => UInt8.ofNat value :: little count (value / 256)

/-- The number whose bytes, least significant first, are given. -/
def littleValue : List UInt8 → Nat
  | [] => 0
  | byte :: rest => byte.toNat + 256 * littleValue rest

@[simp]
theorem length_little (count value : Nat) : (little count value).length = count := by
  induction count generalizing value with
  | zero => rfl
  | succ count ih => simp [little, ih]

theorem littleValue_little (count value : Nat) :
    littleValue (little count value) = value % 256 ^ count := by
  induction count generalizing value with
  | zero => simp [little, littleValue, Nat.mod_one]
  | succ count ih =>
      have low : (UInt8.ofNat value).toNat = value % 256 := by simp
      rw [little, littleValue, ih, low, pow_succ, Nat.mul_comm (256 ^ count) 256,
        Nat.mod_mul]

/-- A number of more bytes has the bytes of the rest of it behind. -/
theorem little_add (first second value : Nat) :
    little (first + second) value = little first value ++ little second (value / 256 ^ first) := by
  induction first generalizing value with
  | zero => simp [little]
  | succ first ih =>
      rw [Nat.succ_add, little, little, ih, Nat.div_div_eq_div_mul, ← pow_succ', List.cons_append]

theorem littleValue_lt (bytes : List UInt8) : littleValue bytes < 256 ^ bytes.length := by
  induction bytes with
  | nil => simp [littleValue]
  | cons byte rest ih =>
      have small := byte.toNat_lt
      simp only [littleValue, List.length_cons, pow_succ]
      omega

/-- Which end of a number comes first in memory. -/
inductive Order where
  | little
  | big
deriving DecidableEq, Repr

namespace Order

/-- The `count` low bytes of `value` as this host lays them out. -/
def bytes (order : Order) (count value : Nat) : List UInt8 :=
  match order with
  | .little => Bytes.little count value
  | .big => (Bytes.little count value).reverse

/-- The number this host reads from the given bytes. -/
def value (order : Order) (bytes : List UInt8) : Nat :=
  match order with
  | .little => littleValue bytes
  | .big => littleValue bytes.reverse

@[simp]
theorem length_bytes (order : Order) (count value : Nat) :
    (order.bytes count value).length = count := by
  cases order <;> simp [bytes]

theorem value_bytes (order : Order) (count value : Nat) :
    order.value (order.bytes count value) = value % 256 ^ count := by
  cases order <;> simp [bytes, Order.value, littleValue_little]

theorem value_lt (order : Order) (bytes : List UInt8) :
    order.value bytes < 256 ^ bytes.length := by
  cases order with
  | little => exact littleValue_lt bytes
  | big =>
      have small := littleValue_lt bytes.reverse
      rw [List.length_reverse] at small
      exact small

/-- The four bytes of a 32-bit word. -/
def word (order : Order) (value : UInt32) : List UInt8 :=
  order.bytes 4 value.toNat

/-- The 32-bit word this host reads from four bytes. -/
def ofWord (order : Order) (bytes : List UInt8) : UInt32 :=
  UInt32.ofNat (order.value bytes)

@[simp]
theorem length_word (order : Order) (value : UInt32) : (order.word value).length = 4 :=
  order.length_bytes 4 value.toNat

@[simp]
theorem ofWord_word (order : Order) (value : UInt32) : order.ofWord (order.word value) = value := by
  have small := value.toNat_lt
  rw [ofWord, word, value_bytes, Nat.mod_eq_of_lt (by simpa using small), UInt32.ofNat_toNat]

theorem length_flatMap_word (order : Order) (values : List UInt32) :
    (values.flatMap order.word).length = 4 * values.length := by
  induction values with
  | nil => rfl
  | cons value rest ih =>
      simp only [List.flatMap_cons, List.length_append, length_word, ih, List.length_cons]
      omega

/-- A word in the middle of a run of words stands between the words before and after it. -/
theorem flatMap_word_split (order : Order) (values : List UInt32) (index : Nat)
    (inside : index < values.length) :
    values.flatMap order.word =
      (values.take index).flatMap order.word ++
        (order.word values[index] ++ (values.drop (index + 1)).flatMap order.word) := by
  rw [← List.flatMap_cons, ← List.flatMap_append, ← List.drop_eq_getElem_cons inside,
    List.take_append_drop]

end Order

end Bytes
