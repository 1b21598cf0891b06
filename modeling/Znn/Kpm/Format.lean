import Mathlib.Algebra.Order.Group.Nat
import Znn.Text.Decimal

/-!
# The lines of the exec channel

The kernel module has no `printf`: it appends text and digits to a buffer of limited capacity. No
line ever fills the buffer, so what it appends is the line that the format describes.
-/

namespace Znn.Kpm

open Text

def ZNN_LINE_CAPACITY : Nat := 80

/-- Text as the bytes of a C string. -/
def ascii (text : List Char) : List UInt8 :=
  text.map fun symbol => UInt8.ofNat symbol.toNat

def appendText (buffer : List UInt8) (capacity : Nat) : List UInt8 → List UInt8
  | [] => buffer
  | byte :: text =>
      if buffer.length < capacity then appendText (buffer ++ [byte]) capacity text else buffer

/-- The digits of `znn_append_u64`, the last one first, as long as there is room for them. -/
def digits : Nat → Nat → List UInt8
  | 0, _ => []
  | room + 1, value =>
      UInt8.ofNat (48 + value % 10) :: if value / 10 = 0 then [] else digits room (value / 10)

def appendU64 (buffer : List UInt8) (capacity value : Nat) : List UInt8 :=
  appendText buffer capacity (digits 20 value).reverse

def appendI32 (buffer : List UInt8) (capacity : Nat) (value : Int32) : List UInt8 :=
  if value.toInt < 0 then
    appendU64 (appendText buffer capacity (ascii ['-'])) capacity (-value.toInt).toNat
  else
    appendU64 buffer capacity value.toInt.toNat

def formatExecRecord (capacity seq : Nat) (pid tgid ppid : Int32) : List UInt8 :=
  let buffer := appendText [] capacity (ascii "seq=".toList)
  let buffer := appendU64 buffer capacity seq
  let buffer := appendText buffer capacity (ascii " pid=".toList)
  let buffer := appendI32 buffer capacity pid
  let buffer := appendText buffer capacity (ascii " tgid=".toList)
  let buffer := appendI32 buffer capacity tgid
  let buffer := appendText buffer capacity (ascii " ppid=".toList)
  let buffer := appendI32 buffer capacity ppid
  appendText buffer capacity (ascii ['\n'])

/-- The text of a line, without the line feed. -/
def recordText (seq : Nat) (pid tgid ppid : Int32) : List Char :=
  "seq=".toList ++ Nat.toDigits 10 seq ++ ' ' :: ("pid=".toList ++ decimal pid.toInt ++
    ' ' :: ("tgid=".toList ++ decimal tgid.toInt ++ ' ' :: ("ppid=".toList ++
      decimal ppid.toInt)))

@[simp]
theorem length_ascii (text : List Char) : (ascii text).length = text.length :=
  List.length_map _

section Lines

variable {buffer text : List UInt8} {capacity value : Nat}

theorem appendText_of_fits (fits : buffer.length + text.length ≤ capacity) :
    appendText buffer capacity text = buffer ++ text := by
  induction text generalizing buffer with
  | nil => simp [appendText]
  | cons byte text ih =>
      rw [List.length_cons] at fits
      have room : buffer.length < capacity := by omega
      rw [appendText, if_pos room, ih (by simp; omega)]
      simp

theorem digits_eq (room value : Nat) (small : value < 10 ^ room) (hasRoom : 0 < room) :
    (digits room value).reverse = ascii (Nat.toDigits 10 value) := by
  induction room generalizing value with
  | zero => omega
  | succ room ih =>
      rw [digits]
      by_cases single : value / 10 = 0
      · have digit : value < 10 := by omega
        rw [if_pos single, Nat.toDigits_of_lt_base digit, Nat.mod_eq_of_lt digit]
        simp [ascii, Nat.toNat_digitChar_of_lt_ten digit]
      · have more : value / 10 < 10 ^ room := by
          rw [pow_succ] at small
          exact Nat.div_lt_of_lt_mul (by omega)
        have hasMore : 0 < room := by
          apply Nat.pos_of_ne_zero
          rintro rfl
          simp at more
          omega
        have digit : value % 10 < 10 := Nat.mod_lt _ (by decide)
        rw [if_neg single, Nat.toDigits_of_base_le (by decide) (by omega), List.reverse_cons,
          ih _ more hasMore]
        simp [ascii, Nat.toNat_digitChar_of_lt_ten digit]

theorem appendU64_eq (word : value < 2 ^ 64) :
    appendU64 buffer capacity value =
      appendText buffer capacity (ascii (Nat.toDigits 10 value)) := by
  rw [appendU64, digits_eq 20 value (by omega) (by decide)]

theorem length_toDigits_le (count : Nat) (positive : 0 < count) (small : value < 10 ^ count) :
    (ascii (Nat.toDigits 10 value)).length ≤ count := by
  rw [ascii, List.length_map]
  exact (Nat.length_toDigits_le_iff (by decide) positive).mpr small

/-- A signed number takes eleven places at most. -/
theorem length_decimal_le (value : Int32) : (ascii (decimal value.toInt)).length ≤ 11 := by
  have low := value.le_toInt
  have high := value.toInt_lt
  cases signed : value.toInt with
  | ofNat number =>
      rw [signed] at high
      have small : number < 10 ^ 11 := by
        have bound : (number : Int) < 2 ^ 31 := high
        omega
      exact length_toDigits_le 11 (by decide) small
  | negSucc number =>
      rw [signed] at low
      have small : number + 1 < 10 ^ 10 := by omega
      have length := length_toDigits_le 10 (by decide) small
      rw [ascii, List.length_map] at length
      rw [decimal, ascii, List.length_map, List.length_cons]
      omega

theorem appendI32_eq {value : Int32} (fits : buffer.length + 11 ≤ capacity) :
    appendI32 buffer capacity value = buffer ++ ascii (decimal value.toInt) := by
  have low := value.le_toInt
  have high := value.toInt_lt
  have length := length_decimal_le value
  cases signed : value.toInt with
  | ofNat number =>
      rw [signed] at high length
      have word : number < 2 ^ 64 := by
        have bound : (number : Int) < 2 ^ 31 := high
        omega
      have positive : ¬Int.ofNat number < 0 := by simp
      rw [appendI32, signed, if_neg positive, Int.ofNat_eq_natCast,
        Int.toNat_natCast, appendU64_eq word]
      exact appendText_of_fits (by
        have : (ascii (decimal (Int.ofNat number))).length ≤ 11 := length
        rw [decimal] at this
        omega)
  | negSucc number =>
      rw [signed] at low length
      have word : number + 1 < 2 ^ 64 := by omega
      have negative : Int.negSucc number < 0 := Int.negSucc_lt_zero number
      rw [decimal] at length ⊢
      have places : (ascii (Nat.toDigits 10 (number + 1))).length ≤ 10 := by
        rw [ascii, List.length_map, List.length_cons] at length
        rw [ascii, List.length_map]
        omega
      rw [appendI32, signed, if_pos negative, appendText_of_fits (by simp [ascii]; omega)]
      have turned : (-Int.negSucc number).toNat = number + 1 := rfl
      rw [turned, appendU64_eq word, appendText_of_fits (by simp [ascii] at places ⊢; omega)]
      simp [ascii]

theorem length_recordText_le {seq : Nat} (word : seq < 2 ^ 64) (pid tgid ppid : Int32) :
    (recordText seq pid tgid ppid).length ≤ 74 := by
  have seqLength := @length_toDigits_le seq 20 (by decide) (by omega)
  have pidLength := length_decimal_le pid
  have tgidLength := length_decimal_le tgid
  have ppidLength := length_decimal_le ppid
  simp only [length_ascii] at seqLength pidLength tgidLength ppidLength
  simp [recordText]
  omega

/-- The capacity is never reached. -/
theorem formatExecRecord_of_capacity {seq : Nat} (word : seq < 2 ^ 64) (pid tgid ppid : Int32)
    (roomy : ZNN_LINE_CAPACITY ≤ capacity) :
    formatExecRecord capacity seq pid tgid ppid =
      ascii (recordText seq pid tgid ppid ++ ['\n']) := by
  have seqLength := @length_toDigits_le seq 20 (by decide) (by omega)
  have pidLength := length_decimal_le pid
  have tgidLength := length_decimal_le tgid
  have ppidLength := length_decimal_le ppid
  simp only [length_ascii] at seqLength pidLength tgidLength ppidLength
  rw [ZNN_LINE_CAPACITY] at roomy
  simp only [formatExecRecord]
  -- The innermost call first: every one of them finds the room it needs.
  simp (disch := simp <;> omega) only [appendText_of_fits, appendU64_eq word, appendI32_eq]
  simp [recordText, ascii]

theorem formatExecRecord_eq {seq : Nat} (word : seq < 2 ^ 64) (pid tgid ppid : Int32) :
    formatExecRecord ZNN_LINE_CAPACITY seq pid tgid ppid =
      ascii (recordText seq pid tgid ppid ++ ['\n']) :=
  formatExecRecord_of_capacity word pid tgid ppid (Nat.le_refl _)

end Lines

example : formatExecRecord ZNN_LINE_CAPACITY 65 7 7 (-1) =
    ascii "seq=65 pid=7 tgid=7 ppid=-1\n".toList := by
  decide +kernel

end Znn.Kpm
