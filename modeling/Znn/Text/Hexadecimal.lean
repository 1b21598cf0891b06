import Mathlib.Data.List.Basic
import Mathlib.Tactic.Ring

/-!
# Hexadecimal numbers in bytes

Numbers as `%x` prints them, padded with zeros to some width, and the value that such digits are
written for. The value forgets the padding, so a number is told by its digits at any width.
-/

namespace Text

/-- ASCII text as bytes. -/
def octets (text : List Char) : List UInt8 :=
  text.map fun symbol => UInt8.ofNat symbol.toNat

/-- The value of a digit of either case. -/
def hexDigit (byte : UInt8) : Option Nat :=
  if 48 ≤ byte ∧ byte ≤ 57 then some (byte.toNat - 48)
  else if 97 ≤ byte ∧ byte ≤ 102 then some (byte.toNat - 87)
  else if 65 ≤ byte ∧ byte ≤ 70 then some (byte.toNat - 55)
  else none

/-- The number that is written with these digits. -/
def hexValue (digits : List UInt8) : Nat :=
  digits.foldl (fun value byte => value * 16 + (hexDigit byte).getD 0) 0

/-- `%0*x`. -/
def hexadecimal (width value : Nat) : List UInt8 :=
  octets ((Nat.toDigits 16 value).leftpad width '0')

theorem octets_append (first second : List Char) :
    octets (first ++ second) = octets first ++ octets second :=
  List.map_append

@[simp]
theorem length_octets (text : List Char) : (octets text).length = text.length :=
  List.length_map _

theorem hexDigit_digitChar {digit : Nat} (small : digit < 16) :
    hexDigit (UInt8.ofNat digit.digitChar.toNat) = some digit := by
  have each : ∀ digit : Fin 16, hexDigit (UInt8.ofNat digit.val.digitChar.toNat) = some digit.val := by
    decide
  exact each ⟨digit, small⟩

theorem hexValue_append (first : List UInt8) (last : UInt8) :
    hexValue (first ++ [last]) = hexValue first * 16 + (hexDigit last).getD 0 := by
  rw [hexValue, List.foldl_append]
  rfl

theorem hexValue_toDigits (value : Nat) : hexValue (octets (Nat.toDigits 16 value)) = value := by
  induction value using Nat.strongRecOn with
  | ind value ih =>
      rw [Nat.toDigits_eq_if (by decide)]
      split
      case isTrue small =>
        simp [octets, hexValue, hexDigit_digitChar small]
      case isFalse large =>
        have digit := hexDigit_digitChar (Nat.mod_lt value (by decide : 0 < 16))
        rw [octets_append, octets, octets, List.map_singleton, hexValue_append, digit]
        rw [← octets, ih (value / 16) (by omega), Option.getD_some]
        omega

/-- Leading zeros are not seen. -/
theorem hexValue_zeros (zeros : Nat) (digits : List UInt8) :
    hexValue (List.replicate zeros 48 ++ digits) = hexValue digits := by
  induction zeros with
  | zero => rfl
  | succ zeros ih => exact ih

@[simp]
theorem hexValue_hexadecimal (width value : Nat) : hexValue (hexadecimal width value) = value := by
  rw [hexadecimal, List.leftpad, octets_append, octets, List.map_replicate]
  exact (hexValue_zeros _ _).trans (hexValue_toDigits value)

theorem hexadecimal_injective (width : Nat) {first second : Nat}
    (same : hexadecimal width first = hexadecimal width second) : first = second := by
  rw [← hexValue_hexadecimal width first, same, hexValue_hexadecimal]

/-- Every symbol of a number is the symbol of a digit. -/
theorem exists_digitChar {base value : Nat} (large : 1 < base) {symbol : Char}
    (member : symbol ∈ Nat.toDigits base value) : ∃ digit < base, symbol = digit.digitChar := by
  induction value using Nat.strongRecOn with
  | ind value ih =>
      rw [Nat.toDigits_eq_if large] at member
      split at member
      case isTrue small => exact ⟨value, small, List.mem_singleton.mp member⟩
      case isFalse beyond =>
        rcases List.mem_append.mp member with front | last
        · exact ih (value / base) (Nat.div_lt_self (by omega) large) front
        · exact ⟨value % base, Nat.mod_lt _ (by omega), List.mem_singleton.mp last⟩

/-- Numbers are written in ASCII. -/
theorem ascii_toDigits {base value : Nat} (large : 1 < base) (small : base ≤ 16) {symbol : Char}
    (member : symbol ∈ Nat.toDigits base value) : symbol.toNat < 128 := by
  have each : ∀ digit : Fin 16, digit.val.digitChar.toNat < 128 := by decide
  rcases exists_digitChar large member with ⟨digit, bound, rfl⟩
  exact each ⟨digit, by omega⟩

theorem hexDigit_of_mem_toDigits {value : Nat} {byte : UInt8}
    (member : byte ∈ octets (Nat.toDigits 16 value)) : (hexDigit byte).isSome = true := by
  rcases List.mem_map.mp member with ⟨symbol, inDigits, rfl⟩
  rcases exists_digitChar (by decide) inDigits with ⟨digit, small, rfl⟩
  rw [hexDigit_digitChar small]
  rfl

theorem hexDigit_of_mem {width value : Nat} {byte : UInt8}
    (member : byte ∈ hexadecimal width value) : (hexDigit byte).isSome = true := by
  rw [hexadecimal, List.leftpad, octets_append, List.mem_append, octets, List.map_replicate] at member
  rcases member with zeros | digits
  · rw [List.eq_of_mem_replicate zeros]
    rfl
  · exact hexDigit_of_mem_toDigits digits

theorem not_mem_hexadecimal {width value : Nat} {byte : UInt8} (noDigit : hexDigit byte = none) :
    byte ∉ hexadecimal width value := by
  intro member
  have digit := hexDigit_of_mem member
  rw [noDigit] at digit
  cases digit

theorem not_mem_decimalBytes {value : Nat} {byte : UInt8} (noDigit : hexDigit byte = none) :
    byte ∉ octets (Nat.toDigits 10 value) := by
  intro member
  rcases List.mem_map.mp member with ⟨symbol, inDigits, rfl⟩
  rcases exists_digitChar (by decide) inDigits with ⟨digit, small, rfl⟩
  rw [hexDigit_digitChar (by omega)] at noDigit
  cases noDigit

theorem hexadecimal_ne_nil (width value : Nat) : hexadecimal width value ≠ [] := by
  intro empty
  have length := congrArg List.length empty
  rw [hexadecimal, length_octets, List.length_leftpad, List.length_nil] at length
  have digits := @Nat.length_toDigits_pos 16 value
  omega

/-- A number that fits takes the width. -/
theorem length_hexadecimal {width value : Nat} (positive : 0 < width)
    (small : value < 16 ^ width) : (hexadecimal width value).length = width := by
  have digits := (Nat.length_toDigits_le_iff (by decide) positive).mpr small
  rw [hexadecimal, length_octets, List.length_leftpad]
  omega

end Text
