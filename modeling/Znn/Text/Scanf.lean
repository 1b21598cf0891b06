import Znn.Text.Hexadecimal

/-!
# `sscanf`

The conversions of `scanf` that lines of numbers are read with. A scan ends at the first directive
that does not match; what has been converted by then is assigned. A number that does not fit its
type is read as `strtoumax` reads it and cut down.
-/

namespace Text

/-- `isspace`. -/
def isSpace (byte : UInt8) : Bool :=
  byte == 32 || (9 ≤ byte && byte ≤ 13)

/-- The number that is written with these digits of a base up to 16. -/
def numberIn (base : Nat) (digits : List UInt8) : Nat :=
  digits.foldl (fun value byte => value * base + (hexDigit byte).getD 0) 0

/-- A digit of the base. -/
def isDigitIn (base : Nat) (byte : UInt8) : Bool :=
  ((hexDigit byte).filter fun digit => digit < base).isSome

/-- A sign: whether the number is negated, and what follows. -/
def scanSign : List UInt8 → Bool × List UInt8
  | 45 :: rest => (true, rest)
  | 43 :: rest => (false, rest)
  | input => (false, input)

/-- What follows `0x`, if a digit does. -/
def skipPrefix : List UInt8 → List UInt8
  | 48 :: marker :: digit :: rest =>
      if (marker = 120 ∨ marker = 88) ∧ isDigitIn 16 digit = true then digit :: rest
      else 48 :: marker :: digit :: rest
  | input => input

/-- `%lu` and `%lx`, for an unsigned type of so many bits: the number and what follows it. -/
def scanNumber (base bits : Nat) (input : List UInt8) : Option (Nat × List UInt8) :=
  let (negative, input) := scanSign (input.dropWhile isSpace)
  let input := if base = 16 then skipPrefix input else input
  let digits := input.takeWhile (isDigitIn base)
  if digits = [] then
    none
  else
    let value := min (numberIn base digits) (2 ^ 64 - 1)
    some ((if negative then 2 ^ 64 - value else value) % 2 ^ bits, input.dropWhile (isDigitIn base))

inductive Directive where
  /-- White space, which matches any amount of it. -/
  | blanks
  | literal (byte : UInt8)
  | number (base bits : Nat)
  /-- `%7s`. -/
  | word (width : Nat)
  /-- `%7[^\n]`. -/
  | line (width : Nat)

/-- What a conversion assigns. -/
inductive Converted where
  | number (value : Nat)
  | text (bytes : List UInt8)
deriving DecidableEq, Repr

/-- The conversions that `sscanf` assigns, in their order. -/
def sscanf : List Directive → List UInt8 → List Converted
  | [], _ => []
  | .blanks :: format, input => sscanf format (input.dropWhile isSpace)
  | .literal byte :: format, input =>
      match input with
      | [] => []
      | first :: rest => if first = byte then sscanf format rest else []
  | .number base bits :: format, input =>
      match scanNumber base bits input with
      | none => []
      | some (value, rest) => .number value :: sscanf format rest
  | .word width :: format, input =>
      let input := input.dropWhile isSpace
      let bytes := (input.take width).takeWhile fun byte => !isSpace byte
      if bytes = [] then [] else .text bytes :: sscanf format (input.drop bytes.length)
  | .line width :: format, input =>
      let bytes := (input.take width).takeWhile fun byte => byte ≠ 10
      if bytes = [] then [] else .text bytes :: sscanf format (input.drop bytes.length)

section Numbers

variable {base bits value : Nat} {digits rest : List UInt8}

theorem takeWhile_digits {p : UInt8 → Bool} (areDigits : ∀ byte ∈ digits, p byte = true)
    (ends : ∀ byte ∈ rest.head?, p byte = false) :
    (digits ++ rest).takeWhile p = digits ∧ (digits ++ rest).dropWhile p = rest := by
  rw [List.takeWhile_append_of_pos areDigits, List.dropWhile_append_of_pos areDigits]
  cases rest with
  | nil => simp
  | cons byte rest =>
      have stop : ¬p byte = true := by simp [ends byte rfl]
      rw [List.takeWhile_cons_of_neg stop, List.dropWhile_cons_of_neg stop, List.append_nil]
      exact ⟨rfl, rfl⟩

theorem hexDigit_eq_some {byte : UInt8} {digit : Nat} (found : hexDigit byte = some digit) :
    48 ≤ byte.toNat ∧ byte.toNat ≤ 57 ∧ digit = byte.toNat - 48 ∨
      97 ≤ byte.toNat ∧ byte.toNat ≤ 102 ∧ digit = byte.toNat - 87 ∨
      65 ≤ byte.toNat ∧ byte.toNat ≤ 70 ∧ digit = byte.toNat - 55 := by
  simp only [hexDigit, UInt8.le_iff_toNat_le, UInt8.reduceToNat] at found
  split at found
  case isTrue decimal =>
    cases found
    exact .inl ⟨decimal.1, decimal.2, rfl⟩
  case isFalse =>
    split at found
    case isTrue lower =>
      cases found
      exact .inr (.inl ⟨lower.1, lower.2, rfl⟩)
    case isFalse =>
      split at found
      case isTrue upper =>
        cases found
        exact .inr (.inr ⟨upper.1, upper.2, rfl⟩)
      case isFalse => cases found

theorem isDigitIn_sixteen {byte : UInt8} : isDigitIn 16 byte = (hexDigit byte).isSome := by
  rw [isDigitIn]
  cases found : hexDigit byte with
  | none => rfl
  | some digit =>
      have small : digit < 16 := by
        have range := hexDigit_eq_some found
        omega
      simp [small]

/-- A digit is neither white space nor a sign nor part of a prefix. -/
theorem plain_of_isDigitIn {byte : UInt8} (isDigit : isDigitIn base byte = true) :
    isSpace byte = false ∧ byte ≠ 45 ∧ byte ≠ 43 ∧ byte ≠ 120 ∧ byte ≠ 88 := by
  rw [isDigitIn, Option.isSome_iff_exists] at isDigit
  rcases isDigit with ⟨digit, found⟩
  have range := hexDigit_eq_some (Option.filter_eq_some_iff.mp found).1
  simp only [isSpace, Bool.or_eq_false_iff, beq_eq_false_iff_ne, Bool.and_eq_false_iff,
    decide_eq_false_iff_not, UInt8.le_iff_toNat_le, ne_eq, ← UInt8.toNat_inj, UInt8.reduceToNat]
  omega

theorem skipPrefix_of_unmarked {input : List UInt8}
    (unmarked : ∀ byte ∈ input[1]?, byte ≠ 120 ∧ byte ≠ 88) : skipPrefix input = input := by
  unfold skipPrefix
  split
  case h_1 marker digit rest =>
    rw [if_neg]
    rintro ⟨marked, _⟩
    rcases unmarked marker rfl with ⟨lower, upper⟩
    rcases marked with same | same
    · exact lower same
    · exact upper same
  case h_2 => rfl

/-- Digits that no prefix could be seen in are scanned as a number. -/
theorem scanNumber_digits (areDigits : ∀ byte ∈ digits, isDigitIn base byte = true)
    (nonempty : digits ≠ []) (ends : ∀ byte ∈ rest.head?, isDigitIn base byte = false)
    (unmarked : ∀ byte ∈ rest.head?, byte ≠ 120 ∧ byte ≠ 88) :
    scanNumber base bits (digits ++ rest) =
      some (min (numberIn base digits) (2 ^ 64 - 1) % 2 ^ bits, rest) := by
  have padded : (digits ++ rest).dropWhile isSpace = digits ++ rest := by
    cases digits with
    | nil => exact absurd rfl nonempty
    | cons first digits =>
        have solid := (plain_of_isDigitIn (areDigits first List.mem_cons_self)).1
        rw [List.cons_append, List.dropWhile_cons_of_neg (by simp [solid])]
  have unsigned : scanSign (digits ++ rest) = (false, digits ++ rest) := by
    cases digits with
    | nil => exact absurd rfl nonempty
    | cons first digits =>
        rcases plain_of_isDigitIn (areDigits first List.mem_cons_self) with ⟨_, minus, plus, _⟩
        rw [List.cons_append, scanSign]
        · exact fun _ same => minus (List.cons.inj same).1
        · exact fun _ same => plus (List.cons.inj same).1
  have whole : (if base = 16 then skipPrefix (digits ++ rest) else digits ++ rest) =
      digits ++ rest := by
    split
    case isFalse => rfl
    case isTrue =>
      apply skipPrefix_of_unmarked
      intro byte second
      match digits, nonempty, areDigits with
      | [_], _, _ =>
          apply unmarked byte
          rwa [List.head?_eq_getElem?]
      | _ :: _ :: _, _, areDigits =>
          cases second
          exact (plain_of_isDigitIn (areDigits byte (by simp))).2.2.2
  rcases takeWhile_digits areDigits ends with ⟨taken, left⟩
  simp only [scanNumber, padded, unsigned, whole, taken, left, if_neg nonempty]
  rfl

/-- Where a number ends. -/
def EndsNumber (rest : List UInt8) : Prop :=
  ∀ byte ∈ rest.head?, (∀ base, isDigitIn base byte = false) ∧ byte ≠ 120 ∧ byte ≠ 88

theorem sscanf_number {format : List Directive}
    (areDigits : ∀ byte ∈ digits, isDigitIn base byte = true) (nonempty : digits ≠ [])
    (ends : EndsNumber rest) :
    sscanf (.number base bits :: format) (digits ++ rest) =
      .number (min (numberIn base digits) (2 ^ 64 - 1) % 2 ^ bits) :: sscanf format rest := by
  rw [sscanf, scanNumber_digits areDigits nonempty (fun byte head => (ends byte head).1 base)
    fun byte head => (ends byte head).2]

theorem digits_hexadecimal (width value : Nat) :
    ∀ byte ∈ hexadecimal width value, isDigitIn 16 byte = true := by
  intro byte member
  rw [isDigitIn_sixteen]
  exact hexDigit_of_mem member

theorem digits_decimal (value : Nat) :
    ∀ byte ∈ octets (Nat.toDigits 10 value), isDigitIn 10 byte = true := by
  intro byte member
  rcases List.mem_map.mp member with ⟨symbol, inDigits, rfl⟩
  rcases exists_digitChar (by decide) inDigits with ⟨digit, small, rfl⟩
  rw [isDigitIn, hexDigit_digitChar (by omega)]
  simp [small]

theorem decimal_ne_nil (value : Nat) : octets (Nat.toDigits 10 value) ≠ [] := by
  intro empty
  exact Nat.toDigits_ne_nil (List.map_eq_nil_iff.mp empty)

/-- A number that is printed in hexadecimal is read. -/
theorem sscanf_hexadecimal {format : List Directive} (width : Nat) (word : bits ≤ 64)
    (small : value < 2 ^ bits) (ends : EndsNumber rest) :
    sscanf (.number 16 bits :: format) (hexadecimal width value ++ rest) =
      .number value :: sscanf format rest := by
  have read : numberIn 16 (hexadecimal width value) = value := hexValue_hexadecimal width value
  have fits := Nat.pow_le_pow_right (show 0 < 2 by decide) word
  rw [sscanf_number (digits_hexadecimal width value) (hexadecimal_ne_nil width value) ends, read,
    Nat.min_eq_left (by omega), Nat.mod_eq_of_lt small]

end Numbers

section Texts

variable {format : List Directive} {bytes rest : List UInt8}

theorem dropWhile_of_solid (solid : ∀ byte ∈ rest.head?, isSpace byte = false) :
    rest.dropWhile isSpace = rest := by
  cases rest with
  | nil => rfl
  | cons first rest => rw [List.dropWhile_cons_of_neg (by simp [solid first rfl])]

theorem sscanf_blanks {count : Nat} (solid : ∀ byte ∈ rest.head?, isSpace byte = false) :
    sscanf (.blanks :: format) (List.replicate count 32 ++ rest) = sscanf format rest := by
  have blanks : ∀ byte ∈ List.replicate count (32 : UInt8), isSpace byte = true := by
    intro byte member
    rw [List.eq_of_mem_replicate member]
    rfl
  rw [sscanf, List.dropWhile_append_of_pos blanks, dropWhile_of_solid solid]

/-- Digits are not skipped as white space. -/
theorem solid_digits {base : Nat} (areDigits : ∀ byte ∈ bytes, isDigitIn base byte = true)
    (nonempty : bytes ≠ []) : ∀ byte ∈ (bytes ++ rest).head?, isSpace byte = false := by
  intro byte head
  rw [List.head?_append_of_ne_nil _ nonempty] at head
  exact (plain_of_isDigitIn (areDigits byte (List.mem_of_mem_head? head))).1

theorem sscanf_blank (solid : ∀ byte ∈ rest.head?, isSpace byte = false) :
    sscanf (.blanks :: format) (32 :: rest) = sscanf format rest :=
  @sscanf_blanks format rest 1 solid

theorem sscanf_literal {byte : UInt8} :
    sscanf (.literal byte :: format) (byte :: rest) = sscanf format rest :=
  if_pos rfl

/-- A word that the width has room for is read up to its end. -/
theorem sscanf_word {width : Nat} (solid : ∀ byte ∈ bytes, isSpace byte = false)
    (nonempty : bytes ≠ []) (fits : bytes.length < width) (ends : ∀ byte ∈ rest.head?,
      isSpace byte = true) :
    sscanf (.word width :: format) (bytes ++ rest) = .text bytes :: sscanf format rest := by
  have taken : ((bytes ++ rest).take width).takeWhile (fun byte => !isSpace byte) = bytes := by
    rw [List.take_append, List.take_of_length_le (by omega)]
    apply (takeWhile_digits _ _).1
    · intro byte member
      rw [solid byte member]
      rfl
    · intro byte head
      rw [List.head?_take, if_neg (by omega)] at head
      rw [ends byte head]
      rfl
  have start : (bytes ++ rest).dropWhile isSpace = bytes ++ rest := by
    apply dropWhile_of_solid
    intro byte head
    rw [List.head?_append_of_ne_nil _ nonempty] at head
    exact solid byte (List.mem_of_mem_head? head)
  simp only [sscanf, start, taken, if_neg nonempty, List.drop_left]

/-- The rest of a line is read as far as the width has room for it. -/
theorem sscanf_line {width : Nat} (noBreak : 10 ∉ bytes) (nonempty : bytes.take width ≠ []) :
    sscanf [.line width] (bytes ++ 10 :: rest) = [.text (bytes.take width)] := by
  have taken : ((bytes ++ 10 :: rest).take width).takeWhile (fun byte => decide (byte ≠ 10)) =
      bytes.take width := by
    rw [List.take_append]
    apply (takeWhile_digits _ _).1
    · intro byte member
      have inBytes := List.mem_of_mem_take member
      rw [decide_eq_true_iff]
      rintro rfl
      exact noBreak inBytes
    · intro byte head
      rw [List.head?_take] at head
      split at head
      · cases head
      · cases head
        rfl
  simp only [sscanf, taken, if_neg nonempty]

end Texts

end Text
