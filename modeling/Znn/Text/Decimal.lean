import Znn.Text.Split

/-!
# Numbers in text

Decimal numbers as `%d` prints them and as `from_str` reads them, and the blanks of Unicode that
the words of a line lie between.
-/

namespace Text

/-- `is_whitespace`. -/
def whiteSpace (symbol : Char) : Bool :=
  let code := symbol.toNat
  (9 ≤ code && code ≤ 13) || code == 0x20 || code == 0x85 || code == 0xA0 || code == 0x1680 ||
    (0x2000 ≤ code && code ≤ 0x200A) || code == 0x2028 || code == 0x2029 || code == 0x202F ||
    code == 0x205F || code == 0x3000

/-- The number that is written with these digits. -/
def natural (text : List Char) : Option Nat :=
  if text ≠ [] ∧ text.all Char.isDigit = true then
    some (Nat.ofDigitChars 10 text 0)
  else
    none

/-- `from_str` of an unsigned type with so many values. -/
def parseUnsigned (values : Nat) (text : List Char) : Option Nat :=
  let digits := match text with
    | '+' :: rest => rest
    | _ => text
  (natural digits).filter fun value => value < values

/-- `from_str` of the signed type from `-bound` to `bound - 1`. -/
def parseSigned (bound : Nat) : List Char → Option Int
  | '-' :: rest =>
      ((natural rest).filter fun value => value ≤ bound).map fun value : Nat => -(value : Int)
  | text => (parseUnsigned bound text).map Int.ofNat

/-- `%d`. -/
def decimal : Int → List Char
  | .ofNat value => Nat.toDigits 10 value
  | .negSucc value => '-' :: Nat.toDigits 10 (value + 1)

theorem natural_toDigits (value : Nat) : natural (Nat.toDigits 10 value) = some value := by
  have digits : (Nat.toDigits 10 value).all Char.isDigit = true := by
    rw [List.all_eq_true]
    intro symbol member
    exact Nat.isDigit_of_mem_toDigits (by decide) (by decide) member
  rw [natural, if_pos ⟨Nat.toDigits_ne_nil, digits⟩, Nat.ofDigitChars_ten_toDigits]

/-- The first symbol of a number is no sign. -/
theorem head_toDigits (value : Nat) :
    ∃ first rest, Nat.toDigits 10 value = first :: rest ∧ first.isDigit = true := by
  cases digits : Nat.toDigits 10 value with
  | nil => exact absurd digits Nat.toDigits_ne_nil
  | cons first rest =>
      refine ⟨first, rest, rfl, ?_⟩
      exact Nat.isDigit_of_mem_toDigits (b := 10) (n := value) (by decide) (by decide)
        (by simp [digits])

theorem parseUnsigned_toDigits {values value : Nat} (small : value < values) :
    parseUnsigned values (Nat.toDigits 10 value) = some value := by
  have number := natural_toDigits value
  rcases head_toDigits value with ⟨first, rest, digits, isDigit⟩
  rw [digits] at number ⊢
  have unsigned : first ≠ '+' := by
    rintro rfl
    exact absurd isDigit (by decide)
  unfold parseUnsigned
  split
  · rename_i same
    exact absurd (List.cons.inj same).1 unsigned
  · simp [number, small]

theorem parseSigned_toDigits {bound value : Nat} (small : value < bound) :
    parseSigned bound (Nat.toDigits 10 value) = some (value : Int) := by
  have number := parseUnsigned_toDigits small
  rcases head_toDigits value with ⟨first, rest, digits, isDigit⟩
  rw [digits] at number ⊢
  have unsigned : first ≠ '-' := by
    rintro rfl
    exact absurd isDigit (by decide)
  unfold parseSigned
  split
  · rename_i same
    exact absurd (List.cons.inj same).1 unsigned
  · simp [number]

/-- What is printed is read back. -/
theorem parseSigned_decimal {bound : Nat} {value : Int} (above : -(bound : Int) ≤ value)
    (below : value < bound) : parseSigned bound (decimal value) = some value := by
  cases value with
  | ofNat value =>
      apply parseSigned_toDigits
      simpa using below
  | negSucc value =>
      have small : value + 1 ≤ bound := by omega
      rw [decimal, parseSigned, natural_toDigits, Option.filter_some, if_pos (by simpa using small)]
      rfl

theorem decimal_symbols {value : Int} {symbol : Char} (member : symbol ∈ decimal value) :
    symbol.isDigit = true ∨ symbol = '-' := by
  cases value with
  | ofNat value =>
      exact .inl (Nat.isDigit_of_mem_toDigits (by decide) (by decide) member)
  | negSucc value =>
      rcases List.mem_cons.mp member with sign | digit
      · exact .inr sign
      · exact .inl (Nat.isDigit_of_mem_toDigits (by decide) (by decide) digit)

/-- A symbol that is neither a digit nor a sign does not occur in a number. -/
theorem not_mem_decimal {value : Int} {symbol : Char} (noDigit : symbol.isDigit = false)
    (noSign : symbol ≠ '-') : symbol ∉ decimal value := by
  intro member
  rcases decimal_symbols member with digit | sign
  · rw [noDigit] at digit
    cases digit
  · exact noSign sign

theorem whiteSpace_of_isDigit {symbol : Char} (digit : symbol.isDigit = true) :
    whiteSpace symbol = false := by
  simp only [Char.isDigit, ge_iff_le, Bool.and_eq_true, decide_eq_true_eq,
    UInt32.le_iff_toNat_le] at digit
  have range : 48 ≤ symbol.toNat ∧ symbol.toNat ≤ 57 := digit
  simp only [whiteSpace, Bool.or_eq_false_iff, Bool.and_eq_false_iff, decide_eq_false_iff_not,
    beq_eq_false_iff_ne]
  omega

theorem solid_decimal (value : Int) : Solid whiteSpace (decimal value) := by
  intro symbol member
  rcases decimal_symbols member with digit | rfl
  · exact whiteSpace_of_isDigit digit
  · rfl

theorem solid_toDigits (value : Nat) : Solid whiteSpace (Nat.toDigits 10 value) :=
  solid_decimal (.ofNat value)

example : parseSigned (2 ^ 31) (decimal (-120)) = some (-120) := by decide

end Text
