import Mathlib.Data.List.Basic
import Znn.Bytes.Utf8
import Znn.Text.Hexadecimal

/-!
# The bytes of text

Text as UTF-8. ASCII text has a byte for each symbol, and the lossy decoder loses nothing of text
that is well formed.
-/

namespace Bytes

/-- Text as UTF-8. -/
def utf8 (text : List Char) : List UInt8 :=
  text.flatMap String.utf8EncodeChar

/-- The bytes of a string. -/
theorem toByteArray_toList (value : String) : value.toByteArray.data.toList = utf8 value.toList := by
  rw [← String.utf8Encode_toList, List.utf8Encode, List.data_toByteArray]
  rfl

theorem utf8_ascii {text : List Char} (ascii : ∀ symbol ∈ text, symbol.toNat < 128) :
    utf8 text = Text.octets text := by
  have each : ∀ symbol ∈ text, String.utf8EncodeChar symbol = [UInt8.ofNat symbol.toNat] := by
    intro symbol member
    have small := ascii symbol member
    exact if_pos (Nat.le_of_lt_succ small)
  rw [utf8, List.flatMap_congr each, ← List.map_eq_flatMap, Text.octets]

/-- Every byte of a longer sequence is beyond ASCII. -/
theorem toNat_of_mem_utf8EncodeChar {symbol : Char} {byte : UInt8}
    (member : byte ∈ String.utf8EncodeChar symbol) (small : byte.toNat < 128) :
    symbol.toNat = byte.toNat := by
  have bytes (value : Nat) : (UInt8.ofNat value).toNat = value % 256 := UInt8.toNat_ofNat'
  rw [String.utf8EncodeChar] at member
  split at member
  case isTrue one =>
    have code : symbol.toNat ≤ 0x7F := one
    rw [List.mem_singleton.mp member, bytes]
    exact (Nat.mod_eq_of_lt (by omega)).symm
  case isFalse =>
    split at member
    case isTrue =>
      simp only [List.mem_cons, List.not_mem_nil, or_false] at member
      rcases member with rfl | rfl <;> rw [bytes] at small <;> omega
    case isFalse =>
      split at member
      case isTrue =>
        simp only [List.mem_cons, List.not_mem_nil, or_false] at member
        rcases member with rfl | rfl | rfl <;> rw [bytes] at small <;> omega
      case isFalse =>
        simp only [List.mem_cons, List.not_mem_nil, or_false] at member
        rcases member with rfl | rfl | rfl | rfl <;> rw [bytes] at small <;> omega

theorem symbol_of_mem_utf8 {text : List Char} {byte : UInt8} (member : byte ∈ utf8 text)
    (small : byte.toNat < 128) : ∃ symbol ∈ text, symbol.toNat = byte.toNat := by
  rcases List.mem_flatMap.mp member with ⟨symbol, inText, inBytes⟩
  exact ⟨symbol, inText, toNat_of_mem_utf8EncodeChar inBytes small⟩

theorem symbol_of_head_utf8 {text : List Char} {byte : UInt8} (head : byte ∈ (utf8 text).head?)
    (small : byte.toNat < 128) : ∃ symbol ∈ text.head?, symbol.toNat = byte.toNat := by
  cases text with
  | nil => cases head
  | cons symbol text =>
      rw [utf8, List.flatMap_cons, List.head?_append_of_ne_nil _ String.utf8EncodeChar_ne_nil] at head
      exact ⟨symbol, rfl, toNat_of_mem_utf8EncodeChar (List.mem_of_mem_head? head) small⟩

/-- ASCII text is told by its bytes. -/
theorem octets_inj {first second : List Char} (ascii : ∀ symbol ∈ first, symbol.toNat < 128)
    (ascii' : ∀ symbol ∈ second, symbol.toNat < 128)
    (same : Text.octets first = Text.octets second) : first = second := by
  have decoded := congrArg lossy same
  rw [Text.octets, Text.octets, lossy_ascii ascii, lossy_ascii ascii'] at decoded
  exact String.ofList_injective decoded

section Decoding

variable {first second third fourth : UInt8} {fuel : Nat} {rest : List UInt8}

theorem continuation_two (low : 0xC2 ≤ first.toNat) (high : first.toNat < 0xE0) :
    continuation first = some (1, 0x80, 0xBF) := by
  simp only [continuation, UInt8.lt_iff_toNat_lt, UInt8.reduceToNat]
  rw [if_neg (by omega), if_neg (by omega), if_pos high]

/-- The second byte of three is held away from what two bytes could encode and from surrogates. -/
theorem continuation_three (low : 0xE0 ≤ first.toNat) (high : first.toNat < 0xF0) :
    continuation first = some (2, if first.toNat = 0xE0 then 0xA0 else 0x80,
      if first.toNat = 0xED then 0x9F else 0xBF) := by
  simp only [continuation, UInt8.lt_iff_toNat_lt, ← UInt8.toNat_inj, UInt8.reduceToNat]
  rw [if_neg (by omega), if_neg (by omega), if_neg (by omega)]
  by_cases lowest : first.toNat = 0xE0
  · rw [if_pos lowest, if_pos lowest, if_neg (by omega)]
  · by_cases surrogates : first.toNat = 0xED
    · rw [if_neg lowest, if_pos surrogates, if_neg lowest, if_pos surrogates]
    · rw [if_neg lowest, if_neg surrogates, if_pos high, if_neg lowest, if_neg surrogates]

/-- The second byte of four is held away from what three bytes could encode and from what is beyond
the last character. -/
theorem continuation_four (low : 0xF0 ≤ first.toNat) (high : first.toNat ≤ 0xF4) :
    continuation first = some (3, if first.toNat = 0xF0 then 0x90 else 0x80,
      if first.toNat = 0xF4 then 0x8F else 0xBF) := by
  simp only [continuation, UInt8.lt_iff_toNat_lt, ← UInt8.toNat_inj, UInt8.reduceToNat]
  rw [if_neg (by omega), if_neg (by omega), if_neg (by omega), if_neg (by omega), if_neg (by omega),
    if_neg (by omega)]
  by_cases lowest : first.toNat = 0xF0
  · rw [if_pos lowest, if_pos lowest, if_neg (by omega)]
  · by_cases highest : first.toNat = 0xF4
    · rw [if_neg lowest, if_neg (by omega), if_pos highest, if_neg lowest, if_pos highest]
    · rw [if_neg lowest, if_pos (by omega), if_neg lowest, if_neg highest]

/-- A byte that any continuation may be. -/
def Continues (byte : UInt8) : Prop :=
  0x80 ≤ byte.toNat ∧ byte.toNat ≤ 0xBF

theorem continues_ofNat (low : Nat) : Continues (UInt8.ofNat (low % 64 + 0x80)) := by
  rw [Continues, UInt8.toNat_ofNat']
  omega

theorem continuations_cons {count code taken : Nat} {low high byte : UInt8}
    (above : low.toNat ≤ byte.toNat) (below : byte.toNat ≤ high.toNat) :
    continuations (count + 1) low high code taken (byte :: rest) =
      continuations count 0x80 0xBF (code * 64 + byte.toNat % 64) (taken + 1) rest :=
  if_pos ⟨UInt8.le_iff_toNat_le.mpr above, UInt8.le_iff_toNat_le.mpr below⟩

theorem Continues.continuations {byte : UInt8} (continues : Continues byte)
    {count code taken : Nat} :
    Bytes.continuations (count + 1) 0x80 0xBF code taken (byte :: rest) =
      Bytes.continuations count 0x80 0xBF (code * 64 + byte.toNat % 64) (taken + 1) rest :=
  continuations_cons continues.1 continues.2

theorem lossyFrom_two (low : 0xC2 ≤ first.toNat) (high : first.toNat < 0xE0)
    (continues : Continues second) :
    lossyFrom (fuel + 1) (first :: second :: rest) =
      Char.ofNat (first.toNat % 32 * 64 + second.toNat % 64) :: lossyFrom fuel rest := by
  rw [lossyFrom, continuation_two low high]
  dsimp only
  rw [continues.continuations]
  rfl

theorem lossyFrom_three (low : 0xE0 ≤ first.toNat) (high : first.toNat < 0xF0)
    (continues : Continues second) (noShorter : first.toNat = 0xE0 → 0xA0 ≤ second.toNat)
    (noSurrogate : first.toNat = 0xED → second.toNat ≤ 0x9F) (last : Continues third) :
    lossyFrom (fuel + 1) (first :: second :: third :: rest) =
      Char.ofNat ((first.toNat % 16 * 64 + second.toNat % 64) * 64 + third.toNat % 64) ::
        lossyFrom fuel rest := by
  rw [lossyFrom, continuation_three low high]
  dsimp only
  rw [continuations_cons, last.continuations]
  · rfl
  · split
    · exact noShorter ‹_›
    · exact continues.1
  · split
    · exact noSurrogate ‹_›
    · exact continues.2

theorem lossyFrom_four (low : 0xF0 ≤ first.toNat) (high : first.toNat ≤ 0xF4)
    (continues : Continues second) (noShorter : first.toNat = 0xF0 → 0x90 ≤ second.toNat)
    (noLarger : first.toNat = 0xF4 → second.toNat ≤ 0x8F) (next : Continues third)
    (last : Continues fourth) :
    lossyFrom (fuel + 1) (first :: second :: third :: fourth :: rest) =
      Char.ofNat (((first.toNat % 8 * 64 + second.toNat % 64) * 64 + third.toNat % 64) * 64 +
        fourth.toNat % 64) :: lossyFrom fuel rest := by
  rw [lossyFrom, continuation_four low high]
  dsimp only
  rw [continuations_cons, next.continuations, last.continuations]
  · rfl
  · split
    · exact noShorter ‹_›
    · exact continues.1
  · split
    · exact noLarger ‹_›
    · exact continues.2

/-- A character is decoded from its bytes. -/
theorem lossyFrom_symbol (symbol : Char) :
    lossyFrom (fuel + 1) (String.utf8EncodeChar symbol ++ rest) = symbol :: lossyFrom fuel rest := by
  have valid : symbol.toNat < 0xD800 ∨ 0xDFFF < symbol.toNat ∧ symbol.toNat < 0x110000 :=
    symbol.valid
  have byte (value : Nat) (small : value < 256) : (UInt8.ofNat value).toNat = value := by
    rw [UInt8.toNat_ofNat']
    omega
  have continues := continues_ofNat
  by_cases one : symbol.toNat ≤ 0x7F
  · have bytes : String.utf8EncodeChar symbol = [UInt8.ofNat symbol.toNat] := if_pos one
    have single : continuation (UInt8.ofNat symbol.toNat) = some (0, 0x80, 0xBF) := by
      apply if_pos
      rw [UInt8.lt_iff_toNat_lt, byte _ (by omega)]
      exact Nat.lt_succ_of_le one
    rw [bytes, List.singleton_append, lossyFrom, single]
    dsimp only
    rw [continuations, payload, byte _ (by omega)]
    dsimp only
    rw [List.drop_zero, Char.ofNat_toNat]
  by_cases two : symbol.toNat ≤ 0x7FF
  · have bytes : String.utf8EncodeChar symbol = [UInt8.ofNat (symbol.toNat / 64 % 32 + 0xC0),
        UInt8.ofNat (symbol.toNat % 64 + 0x80)] :=
      (if_neg one).trans (if_pos two)
    have code : (symbol.toNat / 64 % 32 + 0xC0) % 32 * 64 + (symbol.toNat % 64 + 0x80) % 64 =
        symbol.toNat := by
      omega
    rw [bytes, List.cons_append, List.singleton_append,
      lossyFrom_two (by rw [byte] <;> omega) (by rw [byte] <;> omega) (continues _),
      byte _ (by omega), byte _ (by omega), code, Char.ofNat_toNat]
  by_cases three : symbol.toNat ≤ 0xFFFF
  · have bytes : String.utf8EncodeChar symbol = [UInt8.ofNat (symbol.toNat / 4096 % 16 + 0xE0),
        UInt8.ofNat (symbol.toNat / 64 % 64 + 0x80), UInt8.ofNat (symbol.toNat % 64 + 0x80)] :=
      (if_neg one).trans ((if_neg two).trans (if_pos three))
    have code : ((symbol.toNat / 4096 % 16 + 0xE0) % 16 * 64 +
        (symbol.toNat / 64 % 64 + 0x80) % 64) * 64 + (symbol.toNat % 64 + 0x80) % 64 =
          symbol.toNat := by
      omega
    rw [bytes, List.cons_append, List.cons_append, List.singleton_append,
      lossyFrom_three (by rw [byte] <;> omega) (by rw [byte] <;> omega) (continues _)
        (by rw [byte, byte] <;> omega) (by rw [byte, byte] <;> omega) (continues _),
      byte _ (by omega), byte _ (by omega), byte _ (by omega), code, Char.ofNat_toNat]
  · have bytes : String.utf8EncodeChar symbol = [UInt8.ofNat (symbol.toNat / 262144 % 8 + 0xF0),
        UInt8.ofNat (symbol.toNat / 4096 % 64 + 0x80), UInt8.ofNat (symbol.toNat / 64 % 64 + 0x80),
        UInt8.ofNat (symbol.toNat % 64 + 0x80)] :=
      (if_neg one).trans ((if_neg two).trans (if_neg three))
    have code : (((symbol.toNat / 262144 % 8 + 0xF0) % 8 * 64 +
        (symbol.toNat / 4096 % 64 + 0x80) % 64) * 64 + (symbol.toNat / 64 % 64 + 0x80) % 64) * 64 +
          (symbol.toNat % 64 + 0x80) % 64 = symbol.toNat := by
      omega
    rw [bytes, List.cons_append, List.cons_append, List.cons_append, List.singleton_append,
      lossyFrom_four (by rw [byte] <;> omega) (by rw [byte] <;> omega) (continues _)
        (by rw [byte, byte] <;> omega) (by rw [byte, byte] <;> omega) (continues _) (continues _),
      byte _ (by omega), byte _ (by omega), byte _ (by omega), byte _ (by omega), code,
      Char.ofNat_toNat]

theorem lossyFrom_utf8 {text : List Char} (enough : (utf8 text).length ≤ fuel) :
    lossyFrom fuel (utf8 text) = text := by
  induction text generalizing fuel with
  | nil => cases fuel <;> rfl
  | cons symbol text ih =>
      rw [utf8, List.flatMap_cons] at enough ⊢
      have size := symbol.utf8Size_pos
      rw [List.length_append, String.length_utf8EncodeChar] at enough
      rcases Nat.exists_eq_add_of_le' (show 1 ≤ fuel by omega) with ⟨fuel, rfl⟩
      rw [lossyFrom_symbol]
      congr 1
      apply ih
      rw [utf8]
      omega

/-- Text that is well formed comes out as it is. -/
theorem lossy_utf8 (text : List Char) : lossy (utf8 text) = String.ofList text := by
  rw [lossy, lossyFrom_utf8 (Nat.le_refl _)]

end Decoding

end Bytes
