import Znn.Bytes.Order

/-!
# Lossy UTF-8

Text that comes out of another process need not be well formed. `lossy` decodes it all the
same: every maximal part of a broken sequence becomes one replacement character.
-/

namespace Bytes

/-- How many continuation bytes follow a first byte, and the range of the first of them. -/
def continuation (first : UInt8) : Option (Nat × UInt8 × UInt8) :=
  if first < 0x80 then some (0, 0x80, 0xBF)
  else if first < 0xC2 then none
  else if first < 0xE0 then some (1, 0x80, 0xBF)
  else if first = 0xE0 then some (2, 0xA0, 0xBF)
  else if first = 0xED then some (2, 0x80, 0x9F)
  else if first < 0xF0 then some (2, 0x80, 0xBF)
  else if first = 0xF0 then some (3, 0x90, 0xBF)
  else if first < 0xF4 then some (3, 0x80, 0xBF)
  else if first = 0xF4 then some (3, 0x80, 0x8F)
  else none

/-- The payload bits of a first byte with `count` continuation bytes. -/
def payload (first : UInt8) (count : Nat) : Nat :=
  match count with
  | 0 => first.toNat
  | 1 => first.toNat % 32
  | 2 => first.toNat % 16
  | _ => first.toNat % 8

/-- Read `count` continuation bytes, the first of them within the given range: the code point
and how many bytes were accepted. -/
def continuations : Nat → UInt8 → UInt8 → Nat → Nat → List UInt8 → Option Nat × Nat
  | 0, _, _, code, taken, _ => (some code, taken)
  | _ + 1, _, _, _, taken, [] => (none, taken)
  | count + 1, low, high, code, taken, byte :: rest =>
      if low ≤ byte ∧ byte ≤ high then
        continuations count 0x80 0xBF (code * 64 + byte.toNat % 64) (taken + 1) rest
      else
        (none, taken)

def REPLACEMENT : Char := Char.ofNat 0xFFFD

/-- Decode with at most `fuel` characters. -/
def lossyFrom : Nat → List UInt8 → List Char
  | 0, _ => []
  | _ + 1, [] => []
  | fuel + 1, first :: rest =>
      match continuation first with
      | none => REPLACEMENT :: lossyFrom fuel rest
      | some (count, low, high) =>
          match continuations count low high (payload first count) 0 rest with
          | (some code, taken) => Char.ofNat code :: lossyFrom fuel (rest.drop taken)
          | (none, taken) => REPLACEMENT :: lossyFrom fuel (rest.drop taken)

/-- `String::from_utf8_lossy`. -/
def lossy (bytes : List UInt8) : String :=
  String.ofList (lossyFrom bytes.length bytes)

theorem lossyFrom_ascii {fuel : Nat} {bytes : List UInt8} (enough : bytes.length ≤ fuel)
    (ascii : ∀ byte ∈ bytes, byte < 0x80) :
    lossyFrom fuel bytes = bytes.map fun byte => Char.ofNat byte.toNat := by
  induction bytes generalizing fuel with
  | nil => cases fuel <;> rfl
  | cons byte bytes ih =>
      cases fuel with
      | zero => simp at enough
      | succ fuel =>
          have single : continuation byte = some (0, 0x80, 0xBF) :=
            if_pos (ascii byte List.mem_cons_self)
          have rest := ih (Nat.le_of_succ_le_succ enough)
            fun other member => ascii other (List.mem_cons_of_mem _ member)
          rw [lossyFrom, single, List.map_cons, ← rest]
          rfl

/-- ASCII text comes out as it is. -/
theorem lossy_ascii {text : List Char} (ascii : ∀ symbol ∈ text, symbol.toNat < 128) :
    lossy (text.map fun symbol => UInt8.ofNat symbol.toNat) = String.ofList text := by
  have number : ∀ symbol ∈ text, (UInt8.ofNat symbol.toNat).toNat = symbol.toNat := by
    intro symbol member
    have small := ascii symbol member
    rw [UInt8.toNat_ofNat']
    omega
  rw [lossy, lossyFrom_ascii (Nat.le_refl _), List.map_map]
  · congr 1
    have same : ∀ symbol ∈ text, Char.ofNat (UInt8.ofNat symbol.toNat).toNat = symbol := by
      intro symbol member
      rw [number symbol member, Char.ofNat_toNat]
    exact (List.map_congr_left same).trans (List.map_id' text)
  · intro byte member
    rcases List.mem_map.mp member with ⟨symbol, inText, rfl⟩
    have small := ascii symbol inText
    rw [UInt8.lt_iff_toNat_lt, number symbol inText]
    exact small

example : lossy [0x68, 0xC3, 0xA9, 0xE2, 0x82, 0x21] = "hé\uFFFD!" := by decide

end Bytes
