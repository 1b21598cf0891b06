import Znn.Bytes.Encoding
import Znn.Loader.Companion
import Znn.Plan.Encode

/-!
# The names of companion sockets

A module and its helper meet on abstract sockets. The names of these are built on both sides, by
the injector as a string and by the loader with `snprintf` into a socket address. What is built from
the same numbers is the same name, and every pair of numbers has a name of its own in each family.
-/

namespace Znn

open Text Bytes

/-- The socket on which the loader listens, or the one on which the helper does. -/
inductive Family where
  | control
  | direct
deriving DecidableEq, Repr

/-- The bytes of a name up to its numbers. -/
def Family.stem : Family → List Char
  | .control => "znn.".toList
  | .direct => "znn.c.".toList

/-- A name as it should be. -/
def Family.name (family : Family) (nonce index : UInt32) : List UInt8 :=
  octets family.stem ++
    (hexadecimal 8 nonce.toNat ++ (46 :: octets (Nat.toDigits 10 index.toNat)))

namespace Injector

def CHANNEL_PREFIX : String := "znn"

/-- `{:08x}`. -/
def lowerHex (value : UInt32) : String :=
  String.ofList ((Nat.toDigits 16 value.toNat).leftpad 8 '0')

def channelName (nonce index : UInt32) : String :=
  CHANNEL_PREFIX ++ "." ++ lowerHex nonce ++ "." ++ toString index.toNat

def directChannelName (nonce index : UInt32) : String :=
  CHANNEL_PREFIX ++ ".c." ++ lowerHex nonce ++ "." ++ toString index.toNat

/-- `from_abstract_name`: what follows the address family, if there is room for it. -/
def fromAbstractName (name : List UInt8) : Option (List UInt8) :=
  if name.length + 1 > 108 then none else some (0 :: name)

/-- The address that `connect_channel` connects to and the one that `bind_direct` binds. -/
def addressOf (nonce index : UInt32) : Family → Option (List UInt8)
  | .control => fromAbstractName (asBytes (channelName nonce index))
  | .direct => fromAbstractName (asBytes (directChannelName nonce index))

end Injector

namespace Loader

def kChannelNameMax : Nat := 96

/-- The path of a socket address that has been cleared. -/
def sunPath : List UInt8 :=
  List.replicate 108 0

/-- The conversions `%08x` and `%u` of `printf`. -/
def vformat : List Char → List UInt32 → List UInt8
  | '%' :: '0' :: '8' :: 'x' :: format, value :: values =>
      hexadecimal 8 value.toNat ++ vformat format values
  | '%' :: 'u' :: format, value :: values =>
      octets (Nat.toDigits 10 value.toNat) ++ vformat format values
  | symbol :: format, values => UInt8.ofNat symbol.toNat :: vformat format values
  | [], _ => []

/-- `snprintf` to an offset of a buffer: the buffer, and the length that the text has whether or not
there is room for it. -/
def snprintf (out : List UInt8) (offset size : Nat) (text : List UInt8) : List UInt8 × Nat :=
  if size = 0 then
    (out, text.length)
  else
    let stored := text.take (size - 1) ++ [0]
    (out.take offset ++ (stored ++ out.drop (offset + stored.length)), text.length)

/-- What both names do: a NUL, and the text behind it. -/
def nameInto (format : String) (nonce index : UInt32) (out : List UInt8) : List UInt8 × Nat :=
  let out := out.set 0 0
  let (out, written) := snprintf out 1 (kChannelNameMax - 1) (vformat format.toList [nonce, index])
  if written ≤ 0 then
    (out, 1)
  else
    (out, written + 1)

def channelName (nonce index : UInt32) (out : List UInt8) : List UInt8 × Nat :=
  nameInto "znn.%08x.%u" nonce index out

def directChannelName (nonce index : UInt32) (out : List UInt8) : List UInt8 × Nat :=
  nameInto "znn.c.%08x.%u" nonce index out

/-- The bytes behind the address family that are passed to the kernel. -/
def addressOf (nonce index : UInt32) : Family → List UInt8
  | .control => let (path, length) := channelName nonce index sunPath; path.take length
  | .direct => let (path, length) := directChannelName nonce index sunPath; path.take length

end Loader

section Names

variable (family : Family) (nonce index : UInt32)

theorem length_name :
    family.stem.length + 10 ≤ (family.name nonce index).length ∧
      (family.name nonce index).length ≤ 25 := by
  have stem : family.stem.length ≤ 6 := by
    cases family <;> decide
  have hex : (hexadecimal 8 nonce.toNat).length = 8 :=
    length_hexadecimal (by decide) nonce.toNat_lt
  have positive := @Nat.length_toDigits_pos 10 index.toNat
  have digits : (Nat.toDigits 10 index.toNat).length ≤ 10 := by
    rw [Nat.length_toDigits_le_iff (by decide) (by decide)]
    exact Nat.lt_of_lt_of_le index.toNat_lt (by decide)
  simp only [Family.name, List.length_append, length_octets, hex, List.length_cons]
  omega

theorem vformat_control :
    Loader.vformat "znn.%08x.%u".toList [nonce, index] = Family.control.name nonce index := by
  rw [Family.name, ← List.append_nil (octets (Nat.toDigits 10 index.toNat))]
  rfl

theorem vformat_direct :
    Loader.vformat "znn.c.%08x.%u".toList [nonce, index] = Family.direct.name nonce index := by
  rw [Family.name, ← List.append_nil (octets (Nat.toDigits 10 index.toNat))]
  rfl

/-- Text that fits is stored behind the NUL as it is, and its length is returned. -/
theorem nameInto_take {format : String} {text : List UInt8}
    (formatted : Loader.vformat format.toList [nonce, index] = text) (nonempty : 0 < text.length)
    (fits : text.length ≤ 94) :
    (Loader.nameInto format nonce index Loader.sunPath).1.take
      (Loader.nameInto format nonce index Loader.sunPath).2 = 0 :: text := by
  have whole : text.take (Loader.kChannelNameMax - 1 - 1) = text := List.take_of_length_le fits
  have front : (Loader.sunPath.set 0 0).take 1 = [0] := rfl
  have room : ¬Loader.kChannelNameMax - 1 = 0 := by decide
  have written : ¬text.length ≤ 0 := Nat.not_le_of_lt nonempty
  simp only [Loader.nameInto, Loader.snprintf, formatted, whole, front, if_neg room, if_neg written]
  simp

theorem loader_addressOf :
    Loader.addressOf nonce index family = 0 :: family.name nonce index := by
  have length := length_name family nonce index
  cases family with
  | control => exact nameInto_take nonce index (vformat_control nonce index) (by omega) (by omega)
  | direct => exact nameInto_take nonce index (vformat_direct nonce index) (by omega) (by omega)

/-- The bytes of a name that is built as a string. -/
theorem asBytes_name {stem : String} (ascii : ∀ symbol ∈ stem.toList, symbol.toNat < 128) :
    Injector.asBytes (stem ++ Injector.lowerHex nonce ++ "." ++ toString index.toNat) =
      octets stem.toList ++
        (hexadecimal 8 nonce.toNat ++ (46 :: octets (Nat.toDigits 10 index.toNat))) := by
  have text : (stem ++ Injector.lowerHex nonce ++ "." ++ toString index.toNat).toList =
      stem.toList ++ ((Nat.toDigits 16 nonce.toNat).leftpad 8 '0' ++
        ('.' :: Nat.toDigits 10 index.toNat)) := by
    simp [Injector.lowerHex]
  have symbols : ∀ symbol ∈ stem.toList ++ ((Nat.toDigits 16 nonce.toNat).leftpad 8 '0' ++
      ('.' :: Nat.toDigits 10 index.toNat)), symbol.toNat < 128 := by
    intro symbol member
    rw [List.leftpad, List.mem_append, List.mem_append, List.mem_append, List.mem_cons] at member
    rcases member with inStem | (zeros | hex) | rfl | digits
    · exact ascii symbol inStem
    · rw [List.eq_of_mem_replicate zeros]
      decide
    · exact ascii_toDigits (by decide) (by decide) hex
    · decide
    · exact ascii_toDigits (by decide) (by decide) digits
  rw [Injector.asBytes, toByteArray_toList, text, utf8_ascii symbols, octets_append, octets_append]
  rfl

theorem injector_addressOf :
    Injector.addressOf nonce index family = some (0 :: family.name nonce index) := by
  have length := length_name family nonce index
  have room : ¬(family.name nonce index).length + 1 > 108 := by omega
  have named : (match family with
      | .control => Injector.asBytes (Injector.channelName nonce index)
      | .direct => Injector.asBytes (Injector.directChannelName nonce index)) =
        family.name nonce index := by
    cases family with
    | control => exact @asBytes_name nonce index "znn." (by simp)
    | direct => exact @asBytes_name nonce index "znn.c." (by simp)
  cases family <;> exact (congrArg Injector.fromAbstractName named).trans (if_neg room)

end Names

section Distinct

variable {nonce index nonce' index' : UInt32}

/-- A hexadecimal digit is no dot, so the families differ behind the stem that they share. -/
theorem control_ne_direct :
    Family.control.name nonce index ≠ Family.direct.name nonce' index' := by
  intro same
  have behind : hexadecimal 8 nonce.toNat ++ (46 :: octets (Nat.toDigits 10 index.toNat)) =
      99 :: 46 :: (hexadecimal 8 nonce'.toNat ++ (46 :: octets (Nat.toDigits 10 index'.toNat))) :=
    @List.append_cancel_left _ (octets "znn.".toList) _ _ same
  have length : (hexadecimal 8 nonce.toNat).length = 8 :=
    length_hexadecimal (by decide) nonce.toNat_lt
  have dot : (hexadecimal 8 nonce.toNat)[1]? = some 46 := by
    have second := congrArg (fun bytes => bytes[1]?) behind
    rwa [List.getElem?_append_left (by omega)] at second
  have digit := hexDigit_of_mem (List.mem_of_getElem? dot)
  exact absurd digit (by decide)

theorem numbers_of_name {family : Family}
    (same : family.name nonce index = family.name nonce' index') :
    nonce = nonce' ∧ index = index' := by
  have behind := List.append_cancel_left same
  have length : (hexadecimal 8 nonce.toNat).length = (hexadecimal 8 nonce'.toNat).length := by
    rw [length_hexadecimal (by decide) nonce.toNat_lt, length_hexadecimal (by decide) nonce'.toNat_lt]
  rcases List.append_inj behind length with ⟨hex, dotted⟩
  have digits : Nat.toDigits 10 index.toNat = Nat.toDigits 10 index'.toNat := by
    apply octets_inj _ _ (List.cons.inj dotted).2
    · exact fun symbol => ascii_toDigits (by decide) (by decide)
    · exact fun symbol => ascii_toDigits (by decide) (by decide)
  constructor
  · exact UInt32.toNat_inj.mp (hexadecimal_injective 8 hex)
  · have values := congrArg (fun symbols => Nat.ofDigitChars 10 symbols 0) digits
    simp only [Nat.ofDigitChars_ten_toDigits] at values
    exact UInt32.toNat_inj.mp values

theorem name_inj {family family' : Family}
    (same : family.name nonce index = family'.name nonce' index') :
    family = family' ∧ nonce = nonce' ∧ index = index' := by
  cases family with
  | control =>
      cases family' with
      | control => exact ⟨rfl, numbers_of_name same⟩
      | direct => exact absurd same control_ne_direct
  | direct =>
      cases family' with
      | control => exact absurd same.symm control_ne_direct
      | direct => exact ⟨rfl, numbers_of_name same⟩

end Distinct

/-- Both sides build the same address, which has room for its terminator, and no address is built
from other numbers or in the other family. -/
theorem addresses_unambiguous (family : Family) (nonce index : UInt32) :
    Injector.addressOf nonce index family = some (Loader.addressOf nonce index family) ∧
      Loader.addressOf nonce index family = 0 :: family.name nonce index ∧
      (Loader.addressOf nonce index family).length < Loader.kChannelNameMax ∧
      ∀ family' nonce' index', Loader.addressOf nonce index family =
        Loader.addressOf nonce' index' family' →
          family = family' ∧ nonce = nonce' ∧ index = index' := by
  have length := length_name family nonce index
  have limit : Loader.kChannelNameMax = 96 := rfl
  rw [loader_addressOf]
  refine ⟨injector_addressOf family nonce index, rfl, ?_, ?_⟩
  · rw [List.length_cons]
    omega
  · intro family' nonce' index' same
    rw [loader_addressOf] at same
    exact name_inj (List.cons.inj same).2

example : (Loader.addressOf 0xABCDEF 7 .direct).drop 1 = octets "znn.c.00abcdef.7".toList := by
  decide

end Znn
