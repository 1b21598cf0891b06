import Mathlib.Data.List.DropRight
import Znn.Bytes.Encoding
import Znn.Injector.Sys
import Znn.Text.Split

/-!
# Lines of the memory map

The kernel prints a line for each mapping of a process: five columns of numbers and flags, and a
path behind blanks. `parse_line` of the injector cuts the line at its first five blanks. It gives
back what was printed, except that carriage returns at the end of a path are trimmed like the line
feed that cannot be there.
-/

namespace Znn

open Text Bytes Usize

/-- A mapping as the kernel knows it. A name has no NUL in it, and a line feed is escaped. -/
structure Mapping [Usize] where
  start : Nat
  stop : Nat
  offset : Nat
  fits : start < count ∧ stop < count ∧ offset < count
  readable : Bool
  writable : Bool
  executable : Bool
  shared : Bool
  major : Nat
  minor : Nat
  inode : Nat
  path : String
  bounded : (utf8 path.toList).length ≤ 4095
  unbroken : ∀ symbol ∈ path.toList, symbol.toNat ≠ 10
  terminated : ∀ symbol ∈ path.toList, symbol.toNat ≠ 0
  solid : ∀ symbol ∈ path.toList.head?, ¬(symbol.toNat = 32 ∨ 9 ≤ symbol.toNat ∧ symbol.toNat ≤ 13)

namespace Mapping

variable [Usize] (mapping : Mapping)

/-- The column of permissions. -/
def flags : List UInt8 :=
  [if mapping.readable then 114 else 45, if mapping.writable then 119 else 45,
    if mapping.executable then 120 else 45, if mapping.shared then 115 else 112]

def range : List UInt8 :=
  hexadecimal 8 mapping.start ++ 45 :: hexadecimal 8 mapping.stop

def device : List UInt8 :=
  hexadecimal 2 mapping.major ++ 58 :: hexadecimal 2 mapping.minor

/-- The line of a mapping, with so many blanks in front of its path besides the one that ends the
inode. -/
def line (padding : Nat) : List UInt8 :=
  mapping.range ++ 32 :: (mapping.flags ++ 32 :: (hexadecimal 8 mapping.offset ++
    32 :: (mapping.device ++ 32 :: (octets (Nat.toDigits 10 mapping.inode) ++
      32 :: (List.replicate padding 32 ++ utf8 mapping.path.toList)))))

/-- The file of a process, with a padding for each mapping. -/
def file (mappings : List (Mapping × Nat)) : List UInt8 :=
  mappings.flatMap fun entry => entry.1.line entry.2 ++ [10]

/-- The permissions as `PROT_READ`, `PROT_WRITE` and `PROT_EXEC`. -/
def perms : Nat :=
  (if mapping.readable then 1 else 0) ||| (if mapping.writable then 2 else 0) |||
    (if mapping.executable then 4 else 0)

/-- The entry that a parser should find. -/
def entry : Injector.MapEntry :=
  ⟨mapping.start, mapping.stop, mapping.offset, mapping.perms, mapping.path⟩

theorem not_mem_flags : 32 ∉ mapping.flags := by
  rcases mapping with ⟨_, _, _, _, readable, writable, executable, shared⟩
  cases readable <;> cases writable <;> cases executable <;> cases shared <;>
    simp [flags]

/-- No byte of a path is a line feed or a NUL. -/
theorem not_mem_path :
    10 ∉ utf8 mapping.path.toList ∧ 0 ∉ utf8 mapping.path.toList := by
  constructor
  · intro member
    rcases symbol_of_mem_utf8 member (by decide) with ⟨symbol, inPath, same⟩
    exact mapping.unbroken symbol inPath same
  · intro member
    rcases symbol_of_mem_utf8 member (by decide) with ⟨symbol, inPath, same⟩
    exact mapping.terminated symbol inPath same

/-- The path does not begin with white space. -/
theorem solid_path {byte : UInt8} (head : byte ∈ (utf8 mapping.path.toList).head?) :
    ¬(byte.toNat = 32 ∨ 9 ≤ byte.toNat ∧ byte.toNat ≤ 13) := by
  intro blank
  rcases symbol_of_head_utf8 head (by omega) with ⟨symbol, first, same⟩
  apply mapping.solid symbol first
  rwa [same]

/-- A line holds neither a line feed nor a NUL. -/
theorem not_mem_line (padding : Nat) {byte : UInt8} (ends : byte = 10 ∨ byte = 0) :
    byte ∉ mapping.line padding := by
  have noDigit : hexDigit byte = none := by
    rcases ends with rfl | rfl <;> rfl
  have flags : byte ∉ mapping.flags := by
    rcases mapping with ⟨_, _, _, _, readable, writable, executable, shared⟩
    rcases ends with rfl | rfl <;> cases readable <;> cases writable <;> cases executable <;>
      cases shared <;> simp [Mapping.flags]
  have path : byte ∉ utf8 mapping.path.toList := by
    rcases ends with rfl | rfl
    · exact mapping.not_mem_path.1
    · exact mapping.not_mem_path.2
  have plain : byte ≠ 32 ∧ byte ≠ 45 ∧ byte ≠ 58 := by
    rcases ends with rfl | rfl <;> decide
  simp [line, range, device, flags, path, plain, not_mem_hexadecimal noDigit,
    not_mem_decimalBytes noDigit]

end Mapping

namespace Injector.Maps

def PROT_READ : Nat := 1
def PROT_WRITE : Nat := 2
def PROT_EXEC : Nat := 4

/-- `splitn`. -/
def splitn {α : Type} [DecidableEq α] (separator : α) : Nat → List α → List (List α)
  | 0, _ => []
  | 1, text => [text]
  | count + 2, text =>
      match splitOnce [separator] text with
      | none => [text]
      | some (before, after) => before :: splitn separator (count + 1) after

/-- `is_ascii_whitespace`. -/
def isAsciiWhitespace (byte : UInt8) : Bool :=
  byte == 32 || byte == 9 || byte == 10 || byte == 12 || byte == 13

/-- `trim_end_matches(['\n', '\r'])`. -/
def trimEnd (text : String) : String :=
  String.ofList (text.toList.rdropWhile fun symbol => symbol == '\n' || symbol == '\r')

section Parser

variable [Usize]

/-- `address`. Text that is not UTF-8 has no digits either. -/
def address (field : List UInt8) : Option Nat :=
  let digits := match field with
    | 43 :: rest => rest
    | _ => field
  if digits ≠ [] ∧ (digits.all fun byte => (hexDigit byte).isSome) = true ∧
      hexValue digits < count then
    some (hexValue digits)
  else
    none

/-- `parse_line`. -/
def parseLine (line : List UInt8) : Option MapEntry := do
  let fields := splitn 32 6 line
  let range ← fields[0]?
  let perms ← fields[1]?
  let offset ← fields[2]?
  let _ ← fields[3]?
  let _ ← fields[4]?
  let path := (fields[5]?.getD []).dropWhile isAsciiWhitespace
  let (start, stop) ← splitOnce [45] range
  if perms.length < 4 then
    none
  else
    let read := if perms[0]? = some 114 then PROT_READ else 0
    let write := if perms[1]? = some 119 then PROT_WRITE else 0
    let exec := if perms[2]? = some 120 then PROT_EXEC else 0
    let start ← address start
    let stop ← address stop
    let offset ← address offset
    some ⟨start, stop, offset, read ||| write ||| exec, trimEnd (lossy path)⟩

/-- `parse_path`, for what the file holds if it can be read. -/
def parsePath (contents : Option (List UInt8)) : List MapEntry :=
  match contents with
  | none => []
  | some contents => (contents.splitOn 10).filterMap parseLine

end Parser

section Columns

theorem splitn_cons {α : Type} [DecidableEq α] {separator : α} {count : Nat} {before after : List α}
    (clear : separator ∉ before) :
    splitn separator (count + 2) (before ++ separator :: after) =
      before :: splitn separator (count + 1) after := by
  rw [splitn, splitOnce_symbol clear]

variable [Usize] (mapping : Mapping) (padding : Nat)

theorem address_hexadecimal {value : Nat} (width : Nat) (small : value < count) :
    address (hexadecimal width value) = some value := by
  have unsigned : (match hexadecimal width value with
      | 43 :: rest => rest
      | _ => hexadecimal width value) = hexadecimal width value := by
    split
    case h_1 rest isSigned =>
      have digit := @hexDigit_of_mem width value 43 (by rw [isSigned]; exact List.mem_cons_self)
      exact absurd digit (by decide)
    case h_2 => rfl
  have digits : ((hexadecimal width value).all fun byte => (hexDigit byte).isSome) = true :=
    List.all_eq_true.mpr fun _ => hexDigit_of_mem
  simp only [address, unsigned, hexValue_hexadecimal]
  rw [if_pos ⟨hexadecimal_ne_nil width value, digits, small⟩]

/-- The first five blanks of a line are those between its columns. -/
theorem splitn_line :
    splitn 32 6 (mapping.line padding) =
      [mapping.range, mapping.flags, hexadecimal 8 mapping.offset, mapping.device,
        octets (Nat.toDigits 10 mapping.inode),
        List.replicate padding 32 ++ utf8 mapping.path.toList] := by
  have blank : hexDigit 32 = none := rfl
  have range : 32 ∉ mapping.range := by
    simp [Mapping.range, not_mem_hexadecimal blank]
  have device : 32 ∉ mapping.device := by
    simp [Mapping.device, not_mem_hexadecimal blank]
  rw [Mapping.line, splitn_cons range, splitn_cons mapping.not_mem_flags,
    splitn_cons (not_mem_hexadecimal blank), splitn_cons device,
    splitn_cons (not_mem_decimalBytes blank), splitn]

theorem dropWhile_padding :
    (List.replicate padding 32 ++ utf8 mapping.path.toList).dropWhile isAsciiWhitespace =
      utf8 mapping.path.toList := by
  have blanks : ∀ byte ∈ List.replicate padding (32 : UInt8), isAsciiWhitespace byte = true := by
    intro byte member
    rw [List.eq_of_mem_replicate member]
    rfl
  rw [List.dropWhile_append_of_pos blanks]
  cases path : utf8 mapping.path.toList with
  | nil => rfl
  | cons first rest =>
      have head : first ∈ (utf8 mapping.path.toList).head? := by
        rw [path]
        rfl
      have solid := mapping.solid_path head
      rw [List.dropWhile_cons_of_neg]
      intro blank
      apply solid
      simp only [isAsciiWhitespace, Bool.or_eq_true, beq_iff_eq, ← UInt8.toNat_inj,
        UInt8.reduceToNat] at blank
      omega

theorem perms_flags :
    (if mapping.flags[0]? = some 114 then PROT_READ else 0) |||
      (if mapping.flags[1]? = some 119 then PROT_WRITE else 0) |||
        (if mapping.flags[2]? = some 120 then PROT_EXEC else 0) = mapping.perms := by
  rcases mapping with ⟨_, _, _, _, readable, writable, executable, shared⟩
  cases readable <;> cases writable <;> cases executable <;> rfl

theorem trimEnd_eq_self_iff :
    trimEnd mapping.path = mapping.path ↔ mapping.path.toList.getLast? ≠ some '\r' := by
  have text : trimEnd mapping.path = mapping.path ↔
      (mapping.path.toList.rdropWhile fun symbol => symbol == '\n' || symbol == '\r') =
        mapping.path.toList := by
    rw [trimEnd]
    constructor
    · intro same
      have back := congrArg String.toList same
      rwa [String.toList_ofList] at back
    · intro same
      rw [same, String.ofList_toList]
  have unbroken := mapping.unbroken
  rw [text, List.rdropWhile_eq_self_iff]
  constructor
  · intro stays last
    have nonempty : mapping.path.toList ≠ [] := by
      intro empty
      rw [empty] at last
      cases last
    rw [List.getLast?_eq_some_getLast nonempty] at last
    apply stays nonempty
    rw [Option.some.inj last]
    rfl
  · intro clear nonempty
    rw [List.getLast?_eq_some_getLast nonempty] at clear
    have noFeed := unbroken _ (List.getLast_mem nonempty)
    simp only [Bool.or_eq_true, beq_iff_eq, not_or]
    constructor
    · intro feed
      rw [feed] at noFeed
      exact noFeed rfl
    · intro last
      rw [last] at clear
      exact clear rfl

/-- A line is read as what was printed, with its path trimmed. -/
theorem parseLine_line :
    parseLine (mapping.line padding) =
      some ⟨mapping.start, mapping.stop, mapping.offset, mapping.perms, trimEnd mapping.path⟩ := by
  rcases mapping.fits with ⟨start, stop, offset⟩
  have bounds : splitOnce [45] mapping.range =
      some (hexadecimal 8 mapping.start, hexadecimal 8 mapping.stop) :=
    splitOnce_symbol (not_mem_hexadecimal rfl)
  have text : lossy (utf8 mapping.path.toList) = mapping.path := by
    rw [lossy_utf8, String.ofList_toList]
  have four : ¬mapping.flags.length < 4 := by
    simp [Mapping.flags]
  simp only [parseLine, splitn_line, Option.bind_eq_bind, List.getElem?_cons_zero,
    List.getElem?_cons_succ, Option.bind_some, Option.getD_some, dropWhile_padding, bounds, text,
    if_neg four, address_hexadecimal 8 start, address_hexadecimal 8 stop,
    address_hexadecimal 8 offset, perms_flags]

/-- A file is read line by line. -/
theorem parsePath_file (mappings : List (Mapping × Nat)) :
    parsePath (some (Mapping.file mappings)) = mappings.map fun (mapping, _) =>
      ⟨mapping.start, mapping.stop, mapping.offset, mapping.perms, trimEnd mapping.path⟩ := by
  induction mappings with
  | nil => rfl
  | cons entry mappings ih =>
      rcases entry with ⟨mapping, padding⟩
      have cut : (Mapping.file ((mapping, padding) :: mappings)).splitOn 10 =
          mapping.line padding :: (Mapping.file mappings).splitOn 10 := by
        rw [Mapping.file, List.flatMap_cons, List.append_assoc, List.singleton_append,
          List.splitOn_append_cons_self_of_not_mem (mapping.not_mem_line padding (.inl rfl))]
        rfl
      rw [parsePath] at ih ⊢
      rw [cut, List.filterMap_cons, parseLine_line, ih]
      rfl

end Columns

end Injector.Maps

end Znn
