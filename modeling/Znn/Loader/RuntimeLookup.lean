import Znn.Bytes.Memory
import Znn.Loader.Elf

/-!
# Looking up a symbol in memory

`runtimeLookup` finds the symbol table of a loaded library by its program headers and its dynamic
section, and looks no further than the mappings in which these begin. A read outside of the
mappings has no result, and neither has a walk over the dynamic section that does not come to an
end with the passes that it is given. All bounds are differences but for that of the dynamic
section: there the address of the next entry is compared, which wraps.
-/

namespace Znn.Loader

open Bytes Usize

variable [Usize]

/-- A mapping as `parseMaps` lists it: its ends are of type `uintptr_t`. -/
structure MapEntry where
  start : Nat
  end_ : Nat
  end_lt : end_ < count

namespace RuntimeLookup

def inside (address : Nat) (map : MapEntry) : Bool :=
  decide (map.start ≤ address) && decide (address < map.end_)

/-- The end of the first mapping that has the address. -/
def mapEnd (maps : List MapEntry) (address : Nat) : Nat :=
  ((maps.find? (inside address)).map MapEntry.end_).getD 0

/-- The memory from an address on, as far as it is mapped. -/
def mapped (memory : Memory) (maps : List MapEntry) (address : Nat) : View := fun offset =>
  let place := wrappingAdd address offset
  if maps.any (inside place) then some (memory place) else none

/-- The bytes of the ELF header at the base. -/
def header (memory : Memory) (base : Nat) : View := fun offset =>
  if offset < sizeofEhdr then some (memory (wrappingAdd base offset)) else none

/-- The class of the images that this build looks into. -/
def elfClass : Nat := if Usize.bytes = 8 then ELFCLASS64 else ELFCLASS32

variable (memory : Memory) (maps : List MapEntry) (base : Nat)

/-- The checks of `e_ident`. -/
def identifies : Option Bool := do
  if (← (header memory base).bytes 0 elfMag.length) ≠ elfMag then return false
  if (← (header memory base).number 4 1) ≠ elfClass then return false
  return (← (header memory base).number 5 1) == ELFDATA2LSB

/-- `dyn`: the address of the dynamic section, null where none is found. -/
def findDynamic : Option Nat := do
  if base = 0 then return 0
  if !(← identifies memory base) then return 0
  let phAddress := wrappingAdd base (← Ehdr.phoff (header memory base))
  let phnum ← Ehdr.phnum (header memory base)
  let phMapEnd := mapEnd maps phAddress
  if phMapEnd = 0 ∨ phMapEnd - phAddress < phnum * sizeofPhdr then return 0
  let found ← (List.range phnum).findSomeM? fun index => do
    let ph ← Phdr.read (mapped memory maps (wrappingAdd phAddress (index * sizeofPhdr)))
    return if ph.type = PT_DYNAMIC then some (wrappingAdd base ph.vaddr) else none
  return found.getD 0

/-- What the dynamic section says about the tables. -/
structure Dynamic where
  symtab : Nat := 0
  strtab : Nat := 0
  strsz : Nat := 0
  terminated : Bool := false
deriving DecidableEq, Repr

/-- The `switch` over the tag of an entry. -/
def record (tag d : Nat) (dynamic : Dynamic) : Option Dynamic :=
  if tag = DT_SYMTAB then
    (Dyn.val (mapped memory maps d)).map fun ptr =>
      { dynamic with symtab := wrappingAdd base ptr }
  else if tag = DT_STRTAB then
    (Dyn.val (mapped memory maps d)).map fun ptr =>
      { dynamic with strtab := wrappingAdd base ptr }
  else if tag = DT_STRSZ then
    (Dyn.val (mapped memory maps d)).map fun val => { dynamic with strsz := val }
  else some dynamic

/-- The loop over the dynamic section, from `d` on. -/
def walkDynamic (dynEnd : Nat) : (fuel d : Nat) → Dynamic → Option Dynamic
  | 0, _, _ => none
  | fuel + 1, d, dynamic =>
      if wrappingAdd d sizeofDyn ≤ dynEnd then do
        let tag ← Dyn.tag (mapped memory maps d)
        if tag = DT_NULL then return { dynamic with terminated := true }
        let dynamic ← record memory maps base tag d dynamic
        walkDynamic dynEnd fuel (wrappingAdd d sizeofDyn) dynamic
      else some dynamic

/-- The tables, with how many symbols and how many bytes of strings are looked at. -/
structure Tables where
  symtab : Nat
  maxSyms : Nat
  strtab : Nat
  strsz : Nat
deriving DecidableEq, Repr

/-- `max_syms`: the symbols up to the end of the mapping, or to the string table behind them. -/
def maxSyms (symtab strtab : Nat) : Nat :=
  let whole := (mapEnd maps symtab - symtab) / sizeofSym
  if symtab < strtab then min whole ((strtab - symtab) / sizeofSym) else whole

/-- The bounds of the tables, by the mappings in which they begin. -/
def bounds (dynamic : Dynamic) : Option Tables :=
  let symtab := dynamic.symtab
  let strtab := dynamic.strtab
  let strsz := min dynamic.strsz (mapEnd maps strtab - strtab)
  if dynamic.terminated = false ∨ symtab = 0 ∨ strtab = 0 ∨ dynamic.strsz = 0 then none
  else if mapEnd maps symtab = 0 ∨ mapEnd maps strtab = 0 then none
  else if maxSyms maps symtab strtab = 0 ∨ strsz = 0 then none
  else some { symtab, maxSyms := maxSyms maps symtab strtab, strtab, strsz }

/-- The body of the loop over the symbols: the address and the size of one that matches. -/
def matchSymbol (name : List UInt8) (tables : Tables) (index : Nat) :
    Option (Option (Nat × Nat)) := do
  let s ← Sym.read (mapped memory maps (wrappingAdd tables.symtab (index * sizeofSym)))
  if s.shndx = SHN_UNDEF ∨ s.value = 0 then return none
  if s.name = 0 ∨ tables.strsz ≤ s.name then return none
  if tables.strsz - s.name ≤ name.length then return none
  let text ← (mapped memory maps (wrappingAdd tables.strtab s.name)).bytes 0 (name.length + 1)
  return if text = name ++ [0] then some (wrappingAdd base s.value, s.size) else none

/-- The loop over the symbols, which begins after the first one. -/
def searchSymbols (name : List UInt8) (tables : Tables) : Option (Option (Nat × Nat)) :=
  (List.range' 1 (tables.maxSyms - 1)).findSomeM? (matchSymbol memory maps base name tables)

/-- The address that `runtimeLookup` returns for a name, and what it stores as the size. The walk
over the dynamic section has `fuel` passes. -/
def runtimeLookup (fuel : Nat) (name : List UInt8) : Option (Nat × Option Nat) := do
  let dyn ← findDynamic memory maps base
  if dyn = 0 ∨ mapEnd maps dyn = 0 then return (0, none)
  let dynamic ← walkDynamic memory maps base (mapEnd maps dyn) fuel dyn {}
  match bounds maps dynamic with
  | none => return (0, none)
  | some tables =>
      match ← searchSymbols memory maps base name tables with
      | some (address, size) => return (address, some size)
      | none => return (0, none)

end RuntimeLookup

end Znn.Loader
