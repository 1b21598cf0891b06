import Znn.Loader.Elf

/-!
# Parsing an ELF file

The constructor of `ElfImage` checks a mapped file, and `ensureParsed` collects the symbols of the
file and of the image that `.gnu_debugdata` unpacks to. A read that falls outside the file or the
unpacked image has no result. Section headers and symbols are read whole, since those that are
looked at are entries of a table that has been checked. Strings are followed to their end without a
bound, and of the unpacked image only the first bytes are checked before its header is used.
-/

namespace Znn.Loader

open Bytes Usize

/-- The characters of `".gnu_debugdata"`. -/
def gnuDebugdata : List UInt8 :=
  [0x2e, 0x67, 0x6e, 0x75, 0x5f, 0x64, 0x65, 0x62, 0x75, 0x67, 0x64, 0x61, 0x74, 0x61]

structure SymbolInfo where
  name : List UInt8
  addr : Nat
  size : Nat
deriving DecidableEq, Repr

namespace SymbolInfo

/-- The name, a NUL and the address in decimal. -/
def key (symbol : SymbolInfo) : List UInt8 :=
  symbol.name ++ 0 :: (Nat.toDigits 10 symbol.addr).map fun digit => UInt8.ofNat digit.toNat

/-- The symbols whose keys have not been seen before. -/
def unique (seen : List (List UInt8)) : List SymbolInfo → List SymbolInfo
  | [] => []
  | symbol :: symbols =>
      if symbol.key ∈ seen then unique seen symbols
      else symbol :: unique (symbol.key :: seen) symbols

end SymbolInfo

/-- What the constructor leaves of a file that it accepts, and what `ensureParsed` adds. -/
structure ElfImage where
  file : List UInt8
  base : Nat
  isDyn : Bool
  sectionNames : Option Nat
  debugdata : Option (List UInt8) := none
  symbols : List SymbolInfo := []
  parsed : Bool := false
deriving DecidableEq, Repr

def isElf (image : List UInt8) : Bool :=
  decide (elfMag.length + 1 ≤ image.length) && image.take elfMag.length == elfMag

def sectionInFile (sh : Shdr) (fileSize : Nat) : Bool :=
  decide (sh.offset ≤ fileSize) && decide (sh.size ≤ fileSize - sh.offset)

section Parser

variable [Usize]

def sectionTableInFile (image : List UInt8) : Option Bool := do
  let shnum ← Ehdr.shnum (.of image)
  let tableSize := shnum * sizeofShdr
  let tableOffset ← Ehdr.shoff (.of image)
  return decide (tableOffset ≤ image.length) && decide (tableSize ≤ image.length - tableOffset)

/-- `shdrs[index]`. -/
def readShdr (image : List UInt8) (shdrs index : Nat) : Option Shdr :=
  Shdr.read ((View.of image).at_ (shdrs + index * sizeofShdr))

/-- `symtab[index]`. -/
def readSym (image : List UInt8) (symtab index : Nat) : Option Sym :=
  Sym.read ((View.of image).at_ (symtab + index * sizeofSym))

namespace ElfImage

/-- The base of an image that is loaded: an `ET_EXEC` has no bias, and at the base of another one
there has to be an ELF header. -/
def checkedBase (magicAt : Nat → Bool) (isDyn : Bool) (base : Nat) : Option Nat :=
  if isDyn then if base = 0 ∨ magicAt base = false then none else some base
  else some 0

/-- Where the names of the sections begin. -/
def findSectionNames (file : List UInt8) : Option (Option Nat) := do
  let shstrndx ← Ehdr.shstrndx (.of file)
  let shnum ← Ehdr.shnum (.of file)
  if shstrndx ≠ SHN_UNDEF ∧ shstrndx < shnum then
    let shdrs ← Ehdr.shoff (.of file)
    let shstr ← readShdr file shdrs shstrndx
    return if sectionInFile shstr file.length then some shstr.offset else none
  else return none

/-- The constructor, from where the file has been mapped: `findLibraryBase` for the path, and
whether the magic number is at an address of memory. An image that is not valid is `none`, inside
of the result of the reads. -/
def new (findLibraryBase : Nat → Nat) (magicAt : Nat → Bool) (file : List UInt8) (base : Nat) :
    Option (Option ElfImage) :=
  if file.length < sizeofEhdr ∨ isElf file = false then some none
  else do
    if !(← sectionTableInFile file) then return none
    let isDyn := (← Ehdr.type (.of file)) == ET_DYN
    let some base := checkedBase magicAt isDyn
      (if base = 0 then findLibraryBase file.length else base) | return none
    let sectionNames ← findSectionNames file
    return some { file, base, isDyn, sectionNames }

/-- The body of the loop of `parseSymbols`: the symbol that is added. -/
def parseSymbol (image : List UInt8) (strSh : Shdr) (bias : Nat) (s : Sym) :
    Option (Option SymbolInfo) :=
  if s.shndx = SHN_UNDEF ∨ s.name = 0 ∨ strSh.size ≤ s.name then some none
  else do
    let text := image.drop (strSh.offset + s.name)
    if (← text.head?) = 0 then return none
    let name ← cString text
    return some { name, addr := wrappingAdd bias s.value, size := s.size }

/-- Neither of the tables is null: both lie in the image. -/
def parseSymbols (image : List UInt8) (strSh : Shdr) (symtab count bias : Nat)
    (symbols : List SymbolInfo) : Option (List SymbolInfo) :=
  (List.range count).foldlM (fun symbols index => do
    let s ← readSym image symtab index
    let symbol ← parseSymbol image strSh bias s
    return symbols ++ symbol.toList) symbols

/-- What both loops over section headers do with a symbol table. -/
def parseTable (image : List UInt8) (shdrs shnum bias : Nat) (sh : Shdr)
    (symbols : List SymbolInfo) : Option (List SymbolInfo) :=
  if shnum ≤ sh.link then some symbols
  else do
    let strSh ← readShdr image shdrs sh.link
    if sectionInFile sh image.length && sectionInFile strSh image.length &&
        sh.entsize == sizeofSym then
      parseSymbols image strSh sh.offset (sh.size / sh.entsize) bias symbols
    else return symbols

/-- The image that is kept of the contents of a section. -/
def parseGnuDebugData (decompress : List UInt8 → Option (List UInt8)) (data : List UInt8) :
    Option (List UInt8) :=
  [4, 0].findSome? fun off =>
    if data.length ≤ off then none else (decompress (data.drop off)).filter isElf

/-- `strcmp(sec_name(sh), ".gnu_debugdata") == 0`. -/
def isGnuDebugdata (elf : ElfImage) (shstrSize : Nat) (sh : Shdr) : Option Bool :=
  match elf.sectionNames with
  | none => some false
  | some names =>
      if shstrSize ≤ sh.name then some false
      else comparesEqual gnuDebugdata (elf.file.drop (names + sh.name))

/-- The body of the loop over the section headers of the file. -/
def parseSection (decompress : List UInt8 → Option (List UInt8)) (shdrs shnum shstrSize bias : Nat)
    (elf : ElfImage) (index : Nat) : Option ElfImage := do
  let sh ← readShdr elf.file shdrs index
  if sh.type = SHT_SYMTAB ∨ sh.type = SHT_DYNSYM then
    let symbols ← parseTable elf.file shdrs shnum bias sh elf.symbols
    return { elf with symbols }
  else if sh.type = SHT_PROGBITS then
    if (← elf.isGnuDebugdata shstrSize sh) && sectionInFile sh elf.file.length then
      let data := (elf.file.drop sh.offset).take sh.size
      return { elf with debugdata := (parseGnuDebugData decompress data).or elf.debugdata }
    else return elf
  else return elf

/-- The body of the loop over the section headers of the unpacked image. -/
def parseDebugSection (image : List UInt8) (dshdrs dshnum bias : Nat) (symbols : List SymbolInfo)
    (index : Nat) : Option (List SymbolInfo) := do
  let sh ← readShdr image dshdrs index
  if sh.type = SHT_SYMTAB then parseTable image dshdrs dshnum bias sh symbols
  else return symbols

/-- The symbols of the unpacked image, where one has been kept. -/
def parseDebugdata (debugdata : Option (List UInt8)) (bias : Nat) (symbols : List SymbolInfo) :
    Option (List SymbolInfo) :=
  match debugdata with
  | none => some symbols
  | some image => do
      if ← sectionTableInFile image then
        let dshdrs ← Ehdr.shoff (.of image)
        let dshnum ← Ehdr.shnum (.of image)
        (List.range dshnum).foldlM (parseDebugSection image dshdrs dshnum bias) symbols
      else return symbols

/-- `shstr_size`. -/
def readShstrSize (file : List UInt8) (shdrs shnum : Nat) : Option Nat := do
  let shstrndx ← Ehdr.shstrndx (.of file)
  if shstrndx ≠ SHN_UNDEF ∧ shstrndx < shnum then
    return (← readShdr file shdrs shstrndx).size
  else return 0

/-- Under `parse_mutex_`. -/
def ensureParsed (decompress : List UInt8 → Option (List UInt8)) (elf : ElfImage) :
    Option ElfImage :=
  if elf.parsed then some elf
  else do
    let bias := if elf.isDyn then elf.base else 0
    let shdrs ← Ehdr.shoff (.of elf.file)
    let shnum ← Ehdr.shnum (.of elf.file)
    let shstrSize ← readShstrSize elf.file shdrs shnum
    let walked ← (List.range shnum).foldlM
      (parseSection decompress shdrs shnum shstrSize bias) { elf with parsed := true }
    let symbols ← parseDebugdata walked.debugdata bias walked.symbols
    return { walked with symbols := SymbolInfo.unique [] symbols }

end ElfImage

end Parser

end Znn.Loader
