import Znn.Bytes.Usize
import Znn.Bytes.View

/-!
# The layout of ELF structures

The structures of an ELF file come in two widths, and `ElfW` chooses that of the build. Most fields
lie where the fields before them end, which puts them at distances that depend on the width of an
address.
-/

namespace Znn.Loader

open Bytes

def SHN_UNDEF : Nat := 0
def SHT_PROGBITS : Nat := 1
def SHT_SYMTAB : Nat := 2
def SHT_DYNSYM : Nat := 11
def ET_DYN : Nat := 3
def PT_DYNAMIC : Nat := 2
def DT_NULL : Nat := 0
def DT_STRTAB : Nat := 5
def DT_SYMTAB : Nat := 6
def DT_STRSZ : Nat := 10
def ELFCLASS32 : Nat := 1
def ELFCLASS64 : Nat := 2
def ELFDATA2LSB : Nat := 1

/-- `ELFMAG`. -/
def elfMag : List UInt8 := [0x7f, 0x45, 0x4c, 0x46]

/-- The table entry of an index below the count lies in the table. -/
theorem entry_le {index count : Nat} (size : Nat) (near : index < count) :
    index * size + size ≤ count * size := by
  rw [← Nat.succ_mul]
  exact Nat.mul_le_mul_right size near

section Layout

variable [Usize]

def sizeofEhdr : Nat := 40 + 3 * Usize.bytes
def sizeofShdr : Nat := 16 + 6 * Usize.bytes
def sizeofSym : Nat := 8 + 2 * Usize.bytes
def sizeofPhdr : Nat := 8 + 6 * Usize.bytes
def sizeofDyn : Nat := 2 * Usize.bytes

/-! The fields of `ElfW(Ehdr)` are read one at a time: not every header that is looked at is known
to be complete. -/

namespace Ehdr

def type (view : View) : Option Nat := view.number 16 2
def phoff (view : View) : Option Nat := view.number (24 + Usize.bytes) Usize.bytes
def shoff (view : View) : Option Nat := view.number (24 + 2 * Usize.bytes) Usize.bytes
def phnum (view : View) : Option Nat := view.number (32 + 3 * Usize.bytes) 2
def shnum (view : View) : Option Nat := view.number (36 + 3 * Usize.bytes) 2
def shstrndx (view : View) : Option Nat := view.number (38 + 3 * Usize.bytes) 2

end Ehdr

/-- What is used of `ElfW(Shdr)`. -/
structure Shdr where
  name : Nat
  type : Nat
  offset : Nat
  size : Nat
  link : Nat
  entsize : Nat
deriving DecidableEq, Repr

namespace Shdr

variable {view : View}

def read (view : View) : Option Shdr := do
  let name ← view.number 0 4
  let type ← view.number 4 4
  let offset ← view.number (8 + 2 * Usize.bytes) Usize.bytes
  let size ← view.number (8 + 3 * Usize.bytes) Usize.bytes
  let link ← view.number (8 + 4 * Usize.bytes) 4
  let entsize ← view.number (16 + 5 * Usize.bytes) Usize.bytes
  return { name, type, offset, size, link, entsize }

/-- The section header of a view that has all of its bytes. -/
def of (view : View) : Shdr := (read view).getD ⟨0, 0, 0, 0, 0, 0⟩

theorem read_eq (spans : view.Spans sizeofShdr) : read view = some (of view) := by
  have readable : (read view).isSome := by
    rw [sizeofShdr] at spans
    refine spans.isSome_bind (by omega) fun _ => ?_
    refine spans.isSome_bind (by omega) fun _ => ?_
    refine spans.isSome_bind (by omega) fun _ => ?_
    refine spans.isSome_bind (by omega) fun _ => ?_
    refine spans.isSome_bind (by omega) fun _ => ?_
    exact spans.isSome_bind (by omega) fun _ => rfl
  obtain ⟨sh, found⟩ := Option.isSome_iff_exists.mp readable
  rw [of, found, Option.getD_some]

end Shdr

/-- What is used of `ElfW(Sym)`. -/
structure Sym where
  name : Nat
  shndx : Nat
  value : Nat
  size : Nat
deriving DecidableEq, Repr

namespace Sym

variable {view : View}

def read (view : View) : Option Sym := do
  let name ← view.number 0 4
  -- The 64-bit symbol has the section index in front of the value, the 32-bit one at its end.
  let shndx ← view.number (if Usize.bytes = 8 then 6 else 14) 2
  let value ← view.number Usize.bytes Usize.bytes
  let size ← view.number (2 * Usize.bytes) Usize.bytes
  return { name, shndx, value, size }

/-- The symbol of a view that has all of its bytes. -/
def of (view : View) : Sym := (read view).getD ⟨0, 0, 0, 0⟩

theorem read_eq (spans : view.Spans sizeofSym) : read view = some (of view) := by
  have readable : (read view).isSome := by
    have width := Usize.bytes_eq
    rw [sizeofSym] at spans
    refine spans.isSome_bind (by omega) fun _ => ?_
    refine spans.isSome_bind (by split <;> omega) fun _ => ?_
    refine spans.isSome_bind (by omega) fun _ => ?_
    exact spans.isSome_bind (by omega) fun _ => rfl
  obtain ⟨symbol, found⟩ := Option.isSome_iff_exists.mp readable
  rw [of, found, Option.getD_some]

end Sym

/-- What is used of `ElfW(Phdr)`. -/
structure Phdr where
  type : Nat
  vaddr : Nat
deriving DecidableEq, Repr

namespace Phdr

def read (view : View) : Option Phdr := do
  let type ← view.number 0 4
  let vaddr ← view.number (2 * Usize.bytes) Usize.bytes
  return { type, vaddr }

theorem isSome_read {view : View} (spans : view.Spans sizeofPhdr) : (read view).isSome := by
  have width := Usize.bytes_pos
  rw [sizeofPhdr] at spans
  refine spans.isSome_bind (by omega) fun _ => ?_
  exact spans.isSome_bind (by omega) fun _ => rfl

end Phdr

/-! The value of `ElfW(Dyn)` is read for some tags only. -/

namespace Dyn

def tag (view : View) : Option Nat := view.number 0 Usize.bytes
def val (view : View) : Option Nat := view.number Usize.bytes Usize.bytes

end Dyn

end Layout

end Znn.Loader
