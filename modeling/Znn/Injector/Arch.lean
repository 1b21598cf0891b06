import Znn.Bytes.Order
import Znn.Bytes.Usize

/-!
# Architectures and register sets

A register set is the byte image the kernel keeps for a stopped thread. `Layout` gives the
offsets of the registers the injector uses; every access goes through `Regs.read` and
`Regs.write`, which move one register of the target's width in little-endian order.
-/

namespace Znn.Injector

def REGS_CAPACITY : Nat := 272

inductive Arch where
  | arm32
  | arm64
  | x86
  | x86_64
  | riscv64
  | unknown
deriving DecidableEq, Repr

structure Layout where
  size : Nat
  word : Nat
  pc : Nat
  sp : Nat
  retval : Nat
  link : Option Nat
  argRegisters : List Nat
  memfdCreate : Int

def ARM64 : Layout where
  size := 34 * 8
  word := 8
  pc := 32 * 8
  sp := 31 * 8
  retval := 0
  link := some (30 * 8)
  argRegisters := [0, 8, 16, 24]
  memfdCreate := 279

def ARM32 : Layout where
  size := 18 * 4
  word := 4
  pc := 15 * 4
  sp := 13 * 4
  retval := 0
  link := some (14 * 4)
  argRegisters := [0, 4, 8, 12]
  memfdCreate := 385

def X86_64 : Layout where
  size := 27 * 8
  word := 8
  pc := 128
  sp := 152
  retval := 80
  link := none
  argRegisters := [112, 104, 96, 88]
  memfdCreate := 319

def X86 : Layout where
  size := 17 * 4
  word := 4
  pc := 48
  sp := 60
  retval := 24
  link := none
  argRegisters := []
  memfdCreate := 356

def RISCV64 : Layout where
  size := 32 * 8
  word := 8
  pc := 0
  sp := 16
  retval := 80
  link := some 8
  argRegisters := [80, 88, 96, 104, 112, 120, 128, 136]
  memfdCreate := 279

namespace Arch

def layout : Arch → Option Layout
  | .arm32 => some ARM32
  | .arm64 => some ARM64
  | .x86 => some X86
  | .x86_64 => some X86_64
  | .riscv64 => some RISCV64
  | .unknown => none

def is64 : Arch → Bool
  | .arm64 | .x86_64 | .riscv64 => true
  | .arm32 | .x86 | .unknown => false

def registerSize (arch : Arch) : Nat :=
  arch.layout.elim 0 Layout.size

def memfdCreateNumber (arch : Arch) : Int :=
  arch.layout.elim (-1) Layout.memfdCreate

/-- The breakpoint instruction; the flag asks for the Thumb encoding. -/
def breakpoint (arch : Arch) (thumb : Bool) : List UInt8 :=
  match arch with
  | .arm64 => [0x00, 0x00, 0x20, 0xD4]
  | .riscv64 => [0x73, 0x00, 0x10, 0x00]
  | .x86_64 | .x86 => [0xCC]
  | .arm32 => if thumb then [0x00, 0xBE] else [0x70, 0x00, 0x20, 0xE1]
  | .unknown => []

theorem registerSize_le (arch : Arch) : arch.registerSize ≤ REGS_CAPACITY := by
  cases arch <;> decide

end Arch

/-- A register set: the buffer always has its full capacity, of which the architecture uses
the first `registerSize` bytes. -/
structure Regs where
  arch : Arch
  buffer : List UInt8
  length_buffer : buffer.length = REGS_CAPACITY
deriving DecidableEq

namespace Regs

def new (arch : Arch) : Regs where
  arch := arch
  buffer := List.replicate REGS_CAPACITY 0
  length_buffer := List.length_replicate

/-- `bytes`: the part of the buffer the kernel is given. -/
def bytes (regs : Regs) : List UInt8 :=
  regs.buffer.take regs.arch.registerSize

/-- What `bytes_mut` lets the kernel fill: it stores `filled` at the front of the first
`registerSize` bytes. -/
def fill (regs : Regs) (filled : List UInt8) : Regs where
  arch := regs.arch
  buffer := filled.take regs.arch.registerSize ++
    regs.buffer.drop (filled.take regs.arch.registerSize).length
  length_buffer := by
    have fits := regs.arch.registerSize_le
    have full := regs.length_buffer
    simp only [List.length_append, List.length_drop, List.length_take]
    omega

section Access

variable [Usize]

/-- One register as a `usize`; a 64-bit value that does not fit reads as zero. -/
def read (regs : Regs) (offset : Nat) : Nat :=
  match regs.arch.layout with
  | none => 0
  | some layout =>
      if offset + layout.word ≤ REGS_CAPACITY then
        let value := Bytes.littleValue ((regs.buffer.drop offset).take layout.word)
        if value < Usize.count then value else 0
      else
        0

/-- Store the low bytes of `value` in one register. -/
def write (regs : Regs) (offset value : Nat) : Regs :=
  match regs.arch.layout with
  | none => regs
  | some layout =>
      if fits : offset + layout.word ≤ REGS_CAPACITY then
        { arch := regs.arch
          buffer := regs.buffer.take offset ++ (Bytes.little layout.word value ++
            regs.buffer.drop (offset + layout.word))
          length_buffer := by
            have full := regs.length_buffer
            simp only [List.length_append, List.length_take, Bytes.length_little,
              List.length_drop]
            omega }
      else
        regs

def pc (regs : Regs) : Nat :=
  regs.arch.layout.elim 0 fun layout => regs.read layout.pc

def setPc (regs : Regs) (value : Nat) : Regs :=
  regs.arch.layout.elim regs fun layout => regs.write layout.pc value

def sp (regs : Regs) : Nat :=
  regs.arch.layout.elim 0 fun layout => regs.read layout.sp

def setSp (regs : Regs) (value : Nat) : Regs :=
  regs.arch.layout.elim regs fun layout => regs.write layout.sp value

def returnValue (regs : Regs) : Nat :=
  regs.arch.layout.elim 0 fun layout => regs.read layout.retval

def setLink (regs : Regs) (value : Nat) : Regs :=
  (regs.arch.layout.bind Layout.link).elim regs fun offset => regs.write offset value

/-- `none` where the source returns false: there is no such argument register. -/
def setArgument (regs : Regs) (index value : Nat) : Option Regs :=
  (regs.arch.layout.bind fun layout => layout.argRegisters[index]?).map fun offset =>
    regs.write offset value

end Access

end Regs

end Znn.Injector
