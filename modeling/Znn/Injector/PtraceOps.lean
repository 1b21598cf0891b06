import Znn.Bytes.Memory
import Znn.Bytes.Utf8
import Znn.Injector.Sys

/-!
# Memory and registers of a stopped tracee

`ptrace` moves whole words at word-aligned addresses. The loops of `read_memory` and
`write_memory` cut a byte range at the word boundaries; a word of which only a part is
written is read first. Each turn moves at least one byte, so the length of the buffer
bounds the number of turns.
-/

namespace Znn.Injector

open Interaction

namespace PtraceOps

variable [Usize]

/-- `current & !(WORD - 1)`. -/
def alignDown (current : Nat) : Nat :=
  current - current % Usize.bytes

/-- The loop of `read_memory` with `done` bytes read; `buffer` holds these bytes. -/
def readFrom (pid : Pid) (address length : Nat) :
    Nat → Nat → List UInt8 → Prog Sys (Option (List UInt8))
  | 0, _, buffer => return some buffer
  | fuel + 1, done, buffer =>
      if done < length then do
        let current := Usize.wrappingAdd address done
        let aligned := alignDown current
        let within := current - aligned
        let some word ← perform (.peekData pid aligned)
          | return none
        let take := min (length - done) (Usize.bytes - within)
        readFrom pid address length fuel (done + take)
          (buffer ++ (word.drop within).take take)
      else
        return some buffer

/-- `read_memory`; no caller looks at the buffer of a failed read. -/
def readMemory (pid : Pid) (address length : Nat) : Prog Sys (Option (List UInt8)) :=
  readFrom pid address length length 0 []

/-- The loop of `write_memory` with `done` bytes written. -/
def writeFrom (pid : Pid) (address : Nat) (buffer : List UInt8) : Nat → Nat → Prog Sys Bool
  | 0, _ => return true
  | fuel + 1, done =>
      if done < buffer.length then do
        let current := Usize.wrappingAdd address done
        let aligned := alignDown current
        let within := current - aligned
        let take := min (buffer.length - done) (Usize.bytes - within)
        let part := (buffer.drop done).take take
        if within ≠ 0 ∨ take < Usize.bytes then
          let some existing ← perform (.peekData pid aligned)
            | return false
          if !(← perform (.pokeData pid aligned (Bytes.splice existing within part))) then
            return false
          writeFrom pid address buffer fuel (done + take)
        else
          if !(← perform (.pokeData pid aligned
              (Bytes.splice (List.replicate Usize.bytes 0) within part))) then
            return false
          writeFrom pid address buffer fuel (done + take)
      else
        return true

def writeMemory (pid : Pid) (address : Nat) (buffer : List UInt8) : Prog Sys Bool :=
  writeFrom pid address buffer buffer.length 0

def readRegisters (pid : Pid) (arch : Arch) : Prog Sys (Option Regs) := do
  let some filled ← perform (.getRegset pid arch.registerSize)
    | return none
  return some ((Regs.new arch).fill filled)

def writeRegisters (pid : Pid) (regs : Regs) : Prog Sys Bool :=
  perform (.setRegset pid regs.bytes)

/-- Arguments into registers until these run out, as on the link-register machines. -/
def setArguments (regs : Regs) : Nat → List Nat → Regs
  | _, [] => regs
  | index, argument :: rest =>
      match regs.setArgument index argument with
      | some regs => setArguments regs (index + 1) rest
      | none => regs

/-- Arguments into registers, `none` when these run out, as on x86_64. -/
def setAllArguments (regs : Regs) : Nat → List Nat → Option Regs
  | _, [] => some regs
  | index, argument :: rest =>
      match regs.setArgument index argument with
      | some regs => setAllArguments regs (index + 1) rest
      | none => none

/-- The pushes of the x86 calling convention: the stack pointer below them, if all of them
succeed. -/
def pushArguments (pid : Pid) : Nat → List Nat → Prog Sys (Option Nat)
  | stack, [] => return some stack
  | stack, argument :: rest => do
      let stack := Usize.wrappingSub stack 4
      if !(← writeMemory pid stack (Bytes.little 4 argument)) then
        return none
      pushArguments pid stack rest

/-- `setup_call`: the registers that enter `function`; `none` where the source returns
false, whose callers drop the registers. -/
def setupCall (pid : Pid) (regs : Regs) (function returnTo : Nat) (args : List Nat) :
    Prog Sys (Option Regs) :=
  match regs.arch with
  | .arm64 | .arm32 | .riscv64 =>
      return some (((setArguments regs 0 args).setLink returnTo).setPc function)
  | .x86_64 => do
      let some regs := setAllArguments regs 0 args
        | return none
      let stack := Usize.wrappingSub regs.sp Usize.bytes
      if !(← writeMemory pid stack (Bytes.little Usize.bytes returnTo)) then
        return none
      return some ((regs.setSp stack).setPc function)
  | .x86 => do
      let some stack ← pushArguments pid regs.sp args.reverse
        | return none
      let stack := Usize.wrappingSub stack 4
      if !(← writeMemory pid stack (Bytes.little 4 returnTo)) then
        return none
      return some ((regs.setSp stack).setPc function)
  | .unknown => return none

def MAX_STRING : Nat := 512

/-- The loop of `read_c_string`. -/
def readCStringFrom (pid : Pid) (address : Nat) : Nat → List UInt8 → Prog Sys (List UInt8)
  | 0, bytes => return bytes
  | fuel + 1, bytes => do
      match ← readMemory pid (Usize.wrappingAdd address bytes.length) 1 with
      | some [byte] =>
          if byte = 0 then
            return bytes
          else
            readCStringFrom pid address fuel (bytes ++ [byte])
      | _ => return bytes

def readCString (pid : Pid) (address : Nat) : Prog Sys String := do
  return Bytes.lossy (← readCStringFrom pid address MAX_STRING [])

end PtraceOps

end Znn.Injector
