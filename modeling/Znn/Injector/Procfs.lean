import Znn.Injector.Sys

/-!
# Reading `/proc`

The helpers of `procfs.rs`, `maps.rs` and `elf.rs` that the daemon calls, over the calls
that read the files themselves.
-/

namespace Znn.Injector

open Interaction

namespace Procfs

def DELETED_SUFFIX : String := " (deleted)"

/-- What follows the last slash. -/
def basename (path : String) : String :=
  String.ofList (path.toList.reverse.takeWhile (· ≠ '/')).reverse

def stripDeletedSuffix (path : String) : String :=
  if path.length > DELETED_SUFFIX.length ∧ DELETED_SUFFIX.toList <:+ path.toList then
    String.ofList (path.toList.take (path.length - DELETED_SUFFIX.length))
  else
    path

def readExePath (pid : Pid) : Prog Sys String := do
  match ← perform (.exeLink pid) with
  | .path target => return stripDeletedSuffix target
  | .gone | .unknown => return ""

inductive Liveness where
  | alive
  | gone
  | unknown
deriving DecidableEq, Repr

def liveness (pid : Pid) : Prog Sys Liveness := do
  match ← perform (.exeLink pid) with
  | .path _ => return .alive
  | .gone => return .gone
  | .unknown => return .unknown

def processGone (pid : Pid) : Prog Sys Bool := do
  return (← liveness pid) == .gone

def isAlive (pid : Pid) : Prog Sys Bool := do
  return !(← processGone pid)

/-- `retain` with `is_alive`: the items whose process is alive, in their order. -/
def retainAlive {α : Type} (pidOf : α → Pid) : List α → Prog Sys (List α)
  | [] => return []
  | item :: rest => do
      let alive ← isAlive (pidOf item)
      let kept ← retainAlive pidOf rest
      return if alive then item :: kept else kept

/-- `map_path_equals_exe`: the executable itself, or the executable after its deletion. -/
def mapPathEqualsExe (mapPath exe : String) : Bool :=
  decide (mapPath = exe ∨ mapPath = exe ++ DELETED_SUFFIX)

def processExe (pid : Pid) : Prog Sys String :=
  readExePath pid

def isPreExecFork (exe : String) : Bool :=
  basename exe == "init"

def PROT_EXEC : Nat := 4

def pcInExeText (pid : Pid) (exe : String) (pc : Nat) : Prog Sys Bool := do
  let entries ← perform (.maps pid)
  return entries.any fun entry =>
    mapPathEqualsExe entry.path exe && decide (entry.perms &&& PROT_EXEC ≠ 0) &&
      entry.contains pc

/-- `read_file`: an empty file counts as unreadable. -/
def readFile (path : String) : Prog Sys (Option (List UInt8)) := do
  let some bytes ← perform (.readFile path)
    | return none
  return if bytes.isEmpty then none else some bytes

end Procfs

namespace Elf

def ET_DYN : Nat := 3
def EM_386 : Nat := 3
def EM_ARM : Nat := 40
def EM_X86_64 : Nat := 62
def EM_AARCH64 : Nat := 183
def EM_RISCV : Nat := 243

def isPositionIndependent (header : ElfHeader) : Bool :=
  header.kind == ET_DYN

def archOf (header : ElfHeader) : Arch :=
  if header.is64 then
    if header.machine = EM_AARCH64 then .arm64
    else if header.machine = EM_X86_64 then .x86_64
    else if header.machine = EM_RISCV then .riscv64
    else .unknown
  else
    if header.machine = EM_ARM then .arm32
    else if header.machine = EM_386 then .x86
    else .unknown

end Elf

end Znn.Injector
