import Znn.Injector.Targets

/-!
# The configuration file

`config::effective`: the stored options that are valid, and the defaults for the others.
-/

namespace Znn.Injector.Config

open Interaction

def MODE_AUTO : String := "auto"
def MODE_KERNEL : String := "kernel"
def MODE_PTRACE : String := "ptrace"
def MODE_PROC : String := "proc"
def MODE_LATE : String := "late"

def CONFIG_FILE : String := "/data/adb/zygisknextsu/config"

/-- The ABI the injector was built for. -/
inductive Abi where
  | arm64
  | arm
  | x86_64
  | x86
  | riscv64
  | other
deriving DecidableEq, Repr

/-- The build a daemon runs in: its ABI selects the engines on offer. -/
class Build where
  abi : Abi

/-- A build for 64-bit ARM. -/
@[reducible] def Build.arm64 : Build := ⟨.arm64⟩

structure HookConfig where
  inlineHook : String
  pltHook : String
  mode : String
  debugdata : String
  disableZn : String
deriving DecidableEq, Repr

def inlineHookOptions (abi : Abi) : List String :=
  match abi with
  | .arm64 => ["dobby", "shadowhook", "and64inlinehook", "frida-gum", "disable"]
  | .arm => ["dobby", "shadowhook", "frida-gum", "disable"]
  | .riscv64 => ["rv64hook", "disable"]
  | .x86_64 | .x86 | .other => ["dobby", "frida-gum", "disable"]

def pltHookOptions (abi : Abi) : List String :=
  match abi with
  | .riscv64 => ["lsplt", "plti", "disable"]
  | _ => ["lsplt", "plti", "bytehook", "xhook", "disable"]

def trackingModeOptions : List String :=
  [ MODE_AUTO, MODE_KERNEL, MODE_PTRACE, MODE_PROC, MODE_LATE]

def debugdataOptions : List String := ["lzma", "xz"]

def disableZnOptions : List String := ["true", "false"]

/-- One line of the file, stored under its key; unknown keys and comments are skipped. -/
def storeLine (stored : HookConfig) (line : String) : HookConfig :=
  let line := (Targets.trimLineEnd line).toList
  if line.isEmpty ∨ line.head? = some '#' ∨ '=' ∉ line then
    stored
  else
    let key := String.ofList (line.takeWhile (· ≠ '='))
    let value := String.ofList ((line.dropWhile (· ≠ '=')).drop 1)
    if key = "inline_hook" then { stored with inlineHook := value }
    else if key = "plt_hook" then { stored with pltHook := value }
    else if key = "mode" then { stored with mode := value }
    else if key = "debugdata" then { stored with debugdata := value }
    else if key = "disable_zn" then { stored with disableZn := value }
    else stored

def readFile : Prog Sys (Option HookConfig) := do
  let .text contents ← perform (.readToString CONFIG_FILE)
    | return none
  return some ((Targets.lines contents).foldl storeLine
    { inlineHook := "", pltHook := "", mode := "", debugdata := "", disableZn := "" })

/-- A stored value if it is one of the options. -/
def choose (options : List String) (stored default : String) : String :=
  if stored ∈ options then stored else default

def defaults (abi : Abi) : HookConfig where
  inlineHook := (inlineHookOptions abi).headD ""
  pltHook := (pltHookOptions abi).headD ""
  mode := MODE_AUTO
  debugdata := debugdataOptions.headD ""
  disableZn := "true"

def effective [Build] : Prog Sys HookConfig := do
  let config := defaults Build.abi
  let some stored ← readFile
    | return config
  return {
    inlineHook := choose (inlineHookOptions Build.abi) stored.inlineHook config.inlineHook
    pltHook := choose (pltHookOptions Build.abi) stored.pltHook config.pltHook
    mode := choose trackingModeOptions stored.mode config.mode
    debugdata := choose debugdataOptions stored.debugdata config.debugdata
    disableZn := choose disableZnOptions stored.disableZn config.disableZn }

end Znn.Injector.Config
