import Znn.Injector.Procfs
import Znn.Text.Decimal

/-!
# Modules and their targets

The module table: which executables each enabled module names, which library it asks to be
loaded there, and what has been recorded about it.
-/

namespace Znn.Injector

open Interaction

structure Target where
  byName : Bool
  value : String
deriving DecidableEq, Repr

def Target.matches (target : Target) (exe : String) : Bool :=
  if target.byName then Procfs.basename exe == target.value else exe == target.value

structure Declaration where
  target : Target
  companion : Bool
  library : String
deriving DecidableEq, Repr

structure ModuleInfo where
  id : String := ""
  name : String := ""
  version : String := ""
  targets : List Target := []
  declarations : List Declaration := []
  processes : List (Pid × String) := []
  failed : List (String × String) := []
deriving DecidableEq, Repr

/-- `BTreeMap<String, ModuleInfo>`: the values in the order of their ids. -/
abbrev Modules : Type := List ModuleInfo

/-- `BTreeMap::insert` under the module's own id. -/
def Modules.insert (modules : Modules) (module : ModuleInfo) : Modules :=
  match modules with
  | [] => [module]
  | head :: rest =>
      if module.id = head.id then
        module :: rest
      else if module.id < head.id then
        module :: head :: rest
      else
        head :: insert rest module

def Modules.get? (modules : Modules) (id : String) : Option ModuleInfo :=
  modules.find? fun module => module.id == id

namespace Targets

def MODULES_DIR : String := "/data/adb/modules"

/-- `split_whitespace` of one line. -/
def splitWhitespace (line : String) : List String :=
  (Text.words Text.whiteSpace line.toList).map String.ofList

/-- `strip_prefix`. -/
def strip (start value : String) : Option String :=
  if start.toList <+: value.toList then
    some (String.ofList (value.toList.drop start.toList.length))
  else
    none

def parseDeclaration (line : String) : Option Declaration :=
  match splitWhitespace line with
  | [] | [_] => none
  | first :: second :: rest => do
      let (byName, value) ←
        match strip "path=" first with
        | some value => some (false, value)
        | none => (strip "name=" first).map fun value => (true, value)
      return {
        target := { byName := byName, value := value }
        companion := (second :: rest).dropLast.contains "companion"
        library := (second :: rest).getLast (by simp) }

/-- `lines`: the text between line feeds, a carriage return before one dropped. -/
def lines (contents : String) : List String :=
  let pieces := contents.toList.splitOn '\n'
  let pieces := if pieces.getLast? = some [] then pieces.dropLast else pieces
  pieces.map fun piece =>
    String.ofList (if piece.getLast? = some '\r' then piece.dropLast else piece)

def declarations (moduleDir : String) : Prog Sys (Except FileText (List Declaration)) := do
  match ← perform (.readToString (moduleDir ++ "/zn_modules.txt")) with
  | .text contents => return .ok ((lines contents).filterMap parseDeclaration)
  | .notFound => return .error .notFound
  | .failed => return .error .failed

def isEnabled (moduleDir : String) : Prog Sys Bool := do
  let disabled ← perform (.accessible (moduleDir ++ "/disable"))
  if disabled then
    return false
  let removed ← perform (.accessible (moduleDir ++ "/remove"))
  return !removed

/-- `trim_end_matches(['\n', '\r'])`. -/
def trimLineEnd (line : String) : String :=
  String.ofList (line.toList.reverse.dropWhile fun c => c == '\n' || c == '\r').reverse

def readProp (moduleDir key : String) : Prog Sys String := do
  let .text contents ← perform (.readToString (moduleDir ++ "/module.prop"))
    | return ""
  return ((lines contents).findSome? fun line =>
    strip (key ++ "=") (trimLineEnd line)).getD ""

/-- One turn of the loop of `collect`, for the directory `id`. -/
def collectOne (previous modules : Modules) (id : String) : Prog Sys Modules := do
  if id.toList.head? = some '.' then
    return modules
  let moduleDir := MODULES_DIR ++ "/" ++ id
  if !(← isEnabled moduleDir) then
    return modules
  match ← declarations moduleDir with
  | .error .notFound => return modules
  | .error _ =>
      match previous.get? id with
      | some module => return modules.insert module
      | none => return modules
  | .ok declared => do
      let name ← readProp moduleDir "name"
      let name := if name.isEmpty then id else name
      let version ← readProp moduleDir "version"
      let targets := declared.map Declaration.target
      if targets.isEmpty then
        return modules
      let module : ModuleInfo :=
        { id := id, name := name, version := version, targets := targets,
          declarations := declared }
      match previous.get? id with
      | some old => do
          let processes ← Procfs.retainAlive Prod.fst old.processes
          return modules.insert { module with processes := processes, failed := old.failed }
      | none => return modules.insert module

def collectEach (previous modules : Modules) : List String → Prog Sys Modules
  | [] => return modules
  | id :: rest => do
      let modules ← collectOne previous modules id
      collectEach previous modules rest

/-- `collect`: an unreadable directory keeps the previous table. -/
def collect (previous : Modules) : Prog Sys Modules := do
  let some ids ← perform .listModules
    | return previous
  collectEach previous [] ids

/-- `flatten`: every target once, in order of first occurrence. -/
def flatten (modules : Modules) : List Target :=
  (modules.flatMap ModuleInfo.targets).foldl
    (fun targets target => if target ∈ targets then targets else targets ++ [target]) []

def «matches» (targets : List Target) (exe : String) : Bool :=
  targets.any fun target => target.matches exe

def moduleMatches (module : ModuleInfo) (exe : String) : Bool :=
  !exe.isEmpty && «matches» module.targets exe

structure ModuleLibrary where
  path : String
  companion : Bool
deriving DecidableEq, Repr

/-- The components of an absolute path. -/
def components (path : String) : List (List Char) :=
  (path.toList.splitOn '/').filter fun component => !component.isEmpty

/-- `PathBuf::join` with a relative path, and with an absolute one. -/
def join (base path : String) : String :=
  if path.toList.head? = some '/' then path else base ++ "/" ++ path

def resolveLibrary (moduleDir library : String) : Prog Sys (Option String) := do
  let some library ← perform (.canonicalize (join moduleDir library))
    | return none
  let some module ← perform (.canonicalize moduleDir)
    | return none
  if library = module ∨ ¬components module <+: components library then
    return none
  return some library

/-- The declarations of one module, `libraries` being the paths seen so far. -/
def librariesOf (moduleDir exe : String) (libraries : List ModuleLibrary) :
    List Declaration → Prog Sys (List ModuleLibrary)
  | [] => return libraries
  | declaration :: rest => do
      if !declaration.target.matches exe then
        librariesOf moduleDir exe libraries rest
      else
        let some path ← resolveLibrary moduleDir declaration.library
          | librariesOf moduleDir exe libraries rest
        if libraries.any fun seen => seen.path == path then
          librariesOf moduleDir exe libraries rest
        else
          librariesOf moduleDir exe
            (libraries ++ [{ path := path, companion := declaration.companion }]) rest

def librariesFrom (exe : String) (libraries : List ModuleLibrary) :
    Modules → Prog Sys (List ModuleLibrary)
  | [] => return libraries
  | module :: rest => do
      let libraries ←
        librariesOf (MODULES_DIR ++ "/" ++ module.id) exe libraries module.declarations
      librariesFrom exe libraries rest

/-- `libraries_for`. -/
def librariesFor (modules : Modules) (exe : String) : Prog Sys (List ModuleLibrary) :=
  librariesFrom exe [] modules

end Targets

end Znn.Injector
