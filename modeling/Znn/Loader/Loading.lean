import Znn.Loader.ChannelNames
import Znn.Loader.Engines

/-!
# The loader in a process

`znn_loader_init` takes the boot plan, settles the engines and loads the modules that the plan
names, each from its own descriptor. A module is started only if its library opens and exports a
callback for a version that the loader knows. From then on its own code runs in the process, before
the modules that come later are loaded.
-/

namespace Znn.Loader

open Bytes Interaction

namespace Loading

def ZYGISK_NEXT_API_VERSION : Int32 := 4
def RTLD_NOW : Nat := 2
def kChannelBacklog : Nat := 4

abbrev Fd : Type := Companion.Fd

/-- The functions that a table of the API may name. -/
inductive ApiFunction where
  | pltHook
  | inlineHook
  | inlineUnhook
  | newSymbolResolver
  | freeSymbolResolver
  | getBaseAddress
  | symbolLookup
  | forEachSymbols
  | connectCompanion
  | getRuntime
  | newSymbolResolverUnavailable
  | freeSymbolResolverUnavailable
  | getBaseAddressUnavailable
  | symbolLookupUnavailable
  | forEachSymbolsUnavailable
  | connectCompanionUnavailable
  | getRuntimeUnavailable
deriving DecidableEq, Repr

structure ZygiskNextAPI where
  pltHook : ApiFunction := .pltHook
  inlineHook : ApiFunction := .inlineHook
  inlineUnhook : ApiFunction := .inlineUnhook
  newSymbolResolver : ApiFunction := .newSymbolResolver
  freeSymbolResolver : ApiFunction := .freeSymbolResolver
  getBaseAddress : ApiFunction := .getBaseAddress
  symbolLookup : ApiFunction := .symbolLookup
  forEachSymbols : ApiFunction := .forEachSymbols
  connectCompanion : ApiFunction := .connectCompanion
  getRuntime : ApiFunction := .getRuntime
deriving DecidableEq, Repr

def kApiV4 : ZygiskNextAPI := {}

def kApiV3 : ZygiskNextAPI :=
  { kApiV4 with getRuntime := .getRuntimeUnavailable }

def kApiV2 : ZygiskNextAPI :=
  { kApiV3 with connectCompanion := .connectCompanionUnavailable }

def kApiV1 : ZygiskNextAPI :=
  { kApiV2 with
    newSymbolResolver := .newSymbolResolverUnavailable
    freeSymbolResolver := .freeSymbolResolverUnavailable
    getBaseAddress := .getBaseAddressUnavailable
    symbolLookup := .symbolLookupUnavailable
    forEachSymbols := .forEachSymbolsUnavailable }

def apiForVersion (targetApiVersion : Int32) : ZygiskNextAPI :=
  if targetApiVersion ≥ 4 then kApiV4
  else if targetApiVersion = 3 then kApiV3
  else if targetApiVersion = 2 then kApiV2
  else if targetApiVersion = 1 then kApiV1
  else kApiV4

/-- What a library exports as `zn_module`. -/
structure ZygiskNextModule where
  targetApiVersion : Int32
  onModuleLoaded : Option Nat
deriving DecidableEq, Repr

/-- `ModuleHandle`, with the path of the library. -/
structure Handle where
  libPath : List UInt8
  companion : Companion.ModuleHandle

/-- A result of `nullptr` or of -1 is no result. -/
inductive Call where
  | readlink (path : String) (size : Nat)
  | setActive (value : Bool)
  | resolveHookEngines (inlineName pltName : List UInt8)
  | resolveDebugDataBackend (name : List UInt8)
  | resolveLibrarySymbol (library symbol : String)
  | dlsymDefault (symbol : String)
  | dlopenExt (function : Nat) (name : List UInt8) (flags : Nat) (fd : Fd)
  | dlsym (library : Nat) (symbol : String)
  | close (fd : Fd)
  | socket
  | bind (fd : Fd) (name : List UInt8)
  | listen (fd : Fd) (backlog : Nat)
  | onModuleLoaded (function : Nat) (handle : Handle) (api : ZygiskNextAPI)

abbrev Call.Answer : Call → Type
  | .readlink _ _ => Option (List UInt8)
  | .resolveLibrarySymbol _ _ => Nat
  | .dlsymDefault _ | .dlopenExt _ _ _ _ => Option Nat
  | .dlsym _ _ => Option ZygiskNextModule
  | .socket => Option Fd
  | .bind _ _ | .listen _ _ => Bool
  | .setActive _ | .resolveHookEngines _ _ | .resolveDebugDataBackend _ | .close _
  | .onModuleLoaded _ _ _ => Unit

abbrev Sys : Interface where
  Call := Call
  Answer := Call.Answer

abbrev perform (request : Call) : Prog Sys request.Answer :=
  Prog.perform (I := Sys) request

def kDeleted : List UInt8 := Injector.asBytes " (deleted)"

def PATH_MAX : Nat := 4096

/-- `process::exePath`. -/
def exePath : Prog Sys (List UInt8) := do
  let some path ← perform (.readlink "/proc/self/exe" (PATH_MAX - 1))
    | return []
  if path.length > kDeleted.length ∧ path.drop (path.length - kDeleted.length) = kDeleted then
    return path.take (path.length - kDeleted.length)
  return path

/-- `process::exeName`: what follows the last slash. -/
def exeName : Prog Sys (List UInt8) := do
  let path ← exePath
  return (path.reverse.takeWhile fun byte => byte ≠ 47).reverse

/-- `ipc::bindChannel`. -/
def bindChannel (nonce index : UInt32) : Prog Sys Fd := do
  let some fd ← perform .socket
    | return -1
  if !(← perform (.bind fd (addressOf nonce index .control))) then
    perform (.close fd)
    return -1
  if !(← perform (.listen fd kChannelBacklog)) then
    perform (.close fd)
    return -1
  return fd

def resolveDlopenExt : List String → Prog Sys (Option Nat)
  | [] => perform (.dlsymDefault "android_dlopen_ext")
  | linker :: linkers => do
      let address ← perform (.resolveLibrarySymbol linker "__loader_android_dlopen_ext")
      if address ≠ 0 then
        return some address
      resolveDlopenExt linkers

/-- `dlopenFd`. -/
def dlopenFd (fd : Fd) (name : List UInt8) (flags : Nat) : Prog Sys (Option Nat) := do
  let some dlopenExt ← resolveDlopenExt ["linker64", "linker"]
    | return none
  perform (.dlopenExt dlopenExt name flags fd)

theorem no_channel (listenFd : Fd) : (0 : Fd) ≤ -1 → (-1 : Fd) ≠ listenFd := by
  intro stored
  exact absurd stored (Int.not_le.mpr (Int.negSucc_lt_zero 0))

/-- A handle as it is declared. -/
def emptyHandle (path : List UInt8) : Handle where
  libPath := path
  companion := {
    hasCompanion := false
    companionNonce := 0
    companionIndex := 0
    companionToken := .replicate 16 0
    companionListenFd := -1
    companionChannel := -1
    apart := no_channel (-1) }

/-- The `memcpy` of the token. -/
def tokenOf (plan : Plan) : Vector UInt8 16 :=
  Vector.ofFn fun i => plan.token.getD i 0

/-- The handle of a module; one with a companion listens for it. -/
def newHandle (plan : Plan) (entry : PlanModule) : Prog Sys Handle := do
  if !entry.companion then
    return emptyHandle entry.path
  let listenFd ← bindChannel plan.nonce entry.index
  return {
    libPath := entry.path
    companion := {
      hasCompanion := true
      companionNonce := plan.nonce
      companionIndex := entry.index
      companionToken := tokenOf plan
      companionListenFd := listenFd
      companionChannel := -1
      apart := no_channel listenFd } }

/-- The end of `loadEntry`, for a library that has been opened. -/
def startModule (plan : Plan) (entry : PlanModule) (lib : Nat) : Prog Sys Unit := do
  let some m ← perform (.dlsym lib "zn_module")
    | return ()
  let some onModuleLoaded := m.onModuleLoaded
    | return ()
  if m.targetApiVersion < 1 ∨ m.targetApiVersion > ZYGISK_NEXT_API_VERSION then
    return ()
  let handle ← newHandle plan entry
  perform (.onModuleLoaded onModuleLoaded handle (apiForVersion m.targetApiVersion))

def loadEntry (plan : Plan) (entry : PlanModule) : Prog Sys Unit := do
  let some lib ← dlopenFd entry.fd.toInt (Engines.cStr entry.path) RTLD_NOW
    | perform (.close entry.fd.toInt)
  perform (.close entry.fd.toInt)
  startModule plan entry lib

def loadEach (plan : Plan) : List PlanModule → Prog Sys Unit
  | [] => return ()
  | entry :: entries => do
      loadEntry plan entry
      loadEach plan entries

def loadAll (plan : Plan) : Prog Sys Unit :=
  loadEach plan plan.modules

/-- `znn_loader_init`, for a plan that has been accepted. -/
def initialized (plan : Plan) : Prog Sys Unit := do
  perform (.resolveHookEngines plan.inlineEngine plan.pltEngine)
  perform (.resolveDebugDataBackend plan.debugdata)
  if (← exeName) = Injector.asBytes "hyos_spawner" then
    perform (.setActive true)
  loadAll plan

/-- What a descriptor of the process is. -/
inductive Status where
  /-- The library of the module at a place of the plan. -/
  | library (place : Nat)
  /-- A socket that the loader has opened, the name it is bound to and its backlog. -/
  | socket (serial : Nat) (name : Option (List UInt8)) (backlog : Option Nat)
  | foreign
deriving DecidableEq

def Status.place : Status → Option Nat
  | .library place => some place
  | _ => none

def Status.serial : Status → Option Nat
  | .socket serial _ _ => some serial
  | _ => none

/-- A call of a module, with what its handle refers to when it is made. -/
structure Started where
  function : Nat
  handle : Handle
  api : ZygiskNextAPI
  listener : Option Status
  debugdata : Debugdata.Backend

def Started.serial (started : Started) : Option Nat :=
  started.listener.bind Status.serial

/-- The process: its descriptors and open libraries, and what has been done in it. -/
structure World where
  table : Fd → Option Status
  /-- What a library exports that is opened from a descriptor. -/
  exports : Option Status → Option ZygiskNextModule
  libraries : Nat → Option Status := fun _ => none
  /-- What libraries have been opened from. -/
  opened : List (Option Status) := []
  closed : List (Option Status) := []
  sockets : Nat := 0
  started : List Started := []
  exe : List UInt8 := []
  active : Bool := false
  globals : Engines.Globals
  debugdata : Debugdata.Backend := .kLzma

namespace World

def install (world : World) (fd : Fd) (status : Status) : World :=
  { world with table := Function.update world.table fd (some status) }

def release (world : World) (fd : Fd) : World :=
  { world with table := Function.update world.table fd none }

/-- Other code does not do what the loader does. -/
structure Leaves (before after : World) : Prop where
  opened : after.opened = before.opened
  closed : after.closed = before.closed
  sockets : after.sockets = before.sockets
  started : after.started = before.started
  exports : after.exports = before.exports
  debugdata : after.debugdata = before.debugdata

/-- The descriptors of a plan are left alone: none of them is closed, replaced or duplicated. -/
def Spares (before after : World) : Prop :=
  ∀ fd place, after.table fd = some (.library place) ↔ before.table fd = some (.library place)

/-- What a number of the loader refers to. -/
def refers (world : World) (fd : Fd) : Option Status :=
  if 0 ≤ fd then world.table fd else none

def start (world : World) (function : Nat) (handle : Handle) (api : ZygiskNextAPI) : Started where
  function := function
  handle := handle
  api := api
  listener := world.refers handle.companion.companionListenFd
  debugdata := world.debugdata

end World

variable (abi : Engines.Abi) (code : World → World → Prop)

/-- The system gives out free numbers, and any request may fail. The code of a library runs when it
is opened, and when its module is started; `code` is what it may do to the process. -/
def machine : Machine Sys World where
  Step before request answer after :=
    match request, answer with
    | .readlink _ size, some path => path = before.exe.take size ∧ after = before
    | .setActive value, _ => after = { before with active := value }
    | .resolveHookEngines inlineName pltName, _ =>
        after = { before with
          globals := Engines.resolveHookEngines abi before.globals inlineName pltName }
    | .resolveDebugDataBackend name, _ =>
        after = { before with debugdata := Engines.resolveDebugDataBackend name }
    | .dlopenExt _ _ _ fd, some library => ∃ ran, before.Leaves ran ∧ code before ran ∧
        after = { ran with
          libraries := Function.update ran.libraries library (before.table fd)
          opened := ran.opened ++ [before.table fd] }
    | .dlopenExt _ _ _ _, none => before.Leaves after ∧ code before after
    | .dlsym library _, m => m = before.exports (before.libraries library) ∧ after = before
    | .close fd, _ =>
        after = { before.release fd with closed := before.closed ++ [before.table fd] }
    | .socket, some fd => 0 ≤ fd ∧ before.table fd = none ∧
        after = { before.install fd (.socket before.sockets none none) with
          sockets := before.sockets + 1 }
    | .bind fd name, true => ∃ serial, before.table fd = some (.socket serial none none) ∧
        after = before.install fd (.socket serial (some name) none)
    | .listen fd backlog, true => ∃ serial name,
        before.table fd = some (.socket serial name none) ∧
          after = before.install fd (.socket serial name (some backlog))
    | .onModuleLoaded function handle api, _ => ∃ ran, before.Leaves ran ∧ code before ran ∧
        after = { ran with started := ran.started ++ [before.start function handle api] }
    | .readlink _ _, none | .resolveLibrarySymbol _ _, _ | .dlsymDefault _, _ | .socket, none
    | .bind _ _, false | .listen _ _, false => after = before

/-- The module at a place of the plan with its callback and its version, if the loader starts it. -/
def startable (plan : Plan) (exports : Option Status → Option ZygiskNextModule) (place : Nat) :
    Option (PlanModule × Nat × Int32) := do
  let entry ← plan.modules[place]?
  let m ← exports (some (.library place))
  let onModuleLoaded ← m.onModuleLoaded
  if m.targetApiVersion < 1 ∨ m.targetApiVersion > ZYGISK_NEXT_API_VERSION then
    none
  else
    some (entry, onModuleLoaded, m.targetApiVersion)

/-- The handle of a module of the plan, and what its listener refers to. -/
structure Handles (plan : Plan) (entry : PlanModule) (handle : Handle) (listener : Option Status) :
    Prop where
  path : handle.libPath = entry.path
  hasCompanion : handle.companion.hasCompanion = entry.companion
  named : entry.companion = true → handle.companion.companionNonce = plan.nonce ∧
    handle.companion.companionIndex = entry.index ∧
      handle.companion.companionToken = tokenOf plan
  listener : handle.companion.companionListenFd = -1 ∧ listener = none ∨
    entry.companion = true ∧ ∃ serial, listener = some (.socket serial
      (some (addressOf plan.nonce entry.index .control)) (some kChannelBacklog))
  channel : handle.companion.companionChannel = -1

/-- The module is called with a handle of its own and the table of its version. -/
structure Starts (plan : Plan) (expected : PlanModule × Nat × Int32) (started : Started) :
    Prop where
  function : started.function = expected.2.1
  handle : Handles plan expected.1 started.handle started.listener
  api : started.api = apiForVersion expected.2.2
  debugdata : started.debugdata = Engines.resolveDebugDataBackend plan.debugdata

/-- The descriptors of the modules from a place on are open, and no other descriptors of the plan
are. -/
def Pending (plan : Plan) (done : Nat) (table : Fd → Option Status) : Prop :=
  ∀ fd place, table fd = some (.library place) ↔
    done ≤ place ∧ ∃ entry, plan.modules[place]? = some entry ∧ entry.fd.toInt = fd

/-- The descriptors of the modules that are done with are closed. Of these modules some have been
opened, and of those the ones that the loader knows how to start have been started. -/
structure Sound (plan : Plan) (exports : Option Status → Option ZygiskNextModule)
    (loaded served held : List Nat) (done : Nat) (world : World) : Prop where
  pending : Pending plan done world.table
  closed : (world.closed.filterMap fun status => status.bind Status.place) = List.range done
  real : none ∉ world.closed
  opened : world.opened = loaded.map fun place => some (.library place)
  inOrder : loaded.Sublist (List.range done)
  sockets : ((world.closed.filterMap fun status => status.bind Status.serial) ++
    (world.started.filterMap Started.serial ++ held)).Perm (List.range world.sockets)
  started : List.Forall₂ (Starts plan) (served.filterMap (startable plan exports)) world.started
  exports : world.exports = exports
  debugdata : world.debugdata = Engines.resolveDebugDataBackend plan.debugdata

section Rules

variable {abi : Engines.Abi} {code : World → World → Prop} {plan : Plan}
  {exports : Option Status → Option ZygiskNextModule} {loaded served held : List Nat} {done : Nat}
  {world after : World} {fd : Fd}

theorem Pending.update {table : Fd → Option Status} {status : Option Status}
    (pending : Pending plan done table) (unlisted : ∀ place, table fd ≠ some (.library place))
    (other : ∀ place, status ≠ some (.library place)) :
    Pending plan done (Function.update table fd status) := by
  intro fd' place
  rw [← pending fd' place, Function.update_apply]
  split
  case isFalse => rfl
  case isTrue same =>
    subst same
    exact iff_of_false (other place) (unlisted place)

/-- Code that spares the descriptors of the plan keeps everything. -/
theorem Sound.leaves (sound : Sound plan exports loaded served held done world)
    (leaves : world.Leaves after) (spares : world.Spares after) :
    Sound plan exports loaded served held done after where
  pending fd place := (spares fd place).trans (sound.pending fd place)
  closed := leaves.closed ▸ sound.closed
  real := leaves.closed ▸ sound.real
  opened := leaves.opened.trans sound.opened
  inOrder := sound.inOrder
  sockets := by
    rw [leaves.closed, leaves.started, leaves.sockets]
    exact sound.sockets
  started := leaves.started ▸ sound.started
  exports := leaves.exports.trans sound.exports
  debugdata := leaves.debugdata.trans sound.debugdata

/-- The descriptor of the next module is closed. -/
theorem Sound.close (sound : Sound plan exports loaded served held done world) {entry : PlanModule}
    (isEntry : plan.modules[done]? = some entry) :
    Sound plan exports loaded served held (done + 1)
      { world.release entry.fd.toInt with
        closed := world.closed ++ [world.table entry.fd.toInt] } := by
  have refers : world.table entry.fd.toInt = some (.library done) :=
    (sound.pending _ _).mpr ⟨Nat.le_refl _, entry, isEntry, rfl⟩
  refine ⟨?_, ?_, ?_, sound.opened, ?_, ?_, sound.started, sound.exports, sound.debugdata⟩
  · intro fd place
    change Function.update world.table entry.fd.toInt none fd = _ ↔ _
    rw [Function.update_apply]
    split
    case isTrue same =>
      refine iff_of_false nofun ?_
      rintro ⟨later, entry', isEntry', rfl⟩
      have also := (sound.pending entry'.fd.toInt place).mpr ⟨by omega, entry', isEntry', rfl⟩
      rw [same, refers] at also
      cases also
      omega
    case isFalse apart =>
      rw [sound.pending]
      refine and_congr_left ?_
      rintro ⟨entry', isEntry', rfl⟩
      have differs : place ≠ done := by
        rintro rfl
        rw [isEntry] at isEntry'
        cases isEntry'
        exact apart rfl
      omega
  · change ((world.closed ++ [world.table entry.fd.toInt]).filterMap _) = _
    rw [List.filterMap_append, sound.closed, refers, List.range_succ]
    rfl
  · intro absent
    rcases List.mem_append.mp absent with earlier | here
    · exact sound.real earlier
    · rw [refers] at here
      simp at here
  · exact sound.inOrder.trans (List.range_sublist.mpr (Nat.le_succ _))
  · change ((world.closed ++ [world.table entry.fd.toInt]).filterMap _ ++ _).Perm _
    have none : [some (Status.library done)].filterMap (fun status => status.bind Status.serial) =
      [] := rfl
    rw [List.filterMap_append, refers, none, List.append_nil]
    exact sound.sockets

theorem Sound.socket (sound : Sound plan exports loaded served held done world)
    (free : world.table fd = none) :
    Sound plan exports loaded served (world.sockets :: held) done
      { world.install fd (.socket world.sockets none none) with sockets := world.sockets + 1 } := by
  refine ⟨?_, sound.closed, sound.real, sound.opened, sound.inOrder, ?_, sound.started,
    sound.exports, sound.debugdata⟩
  · exact sound.pending.update (fun place => by rw [free]; nofun) nofun
  · change (_ ++ (_ ++ world.sockets :: held)).Perm (List.range (world.sockets + 1))
    rw [List.range_succ, ← List.append_assoc]
    refine List.perm_middle.trans ?_
    rw [List.append_assoc]
    exact (sound.sockets.cons _).trans (List.perm_append_singleton _ _).symm

/-- A socket that was to no avail is closed. -/
theorem Sound.drop {serial : Nat} {name : Option (List UInt8)} {backlog : Option Nat}
    (sound : Sound plan exports loaded served (serial :: held) done world)
    (refers : world.table fd = some (.socket serial name backlog)) :
    Sound plan exports loaded served held done
      { world.release fd with closed := world.closed ++ [world.table fd] } := by
  refine ⟨?_, ?_, ?_, sound.opened, sound.inOrder, ?_, sound.started, sound.exports,
    sound.debugdata⟩
  · exact sound.pending.update (fun place => by rw [refers]; nofun) nofun
  · change ((world.closed ++ [world.table fd]).filterMap _) = _
    rw [List.filterMap_append, refers, ← sound.closed]
    exact List.append_nil _
  · intro absent
    rcases List.mem_append.mp absent with earlier | here
    · exact sound.real earlier
    · rw [refers] at here
      simp at here
  · change ((world.closed ++ [world.table fd]).filterMap _ ++ (_ ++ held)).Perm _
    have single : [some (Status.socket serial name backlog)].filterMap
      (fun status => status.bind Status.serial) = [serial] := rfl
    rw [List.filterMap_append, refers, single, List.append_assoc]
    refine (List.Perm.append_left _ ?_).trans sound.sockets
    change (serial :: (world.started.filterMap Started.serial ++ held)).Perm _
    exact List.perm_middle.symm

/-- A module is started, and its code runs. -/
theorem Sound.start {handle : Handle} {place : Nat} {expected : PlanModule × Nat × Int32}
    (sound : Sound plan exports loaded served
      ((world.refers handle.companion.companionListenFd).bind Status.serial).toList done world)
    (handles : Handles plan expected.1 handle (world.refers handle.companion.companionListenFd))
    (isExpected : startable plan exports place = some expected) (leaves : world.Leaves after)
    (spares : world.Spares after) : Sound plan exports loaded (served ++ [place]) [] done
      { after with started := after.started ++
          [world.start expected.2.1 handle (apiForVersion expected.2.2)] } := by
  have later := sound.leaves leaves spares
  refine ⟨later.pending, later.closed, later.real, later.opened, later.inOrder, ?_, ?_,
    later.exports, later.debugdata⟩
  · change (_ ++ ((after.started ++ [_]).filterMap Started.serial ++ [])).Perm _
    have single : [world.start expected.2.1 handle (apiForVersion expected.2.2)].filterMap
        Started.serial =
          ((world.refers handle.companion.companionListenFd).bind Status.serial).toList := by
      have serial : (world.start expected.2.1 handle (apiForVersion expected.2.2)).serial =
        (world.refers handle.companion.companionListenFd).bind Status.serial := rfl
      rw [List.filterMap_cons, List.filterMap_nil, serial]
      cases (world.refers handle.companion.companionListenFd).bind Status.serial <;> rfl
    rw [List.filterMap_append, single, List.append_nil]
    exact later.sockets
  · rw [List.filterMap_append]
    refine List.rel_append later.started ?_
    have single : [place].filterMap (startable plan exports) = [expected] := by
      rw [List.filterMap_cons, isExpected, List.filterMap_nil]
    rw [single]
    exact .cons ⟨rfl, handles, rfl, sound.debugdata⟩ .nil

/-- A module that the loader does not know how to start is done with. -/
theorem Sound.skip {place : Nat} (sound : Sound plan exports loaded served [] done world)
    (refused : startable plan exports place = none) :
    Sound plan exports loaded (served ++ [place]) [] done world := by
  have same : (served ++ [place]).filterMap (startable plan exports) =
      served.filterMap (startable plan exports) := by
    rw [List.filterMap_append, List.filterMap_cons, refused, List.filterMap_nil, List.append_nil]
  refine ⟨sound.pending, sound.closed, sound.real, sound.opened, sound.inOrder, sound.sockets, ?_,
    sound.exports, sound.debugdata⟩
  rw [same]
  exact sound.started

/-- The descriptors that a plan names. -/
def fdsOf (plan : Plan) : List Fd :=
  plan.modules.map fun entry => entry.fd.toInt

/-- A process that has done nothing yet, with the descriptors of the plan and no others of its
kind. -/
structure World.Given (world : World) (plan : Plan) : Prop where
  descriptors : ∀ fd place, world.table fd = some (.library place) ↔
    fd ∈ fdsOf plan ∧ (fdsOf plan).idxOf fd = place
  opened : world.opened = []
  closed : world.closed = []
  sockets : world.sockets = 0
  started : world.started = []

/-- No number is given to two modules, so that each has its own. -/
theorem World.Given.pending (given : world.Given plan) (distinct : (fdsOf plan).Nodup) :
    Pending plan 0 world.table := by
  intro fd place
  have listed : (∃ entry, plan.modules[place]? = some entry ∧ entry.fd.toInt = fd) ↔
      (fdsOf plan)[place]? = some fd := by
    rw [fdsOf, List.getElem?_map, Option.map_eq_some_iff]
  rw [given.descriptors, listed]
  constructor
  · rintro ⟨member, rfl⟩
    exact ⟨Nat.zero_le _, List.getElem?_idxOf member⟩
  · rintro ⟨_, isPlace⟩
    rcases List.getElem?_eq_some_iff.mp isPlace with ⟨inside, rfl⟩
    exact ⟨List.getElem_mem inside, distinct.idxOf_getElem _ _⟩

end Rules

/-- A process in which everything works. -/
def respond (abi : Engines.Abi) (request : Call) (world : World) : request.Answer × World :=
  match request with
  | .readlink _ size => (some (world.exe.take size), world)
  | .setActive value => ((), { world with active := value })
  | .resolveHookEngines inlineName pltName =>
      ((), { world with
        globals := Engines.resolveHookEngines abi world.globals inlineName pltName })
  | .resolveDebugDataBackend name =>
      ((), { world with debugdata := Engines.resolveDebugDataBackend name })
  | .resolveLibrarySymbol _ _ => (4096, world)
  | .dlsymDefault _ => (none, world)
  | .dlopenExt _ _ _ fd =>
      let library := world.opened.length
      (some library, { world with
        libraries := Function.update world.libraries library (world.table fd)
        opened := world.opened ++ [world.table fd] })
  | .dlsym library _ => (world.exports (world.libraries library), world)
  | .close fd => ((), { world.release fd with closed := world.closed ++ [world.table fd] })
  | .socket =>
      let fd : Fd := 100 + world.sockets
      if world.table fd = none then
        (some fd, { world.install fd (.socket world.sockets none none) with
          sockets := world.sockets + 1 })
      else
        (none, world)
  | .bind fd name =>
      match world.table fd with
      | some (.socket serial none none) =>
          (true, world.install fd (.socket serial (some name) none))
      | _ => (false, world)
  | .listen fd backlog =>
      match world.table fd with
      | some (.socket serial name none) =>
          (true, world.install fd (.socket serial name (some backlog)))
      | _ => (false, world)
  | .onModuleLoaded function handle api =>
      ((), { world with started := world.started ++ [world.start function handle api] })

theorem leaves_refl (world : World) : world.Leaves world :=
  ⟨rfl, rfl, rfl, rfl, rfl, rfl⟩

theorem spares_refl (world : World) : world.Spares world :=
  fun _ _ => Iff.rfl

theorem sound_respond (abi : Engines.Abi) (request : Call) (world : World) :
    (machine abi World.Spares).Step world request (respond abi request world).1
      (respond abi request world).2 := by
  cases request with
  | readlink path size => exact ⟨rfl, rfl⟩
  | dlopenExt function name flags fd =>
      exact ⟨world, leaves_refl world, spares_refl world, rfl⟩
  | dlsym library symbol => exact ⟨rfl, rfl⟩
  | socket =>
      unfold respond
      dsimp only
      split
      case isTrue free =>
        have real : (0 : Int) ≤ 100 + (world.sockets : Int) := by omega
        exact ⟨real, free, rfl⟩
      case isFalse => rfl
  | bind fd name =>
      unfold respond
      dsimp only
      split
      case h_1 serial refers => exact ⟨serial, refers, rfl⟩
      case h_2 => rfl
  | listen fd backlog =>
      unfold respond
      dsimp only
      split
      case h_1 serial name refers => exact ⟨serial, name, refers, rfl⟩
      case h_2 => rfl
  | onModuleLoaded function handle api =>
      exact ⟨world, leaves_refl world, spares_refl world, rfl⟩
  | _ => rfl

end Loading

end Znn.Loader
