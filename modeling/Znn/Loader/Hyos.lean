import Znn.Loader.InlineHook

/-!
# App specialization in the children of hyos_spawner

A module that is registered is told once that its process has become an application. Three hooks
work together: the one of `fork` marks the children, the one of `pthread_setname_np` keeps the name
that the process gives itself, and the one of `selinux_android_setcontext` delivers. Each process
has its own copy of the state, and any of its threads may run through a hook. What is shared and not
atomic is read and written as a whole.
-/

namespace Znn.Loader

open Interaction

namespace Hyos

/-- A string without the zero at its end. -/
abbrev CString : Type := List UInt8

/-- `pthread_t`. -/
abbrev Thread : Type := Nat

/-- A function pointer; null is 0. -/
abbrev Pointer : Type := Nat

def ZYGISK_NEXT_HYOS_API_VERSION : Int := 1
def kMaxModules : Nat := 4

/-- What `strlcpy` leaves in a buffer. -/
def strlcpy (source : CString) (size : Nat) : CString :=
  source.take (size - 1)

/-- `ZygiskNextHyosModule`. -/
structure Module where
  targetApiVersion : Int
  onAppSpecialized : Pointer
deriving DecidableEq, Repr

structure SpawnerImage where
  dev : Nat := 0
  inode : Nat := 0
  base : Nat := 0
deriving DecidableEq, Repr

inductive NameState where
  | empty
  | writing
  | ready
deriving DecidableEq, Repr

/-- The state of one process. Forked children inherit it. -/
structure State where
  modules : List Module := []
  bounded : modules.length ≤ kMaxModules := by decide
  inChild : Bool := false
  fired : Bool := false
  pltForkTried : Bool := false
  pltCtxTried : Bool := false
  origFork : Pointer := 0
  origSetcontext : Pointer := 0
  origSetname : Pointer := 0
  spawner : SpawnerImage := {}
  capturedName : CString := []
  nameState : NameState := .empty
  /-- `g_reinstall`. -/
  reinstall : Bool := false
  /-- How often the handlers are registered with `pthread_atfork`. -/
  atforks : Nat := 0

section Install

structure Mapping where
  dev : Nat
  inode : Nat
  start : Nat
  offset : Nat
  path : String

/-- What `installHooks` finds: the mappings of the process, and the original functions of the hooks
that succeed. -/
structure Found where
  maps : List Mapping := []
  pltFork : Option Pointer := none
  pltCtx : Option Pointer := none
  inlineCtx : Option Pointer := none
  inlineName : Option Pointer := none

def findSpawnerImage (maps : List Mapping) (s : State) : State :=
  if s.spawner.inode ≠ 0 then
    s
  else
    let isImage (m : Mapping) : Bool :=
      m.offset = 0 && m.inode ≠ 0 && "hyos_spawner".toList <:+: m.path.toList
    match maps.find? isImage with
    | some m => { s with spawner := ⟨m.dev, m.inode, m.start⟩ }
    | none => s

def hookFork (backup : Option Pointer) (s : State) : State :=
  if s.spawner.inode ≠ 0 ∧ s.pltForkTried = false then
    if s.origFork ≠ 0 then
      { s with pltForkTried := true }
    else
      match backup with
      | some fn => { s with origFork := fn, pltForkTried := true }
      | none => s
  else
    s

def hookSetcontext (backup : Option Pointer) (s : State) : State :=
  if s.spawner.inode ≠ 0 ∧ s.pltCtxTried = false then
    if s.origSetcontext ≠ 0 then
      { s with pltCtxTried := true }
    else
      match backup with
      | some fn => { s with origSetcontext := fn, pltCtxTried := true }
      | none => s
  else
    s

def inlineSetcontext (original : Option Pointer) (s : State) : State :=
  if s.origSetcontext = 0 then
    { s with origSetcontext := original.getD 0 }
  else
    s

def inlineSetname (original : Option Pointer) (s : State) : State :=
  if s.origSetname = 0 then
    { s with origSetname := original.getD 0 }
  else
    s

def installHooks (found : Found) (s : State) : State :=
  inlineSetname found.inlineName <| inlineSetcontext found.inlineCtx <|
    hookSetcontext found.pltCtx <| hookFork found.pltFork <| findSpawnerImage found.maps s

/-- `registerModule`; `atfork` is whether `pthread_atfork` has the memory for its handlers. -/
def registerModule (entry : Option Module) (atfork : Bool) (found : Found) (s : State) :
    Int × State :=
  match entry with
  | none => (ZN_FAILED, s)
  | some m =>
      if m.onAppSpecialized = 0 then
        (ZN_FAILED, s)
      else if m.targetApiVersion > ZYGISK_NEXT_HYOS_API_VERSION then
        (ZN_FAILED, s)
      else if full : s.modules.length ≥ kMaxModules then
        (ZN_FAILED, s)
      else
        let added : State :=
          { s with
            modules := s.modules ++ [m]
            bounded := by
              rw [List.length_append]
              exact Nat.lt_of_not_ge full
            atforks := if s.inChild = false ∧ atfork = true then s.atforks + 1 else s.atforks }
        (ZN_SUCCESS, installHooks found added)

def atForkChild (s : State) : State :=
  { s with inChild := true, fired := false, capturedName := [], nameState := .empty,
           reinstall := false }

def atForkPrepare (s : State) : State :=
  if s.inChild = false ∧ s.modules ≠ [] ∧ (s.origSetcontext = 0 ∨ s.origSetname = 0) then
    { s with reinstall := true }
  else
    s

/-- The state that is copied to the child; the handlers have run if the fork runs them. -/
def prepared (handled : Bool) (s : State) : State :=
  if handled then atForkPrepare^[s.atforks] s else s

/-- How often the child's state is reset: by the handlers, and by the hook of `fork`. -/
def resets (hooked handled : Bool) (s : State) : Nat :=
  (if handled then s.atforks else 0) + (if hooked then 1 else 0)

/-- The state in the child after `fork`. -/
def forkedChild (hooked handled : Bool) (s : State) : State :=
  atForkChild^[resets hooked handled s] (prepared handled s)

/-- The state in the parent after `fork`. -/
def forkedParent (hooked handled succeeded : Bool) (found : Found) (s : State) : State :=
  let s := prepared handled s
  if hooked && succeeded && s.reinstall then
    let s := { s with reinstall := false }
    if s.inChild then s else installHooks found s
  else
    s

/-- What the hooks read and write while they run is the same. -/
structure Same (s s' : State) : Prop where
  inChild : s'.inChild = s.inChild
  fired : s'.fired = s.fired
  capturedName : s'.capturedName = s.capturedName
  nameState : s'.nameState = s.nameState

/-- And so are the modules. -/
structure Untouched (s s' : State) : Prop extends Same s s' where
  modules : s'.modules = s.modules

variable {s : State}

theorem Untouched.refl : Untouched s s :=
  ⟨⟨rfl, rfl, rfl, rfl⟩, rfl⟩

theorem Untouched.trans {first second third : State} (one : Untouched first second)
    (other : Untouched second third) : Untouched first third where
  inChild := other.inChild.trans one.inChild
  fired := other.fired.trans one.fired
  capturedName := other.capturedName.trans one.capturedName
  nameState := other.nameState.trans one.nameState
  modules := other.modules.trans one.modules

theorem untouched_findSpawnerImage (maps : List Mapping) (s : State) :
    Untouched s (findSpawnerImage maps s) := by
  unfold findSpawnerImage
  split
  · exact .refl
  · dsimp only
    split
    · exact ⟨⟨rfl, rfl, rfl, rfl⟩, rfl⟩
    · exact .refl

theorem untouched_hookFork (backup : Option Pointer) (s : State) :
    Untouched s (hookFork backup s) := by
  unfold hookFork
  repeat' split
  all_goals exact ⟨⟨rfl, rfl, rfl, rfl⟩, rfl⟩

theorem untouched_hookSetcontext (backup : Option Pointer) (s : State) :
    Untouched s (hookSetcontext backup s) := by
  unfold hookSetcontext
  repeat' split
  all_goals exact ⟨⟨rfl, rfl, rfl, rfl⟩, rfl⟩

theorem untouched_inlineSetcontext (original : Option Pointer) (s : State) :
    Untouched s (inlineSetcontext original s) := by
  unfold inlineSetcontext
  split
  · exact ⟨⟨rfl, rfl, rfl, rfl⟩, rfl⟩
  · exact .refl

theorem untouched_inlineSetname (original : Option Pointer) (s : State) :
    Untouched s (inlineSetname original s) := by
  unfold inlineSetname
  split
  · exact ⟨⟨rfl, rfl, rfl, rfl⟩, rfl⟩
  · exact .refl

/-- The installation of the hooks concerns nothing but the hooks. -/
theorem untouched_installHooks (found : Found) (s : State) :
    Untouched s (installHooks found s) :=
  (untouched_findSpawnerImage found.maps s).trans <|
    (untouched_hookFork found.pltFork _).trans <|
      (untouched_hookSetcontext found.pltCtx _).trans <|
        (untouched_inlineSetcontext found.inlineCtx _).trans <|
          untouched_inlineSetname found.inlineName _

theorem prepared_cases (handled : Bool) (s : State) :
    prepared handled s = s ∨ prepared handled s = { s with reinstall := true } := by
  have once : ∀ s, atForkPrepare s = s ∨ atForkPrepare s = { s with reinstall := true } := by
    intro s
    unfold atForkPrepare
    split
    · exact .inr rfl
    · exact .inl rfl
  have often : ∀ times, atForkPrepare^[times] s = s ∨
      atForkPrepare^[times] s = { s with reinstall := true } := by
    intro times
    induction times with
    | zero => exact .inl rfl
    | succ times ih =>
        rw [Function.iterate_succ_apply']
        rcases ih with same | same
        · rw [same]
          exact once s
        · rw [same]
          exact .inr ((once _).elim id id)
  unfold prepared
  split
  · exact often s.atforks
  · exact .inl rfl

/-- Something hooks or handles the forks of the process. -/
def State.Hooked (s : State) : Prop :=
  0 < s.atforks ∨ s.origFork ≠ 0

theorem hooked_of_resets {hooked handled : Bool} (installed : hooked = true → s.origFork ≠ 0)
    (some : 0 < resets hooked handled s) : s.Hooked := by
  unfold resets at some
  cases hooked with
  | true => exact .inr (installed rfl)
  | false =>
      cases handled with
      | true => exact .inl some
      | false => exact absurd some (Nat.lt_irrefl 0)

/-- A child that is not reset has its parent's state. A child that is reset begins anew. -/
theorem forkedChild_cases (hooked handled : Bool) (s : State) :
    (forkedChild hooked handled s).modules = s.modules ∧
      ((forkedChild hooked handled s).Hooked ↔ s.Hooked) ∧
      (resets hooked handled s = 0 ∧ Untouched s (forkedChild hooked handled s) ∨
        0 < resets hooked handled s ∧ (forkedChild hooked handled s).inChild = true ∧
          (forkedChild hooked handled s).fired = false ∧
          (forkedChild hooked handled s).nameState = .empty) := by
  have same : (prepared handled s).modules = s.modules ∧
      ((prepared handled s).Hooked ↔ s.Hooked) ∧ Untouched s (prepared handled s) := by
    rcases prepared_cases handled s with same | same
    · rw [same]
      exact ⟨rfl, Iff.rfl, .refl⟩
    · rw [same]
      exact ⟨rfl, Iff.rfl, ⟨rfl, rfl, rfl, rfl⟩, rfl⟩
  have reset : ∀ times s, (atForkChild^[times] s).modules = s.modules ∧
      ((atForkChild^[times] s).Hooked ↔ s.Hooked) := by
    intro times
    induction times with
    | zero => exact fun s => ⟨rfl, Iff.rfl⟩
    | succ times ih => exact fun s => ih (atForkChild s)
  rcases reset (resets hooked handled s) (prepared handled s) with ⟨modules, isHooked⟩
  refine ⟨modules.trans same.1, isHooked.trans same.2.1, ?_⟩
  unfold forkedChild
  cases resets hooked handled s with
  | zero => exact .inl ⟨rfl, same.2.2⟩
  | succ times =>
      rw [Function.iterate_succ_apply']
      exact .inr ⟨Nat.succ_pos _, rfl, rfl, rfl⟩

end Install

structure Args where
  processName : CString
  packageName : CString
  seInfo : CString
deriving DecidableEq, Repr

/-- The steps of the hooks. -/
inductive Call where
  | origSetcontext (uid : UInt32) (isSystemServer : Int) (seInfo pkgName : Option CString)
  | origSetname (self thread : Thread) (name : Option CString)
  | inChild
  | moduleCount
  | moduleAt (i : Nat)
  /-- `fired.compare_exchange_strong(false, true)`. -/
  | fire
  /-- `fired.load()`, by a thread that has set a name. -/
  | fired (self : Thread)
  | nameState
  | capturedName
  /-- `prctl(PR_GET_NAME)`. -/
  | kernelName
  /-- `name_state.compare_exchange_strong(kNameEmpty, kNameWriting)`, by a thread that is to keep
  the name. -/
  | claimName (self : Thread) (name : CString)
  | writeName (name : CString)
  | nameReady
  | callback (i : Nat) (function : Pointer) (args : Args)
deriving DecidableEq

abbrev Call.Answer : Call → Type
  | .origSetcontext _ _ _ _ | .origSetname _ _ _ => Int
  | .inChild | .fire | .fired _ | .claimName _ _ => Bool
  | .moduleCount => Nat
  | .moduleAt _ => Option Module
  | .nameState => NameState
  | .capturedName => CString
  | .kernelName => Option CString
  | .writeName _ | .nameReady | .callback _ _ _ => Unit

abbrev Sys : Interface where
  Call := Call
  Answer := Call.Answer

abbrev perform (request : Call) : Prog Sys request.Answer :=
  Prog.perform (I := Sys) request

section Hooks

/-- `"hyos_app"`. -/
def hyosApp : CString :=
  "hyos_app".toList.map fun char => char.toNat.toUInt8

/-- The name of the thread, if the kernel gives one. -/
def fallbackName : Option CString → CString
  | some (byte :: rest) => byte :: rest
  | _ => hyosApp

/-- The first part of the delivery: the process name. -/
def processName : Prog Sys CString := do
  if (← perform .nameState) = .ready then
    return strlcpy (← perform .capturedName) 256
  return fallbackName (← perform .kernelName)

/-- The loop over the modules. There are at most `kMaxModules`. -/
def callModules (args : Args) : Nat → Nat → Prog Sys Unit
  | 0, _ => return ()
  | turns + 1, i => do
      if i < (← perform .moduleCount) then
        match ← perform (.moduleAt i) with
        | some m =>
            if m.onAppSpecialized ≠ 0 then
              perform (.callback i m.onAppSpecialized args)
              callModules args turns (i + 1)
            else
              callModules args turns (i + 1)
        | none => callModules args turns (i + 1)

def deliverAppSpecialized (pkgName seInfo : Option CString) : Prog Sys Unit := do
  if !(← perform .inChild) then
    return ()
  if (← perform .moduleCount) = 0 then
    return ()
  if !(← perform .fire) then
    return ()
  let name ← processName
  callModules ⟨name, strlcpy (pkgName.getD []) 256, strlcpy (seInfo.getD []) 64⟩ kMaxModules 0

/-- `setcontextHook`; its other branch only logs. -/
def setcontextHook (uid : UInt32) (isSystemServer : Int) (seInfo pkgName : Option CString) :
    Prog Sys Int := do
  let ret ← perform (.origSetcontext uid isSystemServer seInfo pkgName)
  if ret = 0 then
    deliverAppSpecialized pkgName seInfo
  return ret

/-- The name that a thread gives itself, unless it is empty. -/
def ownName (self thread : Thread) (name : Option CString) : Option CString :=
  match name with
  | some (byte :: rest) => if thread = self then some (byte :: rest) else none
  | _ => none

def captureName (self : Thread) (name : CString) : Prog Sys Unit := do
  if ← perform (.claimName self name) then
    perform (.writeName (strlcpy name 256))
    perform .nameReady

def setnameHook (self thread : Thread) (name : Option CString) : Prog Sys Int := do
  let ret ← perform (.origSetname self thread name)
  if ret ≠ 0 then
    return ret
  if !(← perform .inChild) then
    return ret
  if ← perform (.fired self) then
    return ret
  match ownName self thread name with
  | some own => do
      captureName self own
      return ret
  | none => return ret

/-- A call of one of the hooked functions. -/
inductive HookCall where
  | setcontext (uid : UInt32) (isSystemServer : Int) (seInfo pkgName : Option CString)
  | setname (thread : Thread) (name : Option CString)

def HookCall.program (self : Thread) : HookCall → Prog Sys Int
  | .setcontext uid isSystemServer seInfo pkgName =>
      setcontextHook uid isSystemServer seInfo pkgName
  | .setname thread name => setnameHook self thread name

end Hooks

/-- The arguments of a setcontext call that returned 0. -/
structure Context where
  pkgName : Option CString
  seInfo : Option CString
deriving DecidableEq, Repr

/-- What there is of names when a delivery fires: those that were set, and whether a call that has
set one is still under way. -/
structure Fire where
  own : List CString
  underway : Bool
deriving DecidableEq, Repr

/-- What a delivery sees of the names: those that were set, the one that is kept, and whether a
second one had been set when that was claimed. -/
structure Look where
  own : List CString
  kept : Option CString
  contested : Bool
deriving DecidableEq, Repr

/-- What has happened in one process. -/
structure Log where
  contexts : List Context := []
  /-- The calls of `pthread_setname_np` that returned 0: who called, for whom, with which name. -/
  sets : List (Thread × Thread × Option CString) := []
  /-- The threads that have set a name of their own and have not come to keep it yet. -/
  pending : List Thread := []
  /-- The names that threads have come to keep. Only the first is kept. -/
  names : List CString := []
  contested : Bool := false
  fire : Option Fire := none
  look : Option Look := none
  /-- The thread's name as the kernel gave it. -/
  kernel : Option CString := none
  /-- The callbacks: of which module, with what arguments. -/
  callbacks : List (Nat × Args) := []
deriving DecidableEq, Repr

namespace Log

/-- The names that threads have set for themselves. -/
def own (log : Log) : List CString :=
  log.sets.filterMap fun set => ownName set.1 set.2.1 set.2.2

def addContext (log : Log) (context : Context) : Log :=
  { log with contexts := log.contexts ++ [context] }

def addSet (log : Log) (self thread : Thread) (name : Option CString) : Log :=
  { log with
    sets := log.sets ++ [(self, thread, name)]
    pending := if (ownName self thread name).isSome then log.pending ++ [self] else log.pending }

def addName (log : Log) (self : Thread) (name : CString) : Log :=
  { log with pending := log.pending.erase self, names := log.names ++ [name] }

end Log

/-- One process: its state, and its threads' original functions, which may return anything. -/
def machine : Machine Sys (State × Log) where
  Step before request answer after :=
    let (s, log) := before
    match request, answer with
    | .origSetcontext _ _ seInfo pkgName, ret =>
        (s.origSetcontext = 0 → ret = (-1 : Int)) ∧
          after = (s, if ret = (0 : Int) then log.addContext ⟨pkgName, seInfo⟩ else log)
    | .origSetname self thread name, ret =>
        (s.origSetname = 0 → ret = (-1 : Int)) ∧
          after = (s, if ret = (0 : Int) then log.addSet self thread name else log)
    | .inChild, value => value = s.inChild ∧ after = before
    | .moduleCount, count => count = s.modules.length ∧ after = before
    | .moduleAt i, entry => entry = s.modules[i]? ∧ after = before
    | .fire, true =>
        s.fired = false ∧
          after = ({ s with fired := true },
            { log with
              fire := some ⟨log.own, log.pending ≠ [] || s.nameState = .writing⟩ })
    | .fire, false => s.fired = true ∧ after = before
    | .fired self, true =>
        s.fired = true ∧ after = (s, { log with pending := log.pending.erase self })
    | .fired _, false => s.fired = false ∧ after = before
    | .nameState, value =>
        value = s.nameState ∧
          after = (s,
            { log with
              look := some ⟨log.own, if s.nameState = .ready then log.names.head? else none,
                log.contested⟩ })
    | .capturedName, name => name = s.capturedName ∧ after = before
    | .kernelName, name => after = (s, { log with kernel := name })
    | .claimName self name, true =>
        s.nameState = .empty ∧
          after = ({ s with nameState := .writing },
            { log.addName self name with contested := log.own.length ≠ 1 })
    | .claimName self name, false => s.nameState ≠ .empty ∧ after = (s, log.addName self name)
    | .writeName name, _ => after = ({ s with capturedName := name }, log)
    | .nameReady, _ => after = ({ s with nameState := .ready }, log)
    | .callback i _ args, _ => after = (s, { log with callbacks := log.callbacks ++ [(i, args)] })

/-- A process: the calls that its threads are in, by thread and depth, with the state. A thread
that is in a callback may make another call. -/
structure Process where
  pool : Pool Sys (Thread × Nat) Int (State × Log)
  /-- Whether it was created by a fork after a registration. -/
  forked : Bool
  /-- Whether it was created by a fork inside of a callback. -/
  inside : Bool

namespace Process

variable (process : Process)

def state : State :=
  process.pool.shared.1

def log : Log :=
  process.pool.shared.2

/-- A call that is in a callback. -/
def IsCallback (program : Prog Sys Int) : Prop :=
  ∃ i function args next, program = .call (.callback i function args) next

def IsDone (program : Prog Sys Int) : Prop :=
  ∃ value, program = .pure value

/-- A thread is in nobody's code but its own: the calls below the depth are in a callback, the
others are done. -/
def InUser (thread : Thread) (depth : Nat) : Prop :=
  (∀ below < depth, IsCallback (process.pool.threads (thread, below))) ∧
    ∀ above ≥ depth, IsDone (process.pool.threads (thread, above))

/-- The calls above are done. -/
def IsInnermost (thread : Thread) (depth : Nat) : Prop :=
  ∀ above > depth, IsDone (process.pool.threads (thread, above))

/-- The state is written from outside of the hooks. -/
def withState (s : State) : Process :=
  { process with pool := { process.pool with shared := (s, process.log) } }

/-- A call is begun. -/
def begin (thread : Thread) (depth : Nat) (call : HookCall) : Process :=
  { process with
    pool := { process.pool with
      threads := Function.update process.pool.threads (thread, depth) (call.program thread) } }

/-- The child of a fork: the thread that forks is the only one. -/
def child (thread : Thread) (depth : Nat) (hooked handled : Bool) : Process where
  pool :=
    { threads := fun call =>
        if call.1 = thread then process.pool.threads call else .pure 0
      shared := (forkedChild hooked handled process.state, {}) }
  forked := decide (process.state.modules ≠ [])
  inside := decide (depth ≠ 0)

end Process

/-- What a thread does, in its own code or in a hook. -/
inductive Event where
  | register (depth : Nat) (entry : Option Module) (atfork : Bool) (found : Found)
  | begin (depth : Nat) (call : HookCall)
  | go (depth : Nat) (exchange : Exchange Sys)
  | fork (depth : Nat) (hooked handled succeeded : Bool) (found : Found)

/-- One event in a process: what becomes of it, and its child. A fork goes through the hook if that
is installed, runs the handlers, or does both; in a child one of them resets the state. -/
def Process.Step (process : Process) (thread : Thread) (event : Event) (after : Process)
    (children : List Process) : Prop :=
  match event with
  | .register depth entry atfork found =>
      process.InUser thread depth ∧
        after = process.withState (registerModule entry atfork found process.state).2 ∧
        children = []
  | .begin depth call =>
      process.InUser thread depth ∧ after = process.begin thread depth call ∧ children = []
  | .go depth exchange =>
      process.IsInnermost thread depth ∧ children = [] ∧ ∃ pool,
        Pool.Step machine process.pool ((thread, depth), exchange) pool ∧
          after = { process with pool := pool }
  | .fork depth hooked handled succeeded found =>
      process.InUser thread depth ∧ (hooked = true → process.state.origFork ≠ 0) ∧
        (process.state.inChild = true → 0 < resets hooked handled process.state) ∧
        after = process.withState (forkedParent hooked handled succeeded found process.state) ∧
        children = if succeeded then [process.child thread depth hooked handled] else []

/-- The process tree, in the order of creation. It begins with one process, in which nothing has
happened. -/
def tree : System (List Process) (Nat × Thread × Event) where
  Initial world := world = [⟨⟨fun _ => .pure 0, ({}, {})⟩, false, false⟩]
  Step world happens world' :=
    ∃ process after children, world[happens.1]? = some process ∧
      process.Step happens.2.1 happens.2.2 after children ∧
      world' = world.set happens.1 after ++ children

end Hyos

end Znn.Loader
