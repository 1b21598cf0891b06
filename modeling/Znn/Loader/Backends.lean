import Znn.Loader.Engines

/-!
# One backend for a process

The library of an engine is initialized by the first hook or unhook of the process; if that fails
the default engine takes its place. Any thread may be the first, and others may call in the
meantime. Whatever the order of their steps, all calls of the process end in one and the same
backend, and no library is initialized twice.
-/

namespace Znn.Loader

open Interaction

namespace Engines

/-- The libraries that are initialized before their engine can be used. -/
inductive Library where
  | shadowhook
  | fridaGum
  | bytehook
deriving DecidableEq, Repr

/-- `std::once_flag`, with the result that the initialization has left. -/
inductive Flag where
  | fresh
  | running
  | done (result : Bool)
deriving DecidableEq, Repr

/-- The steps of the calls: accesses to the variables, and calls of the libraries. -/
inductive Call where
  | inlineEngine
  | assignInline (engine : InlineHook.Engine)
  | pltEngine
  | assignPlt (engine : PltHook.PltEngine)
  /-- `std::call_once`: the result if there is one, none if it is for the caller to get one. -/
  | enter (library : Library)
  | init (library : Library)
  | leave (library : Library) (result : Bool)
  | locate (base : Nat) (symbol : String)
  | hook (engine : InlineHook.Engine) (target replacement : Nat)
  | unhook (engine : InlineHook.Engine) (target : Nat)
  | pltHook (engine : PltHook.PltEngine) (target : PltHook.Target) (replacement : Nat)

abbrev Call.Answer : Call → Type
  | .inlineEngine => InlineHook.Engine
  | .pltEngine => PltHook.PltEngine
  | .assignInline _ | .assignPlt _ | .leave _ _ => Unit
  | .enter _ => Option Bool
  | .init _ | .hook _ _ _ | .unhook _ _ => Bool
  | .locate _ _ => Option PltHook.Target
  | .pltHook _ _ _ => Option Nat

abbrev Sys : Interface where
  Call := Call
  Answer := Call.Answer

abbrev perform (request : Call) : Prog Sys request.Answer :=
  Prog.perform (I := Sys) request

/-- `std::call_once`, and the result it has left. -/
def callOnce (library : Library) (initialization : Prog Sys Bool) : Prog Sys Bool := do
  let some result ← perform (.enter library)
    | do
      let result ← initialization
      perform (.leave library result)
      return result
  return result

variable (abi : Abi)

def shadowhookInit : Prog Sys Bool :=
  if abi = .arm64 ∨ abi = .arm then
    callOnce .shadowhook (perform (.init .shadowhook))
  else
    return false

def fridaGumInit : Prog Sys Bool :=
  if abi = .riscv64 then
    return false
  else
    callOnce .fridaGum (perform (.init .fridaGum))

/-- The part of `bytehookInit` that runs once. -/
def bytehookFirst : Prog Sys Bool := do
  if abi = .arm64 ∨ abi = .arm then
    let _ ← shadowhookInit abi
  perform (.init .bytehook)

def bytehookInit : Prog Sys Bool :=
  if abi = .riscv64 then
    return false
  else
    callOnce .bytehook (bytehookFirst abi)

/-- The end of `ensureInlineEngineReady`. -/
def fallBackInline (ready : Bool) : Prog Sys Unit :=
  if ready then
    return ()
  else
    perform (.assignInline (defaultInlineEngine abi))

def ensureInlineEngineReady : Prog Sys Unit := do
  match ← perform .inlineEngine with
  | .shadowHook =>
      let ready ← shadowhookInit abi
      fallBackInline abi ready
  | .fridaGum =>
      let ready ← fridaGumInit abi
      fallBackInline abi ready
  | _ => return ()

def ensurePltEngineReady : Prog Sys Unit := do
  if (← perform .pltEngine) ≠ .byteHook then
    return ()
  if !(← bytehookInit abi) then
    perform (.assignPlt .lsplt)

/-- `dobbyHook` and its siblings; on another build they are stubs. -/
def backendHook (engine : InlineHook.Engine) (target replacement : Nat) : Prog Sys Bool := do
  if !inlineEngineSupported abi engine then
    return false
  match engine with
  | .shadowHook =>
      if !(← shadowhookInit abi) then
        return false
      perform (.hook .shadowHook target replacement)
  | .fridaGum =>
      if !(← fridaGumInit abi) then
        return false
      perform (.hook .fridaGum target replacement)
  | .disable => return false
  | engine => perform (.hook engine target replacement)

def backendUnhook (engine : InlineHook.Engine) (target : Nat) : Prog Sys Bool := do
  if !inlineEngineSupported abi engine then
    return false
  match engine with
  | .shadowHook =>
      if !(← shadowhookInit abi) then
        return false
      perform (.unhook .shadowHook target)
  | .fridaGum =>
      if !(← fridaGumInit abi) then
        return false
      perform (.unhook .fridaGum target)
  | .disable => return false
  | engine => perform (.unhook engine target)

def backendPltHook (engine : PltHook.PltEngine) (target : PltHook.Target) (replacement : Nat) :
    Prog Sys (Option Nat) := do
  if !pltEngineSupported abi engine then
    return none
  match engine with
  | .byteHook =>
      if !(← bytehookInit abi) then
        return none
      perform (.pltHook .byteHook target replacement)
  | .disable => return none
  | engine => perform (.pltHook engine target replacement)

/-- `hook::inlineHook`. -/
def inlineHook (target replacement : Nat) : Prog Sys Bool := do
  if target = 0 ∨ replacement = 0 then
    return false
  ensureInlineEngineReady abi
  let engine ← perform .inlineEngine
  backendHook abi engine target replacement

/-- `hook::inlineUnhook`. -/
def inlineUnhook (target : Nat) : Prog Sys Bool := do
  if target = 0 then
    return false
  ensureInlineEngineReady abi
  let engine ← perform .inlineEngine
  backendUnhook abi engine target

/-- `hook::pltHook`; the mapping of the library is looked up before the engine is. -/
def pltHook (base : Nat) (symbol : Option String) (replacement : Nat) : Prog Sys (Option Nat) := do
  let some symbol := symbol
    | return none
  if base = 0 ∨ replacement = 0 then
    return none
  ensurePltEngineReady abi
  let some target ← perform (.locate base symbol)
    | return none
  let engine ← perform .pltEngine
  backendPltHook abi engine target replacement

/-- The calls that the modules of a process make. -/
inductive ApiCall where
  | inlineHook (target replacement : Nat)
  | inlineUnhook (target : Nat)
  | pltHook (base : Nat) (symbol : Option String) (replacement : Nat)

abbrev ApiCall.Answer : ApiCall → Type
  | .inlineHook _ _ | .inlineUnhook _ => Bool
  | .pltHook _ _ _ => Option Nat

abbrev Api : Interface where
  Call := ApiCall
  Answer := ApiCall.Answer

def ApiCall.body : (request : ApiCall) → Prog Sys request.Answer
  | .inlineHook target replacement => Engines.inlineHook abi target replacement
  | .inlineUnhook target => Engines.inlineUnhook abi target
  | .pltHook base symbol replacement => Engines.pltHook abi base symbol replacement

/-- The variables of a process, the libraries that have been initialized in it and the backends
that its calls went to. -/
structure Process where
  globals : Globals
  flags : Library → Flag := fun _ => .fresh
  initialized : List Library := []
  inlineUsed : List InlineHook.Engine := []
  pltUsed : List PltHook.PltEngine := []

def Process.assignInline (process : Process) (engine : InlineHook.Engine) : Process :=
  { process with globals := { process.globals with inlineEngine := engine } }

def Process.assignPlt (process : Process) (engine : PltHook.PltEngine) : Process :=
  { process with globals := { process.globals with pltEngine := engine } }

def Process.useInline (process : Process) (engine : InlineHook.Engine) : Process :=
  { process with inlineUsed := engine :: process.inlineUsed }

def Process.usePlt (process : Process) (engine : PltHook.PltEngine) : Process :=
  { process with pltUsed := engine :: process.pltUsed }

/-- `std::call_once` has one caller run and the others wait for it; what a library or a backend
answers is its own affair. -/
def machine : Machine Sys Process where
  Step before request answer after :=
    match request, answer with
    | .inlineEngine, engine => engine = before.globals.inlineEngine ∧ after = before
    | .assignInline engine, _ => after = before.assignInline engine
    | .pltEngine, engine => engine = before.globals.pltEngine ∧ after = before
    | .assignPlt engine, _ => after = before.assignPlt engine
    | .enter library, none =>
        before.flags library = .fresh ∧
          after = { before with flags := Function.update before.flags library .running }
    | .enter library, some result => before.flags library = .done result ∧ after = before
    | .init library, _ => after = { before with initialized := library :: before.initialized }
    | .leave library result, _ =>
        after = { before with flags := Function.update before.flags library (.done result) }
    | .locate _ _, _ => after = before
    | .hook engine _ _, _ | .unhook engine _, _ => after = before.useInline engine
    | .pltHook engine _ _, _ => after = before.usePlt engine

/-- The library that has to be initialized for an engine. -/
def inlineLibrary : InlineHook.Engine → Option Library
  | .shadowHook => some .shadowhook
  | .fridaGum => some .fridaGum
  | _ => none

def pltLibrary : PltHook.PltEngine → Option Library
  | .byteHook => some .bytehook
  | _ => none

/-- The engines of one kind: the configured one, the one that takes its place, and where they are
found in a process. -/
structure Kind (ε : Type) where
  configured : ε
  fallback : ε
  library : ε → Option Library
  engine : Globals → ε
  used : Process → List ε

def inlineKind (globals : Globals) : Kind InlineHook.Engine where
  configured := globals.inlineEngine
  fallback := defaultInlineEngine abi
  library := inlineLibrary
  engine := Globals.inlineEngine
  used := Process.inlineUsed

def pltKind (globals : Globals) : Kind PltHook.PltEngine where
  configured := globals.pltEngine
  fallback := .lsplt
  library := pltLibrary
  engine := Globals.pltEngine
  used := Process.pltUsed

namespace Kind

variable {ε : Type} (kind : Kind ε) {before after process : Process}

/-- The engine that the process is bound to, as soon as it is. -/
def chosen (process : Process) : Option ε :=
  match kind.library kind.configured with
  | none => some kind.configured
  | some library =>
      match process.flags library with
      | .done true => some kind.configured
      | .done false => some kind.fallback
      | _ => none

/-- The engine of the process is the one it is bound to, or it still is the configured one; every
call went to the one that it is bound to. -/
structure Sound (process : Process) : Prop where
  engine : kind.engine process.globals = kind.configured ∨
    kind.chosen process = some (kind.engine process.globals)
  used : ∀ engine ∈ kind.used process, kind.chosen process = some engine

/-- The process uses an engine and goes on to do so. -/
structure Bound (process : Process) (engine : ε) : Prop where
  chosen : kind.chosen process = some engine
  engine : kind.engine process.globals = engine

/-- What a step may do to the engine of the process. -/
structure Kept (before after : Process) : Prop where
  chosen : ∀ engine, kind.chosen before = some engine → kind.chosen after = some engine
  engine : kind.engine after.globals = kind.engine before.globals ∨
    kind.chosen after = some (kind.engine after.globals)

variable {kind}

/-- No library that is done is initialized again. -/
def Settled (before after : Process) : Prop :=
  ∀ library result, before.flags library = .done result → after.flags library = .done result

theorem chosen_of_settled (settled : Settled before after) {engine : ε}
    (isChosen : kind.chosen before = some engine) : kind.chosen after = some engine := by
  unfold chosen at isChosen ⊢
  split at isChosen
  case h_1 => exact isChosen
  case h_2 library _ =>
    split at isChosen
    case h_1 isDone =>
      rw [settled library true isDone]
      exact isChosen
    case h_2 isDone =>
      rw [settled library false isDone]
      exact isChosen
    case h_3 => cases isChosen

theorem Kept.of_settled (settled : Settled before after)
    (same : kind.engine after.globals = kind.engine before.globals) : kind.Kept before after :=
  ⟨fun _ => chosen_of_settled settled, .inl same⟩

/-- The engine that a process is bound to stays. -/
theorem Bound.kept {engine : ε} (bound : kind.Bound before engine)
    (kept : kind.Kept before after) : kind.Bound after engine := by
  have isChosen := kept.chosen engine bound.chosen
  refine ⟨isChosen, ?_⟩
  rcases kept.engine with same | also
  · rw [same, bound.engine]
  · exact Option.some.inj (also.symm.trans isChosen)

theorem Kept.of_bound {engine : ε} (settled : Settled before after)
    (bound : kind.Bound after engine) : kind.Kept before after := by
  refine ⟨fun _ => chosen_of_settled settled, .inr ?_⟩
  rw [bound.chosen, bound.engine]

theorem Sound.kept (sound : kind.Sound before) (kept : kind.Kept before after)
    (used : ∀ engine ∈ kind.used after,
      engine ∈ kind.used before ∨ kind.chosen after = some engine) : kind.Sound after where
  engine := by
    rcases kept.engine with same | isChosen
    · rw [same]
      exact sound.engine.imp_right (kept.chosen _)
    · exact .inr isChosen
  used := by
    intro engine present
    rcases used engine present with earlier | isChosen
    · exact kept.chosen _ (sound.used engine earlier)
    · exact isChosen

theorem chosen_of_done (kind : Kind ε) {library : Library} {result : Bool}
    (isLibrary : kind.library kind.configured = some library)
    (isDone : process.flags library = .done result) :
    kind.chosen process = some (if result then kind.configured else kind.fallback) := by
  rw [chosen, isLibrary]
  dsimp only
  rw [isDone]
  cases result <;> rfl

/-- A process whose library was initialized is bound to the configured engine. -/
theorem Sound.bound_of_done {library : Library} (sound : kind.Sound process)
    (isLibrary : kind.library kind.configured = some library)
    (isDone : process.flags library = .done true) : kind.Bound process kind.configured := by
  have isChosen := chosen_of_done kind isLibrary isDone
  refine ⟨isChosen, ?_⟩
  rcases sound.engine with same | also
  · exact same
  · exact Option.some.inj (also.symm.trans isChosen)

/-- A process is bound to an engine that needs no library. -/
theorem Sound.bound_of_none (sound : kind.Sound process)
    (none : kind.library (kind.engine process.globals) = none) :
    kind.Bound process (kind.engine process.globals) := by
  refine ⟨?_, rfl⟩
  rcases sound.engine with same | isChosen
  · rw [same] at none ⊢
    rw [chosen, none]
  · exact isChosen

/-- An engine that is not the configured one is the one that took its place. -/
theorem Sound.engine_eq (sound : kind.Sound process) :
    kind.engine process.globals = kind.configured ∨
      kind.engine process.globals = kind.fallback := by
  rcases sound.engine with same | isChosen
  · exact .inl same
  · unfold chosen at isChosen
    split at isChosen
    · exact .inl (Option.some.inj isChosen).symm
    · split at isChosen
      · exact .inl (Option.some.inj isChosen).symm
      · exact .inr (Option.some.inj isChosen).symm
      · cases isChosen

end Kind

/-- What a thread knows of a library. -/
inductive Knowledge where
  | nothing
  /-- It is for this thread to initialize it. -/
  | entered
  | inside
  | done (result : Bool)
deriving DecidableEq

structure Token where
  library : Library → Knowledge := fun _ => .nothing
  /-- The engine that the process is bound to. -/
  inline : Option InlineHook.Engine := none
  plt : Option PltHook.PltEngine := none

namespace Token

/-- The thread is in the initialization of a library. -/
def Holds (token : Token) (library : Library) : Prop :=
  token.library library = .entered ∨ token.library library = .inside

def Free (token : Token) : Prop :=
  ∀ library, ¬token.Holds library

def Apart (token other : Token) : Prop :=
  ∀ library, token.Holds library → ¬other.Holds library

def learn (token : Token) (library : Library) (knowledge : Knowledge) : Token :=
  { token with library := Function.update token.library library knowledge }

variable {token : Token} {library other : Library} {knowledge : Knowledge}

theorem library_learn_self : (token.learn library knowledge).library library = knowledge :=
  Function.update_self ..

theorem library_learn_of_ne (apart : other ≠ library) :
    (token.learn library knowledge).library other = token.library other :=
  Function.update_of_ne apart ..

theorem holds_learn_of_ne (apart : other ≠ library) :
    (token.learn library knowledge).Holds other ↔ token.Holds other := by
  rw [Holds, Holds, library_learn_of_ne apart]

theorem holds_learn_done {result : Bool} :
    (token.learn library (.done result)).Holds other ↔ other ≠ library ∧ token.Holds other := by
  by_cases same : other = library
  · subst same
    simp [Holds, library_learn_self]
  · simp [holds_learn_of_ne same, same]

end Token

section Invariant

variable (globals : Globals)

/-- What holds of the process whatever its threads do. -/
structure Common (process : Process) : Prop where
  inline : (inlineKind abi globals).Sound process
  plt : (pltKind globals).Sound process
  nodup : process.initialized.Nodup
  fresh : ∀ library, process.flags library = .fresh → library ∉ process.initialized

/-- What a thread knows is so. -/
structure Known (token : Token) (process : Process) : Prop where
  entered : ∀ library, token.library library = .entered → library ∉ process.initialized
  holds : ∀ library, token.Holds library → process.flags library = .running
  done : ∀ library result, token.library library = .done result →
    process.flags library = .done result
  inline : ∀ engine, token.inline = some engine → (inlineKind abi globals).Bound process engine
  plt : ∀ engine, token.plt = some engine → (pltKind globals).Bound process engine

/-- What a step of the thread that holds the token may do to the others. -/
structure Quiet (token : Token) (before after : Process) : Prop where
  settled : Kind.Settled before after
  running : ∀ library, ¬token.Holds library → before.flags library = .running →
    after.flags library = .running
  initialized : ∀ library, ¬token.Holds library → library ∈ after.initialized →
    library ∈ before.initialized
  inline : (inlineKind abi globals).Kept before after
  plt : (pltKind globals).Kept before after

variable {abi globals} {token other : Token} {before after process : Process} {ι : Type}
  [DecidableEq ι] {α : Type}

theorem Quiet.refl : Quiet abi globals token process process where
  settled := fun _ _ isDone => isDone
  running := fun _ _ isRunning => isRunning
  initialized := fun _ _ present => present
  inline := .of_settled (fun _ _ isDone => isDone) rfl
  plt := .of_settled (fun _ _ isDone => isDone) rfl

theorem Known.quiet (known : Known abi globals other before)
    (quiet : Quiet abi globals token before after) (apart : token.Apart other) :
    Known abi globals other after where
  entered := by
    intro library isEntered present
    have free : ¬token.Holds library := fun holds => apart library holds (.inl isEntered)
    exact known.entered library isEntered (quiet.initialized library free present)
  holds := by
    intro library holds
    have free : ¬token.Holds library := fun also => apart library also holds
    exact quiet.running library free (known.holds library holds)
  done := fun library result isDone => quiet.settled _ _ (known.done library result isDone)
  inline := fun engine isBound => (known.inline engine isBound).kept quiet.inline
  plt := fun engine isBound => (known.plt engine isBound).kept quiet.plt

/-- The programs of the threads keep what is known of the process. -/
abbrev Keeps (abi : Abi) (globals : Globals) (ι : Type) [DecidableEq ι] (final : Token → α → Prop)
    (token : Token) (program : Prog Sys α) : Prop :=
  program.Keeps machine (Joint (ι := ι) (Common abi globals) (Known abi globals) Token.Apart)
    final token

variable {final : Token → α → Prop}

/-- A step that is quiet, and takes no library that another thread has. -/
theorem keeps_call {request : Call} {next : request.Answer → Prog Sys α}
    (step : ∀ before answer after, Common abi globals before → Known abi globals token before →
      machine.Step before request answer after → ∃ token', Common abi globals after ∧
        Known abi globals token' after ∧ Quiet abi globals token before after ∧
        (∀ library, token'.Holds library →
          token.Holds library ∨ before.flags library = .fresh) ∧
        Keeps abi globals ι final token' (next answer)) :
    Keeps abi globals ι final token (.call request next) := by
  apply Prog.Keeps.call_joint
  · exact fun one other apart library holds also => apart library also holds
  · intro before answer after common known moved
    rcases step before answer after common known moved with
      ⟨token', common', known', quiet, holds, keeps⟩
    refine ⟨token', common', known', fun other apart known => ⟨?_, known.quiet quiet apart⟩, keeps⟩
    intro library mine theirs
    rcases holds library mine with held | isFresh
    · exact apart library held theirs
    · have isRunning := known.holds library theirs
      rw [isFresh] at isRunning
      cases isRunning

/-- A step that changes nothing may teach the thread something. -/
theorem keeps_still {request : Call} {next : request.Answer → Prog Sys α}
    (still : ∀ before answer after, machine.Step before request answer after → after = before)
    (step : ∀ process answer, Common abi globals process → Known abi globals token process →
      machine.Step process request answer process → ∃ token', Known abi globals token' process ∧
        (∀ library, token'.Holds library → token.Holds library) ∧
        Keeps abi globals ι final token' (next answer)) :
    Keeps abi globals ι final token (.call request next) := by
  apply keeps_call
  intro before answer after common known moved
  have same := still before answer after moved
  subst after
  rcases step before answer common known moved with ⟨token', known', holds, keeps⟩
  exact ⟨token', common, known', .refl, fun library held => .inl (holds library held), keeps⟩

/-- The steps on the libraries leave the engines as they are. -/
theorem Common.settled (common : Common abi globals before) (settled : Kind.Settled before after)
    (sameGlobals : after.globals = before.globals) (sameInline : after.inlineUsed = before.inlineUsed)
    (samePlt : after.pltUsed = before.pltUsed) (nodup : after.initialized.Nodup)
    (fresh : ∀ library, after.flags library = .fresh → library ∉ after.initialized) :
    Common abi globals after where
  inline := by
    apply common.inline.kept (.of_settled settled (congrArg Globals.inlineEngine sameGlobals))
    intro engine present
    left
    change engine ∈ before.inlineUsed
    rwa [← sameInline]
  plt := by
    apply common.plt.kept (.of_settled settled (congrArg Globals.pltEngine sameGlobals))
    intro engine present
    left
    change engine ∈ before.pltUsed
    rwa [← samePlt]
  nodup := nodup
  fresh := fresh

theorem Quiet.of_settled (settled : Kind.Settled before after)
    (sameGlobals : after.globals = before.globals)
    (running : ∀ library, ¬token.Holds library → before.flags library = .running →
      after.flags library = .running)
    (initialized : ∀ library, ¬token.Holds library → library ∈ after.initialized →
      library ∈ before.initialized) : Quiet abi globals token before after where
  settled := settled
  running := running
  initialized := initialized
  inline := .of_settled settled (congrArg Globals.inlineEngine sameGlobals)
  plt := .of_settled settled (congrArg Globals.pltEngine sameGlobals)

/-- The flag of a library changes that is not done. -/
theorem settled_update {library : Library} (flag : Flag)
    (undone : ∀ result, before.flags library ≠ .done result) :
    Kind.Settled before
      { before with flags := Function.update before.flags library flag } := by
  intro other result isDone
  have apart : other ≠ library := by
    rintro rfl
    exact undone result isDone
  dsimp only
  rwa [Function.update_of_ne apart]

/-- What a thread learns of a library when nothing else of what it knows changes. -/
theorem Known.learn {library : Library} {knowledge : Knowledge}
    (known : Known abi globals token before) (settled : Kind.Settled before after)
    (sameGlobals : after.globals = before.globals)
    (sameFlags : ∀ other, other ≠ library → after.flags other = before.flags other)
    (sameInitialized : ∀ other, other ≠ library → other ∈ after.initialized →
      other ∈ before.initialized)
    (entered : knowledge = .entered → library ∉ after.initialized)
    (holds : knowledge = .entered ∨ knowledge = .inside → after.flags library = .running)
    (done : ∀ result, knowledge = .done result → after.flags library = .done result) :
    Known abi globals (token.learn library knowledge) after where
  entered := by
    intro other isEntered
    by_cases same : other = library
    · subst same
      rw [Token.library_learn_self] at isEntered
      exact entered isEntered
    · rw [Token.library_learn_of_ne same] at isEntered
      exact fun present => known.entered other isEntered (sameInitialized other same present)
  holds := by
    intro other isHeld
    by_cases same : other = library
    · subst same
      rw [Token.Holds, Token.library_learn_self] at isHeld
      exact holds isHeld
    · rw [Token.holds_learn_of_ne same] at isHeld
      rw [sameFlags other same]
      exact known.holds other isHeld
  done := by
    intro other result isDone
    by_cases same : other = library
    · subst same
      rw [Token.library_learn_self] at isDone
      exact done result isDone
    · rw [Token.library_learn_of_ne same] at isDone
      exact settled other result (known.done other result isDone)
  inline := fun engine isBound => (known.inline engine isBound).kept
    (.of_settled settled (congrArg Globals.inlineEngine sameGlobals))
  plt := fun engine isBound => (known.plt engine isBound).kept
    (.of_settled settled (congrArg Globals.pltEngine sameGlobals))

/-- The flag alone changes. -/
theorem Known.learn_flag {library : Library} {knowledge : Knowledge} {flag : Flag}
    (known : Known abi globals token before)
    (undone : ∀ result, before.flags library ≠ .done result)
    (entered : knowledge = .entered → library ∉ before.initialized)
    (holds : knowledge = .entered ∨ knowledge = .inside → flag = .running)
    (done : ∀ result, knowledge = .done result → flag = .done result) :
    Known abi globals (token.learn library knowledge)
      { before with flags := Function.update before.flags library flag } := by
  apply known.learn (settled_update flag undone) rfl
  · exact fun other apart => Function.update_of_ne apart ..
  · exact fun _ _ present => present
  · exact entered
  · intro isHeld
    dsimp only
    rw [Function.update_self]
    exact holds isHeld
  · intro result isDone
    dsimp only
    rw [Function.update_self]
    exact done result isDone

/-- The flag alone changes, and it was not the end of an initialization. -/
theorem Common.flag {library : Library} {flag : Flag} (common : Common abi globals before)
    (undone : ∀ result, before.flags library ≠ .done result) (stale : flag ≠ .fresh) :
    Common abi globals { before with flags := Function.update before.flags library flag } := by
  apply common.settled (settled_update flag undone) rfl rfl rfl common.nodup
  intro other isFresh
  dsimp only at isFresh ⊢
  by_cases same : other = library
  · rw [same, Function.update_self] at isFresh
    exact absurd isFresh stale
  · rw [Function.update_of_ne same] at isFresh
    exact common.fresh other isFresh

theorem Quiet.flag {library : Library} {flag : Flag}
    (undone : ∀ result, before.flags library ≠ .done result)
    (mine : token.Holds library ∨ before.flags library ≠ .running) :
    Quiet abi globals token before
      { before with flags := Function.update before.flags library flag } := by
  apply Quiet.of_settled (settled_update flag undone) rfl
  · intro other free isRunning
    have apart : other ≠ library := by
      rintro rfl
      exact mine.elim free fun idle => idle isRunning
    dsimp only
    rwa [Function.update_of_ne apart]
  · exact fun _ _ present => present

/-- What a thread knows of the other libraries, it still knows when it comes out of one. -/
structure Token.Beside (library : Library) (token token' : Token) : Prop where
  holds : ∀ other, other ≠ library → (token'.Holds other ↔ token.Holds other)
  held : ∀ other, other ≠ library → token.Holds other → token'.library other = token.library other
  inline : token'.inline = token.inline
  plt : token'.plt = token.plt

theorem Token.Beside.learn {library : Library} {knowledge : Knowledge} {token' : Token}
    (beside : Beside library token token') :
    Beside library token (token'.learn library knowledge) where
  holds := by
    intro other apart
    rw [holds_learn_of_ne apart]
    exact beside.holds other apart
  held := by
    intro other apart
    rw [library_learn_of_ne apart]
    exact beside.held other apart
  inline := beside.inline
  plt := beside.plt

theorem Token.Beside.of_learn {library : Library} {knowledge : Knowledge} {token' : Token}
    (beside : Beside library (token.learn library knowledge) token') :
    Beside library token token' where
  holds := by
    intro other apart
    have came := beside.holds other apart
    rwa [holds_learn_of_ne apart] at came
  held := by
    intro other apart
    have came := beside.held other apart
    rwa [holds_learn_of_ne apart, library_learn_of_ne apart] at came
  inline := beside.inline
  plt := beside.plt

theorem Token.Beside.refl {library : Library} : Beside library token token :=
  ⟨fun _ _ => .rfl, fun _ _ _ => rfl, rfl, rfl⟩

/-- The thread that has initialized a library leaves it. -/
theorem keeps_leave {library : Library} {result : Bool} (isInside : token.library library = .inside) :
    Keeps abi globals ι (fun token' value => value = result ∧
        token' = token.learn library (.done result)) token
      ((perform (.leave library result)).bind fun _ => .pure result) := by
  apply keeps_call
  rintro before _ after common known rfl
  have isRunning : before.flags library = .running := known.holds library (.inr isInside)
  have undone : ∀ result, before.flags library ≠ .done result := by
    simp [isRunning]
  refine ⟨token.learn library (.done result), common.flag undone nofun, ?_,
    .flag undone (.inl (.inr isInside)), ?_, rfl, rfl⟩
  · apply known.learn_flag undone
    · exact nofun
    · rintro (isEntered | isInside)
      · cases isEntered
      · cases isInside
    · rintro _ ⟨⟩
      rfl
  · intro other holds
    exact .inl (Token.holds_learn_done.mp holds).2

/-- The thread initializes a library that it has entered. -/
theorem keeps_init {library : Library} (isEntered : token.library library = .entered) :
    Keeps abi globals ι (fun token' _ => token' = token.learn library .inside) token
      (perform (.init library)) := by
  apply keeps_call
  rintro before _ after common known rfl
  have holds : token.Holds library := .inl isEntered
  have isRunning : before.flags library = .running := known.holds library holds
  have absent : library ∉ before.initialized := known.entered library isEntered
  have settled : Kind.Settled before
      { before with initialized := library :: before.initialized } :=
    fun _ _ isDone => isDone
  refine ⟨token.learn library .inside, ?_, ?_, ?_, ?_, rfl⟩
  · apply common.settled settled rfl rfl rfl (List.nodup_cons.mpr ⟨absent, common.nodup⟩)
    intro other isFresh present
    rcases List.mem_cons.mp present with rfl | earlier
    · rw [isRunning] at isFresh
      cases isFresh
    · exact common.fresh other isFresh earlier
  · apply known.learn settled rfl fun _ _ => rfl
    · intro other apart present
      exact (List.mem_cons.mp present).resolve_left apart
    · exact nofun
    · exact fun _ => isRunning
    · exact nofun
  · apply Quiet.of_settled settled rfl
    · exact fun _ _ isRunning => isRunning
    · intro other free present
      rcases List.mem_cons.mp present with rfl | earlier
      · exact absurd holds free
      · exact earlier
  · intro other isHeld
    left
    by_cases same : other = library
    · rw [same]
      exact holds
    · exact (Token.holds_learn_of_ne same).mp isHeld

/-- The thread comes out of a library with its result, whoever initialized it. -/
theorem keeps_callOnce {library : Library} {initialization : Prog Sys Bool}
    (initializes : Keeps abi globals ι (fun token' _ => token'.library library = .inside ∧
      Token.Beside library (token.learn library .entered) token') (token.learn library .entered)
      initialization) :
    Keeps abi globals ι (fun token' result => token'.library library = .done result ∧
      Token.Beside library token token') token (callOnce library initialization) := by
  apply keeps_call
  rintro before (_ | result) after common known step
  · rcases step with ⟨isFresh, rfl⟩
    have undone : ∀ result, before.flags library ≠ .done result := by
      simp [isFresh]
    refine ⟨token.learn library .entered, common.flag undone nofun, ?_, .flag undone ?_, ?_, ?_⟩
    · exact known.learn_flag undone (fun _ => common.fresh library isFresh) (fun _ => rfl) nofun
    · right
      rw [isFresh]
      exact nofun
    · intro other isHeld
      by_cases same : other = library
      · rw [same]
        exact .inr isFresh
      · exact .inl ((Token.holds_learn_of_ne same).mp isHeld)
    · apply Prog.Keeps.bind initializes
      rintro inside result ⟨isInside, beside⟩
      apply Prog.Keeps.mono (keeps_leave isInside)
      rintro _ _ ⟨rfl, rfl⟩
      exact ⟨Token.library_learn_self, beside.of_learn.learn⟩
  · rcases step with ⟨isDone, rfl⟩
    refine ⟨token.learn library (.done result), common, ?_, .refl, ?_, Token.library_learn_self,
      Token.Beside.refl.learn⟩
    · apply known.learn (fun _ _ isDone => isDone) rfl (fun _ _ => rfl) (fun _ _ present => present)
      · exact nofun
      · rintro (isEntered | isInside)
        · cases isEntered
        · cases isInside
      · rintro _ ⟨⟩
        exact isDone
    · exact fun other isHeld => .inl (Token.holds_learn_done.mp isHeld).2

/-- What is known after an initialization that this build may not have. -/
def Token.After (library : Library) (token token' : Token) : Prop :=
  ¬token'.Holds library ∧ Beside library token token'

theorem Token.After.free {library : Library} {token' : Token} (came : After library token token')
    (free : token.Free) : token'.Free := by
  intro other holds
  by_cases same : other = library
  · exact came.1 (same ▸ holds)
  · exact free other ((came.2.holds other same).mp holds)

theorem keeps_shadowhookInit (free : ¬token.Holds .shadowhook) :
    Keeps abi globals ι (fun token' result => Token.After .shadowhook token token' ∧
      (abi = .arm64 ∨ abi = .arm → token'.library .shadowhook = .done result)) token
      (shadowhookInit abi) := by
  unfold shadowhookInit
  split
  case isTrue =>
    apply Prog.Keeps.mono (keeps_callOnce ?_)
    · rintro token' result ⟨isDone, beside⟩
      refine ⟨⟨?_, beside⟩, fun _ => isDone⟩
      simp [Token.Holds, isDone]
    · apply Prog.Keeps.mono (keeps_init Token.library_learn_self)
      rintro _ _ rfl
      exact ⟨Token.library_learn_self, Token.Beside.refl.learn⟩
  case isFalse other => exact ⟨⟨free, .refl⟩, fun isArm => absurd isArm other⟩

theorem keeps_fridaGumInit (free : ¬token.Holds .fridaGum) :
    Keeps abi globals ι (fun token' result => Token.After .fridaGum token token' ∧
      (abi ≠ .riscv64 → token'.library .fridaGum = .done result)) token
      (fridaGumInit abi) := by
  unfold fridaGumInit
  split
  case isTrue isRiscv => exact ⟨⟨free, .refl⟩, fun other => absurd isRiscv other⟩
  case isFalse =>
    apply Prog.Keeps.mono (keeps_callOnce ?_)
    · rintro token' result ⟨isDone, beside⟩
      refine ⟨⟨?_, beside⟩, fun _ => isDone⟩
      simp [Token.Holds, isDone]
    · apply Prog.Keeps.mono (keeps_init Token.library_learn_self)
      rintro _ _ rfl
      exact ⟨Token.library_learn_self, Token.Beside.refl.learn⟩

theorem keeps_bytehookFirst (free : ¬token.Holds .shadowhook)
    (isEntered : token.library .bytehook = .entered) :
    Keeps abi globals ι (fun token' _ => token'.library .bytehook = .inside ∧
      Token.Beside .bytehook token token') token (bytehookFirst abi) := by
  have finish : ∀ token' : Token, token'.library .bytehook = .entered →
      Token.Beside .bytehook token token' →
      Keeps abi globals ι (fun token' _ => token'.library .bytehook = .inside ∧
        Token.Beside .bytehook token token') token' (perform (.init .bytehook)) := by
    intro token' isEntered beside
    apply Prog.Keeps.mono (keeps_init isEntered)
    rintro _ _ rfl
    exact ⟨Token.library_learn_self, beside.learn⟩
  unfold bytehookFirst
  split
  case isTrue =>
    apply Prog.Keeps.bind (keeps_shadowhookInit free)
    rintro token' _ ⟨came, _⟩
    have still : token'.library .bytehook = .entered := by
      rw [came.2.held .bytehook nofun (.inl isEntered), isEntered]
    refine finish token' still ⟨fun other apart => ?_, fun other apart holds => ?_, came.2.inline,
      came.2.plt⟩
    · by_cases same : other = .shadowhook
      · subst same
        exact ⟨fun holds => absurd holds came.1, fun holds => absurd holds free⟩
      · exact came.2.holds other same
    · have same : other ≠ .shadowhook := by
        rintro rfl
        exact free holds
      exact came.2.held other same holds
  case isFalse => exact finish token isEntered .refl

theorem keeps_bytehookInit (free : token.Free) :
    Keeps abi globals ι (fun token' result => Token.After .bytehook token token' ∧
      (abi ≠ .riscv64 → token'.library .bytehook = .done result)) token (bytehookInit abi) := by
  unfold bytehookInit
  split
  case isTrue isRiscv => exact ⟨⟨free _, .refl⟩, fun other => absurd isRiscv other⟩
  case isFalse =>
    apply Prog.Keeps.mono (keeps_callOnce (keeps_bytehookFirst ?_ Token.library_learn_self))
    · rintro token' result ⟨isDone, beside⟩
      refine ⟨⟨?_, beside⟩, fun _ => isDone⟩
      simp [Token.Holds, isDone]
    · have apart : Library.shadowhook ≠ .bytehook := nofun
      rw [Token.holds_learn_of_ne apart]
      exact free _

/-- With what the thread knows, the process is bound to the engine. -/
def Ready {ε : Type} (abi : Abi) (globals : Globals) (kind : Kind ε) (token : Token) (engine : ε) :
    Prop :=
  ∀ process, Common abi globals process → Known abi globals token process → kind.Bound process engine

/-- The thread that knows that the library failed has the default take the engine's place. -/
theorem keeps_fallBackInline {library : Library} {ready : Bool} (free : token.Free)
    (isLibrary : inlineLibrary globals.inlineEngine = some library)
    (isDone : token.library library = .done ready) :
    Keeps abi globals ι (fun token' _ => token'.Free ∧
      ∃ engine, Ready abi globals (inlineKind abi globals) token' engine) token
      (fallBackInline abi ready) := by
  cases ready with
  | true =>
      refine ⟨free, globals.inlineEngine, fun process common known => ?_⟩
      exact common.inline.bound_of_done isLibrary (known.done library true isDone)
  | false =>
      apply keeps_call
      rintro before _ after common known rfl
      have settled : Kind.Settled before (before.assignInline (defaultInlineEngine abi)) :=
        fun _ _ isDone => isDone
      have bound : (inlineKind abi globals).Bound (before.assignInline (defaultInlineEngine abi))
          (defaultInlineEngine abi) :=
        ⟨Kind.chosen_of_done _ isLibrary (known.done library false isDone), rfl⟩
      have inline := Kind.Kept.of_bound settled bound
      have plt : (pltKind globals).Kept before (before.assignInline (defaultInlineEngine abi)) :=
        .of_settled settled rfl
      refine ⟨{ token with inline := some (defaultInlineEngine abi) }, ?_, ?_, ?_, ?_, free,
        defaultInlineEngine abi, fun process _ known => known.inline _ rfl⟩
      · exact ⟨common.inline.kept inline fun _ present => .inl present,
          common.plt.kept plt fun _ present => .inl present, common.nodup, common.fresh⟩
      · refine ⟨known.entered, known.holds, known.done, ?_, ?_⟩
        · rintro _ ⟨⟩
          exact bound
        · exact fun engine isBound => (known.plt engine isBound).kept plt
      · exact ⟨settled, fun _ _ isRunning => isRunning, fun _ _ present => present, inline, plt⟩
      · exact fun _ holds => .inl holds

theorem inlineLibrary_default (abi : Abi) : inlineLibrary (defaultInlineEngine abi) = none := by
  cases abi <;> rfl

/-- A thread that sees an engine with a library sees the configured one. -/
theorem Common.configured {library : Library} (common : Common abi globals process)
    (isLibrary : inlineLibrary process.globals.inlineEngine = some library) :
    process.globals.inlineEngine = globals.inlineEngine := by
  rcases common.inline.engine_eq with same | fellBack
  · exact same
  · have isDefault : process.globals.inlineEngine = defaultInlineEngine abi := fellBack
    rw [isDefault, inlineLibrary_default] at isLibrary
    cases isLibrary

/-- A thread that sees an engine without a library knows what the process is bound to. -/
theorem Known.bound (known : Known abi globals token process) (common : Common abi globals process)
    (none : inlineLibrary process.globals.inlineEngine = none) :
    Known abi globals { token with inline := some process.globals.inlineEngine } process where
  entered := known.entered
  holds := known.holds
  done := known.done
  inline := by
    rintro _ ⟨⟩
    exact common.inline.bound_of_none none
  plt := known.plt

theorem keeps_ensureInlineEngineReady (free : token.Free)
    (supported : inlineEngineSupported abi globals.inlineEngine = true) :
    Keeps abi globals ι (fun token' _ => token'.Free ∧
      ∃ engine, Ready abi globals (inlineKind abi globals) token' engine) token
      (ensureInlineEngineReady abi) := by
  apply keeps_still
  · rintro before answer after ⟨_, rfl⟩
    rfl
  · rintro process engine common known ⟨isEngine, _⟩
    have bound (none : inlineLibrary engine = none) : ∃ token' : Token,
        Known abi globals token' process ∧ (∀ library, token'.Holds library → token.Holds library) ∧
        token'.Free ∧ ∃ engine, Ready abi globals (inlineKind abi globals) token' engine := by
      rw [isEngine] at none
      exact ⟨_, known.bound common none, fun _ holds => holds, free, _,
        fun _ _ known => known.inline _ rfl⟩
    have configured {library : Library} (isLibrary : inlineLibrary engine = some library) :
        globals.inlineEngine = engine := by
      rw [isEngine] at isLibrary ⊢
      exact (common.configured isLibrary).symm
    cases engine
    case shadowHook =>
      have isShadowhook := configured rfl
      have isArm : abi = .arm64 ∨ abi = .arm := by
        rw [isShadowhook] at supported
        simpa [inlineEngineSupported] using supported
      refine ⟨token, known, fun _ holds => holds, ?_⟩
      apply Prog.Keeps.bind (keeps_shadowhookInit (free _))
      rintro token' ready ⟨came, isDone⟩
      have isLibrary : inlineLibrary globals.inlineEngine = some .shadowhook := by
        rw [isShadowhook]
        rfl
      exact keeps_fallBackInline (came.free free) isLibrary (isDone isArm)
    case fridaGum =>
      have isFridaGum := configured rfl
      have notRiscv : abi ≠ .riscv64 := by
        rw [isFridaGum] at supported
        simpa [inlineEngineSupported] using supported
      refine ⟨token, known, fun _ holds => holds, ?_⟩
      apply Prog.Keeps.bind (keeps_fridaGumInit (free _))
      rintro token' ready ⟨came, isDone⟩
      have isLibrary : inlineLibrary globals.inlineEngine = some .fridaGum := by
        rw [isFridaGum]
        rfl
      exact keeps_fallBackInline (came.free free) isLibrary (isDone notRiscv)
    all_goals exact bound rfl

/-- The thread that knows that `bytehook` failed has the default take its place. -/
theorem keeps_fallBackPlt (free : token.Free) (isLibrary : pltLibrary globals.pltEngine = some .bytehook)
    (isDone : token.library .bytehook = .done false) :
    Keeps abi globals ι (fun token' _ => token'.Free ∧
      ∃ engine, Ready abi globals (pltKind globals) token' engine) token
      (perform (.assignPlt .lsplt)) := by
  apply keeps_call
  rintro before _ after common known rfl
  have settled : Kind.Settled before (before.assignPlt .lsplt) :=
    fun _ _ isDone => isDone
  have bound : (pltKind globals).Bound (before.assignPlt .lsplt) .lsplt :=
    ⟨Kind.chosen_of_done _ isLibrary (known.done .bytehook false isDone), rfl⟩
  have plt := Kind.Kept.of_bound settled bound
  have inline : (inlineKind abi globals).Kept before (before.assignPlt .lsplt) :=
    .of_settled settled rfl
  refine ⟨{ token with plt := some .lsplt }, ?_, ?_, ?_, ?_, free, .lsplt,
    fun process _ known => known.plt _ rfl⟩
  · exact ⟨common.inline.kept inline fun _ present => .inl present,
      common.plt.kept plt fun _ present => .inl present, common.nodup, common.fresh⟩
  · refine ⟨known.entered, known.holds, known.done, ?_, ?_⟩
    · exact fun engine isBound => (known.inline engine isBound).kept inline
    · rintro _ ⟨⟩
      exact bound
  · exact ⟨settled, fun _ _ isRunning => isRunning, fun _ _ present => present, inline, plt⟩
  · exact fun _ holds => .inl holds

theorem keeps_ensurePltEngineReady (free : token.Free)
    (supported : pltEngineSupported abi globals.pltEngine = true) :
    Keeps abi globals ι (fun token' _ => token'.Free ∧
      ∃ engine, Ready abi globals (pltKind globals) token' engine) token
      (ensurePltEngineReady abi) := by
  apply keeps_still
  · rintro before answer after ⟨_, rfl⟩
    rfl
  · rintro process engine common known ⟨isEngine, _⟩
    by_cases isByteHook : engine = .byteHook
    · have configured : globals.pltEngine = .byteHook := by
        rcases common.plt.engine_eq with same | fellBack
        · rw [← isByteHook, isEngine]
          exact same.symm
        · have isDefault : process.globals.pltEngine = .lsplt := fellBack
          rw [← isEngine, isByteHook] at isDefault
          cases isDefault
      have isLibrary : pltLibrary globals.pltEngine = some .bytehook := by
        rw [configured]
        rfl
      have notRiscv : abi ≠ .riscv64 := by
        rw [configured] at supported
        simpa [pltEngineSupported] using supported
      refine ⟨token, known, fun _ holds => holds, ?_⟩
      rw [Prog.pure_bind', if_neg (not_not.mpr isByteHook)]
      apply Prog.Keeps.bind (keeps_bytehookInit free)
      rintro token' ready ⟨came, isDone⟩
      have free' := came.free free
      cases ready with
      | true =>
          refine ⟨free', globals.pltEngine, fun process common known => ?_⟩
          exact common.plt.bound_of_done isLibrary (known.done _ true (isDone notRiscv))
      | false => exact keeps_fallBackPlt free' isLibrary (isDone notRiscv)
    · have none : pltLibrary process.globals.pltEngine = none := by
        rw [← isEngine]
        cases engine
        case byteHook => exact absurd rfl isByteHook
        all_goals rfl
      refine ⟨{ token with plt := some process.globals.pltEngine }, ?_, fun _ holds => holds, ?_⟩
      · refine ⟨known.entered, known.holds, known.done, known.inline, ?_⟩
        rintro _ ⟨⟩
        exact common.plt.bound_of_none none
      · rw [Prog.pure_bind', if_pos isByteHook]
        exact ⟨free, _, fun _ _ known => known.plt _ rfl⟩

/-- A call of the inline backend that the process is bound to. -/
theorem keeps_inlineUse {request : Call} {engine : InlineHook.Engine} (free : token.Free)
    (isBound : token.inline = some engine)
    (uses : ∀ before answer after, machine.Step before request answer after →
      after = before.useInline engine) :
    Keeps abi globals ι (fun token' _ => token'.Free) token (perform request) := by
  apply keeps_call
  intro before answer after common known step
  rw [uses before answer after step]
  have bound := known.inline engine isBound
  have settled : Kind.Settled before (before.useInline engine) := fun _ _ isDone => isDone
  have inline : (inlineKind abi globals).Kept before (before.useInline engine) :=
    .of_settled settled rfl
  have plt : (pltKind globals).Kept before (before.useInline engine) := .of_settled settled rfl
  refine ⟨token, ?_, ?_, ?_, fun _ holds => .inl holds, free⟩
  · refine ⟨common.inline.kept inline fun used present => ?_,
      common.plt.kept plt fun _ present => .inl present, common.nodup, common.fresh⟩
    rcases List.mem_cons.mp present with rfl | earlier
    · exact .inr bound.chosen
    · exact .inl earlier
  · exact ⟨known.entered, known.holds, known.done,
      fun engine isBound => (known.inline engine isBound).kept inline,
      fun engine isBound => (known.plt engine isBound).kept plt⟩
  · exact ⟨settled, fun _ _ isRunning => isRunning, fun _ _ present => present, inline, plt⟩

/-- A call of the PLT backend that the process is bound to. -/
theorem keeps_pltUse {engine : PltHook.PltEngine} {target : PltHook.Target} {replacement : Nat}
    (free : token.Free) (isBound : token.plt = some engine) :
    Keeps abi globals ι (fun token' _ => token'.Free) token
      (perform (.pltHook engine target replacement)) := by
  apply keeps_call
  rintro before answer _ common known rfl
  have bound := known.plt engine isBound
  have settled : Kind.Settled before (before.usePlt engine) := fun _ _ isDone => isDone
  have inline : (inlineKind abi globals).Kept before (before.usePlt engine) :=
    .of_settled settled rfl
  have plt : (pltKind globals).Kept before (before.usePlt engine) := .of_settled settled rfl
  refine ⟨token, ?_, ?_, ?_, fun _ holds => .inl holds, free⟩
  · refine ⟨common.inline.kept inline fun _ present => .inl present,
      common.plt.kept plt fun used present => ?_, common.nodup, common.fresh⟩
    rcases List.mem_cons.mp present with rfl | earlier
    · exact .inr bound.chosen
    · exact .inl earlier
  · exact ⟨known.entered, known.holds, known.done,
      fun engine isBound => (known.inline engine isBound).kept inline,
      fun engine isBound => (known.plt engine isBound).kept plt⟩
  · exact ⟨settled, fun _ _ isRunning => isRunning, fun _ _ present => present, inline, plt⟩

/-- What a backend does with its library first, and then it is called. -/
theorem keeps_backend {library : Library} {init : Prog Sys Bool} {rest : Prog Sys α} {failure : α}
    {token : Token} {known : Token → Bool → Prop} (free : token.Free)
    (initializes : Keeps abi globals ι (fun token' result => Token.After library token token' ∧
      known token' result) token init)
    (calls : ∀ token' : Token, token'.Free → token'.inline = token.inline → token'.plt = token.plt →
      Keeps abi globals ι (fun token' _ => token'.Free) token' rest) :
    Keeps abi globals ι (fun token' _ => token'.Free) token
      (init.bind fun ready => if !ready then .pure failure else rest) := by
  apply Prog.Keeps.bind initializes
  rintro token' ready ⟨came, _⟩
  cases ready with
  | false => exact came.free free
  | true => exact calls token' (came.free free) came.2.inline came.2.plt

theorem keeps_backendHook {engine : InlineHook.Engine} (free : token.Free)
    (isBound : token.inline = some engine) (target replacement : Nat) :
    Keeps abi globals ι (fun token' _ => token'.Free) token
      (backendHook abi engine target replacement) := by
  have calls : ∀ token' : Token, token'.Free → token'.inline = token.inline →
      token'.plt = token.plt → Keeps abi globals ι (fun token' _ => token'.Free) token'
        (perform (.hook engine target replacement)) := by
    intro token' free' same _
    apply keeps_inlineUse free' (same.trans isBound)
    exact fun _ _ _ step => step
  unfold backendHook
  split
  case isTrue => exact free
  case isFalse =>
    cases engine
    case shadowHook => exact keeps_backend free (keeps_shadowhookInit (free _)) calls
    case fridaGum => exact keeps_backend free (keeps_fridaGumInit (free _)) calls
    case disable => exact free
    all_goals exact calls token free rfl rfl

theorem keeps_backendUnhook {engine : InlineHook.Engine} (free : token.Free)
    (isBound : token.inline = some engine) (target : Nat) :
    Keeps abi globals ι (fun token' _ => token'.Free) token
      (backendUnhook abi engine target) := by
  have calls : ∀ token' : Token, token'.Free → token'.inline = token.inline →
      token'.plt = token.plt → Keeps abi globals ι (fun token' _ => token'.Free) token'
        (perform (.unhook engine target)) := by
    intro token' free' same _
    apply keeps_inlineUse free' (same.trans isBound)
    exact fun _ _ _ step => step
  unfold backendUnhook
  split
  case isTrue => exact free
  case isFalse =>
    cases engine
    case shadowHook => exact keeps_backend free (keeps_shadowhookInit (free _)) calls
    case fridaGum => exact keeps_backend free (keeps_fridaGumInit (free _)) calls
    case disable => exact free
    all_goals exact calls token free rfl rfl

theorem keeps_backendPltHook {engine : PltHook.PltEngine} (free : token.Free)
    (isBound : token.plt = some engine) (target : PltHook.Target) (replacement : Nat) :
    Keeps abi globals ι (fun token' _ => token'.Free) token
      (backendPltHook abi engine target replacement) := by
  have calls : ∀ token' : Token, token'.Free → token'.inline = token.inline →
      token'.plt = token.plt → Keeps abi globals ι (fun token' _ => token'.Free) token'
        (perform (.pltHook engine target replacement)) :=
    fun token' free' _ same => keeps_pltUse free' (same.trans isBound)
  unfold backendPltHook
  split
  case isTrue => exact free
  case isFalse =>
    cases engine
    case byteHook => exact keeps_backend free (keeps_bytehookInit free) calls
    case disable => exact free
    all_goals exact calls token free rfl rfl

theorem keeps_inlineEngine {rest : InlineHook.Engine → Prog Sys α} (free : token.Free)
    (ready : ∃ engine, Ready abi globals (inlineKind abi globals) token engine)
    (calls : ∀ (engine : InlineHook.Engine) (token' : Token), token'.Free →
      token'.inline = some engine → Keeps abi globals ι final token' (rest engine)) :
    Keeps abi globals ι final token ((perform .inlineEngine).bind rest) := by
  rcases ready with ⟨engine, ready⟩
  apply keeps_still
  · rintro before answer after ⟨_, rfl⟩
    rfl
  · rintro process answer common known ⟨rfl, _⟩
    have bound := ready process common known
    have same : process.globals.inlineEngine = engine := bound.engine
    refine ⟨{ token with inline := some engine }, ?_, fun _ holds => holds, ?_⟩
    · refine ⟨known.entered, known.holds, known.done, ?_, known.plt⟩
      rintro _ ⟨⟩
      exact bound
    · rw [same]
      exact calls engine _ free rfl

theorem keeps_pltEngine {rest : PltHook.PltEngine → Prog Sys α} (free : token.Free)
    (ready : ∃ engine, Ready abi globals (pltKind globals) token engine)
    (calls : ∀ (engine : PltHook.PltEngine) (token' : Token), token'.Free →
      token'.plt = some engine → Keeps abi globals ι final token' (rest engine)) :
    Keeps abi globals ι final token ((perform .pltEngine).bind rest) := by
  rcases ready with ⟨engine, ready⟩
  apply keeps_still
  · rintro before answer after ⟨_, rfl⟩
    rfl
  · rintro process answer common known ⟨rfl, _⟩
    have bound := ready process common known
    have same : process.globals.pltEngine = engine := bound.engine
    refine ⟨{ token with plt := some engine }, ?_, fun _ holds => holds, ?_⟩
    · refine ⟨known.entered, known.holds, known.done, known.inline, ?_⟩
      rintro _ ⟨⟩
      exact bound
    · rw [same]
      exact calls engine _ free rfl

theorem keeps_body (inlineSupported : inlineEngineSupported abi globals.inlineEngine = true)
    (pltSupported : pltEngineSupported abi globals.pltEngine = true) (request : ApiCall)
    (free : token.Free) :
    Keeps abi globals ι (fun token' _ => token'.Free) token (request.body abi) := by
  cases request with
  | inlineHook target replacement =>
      unfold ApiCall.body inlineHook
      dsimp only
      split
      · exact free
      · apply Prog.Keeps.bind (keeps_ensureInlineEngineReady free inlineSupported)
        rintro token' _ ⟨free', ready⟩
        apply keeps_inlineEngine free' ready
        exact fun engine token free isBound => keeps_backendHook free isBound target replacement
  | inlineUnhook target =>
      unfold ApiCall.body inlineUnhook
      dsimp only
      split
      · exact free
      · apply Prog.Keeps.bind (keeps_ensureInlineEngineReady free inlineSupported)
        rintro token' _ ⟨free', ready⟩
        apply keeps_inlineEngine free' ready
        exact fun engine token free isBound => keeps_backendUnhook free isBound target
  | pltHook base symbol replacement =>
      unfold ApiCall.body pltHook
      dsimp only
      cases symbol with
      | none => exact free
      | some symbol =>
          dsimp only
          split
          · exact free
          · apply Prog.Keeps.bind (keeps_ensurePltEngineReady free pltSupported)
            rintro token' _ ⟨free', ready⟩
            apply keeps_still
            · rintro before answer after rfl
              rfl
            · rintro process located common known _
              refine ⟨token', known, fun _ holds => holds, ?_⟩
              cases located with
              | none => exact free'
              | some target =>
                  apply keeps_pltEngine free' ready
                  exact fun engine token free isBound =>
                    keeps_backendPltHook free isBound target replacement

end Invariant

section Runs

variable {ι α : Type} [DecidableEq ι] (clients : ι → Prog Api α) (inlineName pltName : List UInt8)

/-- The threads of a process whose boot plan names two engines. -/
def launched : Pool Sys ι α Process where
  threads i := (clients i).via (ApiCall.body abi)
  shared := { globals := resolveHookEngines abi (fresh abi) inlineName pltName }

theorem supported_resolved :
    let globals := resolveHookEngines abi (fresh abi) inlineName pltName
    inlineEngineSupported abi globals.inlineEngine = true ∧
      pltEngineSupported abi globals.pltEngine = true := by
  have inlineDefault := defaultInlineEngine_supported abi
  have pltDefault : pltEngineSupported abi defaultPltEngine = true := rfl
  simp only [resolveHookEngines, setPltEngine, setInlineEngine, fresh]
  split <;> split <;> simp [*]

omit [DecidableEq ι] in
theorem common_launched : Common abi (resolveHookEngines abi (fresh abi) inlineName pltName)
    (launched abi clients inlineName pltName).shared where
  inline := ⟨.inl rfl, fun _ present => absurd present List.not_mem_nil⟩
  plt := ⟨.inl rfl, fun _ present => absurd present List.not_mem_nil⟩
  nodup := .nil
  fresh := fun _ _ present => absurd present List.not_mem_nil

variable {abi clients inlineName pltName} {pool : Pool Sys ι α Process}

theorem Kind.Sound.one {ε : Type} {kind : Kind ε} {process : Process} (sound : kind.Sound process) :
    ∃ engine, (∀ used ∈ kind.used process, used = engine) ∧
      (engine = kind.configured ∨ engine = kind.fallback ∧
        ∃ library, kind.library kind.configured = some library ∧
          process.flags library = .done false) := by
  cases isChosen : kind.chosen process with
  | none =>
      refine ⟨kind.configured, fun used present => ?_, .inl rfl⟩
      have bound := sound.used used present
      rw [isChosen] at bound
      cases bound
  | some engine =>
      refine ⟨engine, fun used present => ?_, ?_⟩
      · have bound := sound.used used present
        rw [isChosen] at bound
        exact (Option.some.inj bound).symm
      · unfold chosen at isChosen
        split at isChosen
        case h_1 => exact .inl (Option.some.inj isChosen).symm
        case h_2 library isLibrary =>
          split at isChosen
          case h_1 => exact .inl (Option.some.inj isChosen).symm
          case h_2 isDone => exact .inr ⟨(Option.some.inj isChosen).symm, library, isLibrary, isDone⟩
          case h_3 => cases isChosen

/-- Whatever the modules of a process call, and in whatever order their threads run: all inline
hooks and unhooks go to one backend and all PLT hooks to one, the one that the plan names or, when
its library could not be initialized, the default. No library is initialized twice. -/
theorem one_backend
    (reached : (Pool.system machine (launched abi clients inlineName pltName)).Reachable pool) :
    let globals := resolveHookEngines abi (fresh abi) inlineName pltName
    (∃ inline, (∀ used ∈ pool.shared.inlineUsed, used = inline) ∧
      (inline = globals.inlineEngine ∨ inline = defaultInlineEngine abi ∧
        ∃ library, inlineLibrary globals.inlineEngine = some library ∧
          pool.shared.flags library = .done false)) ∧
    (∃ plt, (∀ used ∈ pool.shared.pltUsed, used = plt) ∧
      (plt = globals.pltEngine ∨ plt = .lsplt ∧
        ∃ library, pltLibrary globals.pltEngine = some library ∧
          pool.shared.flags library = .done false)) ∧
    pool.shared.initialized.Nodup := by
  intro globals
  rcases reached.exists_run with ⟨_, steps, rfl, run⟩
  have supported := supported_resolved abi inlineName pltName
  have free : ({} : Token).Free := by
    rintro library (isEntered | isInside)
    · cases isEntered
    · cases isInside
  have joint : Joint (ι := ι) (Common abi globals) (Known abi globals) Token.Apart (fun _ => {})
      (launched abi clients inlineName pltName).shared := by
    refine ⟨common_launched abi clients inlineName pltName, fun _ => ?_, fun _ _ _ library holds => ?_⟩
    · exact ⟨nofun, fun library holds => absurd holds (free library), nofun, nofun, nofun⟩
    · exact absurd holds (free library)
  have each : ∀ (request : ApiCall) (token : Token), token.Free →
      Keeps abi globals ι (fun token' _ => token'.Free) token (request.body abi) :=
    fun request token free => keeps_body supported.1 supported.2 request free
  have keeps : ∀ i, Keeps abi globals ι (fun token' _ => token'.Free) {}
      ((launched abi clients inlineName pltName).threads i) :=
    fun i => Prog.Keeps.via each free (clients i)
  rcases Pool.invariant_of_keeps run joint keeps with ⟨tokens, later, _, _⟩
  exact ⟨later.common.inline.one, later.common.plt.one, later.common.nodup⟩

/-- An environment in which no library can be initialized and every backend does as it is told. -/
def broken (request : Call) (process : Process) : Option (request.Answer × Process) :=
  match request with
  | .inlineEngine => some (process.globals.inlineEngine, process)
  | .assignInline engine => some ((), process.assignInline engine)
  | .pltEngine => some (process.globals.pltEngine, process)
  | .assignPlt engine => some ((), process.assignPlt engine)
  | .enter library =>
      match process.flags library with
      | .fresh => some (none, { process with
          flags := Function.update process.flags library .running })
      | .running => none
      | .done result => some (some result, process)
  | .init library => some (false, { process with
      initialized := library :: process.initialized })
  | .leave library result => some ((), { process with
      flags := Function.update process.flags library (.done result) })
  | .locate _ _ => some (none, process)
  | .hook engine _ _ | .unhook engine _ => some (true, process.useInline engine)
  | .pltHook engine _ replacement => some (some replacement, process.usePlt engine)

theorem sound_broken (request : Call) (process : Process) (answer : request.Answer)
    (after : Process) (responded : broken request process = some (answer, after)) :
    machine.Step process request answer after := by
  cases request
  case enter library =>
    unfold broken at responded
    dsimp only at responded
    cases isFlag : process.flags library with
    | fresh =>
        rw [isFlag] at responded
        cases responded
        exact ⟨isFlag, rfl⟩
    | running =>
        rw [isFlag] at responded
        cases responded
    | done result =>
        rw [isFlag] at responded
        cases responded
        exact ⟨isFlag, rfl⟩
  all_goals
    cases responded
    first | rfl | exact ⟨rfl, rfl⟩

/-- Of two threads one unhooks and one hooks. -/
def hookers : Bool → Prog Api Bool
  | true => .call (.inlineUnhook 16) .pure
  | false => .call (.inlineHook 16 32) .pure

/-- Both find `shadowhook` configured, and both have to do with the default. -/
theorem one_backend_broken : ∃ pool : Pool Sys Bool Bool Process,
    pool.shared.inlineUsed = [.dobby, .dobby] ∧ pool.shared.initialized = [.shadowhook] ∧
      ∃ inline, ∀ used ∈ pool.shared.inlineUsed, used = inline := by
  let start := launched .arm64 hookers (Injector.asBytes "shadowhook") (Injector.asBytes "lsplt")
  have ran : (([false, true, false, false, false, true, true, true, true, false, false,
      false].foldlM (Pool.turn broken) start).map fun pool =>
        (pool.shared.inlineUsed, pool.shared.initialized)) =
      some ([.dobby, .dobby], [.shadowhook]) := by
    decide +kernel
  simp only [Option.map_eq_some_iff, Prod.mk.injEq] at ran
  rcases ran with ⟨pool, ran, used, initialized⟩
  have reached := Pool.reachable_turns sound_broken _ (.initial (rfl : start = start)) ran
  rcases one_backend reached with ⟨⟨inline, each, _⟩, _⟩
  exact ⟨pool, used, initialized, inline, each⟩

end Runs

end Engines

end Znn.Loader
