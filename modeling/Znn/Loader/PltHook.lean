import Mathlib.Data.Finset.Basic
import Znn.Interaction.Threads

/-!
# PLT hooks

The backends of `pltHook`: each keeps a record of the symbols that it has hooked, under a mutex,
and has a third-party engine write the slot of the procedure linkage table. A critical section is
one step; what a backend does outside of its lock may be overtaken. `lspltHook` looks the symbol up
in one section and records it in another. `bytehookHook` claims it in the first. The other two
hold the lock from the first line to the last.
-/

namespace Znn.Loader

open Interaction

namespace PltHook

/-- A function's address, which is not null. -/
abbrev Address : Type := Nat

/-- How an engine is told which library to hook. -/
inductive Library where
  | file (dev inode : Nat)
  | path (path : String)
deriving DecidableEq, Repr

structure Slot where
  library : Library
  symbol : String
deriving DecidableEq, Repr

/-- `bytehook_stub_t`: the slot, and what it held if it was found. -/
structure Stub where
  slot : Slot
  previous : Option Address
deriving DecidableEq, Repr

/-- The requests to the engines. -/
inductive Engine.Call where
  /-- `RegisterHook` and `CommitHook`: the backup. -/
  | lspltInstall (slot : Slot) (value : Address)
  | bytehookInit
  /-- `bytehook_hook_single`: the stub, and what the callback was told. -/
  | bytehookHookSingle (slot : Slot) (value : Address)
  | bytehookUnhook (stub : Stub)
  | xhookClear
  | xhookRegister (slot : Slot) (value : Address)
  /-- `xhook_refresh`: what is written through the pointers that were registered. -/
  | xhookRefresh
  | pltiInit
  | pltiAddManualLib (path : String) (base : Nat)
  | pltiAddHook (slot : Slot) (value : Address)
  | pltiRemoveHook (slot : Slot) (restore : Address)

abbrev Engine.Call.Answer : Engine.Call → Type
  | .lspltInstall _ _ | .pltiAddHook _ _ | .pltiRemoveHook _ _ => Option Address
  | .bytehookHookSingle _ _ => Option (Stub × Option Address)
  | .xhookClear => Unit
  | .xhookRefresh => Option (List (Option Address))
  | _ => Bool

abbrev Engine.Sys : Interface where
  Call := Engine.Call
  Answer := Engine.Call.Answer

/-- The slots, and what xhook is to install with the next refresh. -/
structure Engine where
  slots : Slot → Address
  registered : List (Slot × Address) := []

namespace Engine

abbrev perform (request : Engine.Call) : Prog Engine.Sys request.Answer :=
  Prog.perform (I := Engine.Sys) request

def write (engine : Engine) (slot : Slot) (value : Address) : Engine :=
  { engine with slots := Function.update engine.slots slot value }

/-- One install swaps a slot that is present and returns what it held. -/
def Swap (present : Slot → Bool) (sure : Prop) (before : Engine) (slot : Slot) (value : Address)
    (backup : Option Address) (after : Engine) : Prop :=
  match backup with
  | some previous =>
      present slot = true ∧ previous = before.slots slot ∧ after = before.write slot value
  | none => (sure → present slot = false) ∧ after = before

/-- The slots that are registered are swapped in turn, unless they hold the value. -/
def installAll (present : Slot → Bool) : List (Slot × Address) → (Slot → Address) →
    List (Option Address) × (Slot → Address)
  | [], slots => ([], slots)
  | (slot, value) :: rest, slots =>
      if present slot = true ∧ slots slot ≠ value then
        let installed := installAll present rest (Function.update slots slot value)
        (some (slots slot) :: installed.1, installed.2)
      else
        let installed := installAll present rest slots
        (none :: installed.1, installed.2)

/-- The engines. Unless they are sure to work, any request may fail, and then does nothing. -/
def machine (present : Slot → Bool) (sure : Prop) : Machine Engine.Sys Engine where
  Step before request answer after :=
    match request, answer with
    | .lspltInstall slot value, backup | .pltiAddHook slot value, backup =>
        Swap present sure before slot value backup after
    | .bytehookHookSingle slot value, some (stub, backup) =>
        stub = ⟨slot, backup⟩ ∧ Swap present sure before slot value backup after
    | .bytehookUnhook ⟨slot, some previous⟩, true => after = before.write slot previous
    | .xhookClear, _ => after = { before with registered := [] }
    | .xhookRegister slot value, true =>
        after = { before with registered := before.registered ++ [(slot, value)] }
    | .xhookRefresh, some written =>
        let installed := installAll present before.registered before.slots
        written = installed.1 ∧ after = { before with slots := installed.2 }
    | .pltiRemoveHook slot restore, some _ => after = before.write slot restore
    | .bytehookUnhook ⟨_, none⟩, true | .bytehookInit, true | .pltiInit, true
    | .pltiAddManualLib _ _, true => after = before
    | .bytehookHookSingle _ _, none | .xhookRefresh, none | .pltiRemoveHook _ _, none
    | .bytehookInit, false | .bytehookUnhook _, false | .xhookRegister _ _, false
    | .pltiInit, false | .pltiAddManualLib _ _, false => ¬sure ∧ after = before

end Engine

/-- A record of lsplt or of plti. -/
structure Record where
  replacement : Address
  original : Address
deriving DecidableEq, Repr

/-- A record of xhook, which is registered again with every commit. -/
structure XhookRecord where
  path : String
  symbol : String
  replacement : Address
  original : Option Address
deriving DecidableEq, Repr

/-- The variables of the backends. -/
structure Globals where
  lspltRecords : String → Option Record := fun _ => none
  /-- What `bytehook_init` has returned, once it has been called. -/
  bytehookResult : Option Bool := none
  bytehookStubs : String → Option Stub := fun _ => none
  bytehookOriginals : String → Option Address := fun _ => none
  bytehookPending : Finset String := ∅
  xhookRecords : List XhookRecord := []
  pltiInitialized : Bool := false
  pltiRecords : String → Option Record := fun _ => none

/-- A critical section. -/
abbrev Section : Type → Type :=
  StateProg Engine.Sys Globals

def lspltKey (dev inode : Nat) (symbol : String) : String :=
  toString dev ++ ":" ++ toString inode ++ "\x01" ++ symbol

/-- `recordKey` and `hookKey` of the other backends. -/
def recordKey (path symbol : String) : String :=
  path ++ "\x01" ++ symbol

/-- How `bytehookHook` leaves its first section. -/
inductive Entry where
  | ended (result : Option Address)
  | claimed

/-- The first section of `bytehookHook`. -/
def bytehookEnter (key : String) (replacement : Address) : Section Entry := do
  let globals ← get
  match globals.bytehookStubs key with
  | some stub =>
      if some replacement = globals.bytehookOriginals key then
        if !(← Engine.perform (.bytehookUnhook stub)) then
          return .ended none
        modify fun globals => { globals with
          bytehookOriginals := Function.update globals.bytehookOriginals key none
          bytehookStubs := Function.update globals.bytehookStubs key none }
        return .ended (globals.bytehookOriginals key)
      return .ended none
  | none =>
      if key ∈ globals.bytehookPending then
        return .ended none
      modify fun globals => { globals with bytehookPending := insert key globals.bytehookPending }
      return .claimed

/-- `bytehookInit`: the engine is asked once. -/
def bytehookInit : Section Bool := do
  match (← get).bytehookResult with
  | some result => return result
  | none =>
      let result ← Engine.perform .bytehookInit
      modify fun globals => { globals with bytehookResult := some result }
      return result

/-- The key that a record of xhook is stored under. -/
def XhookRecord.key (record : XhookRecord) : String :=
  recordKey record.path record.symbol

/-- The pattern for the path is anchored and escaped: it matches nothing else. -/
def XhookRecord.slot (record : XhookRecord) : Slot :=
  ⟨.path record.path, record.symbol⟩

/-- What a refresh writes through the pointer to `original`. -/
def XhookRecord.written (record : XhookRecord) (out : Option Address) : XhookRecord :=
  { record with original := out.or record.original }

def registerAll : List XhookRecord → Prog Engine.Sys Bool
  | [] => return true
  | record :: rest => do
      if !(← Engine.perform (.xhookRegister record.slot record.replacement)) then
        return false
      registerAll rest

def commitLocked : Section Bool := do
  Engine.perform .xhookClear
  if !(← registerAll (← get).xhookRecords) then
    return false
  let some outs ← Engine.perform .xhookRefresh
    | return false
  modify fun globals => { globals with
    xhookRecords := List.zipWith XhookRecord.written globals.xhookRecords outs }
  return true

/-- `rec.replacement = replacement`, of the record under a key. -/
def Globals.setReplacement (globals : Globals) (key : String) (replacement : Address) : Globals :=
  { globals with
    xhookRecords := globals.xhookRecords.map fun record =>
      if record.key = key then { record with replacement := replacement } else record }

def Globals.eraseXhook (globals : Globals) (key : String) : Globals :=
  { globals with xhookRecords := globals.xhookRecords.filter fun record => record.key ≠ key }

def Globals.findXhook (globals : Globals) (key : String) : Option XhookRecord :=
  globals.xhookRecords.find? fun record => record.key = key

/-- `xhookHook`. -/
def xhookHook (path symbol : String) (replacement : Address) : Section (Option Address) := do
  if path = "" then
    return none
  let key := recordKey path symbol
  match (← get).findXhook key with
  | some found =>
      if some replacement ≠ found.original then
        return none
      modify fun globals => globals.setReplacement key replacement
      if !(← commitLocked) then
        modify fun globals => globals.setReplacement key found.replacement
        return none
      modify fun globals => globals.eraseXhook key
      return found.original
  | none =>
      modify fun globals => { globals with
        xhookRecords := globals.xhookRecords ++ [⟨path, symbol, replacement, none⟩] }
      let committed ← commitLocked
      let original := ((← get).findXhook key).bind XhookRecord.original
      if !committed ∨ original = none then
        modify fun globals => globals.eraseXhook key
        let _ ← commitLocked
        return none
      return original

/-- `ensureContextLocked`. -/
def ensureContextLocked : Section Bool := do
  if (← get).pltiInitialized then
    return true
  if !(← Engine.perform .pltiInit) then
    return false
  modify fun globals => { globals with pltiInitialized := true }
  return true

/-- `pltiHook`. -/
def pltiHook (path : String) (base : Nat) (symbol : String) (replacement : Address) :
    Section (Option Address) := do
  if path = "" then
    return none
  let key := recordKey path symbol
  let slot : Slot := ⟨.path path, symbol⟩
  if !(← ensureContextLocked) then
    return none
  match (← get).pltiRecords key with
  | some found =>
      if replacement ≠ found.original then
        return none
      let some restore ← Engine.perform (.pltiRemoveHook slot found.original)
        | return none
      modify fun globals => { globals with
        pltiRecords := Function.update globals.pltiRecords key none }
      return some restore
  | none =>
      if !(← Engine.perform (.pltiAddManualLib path base)) then
        return none
      let some backup ← Engine.perform (.pltiAddHook slot replacement)
        | return none
      modify fun globals => { globals with
        pltiRecords := Function.update globals.pltiRecords key (some ⟨replacement, backup⟩) }
      return some backup

/-- The steps of the calls: the critical sections, and the engines outside of them. -/
inductive Call where
  | lspltFind (key : String)
  | lspltErase (key : String)
  | lspltStore (key : String) (record : Record)
  | lspltInstall (slot : Slot) (value : Address)
  | bytehookInit
  | bytehookEnter (key : String) (replacement : Address)
  | bytehookHookSingle (slot : Slot) (value : Address)
  | bytehookUnhook (stub : Stub)
  | bytehookLeave (key : String)
  | bytehookStore (key : String) (stub : Stub) (backup : Address)
  | xhook (path symbol : String) (replacement : Address)
  | plti (path : String) (base : Nat) (symbol : String) (replacement : Address)

abbrev Call.Answer : Call → Type
  | .lspltFind _ | .lspltInstall _ _ | .xhook _ _ _ | .plti _ _ _ _ => Option Address
  | .lspltErase _ | .lspltStore _ _ | .bytehookLeave _ | .bytehookStore _ _ _ => PUnit
  | .bytehookInit | .bytehookUnhook _ => Bool
  | .bytehookEnter _ _ => Entry
  | .bytehookHookSingle _ _ => Option (Stub × Option Address)

abbrev Sys : Interface where
  Call := Call
  Answer := Call.Answer

abbrev perform (request : Call) : Prog Sys request.Answer :=
  Prog.perform (I := Sys) request

/-- What each step does. -/
def body : (request : Call) → Section request.Answer
  | .lspltFind key => do return ((← get).lspltRecords key).map Record.original
  | .lspltErase key =>
      modify fun globals => { globals with
        lspltRecords := Function.update globals.lspltRecords key none }
  | .lspltStore key record =>
      modify fun globals => { globals with
        lspltRecords := Function.update globals.lspltRecords key (some record) }
  | .lspltInstall slot value => Engine.perform (.lspltInstall slot value)
  | .bytehookInit => PltHook.bytehookInit
  | .bytehookEnter key replacement => PltHook.bytehookEnter key replacement
  | .bytehookHookSingle slot value => Engine.perform (.bytehookHookSingle slot value)
  | .bytehookUnhook stub => Engine.perform (.bytehookUnhook stub)
  | .bytehookLeave key =>
      modify fun globals => { globals with bytehookPending := globals.bytehookPending.erase key }
  | .bytehookStore key stub backup =>
      modify fun globals => { globals with
        bytehookPending := globals.bytehookPending.erase key
        bytehookStubs := Function.update globals.bytehookStubs key (some stub)
        bytehookOriginals := Function.update globals.bytehookOriginals key (some backup) }
  | .xhook path symbol replacement => xhookHook path symbol replacement
  | .plti path base symbol replacement => pltiHook path base symbol replacement

/-- The part of `lspltHook` that removes a hook. -/
def lspltRemove (key : String) (slot : Slot) (previous : Address) : Prog Sys (Option Address) := do
  let some _ ← perform (.lspltInstall slot previous)
    | return none
  perform (.lspltErase key)
  return some previous

/-- The part of `lspltHook` that installs one. -/
def lspltAdd (key : String) (slot : Slot) (replacement : Address) :
    Prog Sys (Option Address) := do
  let some backup ← perform (.lspltInstall slot replacement)
    | return none
  perform (.lspltStore key ⟨replacement, backup⟩)
  return some backup

/-- `lspltHook`; what is returned is what the caller is given as the original. -/
def lspltHook (dev inode : Nat) (symbol : String) (replacement : Address) :
    Prog Sys (Option Address) := do
  let key := lspltKey dev inode symbol
  let slot : Slot := ⟨.file dev inode, symbol⟩
  match ← perform (.lspltFind key) with
  | some previous =>
      if replacement ≠ previous then
        return none
      lspltRemove key slot previous
  | none => lspltAdd key slot replacement

/-- The part of `bytehookHook` that installs a hook, once it has claimed the symbol. -/
def bytehookAdd (key : String) (slot : Slot) (replacement : Address) :
    Prog Sys (Option Address) := do
  match ← perform (.bytehookHookSingle slot replacement) with
  | none =>
      perform (.bytehookLeave key)
      return none
  | some (stub, none) =>
      let _ ← perform (.bytehookUnhook stub)
      perform (.bytehookLeave key)
      return none
  | some (stub, some backup) =>
      perform (.bytehookStore key stub backup)
      return some backup

/-- How `bytehookHook` goes on from its first section. -/
def bytehookProceed (key : String) (slot : Slot) (replacement : Address) :
    Entry → Prog Sys (Option Address)
  | .ended result => return result
  | .claimed => bytehookAdd key slot replacement

/-- `bytehookHook`. -/
def bytehookHook (path symbol : String) (replacement : Address) :
    Prog Sys (Option Address) := do
  if !(← perform .bytehookInit) then
    return none
  let key := recordKey path symbol
  let entry ← perform (.bytehookEnter key replacement)
  bytehookProceed key ⟨.path path, symbol⟩ replacement entry

inductive PltEngine where
  | lsplt
  | byteHook
  | xHook
  | plti
  | disable
deriving DecidableEq, Repr

/-- The mapping of the library that is hooked, which has a path, and the symbol. -/
structure Target where
  dev : Nat
  inode : Nat
  path : String
  start : Nat
  symbol : String
  named : path ≠ ""

/-- The end of `pltHook`, once it has found the mapping. -/
def pltHook (engine : PltEngine) (target : Target) (replacement : Address) :
    Prog Sys (Option Address) :=
  match engine with
  | .lsplt => lspltHook target.dev target.inode target.symbol replacement
  | .byteHook => bytehookHook target.path target.symbol replacement
  | .xHook => perform (.xhook target.path target.symbol replacement)
  | .plti => perform (.plti target.path target.start target.symbol replacement)
  | .disable => return none

/-- The steps on the variables and the engines. -/
abbrev machine (present : Slot → Bool) (sure : Prop) : Machine Sys (Globals × Engine) :=
  (Engine.machine present sure).sections body

section Installs

variable {present : Slot → Bool} {sure : Prop} {slots : Slot → Address} {slot : Slot}
  {value : Address} {engine : Engine} {globals : Globals} {key : String}

theorem length_installAll (pairs : List (Slot × Address)) (slots : Slot → Address) :
    (Engine.installAll present pairs slots).1.length = pairs.length := by
  induction pairs generalizing slots with
  | nil => rfl
  | cons pair rest ih =>
      rw [Engine.installAll]
      split
      · exact congrArg Nat.succ (ih _)
      · exact congrArg Nat.succ (ih _)

/-- What is not registered stays as it is. -/
theorem installAll_other {pairs : List (Slot × Address)}
    (others : ∀ pair ∈ pairs, pair.1 ≠ slot) (slots : Slot → Address) :
    (Engine.installAll present pairs slots).2 slot = slots slot := by
  induction pairs generalizing slots with
  | nil => rfl
  | cons pair rest ih =>
      have later := ih fun other member => others other (List.mem_cons_of_mem _ member)
      rw [Engine.installAll]
      split
      · dsimp only
        rw [later, Function.update_of_ne (others pair List.mem_cons_self).symm]
      · exact later slots

theorem installAll_concat (pairs : List (Slot × Address)) (slot : Slot) (value : Address)
    (slots : Slot → Address) :
    Engine.installAll present (pairs ++ [(slot, value)]) slots =
      ((Engine.installAll present pairs slots).1 ++
          (Engine.installAll present [(slot, value)] (Engine.installAll present pairs slots).2).1,
        (Engine.installAll present [(slot, value)]
          (Engine.installAll present pairs slots).2).2) := by
  induction pairs generalizing slots with
  | nil => rfl
  | cons pair rest ih =>
      rw [List.cons_append, Engine.installAll, Engine.installAll, ih, ih]
      split <;> rfl

theorem wp_registerAll (records : List XhookRecord) (engine : Engine) :
    (registerAll records).wp (Engine.machine present sure) (fun registered after =>
      after.slots = engine.slots ∧
        if registered then
          after.registered =
            engine.registered ++ records.map fun record => (record.slot, record.replacement)
        else ¬sure) engine := by
  induction records generalizing engine with
  | nil =>
      refine ⟨rfl, ?_⟩
      simp
  | cons record rest ih =>
      rintro (_ | _) after step
      · rcases step with ⟨unsure, rfl⟩
        exact ⟨rfl, unsure⟩
      · cases step
        apply Prog.wp_mono (ih _)
        rintro registered after ⟨same, rest⟩
        refine ⟨same, ?_⟩
        cases registered with
        | false => exact rest
        | true => simpa using rest

/-- A commit installs all records, or it does nothing. -/
theorem wp_commitLocked (globals : Globals) (engine : Engine) :
    StateProg.wp (Engine.machine present sure) commitLocked (fun committed globals' after =>
      if committed then
        let installed := Engine.installAll present
          (globals.xhookRecords.map fun record => (record.slot, record.replacement)) engine.slots
        globals' = { globals with
            xhookRecords := List.zipWith XhookRecord.written globals.xhookRecords installed.1 } ∧
          after.slots = installed.2
      else ¬sure ∧ globals' = globals ∧ after.slots = engine.slots) globals engine := by
  unfold commitLocked
  rw [StateProg.wp_bind, StateProg.wp_lift]
  rintro _ cleared rfl
  rw [Prog.wp_pure, StateProg.wp_bind, StateProg.wp_get, StateProg.wp_bind, StateProg.wp_lift]
  apply Prog.wp_mono (wp_registerAll _ _)
  rintro registered after ⟨same, isRegistered⟩
  cases registered with
  | false => exact ⟨isRegistered, rfl, same⟩
  | true =>
      dsimp only at isRegistered same
      rw [if_pos rfl, List.nil_append] at isRegistered
      rw [Bool.not_true, if_neg Bool.false_ne_true, StateProg.wp_bind, StateProg.wp_lift]
      rintro (_ | outs) refreshed step
      · rcases step with ⟨unsure, rfl⟩
        exact ⟨unsure, rfl, same⟩
      · rcases step with ⟨rfl, rfl⟩
        rw [isRegistered, same]
        exact ⟨rfl, rfl⟩

/-- The slots of the records are told apart by their keys. -/
theorem slot_ne {record : XhookRecord} {path symbol : String}
    (apart : record.key ≠ recordKey path symbol) : record.slot ≠ ⟨.path path, symbol⟩ := by
  intro same
  simp only [XhookRecord.slot, Slot.mk.injEq, Library.path.injEq] at same
  apply apart
  rw [XhookRecord.key, same.1, same.2]

/-- What a refresh writes into a record does not move it. -/
theorem key_ne_of_written {records : List XhookRecord}
    (others : ∀ record ∈ records, record.key ≠ key) (outs : List (Option Address)) :
    ∀ record ∈ List.zipWith XhookRecord.written records outs, record.key ≠ key := by
  induction records generalizing outs with
  | nil => simp
  | cons head tail ih =>
      cases outs with
      | nil => simp
      | cons out outs =>
          intro record member
          rcases List.mem_cons.mp member with rfl | later
          · exact others head List.mem_cons_self
          · exact ih (fun other isOther => others other (List.mem_cons_of_mem _ isOther)) outs
              record later

/-- A commit leaves a slot alone that no record is about. -/
theorem wp_commitLocked_others {path symbol : String} (globals : Globals) (engine : Engine)
    (others : ∀ record ∈ globals.xhookRecords, record.key ≠ recordKey path symbol) :
    StateProg.wp (Engine.machine present sure) commitLocked (fun _ globals' after =>
      (∀ record ∈ globals'.xhookRecords, record.key ≠ recordKey path symbol) ∧
        after.slots ⟨.path path, symbol⟩ = engine.slots ⟨.path path, symbol⟩) globals engine := by
  apply StateProg.wp_mono (wp_commitLocked globals engine)
  intro committed globals' after holds
  cases committed with
  | false =>
      rcases holds with ⟨_, rfl, same⟩
      exact ⟨others, congrFun same _⟩
  | true =>
      rcases holds with ⟨rfl, same⟩
      refine ⟨key_ne_of_written others _, ?_⟩
      rw [same]
      apply installAll_other
      intro pair member
      rcases List.mem_map.mp member with ⟨record, isRecord, rfl⟩
      exact slot_ne (others record isRecord)

/-- A commit installs the last record. -/
theorem wp_commitLocked_last (globals : Globals) (engine : Engine) {others : List XhookRecord}
    {last : XhookRecord} (records : globals.xhookRecords = others ++ [last])
    (apart : ∀ record ∈ others, record.key ≠ last.key) :
    StateProg.wp (Engine.machine present sure) commitLocked (fun committed globals' after =>
      if committed then
        ∃ others', (∀ record ∈ others', record.key ≠ last.key) ∧
          if present last.slot = true ∧ engine.slots last.slot ≠ last.replacement then
            globals'.xhookRecords =
                others' ++ [{ last with original := some (engine.slots last.slot) }] ∧
              after.slots last.slot = last.replacement
          else
            globals'.xhookRecords = others' ++ [last] ∧
              after.slots last.slot = engine.slots last.slot
      else ¬sure ∧ globals' = globals ∧ after.slots = engine.slots) globals engine := by
  apply StateProg.wp_mono (wp_commitLocked globals engine)
  intro committed globals' after holds
  cases committed with
  | false => exact holds
  | true =>
      rcases holds with ⟨rfl, same⟩
      let pairs := others.map fun record => (record.slot, record.replacement)
      have untouched : (Engine.installAll present pairs engine.slots).2 last.slot =
          engine.slots last.slot := by
        apply installAll_other
        intro pair member
        rcases List.mem_map.mp member with ⟨record, isRecord, rfl⟩
        exact slot_ne (apart record isRecord)
      have length : others.length = (Engine.installAll present pairs engine.slots).1.length := by
        rw [length_installAll, List.length_map]
      refine ⟨_, key_ne_of_written apart (Engine.installAll present pairs engine.slots).1, ?_⟩
      rw [same, records, List.map_append, List.map_singleton, installAll_concat]
      dsimp only
      rw [List.zipWith_append length, Engine.installAll, untouched]
      split
      case isTrue swapped =>
        exact ⟨rfl, Function.update_self _ _ _⟩
      case isFalse =>
        exact ⟨rfl, untouched⟩

end Installs

end PltHook

end Znn.Loader
