import Mathlib.Data.Finset.Basic
import Znn.Interaction.Threads

/-!
# Inline hooks

`inlineHook` claims an address in the set of hooked addresses before the backend hooks it, and
`inlineUnhook` erases it after the backend has unhooked it. The backend works outside of the lock.
An address has one owner from its claim to its erasure: the call that claimed it, the backend's
own set, or the call that is to erase it.
-/

namespace Znn.Loader

open Interaction

def ZN_FAILED : Int := 1
def ZN_SUCCESS : Int := 0

namespace InlineHook

/-- The steps of the calls: the critical sections under `g_hook_mutex`, and the backend. -/
inductive Call where
  | claim (target : Nat)
  | erase (target : Nat)
  | find (target : Nat)
  | hook (target replacement : Nat)
  | unhook (target : Nat)
deriving DecidableEq

abbrev Call.Answer : Call → Type
  | .erase _ => Unit
  | _ => Bool

abbrev Sys : Interface where
  Call := Call
  Answer := Call.Answer

abbrev perform (request : Call) : Prog Sys request.Answer :=
  Prog.perform (I := Sys) request

inductive Engine where
  | dobby
  | shadowHook
  | and64InlineHook
  | fridaGum
  | rv64Hook
  | disable
deriving DecidableEq, Repr

/-- `hook::inlineHook`: the backends differ in their engine only. -/
def hookTarget (engine : Engine) (target replacement : Nat) : Prog Sys Bool :=
  if target = 0 ∨ replacement = 0 then
    return false
  else
    match engine with
    | .disable => return false
    | _ => perform (.hook target replacement)

/-- `hook::inlineUnhook`. -/
def unhookTarget (engine : Engine) (target : Nat) : Prog Sys Bool :=
  if target = 0 then
    return false
  else
    match engine with
    | .disable => return false
    | _ => perform (.unhook target)

/-- `api::inlineHook`; the lookup in the maps only logs. -/
def inlineHook (engine : Engine) (target address : Nat) : Prog Sys Int := do
  if target = 0 ∨ address = 0 then
    return ZN_FAILED
  if !(← perform (.claim target)) then
    return ZN_FAILED
  if !(← hookTarget engine target address) then
    perform (.erase target)
    return ZN_FAILED
  return ZN_SUCCESS

/-- `api::inlineUnhook`. -/
def inlineUnhook (engine : Engine) (target : Nat) : Prog Sys Int := do
  if target = 0 then
    return ZN_FAILED
  if !(← perform (.find target)) then
    return ZN_FAILED
  if !(← unhookTarget engine target) then
    return ZN_FAILED
  perform (.erase target)
  return ZN_SUCCESS

/-- `g_hooked`, and the addresses that the backend has hooked. -/
structure State where
  hooked : Finset Nat := ∅
  backend : Finset Nat := ∅

/-- The backend refuses to hook an address twice and to unhook one that is not hooked. It may
refuse otherwise too. -/
def machine : Machine Sys State where
  Step before request answer after :=
    match request, answer with
    | .claim target, inserted =>
        inserted = decide (target ∉ before.hooked) ∧
          after = { before with hooked := insert target before.hooked }
    | .erase target, _ => after = { before with hooked := before.hooked.erase target }
    | .find target, found => found = decide (target ∈ before.hooked) ∧ after = before
    | .hook target _, true =>
        target ∉ before.backend ∧ after = { before with backend := insert target before.backend }
    | .unhook target, true =>
        target ∈ before.backend ∧ after = { before with backend := before.backend.erase target }
    | .hook _ _, false | .unhook _, false => after = before

/-- The calls of the API. -/
inductive ApiCall where
  | hook (engine : Engine) (target address : Nat)
  | unhook (engine : Engine) (target : Nat)

def ApiCall.program : ApiCall → Prog Sys Int
  | .hook engine target address => inlineHook engine target address
  | .unhook engine target => inlineUnhook engine target

section Ownership

variable {ι : Type} [DecidableEq ι] {tokens : ι → Option Nat} {state : State} {i : ι}
  {target : Nat}

/-- Each address has one owner: the backend, or the one call that holds it as its token. -/
structure Owned (tokens : ι → Option Nat) (state : State) : Prop where
  hooked : ∀ target, target ∈ state.hooked ↔
    target ∈ state.backend ∨ ∃ i, tokens i = some target
  apart : ∀ i target, tokens i = some target → target ∉ state.backend
  single : ∀ i j target, tokens i = some target → tokens j = some target → i = j

omit [DecidableEq ι] in
theorem Owned.start : Owned (fun _ : ι => none) {} where
  hooked := by simp
  apart := by simp
  single := by simp

theorem Owned.same (owned : Owned tokens state) {token : Option Nat} (holds : tokens i = token) :
    Owned (Function.update tokens i token) state := by
  rwa [← holds, Function.update_eq_self]

theorem holds_update {token : Option Nat} {j : ι} :
    Function.update tokens i token j = some target ↔
      j = i ∧ token = some target ∨ j ≠ i ∧ tokens j = some target := by
  rw [Function.update_apply]
  split
  case isTrue same => simp [same]
  case isFalse other => simp [other]

/-- An address that is free is claimed. -/
theorem Owned.claim (owned : Owned tokens state) (holds : tokens i = none)
    (fresh : target ∉ state.hooked) :
    Owned (Function.update tokens i (some target))
      { state with hooked := insert target state.hooked } := by
  have hooked := owned.hooked
  have unowned : target ∉ state.backend ∧ ∀ j, tokens j ≠ some target := by
    rwa [hooked, not_or, not_exists] at fresh
  refine ⟨?_, ?_, ?_⟩
  · intro other
    simp only [Finset.mem_insert, hooked, holds_update]
    grind
  · intro j other isToken
    rcases holds_update.mp isToken with ⟨_, same⟩ | ⟨_, earlier⟩
    · exact Option.some.inj same ▸ unowned.1
    · exact owned.apart j other earlier
  · intro j k other first second
    rcases holds_update.mp first with ⟨isThis, same⟩ | ⟨_, earlier⟩
    · rcases holds_update.mp second with ⟨isThat, _⟩ | ⟨_, before⟩
      · exact isThis.trans isThat.symm
      · exact absurd (same ▸ before) (unowned.2 k)
    · rcases holds_update.mp second with ⟨_, same⟩ | ⟨_, before⟩
      · exact absurd (same ▸ earlier) (unowned.2 j)
      · exact owned.single j k other earlier before

/-- The call that holds an address hands it over to the backend. -/
theorem Owned.handOver (owned : Owned tokens state) (holds : tokens i = some target) :
    Owned (Function.update tokens i none)
      { state with backend := insert target state.backend } := by
  have single := owned.single
  refine ⟨?_, ?_, ?_⟩
  · intro other
    simp only [Finset.mem_insert, owned.hooked, holds_update]
    grind
  · intro j other isToken
    rcases holds_update.mp isToken with ⟨_, ⟨⟩⟩ | ⟨another, earlier⟩
    rw [Finset.mem_insert, not_or]
    refine ⟨?_, owned.apart j other earlier⟩
    rintro rfl
    exact another (single j i other earlier holds)
  · intro j k other first second
    rcases holds_update.mp first with ⟨_, ⟨⟩⟩ | ⟨_, earlier⟩
    rcases holds_update.mp second with ⟨_, ⟨⟩⟩ | ⟨_, before⟩
    exact single j k other earlier before

/-- An address that the backend has unhooked is held by the call that asked for it. -/
theorem Owned.takeBack (owned : Owned tokens state) (holds : tokens i = none)
    (inBackend : target ∈ state.backend) :
    Owned (Function.update tokens i (some target))
      { state with backend := state.backend.erase target } := by
  have unowned : ∀ j, tokens j ≠ some target := fun j isToken => owned.apart j target isToken inBackend
  refine ⟨?_, ?_, ?_⟩
  · intro other
    simp only [Finset.mem_erase, owned.hooked, holds_update]
    grind
  · intro j other isToken
    rw [Finset.mem_erase, not_and]
    rcases holds_update.mp isToken with ⟨_, same⟩ | ⟨_, earlier⟩
    · exact fun another => absurd (Option.some.inj same).symm another
    · exact fun _ => owned.apart j other earlier
  · intro j k other first second
    rcases holds_update.mp first with ⟨isThis, same⟩ | ⟨_, earlier⟩
    · rcases holds_update.mp second with ⟨isThat, _⟩ | ⟨_, before⟩
      · exact isThis.trans isThat.symm
      · exact absurd (same ▸ before) (unowned k)
    · rcases holds_update.mp second with ⟨_, same⟩ | ⟨_, before⟩
      · exact absurd (same ▸ earlier) (unowned j)
      · exact owned.single j k other earlier before

/-- An address that a call holds is erased. -/
theorem Owned.erase (owned : Owned tokens state) (holds : tokens i = some target) :
    Owned (Function.update tokens i none)
      { state with hooked := state.hooked.erase target } := by
  have apart := owned.apart i target holds
  have single := owned.single
  refine ⟨?_, ?_, ?_⟩
  · intro other
    simp only [Finset.mem_erase, owned.hooked, holds_update]
    grind
  · intro j other isToken
    rcases holds_update.mp isToken with ⟨_, ⟨⟩⟩ | ⟨_, earlier⟩
    exact owned.apart j other earlier
  · intro j k other first second
    rcases holds_update.mp first with ⟨_, ⟨⟩⟩ | ⟨_, earlier⟩
    rcases holds_update.mp second with ⟨_, ⟨⟩⟩ | ⟨_, before⟩
    exact single j k other earlier before

/-- The calls hold nothing before they start and after they have ended. -/
abbrev Keeps (token : Option Nat) (program : Prog Sys Int) : Prop :=
  program.Keeps machine (Owned (ι := ι)) (fun token _ => token = none) token

theorem keeps_erase (target : Nat) (result : Int) :
    Keeps (ι := ι) (some target) ((perform (.erase target)).bind fun _ => .pure result) := by
  rintro tokens i before answer after holds owned rfl
  exact ⟨none, owned.erase holds, rfl⟩

theorem keeps_hookTarget (engine : Engine) (target address : Nat) :
    (hookTarget engine target address).Keeps machine (Owned (ι := ι))
      (fun token hooked => token = if hooked then none else some target) (some target) := by
  unfold hookTarget
  split
  · rfl
  · split
    · rfl
    · rintro tokens i before answer after holds owned step
      cases answer with
      | true =>
          rcases step with ⟨_, rfl⟩
          exact ⟨none, owned.handOver holds, rfl⟩
      | false =>
          cases step
          exact ⟨some target, owned.same holds, rfl⟩

theorem keeps_unhookTarget (engine : Engine) (target : Nat) :
    (unhookTarget engine target).Keeps machine (Owned (ι := ι))
      (fun token unhooked => token = if unhooked then some target else none) none := by
  unfold unhookTarget
  split
  · rfl
  · split
    · rfl
    · rintro tokens i before answer after holds owned step
      cases answer with
      | true =>
          rcases step with ⟨inBackend, rfl⟩
          exact ⟨some target, owned.takeBack holds inBackend, rfl⟩
      | false =>
          cases step
          exact ⟨none, owned.same holds, rfl⟩

theorem keeps_inlineHook (engine : Engine) (target address : Nat) :
    Keeps (ι := ι) none (inlineHook engine target address) := by
  unfold inlineHook
  split
  · rfl
  · rintro tokens i before inserted after holds owned ⟨isInserted, rfl⟩
    cases inserted with
    | true =>
        have fresh : target ∉ before.hooked := of_decide_eq_true isInserted.symm
        refine ⟨some target, owned.claim holds fresh, ?_⟩
        apply Prog.Keeps.bind (keeps_hookTarget engine target address)
        intro token hooked isToken
        cases hooked with
        | true => exact isToken
        | false =>
            rw [isToken]
            exact keeps_erase target ZN_FAILED
    | false =>
        have present : target ∈ before.hooked := by
          by_contra absent
          rw [decide_eq_true absent] at isInserted
          cases isInserted
        rw [Finset.insert_eq_of_mem present]
        exact ⟨none, owned.same holds, rfl⟩

theorem keeps_inlineUnhook (engine : Engine) (target : Nat) :
    Keeps (ι := ι) none (inlineUnhook engine target) := by
  unfold inlineUnhook
  split
  · rfl
  · rintro tokens i before found after holds owned ⟨_, rfl⟩
    refine ⟨none, owned.same holds, ?_⟩
    cases found with
    | false => rfl
    | true =>
        apply Prog.Keeps.bind (keeps_unhookTarget engine target)
        intro token unhooked isToken
        cases unhooked with
        | false => exact isToken
        | true =>
            rw [isToken]
            exact keeps_erase target ZN_SUCCESS

theorem keeps_program (call : ApiCall) : Keeps (ι := ι) none call.program := by
  cases call with
  | hook engine target address => exact keeps_inlineHook engine target address
  | unhook engine target => exact keeps_inlineUnhook engine target

end Ownership

section Runs

variable {ι : Type} [DecidableEq ι]

/-- The calls before any of them has started. -/
def unstarted (calls : ι → ApiCall) : Pool Sys ι Int State where
  threads i := (calls i).program
  shared := {}

/-- The runs of the calls. -/
abbrev system (calls : ι → ApiCall) : System (Pool Sys ι Int State) (ι × Exchange Sys) :=
  Pool.system machine (unstarted calls)

/-- The backend has hooked the address for the call. -/
def HookedBy (target : Nat) (i : ι) (event : ι × Exchange Sys) : Prop :=
  ∃ replacement, event = (i, ⟨.hook target replacement, true⟩)

/-- The backend has unhooked the address. -/
def Unhooked (target : Nat) (event : ι × Exchange Sys) : Prop :=
  ∃ i, event = (i, ⟨.unhook target, true⟩)

variable {calls : ι → ApiCall} {pool : Pool Sys ι Int State}
  {steps : List (Pool Sys ι Int State × (ι × Exchange Sys))}

/-- A call has started and has not ended. -/
def InFlight (steps : List (Pool Sys ι Int State × (ι × Exchange Sys)))
    (pool : Pool Sys ι Int State) (i : ι) : Prop :=
  (∃ step ∈ steps, step.2.1 = i) ∧ ∀ value, pool.threads i ≠ .pure value

theorem says_inlineHook (engine : Engine) (target address : Nat) :
    (inlineHook engine target address).Says fun result transcript =>
      result = ZN_SUCCESS → ⟨.hook target address, true⟩ ∈ transcript := by
  unfold inlineHook
  split
  · rintro ⟨⟩
  · intro inserted
    cases inserted with
    | false => rintro ⟨⟩
    | true =>
        change (((hookTarget engine target address).bind _).Says _)
        rw [Prog.says_bind]
        unfold hookTarget
        split
        · rintro answer ⟨⟩
        · split
          · rintro answer ⟨⟩
          · intro hooked
            cases hooked with
            | false => rintro answer ⟨⟩
            | true => exact fun _ => by simp

/-- A call of `inlineHook` that has succeeded had the address hooked by the backend. -/
theorem exists_hookedBy (run : (system calls).Run (unstarted calls) steps pool) {i : ι}
    {engine : Engine} {target address : Nat} (isHook : calls i = .hook engine target address)
    (succeeded : pool.threads i = .pure ZN_SUCCESS) :
    ∃ step ∈ steps, HookedBy target i step.2 := by
  have talks := Pool.talks_of_done run succeeded
  have program : (unstarted calls).threads i = inlineHook engine target address := by
    change (calls i).program = _
    rw [isHook]
    rfl
  rw [program] at talks
  have present := talks.of_says (says_inlineHook engine target address) rfl
  rcases Pool.mem_own.mp present with ⟨step, inSteps, same⟩
  exact ⟨step, inSteps, address, same⟩

/-- Between two hooks of one address by the backend it has unhooked the address. -/
theorem unhooked_between (run : (system calls).Run (unstarted calls) steps pool)
    {front middle behind : List (Pool Sys ι Int State × (ι × Exchange Sys))}
    {first second : Pool Sys ι Int State × (ι × Exchange Sys)} {target : Nat} {i j : ι}
    (split : steps = front ++ first :: middle ++ second :: behind)
    (isFirst : HookedBy target i first.2) (isSecond : HookedBy target j second.2) :
    ∃ step ∈ middle, Unhooked target step.2 := by
  have marks : ∀ pool event pool', (system calls).Step pool event pool' →
      (∃ k, HookedBy target k event) →
        ¬target ∈ pool.shared.backend ∧ target ∈ pool'.shared.backend := by
    rintro pool event pool' ⟨isNext, step⟩ ⟨k, replacement, same⟩
    cases same
    rcases step with ⟨absent, rfl⟩
    exact ⟨absent, Finset.mem_insert_self _ _⟩
  have keeps : ∀ pool event pool', (system calls).Step pool event pool' →
      ¬Unhooked target event → target ∈ pool.shared.backend → target ∈ pool'.shared.backend := by
    rintro pool event pool' ⟨isNext, step⟩ notUnhooked present
    rename_i k request next answer shared
    cases request with
    | claim other =>
        rw [step.2]
        exact present
    | erase other =>
        cases step
        exact present
    | find other =>
        rw [step.2]
        exact present
    | hook other replacement =>
        cases answer with
        | true =>
            rw [step.2]
            exact Finset.mem_insert_of_mem present
        | false =>
            cases step
            exact present
    | unhook other =>
        cases answer with
        | true =>
            rw [step.2]
            refine Finset.mem_erase.mpr ⟨?_, present⟩
            rintro rfl
            exact notUnhooked ⟨k, rfl⟩
        | false =>
            cases step
            exact present
  exact run.cleared_between marks keeps split ⟨i, isFirst⟩ ⟨j, isSecond⟩

omit [DecidableEq ι] in
/-- Two members of a list stand in one order or the other. -/
theorem exists_split {α : Type} {items : List α} {a b : α} (isA : a ∈ items) (isB : b ∈ items)
    (apart : a ≠ b) :
    ∃ front first middle second behind, items = front ++ first :: middle ++ second :: behind ∧
      (first = a ∧ second = b ∨ first = b ∧ second = a) := by
  rcases List.append_of_mem isA with ⟨front, behind, rfl⟩
  rcases List.mem_append.mp isB with inFront | inBehind
  · rcases List.append_of_mem inFront with ⟨before, middle, rfl⟩
    exact ⟨before, b, middle, a, behind, rfl, .inr ⟨rfl, rfl⟩⟩
  · rcases List.mem_cons.mp inBehind with same | later
    · exact absurd same.symm apart
    · rcases List.append_of_mem later with ⟨middle, after, rfl⟩
      exact ⟨front, a, middle, b, after, by simp, .inl ⟨rfl, rfl⟩⟩

/-- In every run of any calls: what the backend has hooked is claimed, two successful hooks of one
address are separated by an unhook, and between the calls the two sets agree. -/
theorem ownership (run : (system calls).Run (unstarted calls) steps pool) :
    pool.shared.backend ⊆ pool.shared.hooked ∧
      (∀ i j engine engine' target address address', i ≠ j →
        calls i = .hook engine target address → calls j = .hook engine' target address' →
        pool.threads i = .pure ZN_SUCCESS → pool.threads j = .pure ZN_SUCCESS →
        ∃ front first middle second behind, steps = front ++ first :: middle ++ second :: behind ∧
          (HookedBy target i first.2 ∧ HookedBy target j second.2 ∨
            HookedBy target j first.2 ∧ HookedBy target i second.2) ∧
          ∃ step ∈ middle, Unhooked target step.2) ∧
      ((∀ i, ¬InFlight steps pool i) → pool.shared.hooked = pool.shared.backend) := by
  rcases Pool.invariant_of_keeps run Owned.start fun i => keeps_program (calls i) with
    ⟨tokens, owned, keeps, unmoved⟩
  refine ⟨?_, ?_, ?_⟩
  · intro target inBackend
    exact (owned.hooked target).mpr (.inl inBackend)
  · intro i j engine engine' target address address' apart isFirst isSecond first second
    rcases exists_hookedBy run isFirst first with ⟨one, inSteps, hookedOne⟩
    rcases exists_hookedBy run isSecond second with ⟨two, present, hookedTwo⟩
    have different : one ≠ two := by
      rintro rfl
      rcases hookedOne with ⟨_, isOne⟩
      rcases hookedTwo with ⟨_, isTwo⟩
      exact apart (congrArg Prod.fst (isOne.symm.trans isTwo))
    rcases exists_split inSteps present different with
      ⟨front, a, middle, b, behind, split, ⟨rfl, rfl⟩ | ⟨rfl, rfl⟩⟩
    · exact ⟨front, a, middle, b, behind, split, .inl ⟨hookedOne, hookedTwo⟩,
        unhooked_between run split hookedOne hookedTwo⟩
    · exact ⟨front, a, middle, b, behind, split, .inr ⟨hookedTwo, hookedOne⟩,
        unhooked_between run split hookedTwo hookedOne⟩
  · intro quiet
    have nothing : ∀ i, tokens i = none := by
      intro i
      by_cases started : ∃ step ∈ steps, step.2.1 = i
      · have ended := quiet i
        rw [InFlight, not_and, not_forall_not] at ended
        rcases ended started with ⟨value, done⟩
        have final := keeps i
        rw [done] at final
        exact final
      · apply unmoved i
        intro step present same
        exact started ⟨step, present, same⟩
    ext target
    rw [owned.hooked]
    simp [nothing]

/-- The answers of a backend that refuses nothing but what it has to. -/
def willing (request : Call) (state : State) : request.Answer × State :=
  match request with
  | .claim target =>
      (decide (target ∉ state.hooked), { state with hooked := insert target state.hooked })
  | .erase target => ((), { state with hooked := state.hooked.erase target })
  | .find target => (decide (target ∈ state.hooked), state)
  | .hook target _ =>
      if target ∈ state.backend then (false, state)
      else (true, { state with backend := insert target state.backend })
  | .unhook target =>
      if target ∈ state.backend then
        (true, { state with backend := state.backend.erase target })
      else (false, state)

theorem sound_willing (request : Call) (state : State) :
    machine.Step state request (willing request state).1 (willing request state).2 := by
  cases request with
  | claim target => exact ⟨rfl, rfl⟩
  | erase target => rfl
  | find target => exact ⟨rfl, rfl⟩
  | hook target replacement =>
      by_cases present : target ∈ state.backend
      · simp [machine, willing, present]
      · simp [machine, willing, present]
  | unhook target =>
      by_cases present : target ∈ state.backend
      · simp [machine, willing, present]
      · simp [machine, willing, present]

/-- Two modules hook one address. -/
def racing (_ : Bool) : ApiCall :=
  .hook .dobby 4096 8192

/-- Both claim it before the first of them has it hooked. -/
def race : List (Pool Sys Bool Int State × (Bool × Exchange Sys)) × Pool Sys Bool Int State :=
  Pool.exec willing [true, false, true] ([], unstarted racing)

/-- Of two modules that race for an address one is told that it owns it. -/
theorem ownership_of_race :
    race.2.threads true = .pure ZN_SUCCESS ∧ race.2.threads false = .pure ZN_FAILED ∧
      race.2.shared.hooked = race.2.shared.backend := by
  have run : (system racing).Run (unstarted racing) race.1 race.2 :=
    Pool.run_exec sound_willing [true, false, true] .nil
  have first : race.2.threads true = .pure ZN_SUCCESS := rfl
  have second : race.2.threads false = .pure ZN_FAILED := rfl
  refine ⟨first, second, (ownership run).2.2 ?_⟩
  rintro (_ | _) ⟨_, unfinished⟩
  · exact unfinished _ second
  · exact unfinished _ first

end Runs

end InlineHook

end Znn.Loader
