import Mathlib.Algebra.Order.BigOperators.Group.List
import Mathlib.Algebra.Order.Ring.Nat
import Znn.Bytes.Patches
import Znn.Loader.InlineHook

/-!
# The patches of And64InlineHook

`and64inlinehookHook` keeps the five words at the target before the engine writes a jump over them,
and `and64inlinehookUnhook` puts them back. Where two targets lie so near to each other that their
words overlap, what is kept of one may be the jump of the other: the code is as it was before as
long as a hook is not taken away from under one that came later.

Both functions run under one lock. The engine itself is not here: it writes nothing but the words
at the target and the trampoline it is given.
-/

namespace Znn.Loader

open Interaction

namespace And64InlineHook

def kPatchBytes : Nat := 20

def kTrampolineBytes : Nat := 4096

inductive Call where
  | pageSize
  | mprotect (start length : Nat)
  | mmap (length : Nat)
  | munmap (address length : Nat)
  | load (address length : Nat)
  | store (address : Nat) (bytes : List UInt8)
  | clearCache (start stop : Nat)
  | hookFunction (target replacement trampoline length : Nat)
deriving DecidableEq

/-- A result of `MAP_FAILED` or `nullptr` is no result. -/
abbrev Call.Answer : Call → Type
  | .pageSize => Int
  | .mprotect _ _ => Bool
  | .mmap _ => Option Nat
  | .munmap _ _ => Unit
  | .load _ _ => List UInt8
  | .store _ _ => Unit
  | .clearCache _ _ => Unit
  | .hookFunction _ _ _ _ => Bool

abbrev Sys : Interface where
  Call := Call
  Answer := Call.Answer

abbrev perform (request : Call) : Prog Sys request.Answer :=
  Prog.perform (I := Sys) request

structure HookRecord where
  backup : List UInt8
  trampoline : Nat
deriving DecidableEq, Repr

/-- `g_records`: by their addresses, in the order in which they came. -/
abbrev Records : Type := List (Nat × HookRecord)

def Records.find? (records : Records) (target : Nat) : Option HookRecord :=
  (List.find? (fun entry => entry.1 == target) records).map Prod.snd

def Records.erase (records : Records) (target : Nat) : Records :=
  records.filter fun entry => entry.1 != target

/-- `address & ~align_mask`, for the widest addresses. -/
def alignDown (address alignMask : Nat) : Nat :=
  address &&& ((2 ^ 64 - 1) ^^^ alignMask)

def makePatchWritable (target : Nat) : Prog Sys Bool := do
  let pageSize ← perform .pageSize
  if pageSize ≤ 0 then
    return false
  let alignMask := pageSize.toNat - 1
  let start := alignDown target alignMask
  let stop := alignDown (target + kPatchBytes + alignMask) alignMask
  perform (.mprotect start (stop - start))

def flushPatch (target : Nat) : Prog Sys Unit :=
  perform (.clearCache target (target + kPatchBytes))

/-- `and64inlinehookHook`: the trampoline that it stores in `*original` when it returns true. -/
def hook (target replacement : Nat) : StateProg Sys Records (Option Nat) := do
  let records ← get
  if (records.find? target).isSome then
    return none
  let some trampoline ← perform (.mmap kTrampolineBytes)
    | return none
  if !(← makePatchWritable target) then
    perform (.munmap trampoline kTrampolineBytes)
    return none
  let backup ← perform (.load target kPatchBytes)
  if !(← perform (.hookFunction target replacement trampoline kTrampolineBytes)) then
    perform (.store target backup)
    flushPatch target
    perform (.munmap trampoline kTrampolineBytes)
    return none
  modify fun records => records ++ [(target, { backup := backup, trampoline := trampoline })]
  return some trampoline

/-- `and64inlinehookUnhook`. -/
def unhook (target : Nat) : StateProg Sys Records Bool := do
  let records ← get
  let some record := records.find? target
    | return false
  if !(← makePatchWritable target) then
    return false
  perform (.store target record.backup)
  flushPatch target
  perform (.munmap record.trampoline kTrampolineBytes)
  modify fun records => records.erase target
  return true

/-- The code of the process, and what has been mapped for trampolines. -/
structure Text where
  code : Nat → UInt8
  trampolines : List Nat := []

/-- The patch of a hook at this address reaches there. -/
def window (target address : Nat) : Bool :=
  decide (target ≤ address) && decide (address < target + kPatchBytes)

/-- The code with bytes written over it. -/
def Text.write (text : Text) (start : Nat) (bytes : List UInt8) : Text :=
  { text with code := fun address =>
      if start ≤ address then bytes.getD (address - start) (text.code address)
      else text.code address }

/-- What the system and the engine do. A new mapping is a place that no other trampoline has, and
`munmap` does not fail; the engine leaves all code alone that is not in the five words, even where
it fails. -/
def machine : Machine Sys Text where
  Step before request answer after :=
    match request, answer with
    | .mmap _, some address => address ∉ before.trampolines ∧
        after = { before with trampolines := before.trampolines ++ [address] }
    | .munmap address _, _ =>
        after = { before with trampolines := before.trampolines.erase address }
    | .load address length, bytes =>
        bytes = (List.range length).map (fun index => before.code (address + index)) ∧
          after = before
    | .store address bytes, _ => after = before.write address bytes
    | .hookFunction target _ _ _, _ => ∃ code : Nat → UInt8,
        (∀ address, window target address = false → code address = before.code address) ∧
          after = { before with code := code }
    | .mmap _, none | .pageSize, _ | .mprotect _ _, _ | .clearCache _ _, _ => after = before

inductive ApiCall where
  | hook (target replacement : Nat)
  | unhook (target : Nat)
deriving DecidableEq

abbrev ApiCall.Answer : ApiCall → Type
  | .hook _ _ => Option Nat
  | .unhook _ => Bool

abbrev Api : Interface where
  Call := ApiCall
  Answer := ApiCall.Answer

def body : (request : ApiCall) → StateProg Sys Records request.Answer
  | .hook target replacement => hook target replacement
  | .unhook target => unhook target

/-- Any calls of the two functions, one after another. -/
def backend (code : Nat → UInt8) : System (Records × Text) (Exchange Api) where
  Initial state := state = ([], { code := code })
  Step before exchange after :=
    (machine.sections (J := Api) body).Step before exchange.1 exchange.2 after

/-- No hook that came later reaches into the words at the target. -/
def Records.Uncovered (records : Records) (target : Nat) : Prop :=
  ∀ front record back, records = front ++ (target, record) :: back →
    ∀ later ∈ back, target + kPatchBytes ≤ later.1 ∨ later.1 + kPatchBytes ≤ target

/-- A hook is taken away only where no later one covers it. -/
def Orderly (before : Records × Text) (exchange : Exchange Api) : Prop :=
  ∀ target, exchange = ⟨.unhook target, true⟩ → before.1.Uncovered target

/-- What `api::inlineHook` and `api::inlineUnhook` rely on: the addresses that are hooked. -/
def Records.backend (records : Records) : InlineHook.State :=
  { backend := (records.map Prod.fst).toFinset }

/-- The step as one of the backend behind the API. -/
def Refines (before after : Records) : Exchange Api → Prop
  | ⟨.hook target replacement, answer⟩ =>
      InlineHook.machine.Step before.backend (.hook target replacement) (Option.isSome answer)
        after.backend
  | ⟨.unhook target, answer⟩ =>
      InlineHook.machine.Step before.backend (.unhook target) answer after.backend

theorem backend_append (records : Records) (target : Nat) (record : HookRecord) :
    Records.backend (records ++ [(target, record)]) =
      { records.backend with backend := insert target records.backend.backend } := by
  unfold Records.backend
  congr 1
  ext address
  simp [@or_comm (address = target)]

theorem backend_erase (records : Records) (target : Nat) :
    (records.erase target).backend =
      { records.backend with backend := records.backend.backend.erase target } := by
  unfold Records.backend
  congr 1
  ext address
  simp [Records.erase, and_comm]

section Layers

open Patches

variable {original : Nat → UInt8} {records : Records} {text : Text} {target replacement : Nat}

/-- A record keeps what the layer at its words keeps. -/
structure Fits (entry : Nat × HookRecord) (layer : Layer Nat UInt8) : Prop where
  covers : layer.patch.covers = window entry.1
  backup : entry.2.backup = (List.range kPatchBytes).map fun index => layer.kept (entry.1 + index)

/-- The code is the original one under the patches of the hooks. The mapped trampolines are theirs,
and no address is hooked twice. -/
structure Sound (original : Nat → UInt8) (records : Records) (text : Text) : Prop where
  layers : ∃ layers, List.Forall₂ Fits records layers ∧ Saved original layers ∧
    text.code = overlay original (layers.map Layer.patch)
  trampolines : text.trampolines.Perm (records.map fun entry => entry.2.trampoline)
  distinct : text.trampolines.Nodup
  keys : (records.map Prod.fst).Nodup

theorem window_iff {address : Nat} :
    window target address = true ↔ target ≤ address ∧ address < target + kPatchBytes := by
  rw [window, Bool.and_eq_true, decide_eq_true_eq, decide_eq_true_eq]

/-- Putting back what was kept is one more patch. -/
theorem Fits.write {entry : Nat × HookRecord} {layer : Layer Nat UInt8} (fits : Fits entry layer)
    (text : Text) : (text.write entry.1 entry.2.backup).code =
      Patch.over ⟨layer.patch.covers, layer.kept⟩ text.code := by
  funext address
  unfold Text.write Patch.over
  dsimp only
  rw [fits.covers, fits.backup]
  by_cases inside : entry.1 ≤ address ∧ address < entry.1 + kPatchBytes
  · have near : address - entry.1 < kPatchBytes := by omega
    rw [if_pos inside.1, if_pos (window_iff.mpr inside)]
    simp [near, Nat.add_sub_cancel' inside.1]
  · have outside : ¬window entry.1 address = true :=
      fun covered => inside (window_iff.mp covered)
    rw [if_neg outside]
    split
    case isFalse => rfl
    case isTrue above =>
      have far : kPatchBytes ≤ address - entry.1 := by
        have beyond := fun below => inside ⟨above, below⟩
        omega
      rw [List.getD_eq_getElem?_getD, List.getElem?_eq_none (by simpa using far), Option.getD_none]

theorem find?_none (free : records.find? target = none) : target ∉ records.map Prod.fst := by
  rintro member
  rcases List.mem_map.mp member with ⟨entry, present, rfl⟩
  rw [Records.find?, Option.map_eq_none_iff, List.find?_eq_none] at free
  exact free entry present (beq_self_eq_true _)

/-- The record of an address, with those that came before it and after it. -/
theorem find?_split {record : HookRecord} (found : records.find? target = some record)
    (keys : (records.map Prod.fst).Nodup) :
    ∃ front back, records = front ++ (target, record) :: back ∧
      records.erase target = front ++ back := by
  rw [Records.find?, Option.map_eq_some_iff] at found
  rcases found with ⟨entry, isFound, rfl⟩
  have same : entry.1 = target := by simpa using List.find?_some isFound
  subst same
  rcases List.append_of_mem (List.mem_of_find?_eq_some isFound) with ⟨front, back, split⟩
  refine ⟨front, back, split, ?_⟩
  have others : ∀ other ∈ front ++ back, (other.1 != entry.1) = true := by
    rw [split, List.map_append, List.map_cons, List.nodup_middle, List.nodup_cons,
      ← List.map_append] at keys
    intro other member
    rw [bne_iff_ne]
    intro same
    exact keys.1 (List.mem_map.mpr ⟨other, member, same⟩)
  rw [List.forall_mem_append] at others
  rw [Records.erase, split, List.filter_append, List.filter_cons_of_neg (by simp),
    List.filter_eq_self.mpr others.1, List.filter_eq_self.mpr others.2]

theorem wp_makePatchWritable {post : Bool → Text → Prop} (holds : ∀ writable, post writable text) :
    (makePatchWritable target).wp machine post text := by
  rintro pageSize _ rfl
  change Prog.wp machine (if pageSize ≤ 0 then _ else _) _ _
  split
  · exact holds false
  · rintro writable _ rfl
    exact holds writable

/-- A hook has laid one more patch, or left everything as it was. -/
def AfterHook (original : Nat → UInt8) (records : Records) (target : Nat) (result : Option Nat)
    (state : Records × Text) : Prop :=
  Sound original state.1 state.2 ∧ ((result = none ∧ state.1 = records) ∨
    target ∉ records.map Prod.fst ∧ ∃ trampoline record, result = some trampoline ∧
      state.1 = records ++ [(target, record)])

theorem wp_hook (sound : Sound original records text) :
    StateProg.wp machine (hook target replacement) (fun result records' text' =>
      AfterHook original records target result (records', text')) records text := by
  have unchanged : ∀ text' : Text, text'.code = text.code →
      text'.trampolines = text.trampolines →
        AfterHook original records target none (records, text') := by
    rintro text' code trampolines
    refine ⟨⟨?_, ?_, ?_, sound.keys⟩, .inl ⟨rfl, rfl⟩⟩
    · rw [code]
      exact sound.layers
    · rw [trampolines]
      exact sound.trampolines
    · rw [trampolines]
      exact sound.distinct
  unfold hook
  rw [StateProg.wp_bind, StateProg.wp_get]
  split
  case isTrue => exact unchanged text rfl rfl
  case isFalse free =>
    rw [Option.not_isSome_iff_eq_none] at free
    rw [StateProg.wp_bind, StateProg.wp_lift]
    rintro (_ | trampoline) mapped moved
    · cases moved
      exact unchanged text rfl rfl
    · rcases moved with ⟨unused, rfl⟩
      have unmapped : (text.trampolines ++ [trampoline]).erase trampoline = text.trampolines := by
        rw [List.erase_append_right _ unused, List.erase_cons_head, List.append_nil]
      rw [Prog.wp_pure]
      dsimp only
      rw [StateProg.wp_bind, StateProg.wp_lift]
      apply wp_makePatchWritable
      rintro writable
      cases writable with
      | false =>
          rintro _ _ rfl
          exact unchanged _ rfl unmapped
      | true =>
          rintro backup _ ⟨isBackup, rfl⟩ hooked _ ⟨code, apart, rfl⟩
          let layer : Layer Nat UInt8 := ⟨⟨window target, code⟩, text.code⟩
          have fits : Fits (target, { backup := backup, trampoline := trampoline }) layer :=
            ⟨rfl, isBackup⟩
          have laid : layer.patch.over text.code = code := by
            funext address
            unfold Patch.over
            split
            · rfl
            · exact (apart address (Bool.not_eq_true _ ▸ ‹_›)).symm
          cases hooked with
          | false =>
              rintro _ _ rfl _ _ rfl _ _ rfl
              refine unchanged _ ((fits.write _).trans ?_) unmapped
              funext address
              unfold Patch.over
              split
              · rfl
              · exact apart address (Bool.not_eq_true _ ▸ ‹_›)
          | true =>
              have new := find?_none free
              refine ⟨⟨?_, ?_, ?_, ?_⟩, .inr ⟨new, trampoline, _, rfl, rfl⟩⟩
              · rcases sound.layers with ⟨layers, each, saved, isCode⟩
                refine ⟨layers ++ [layer], List.rel_append each (.cons fits .nil), ?_, ?_⟩
                · apply saved.snoc
                  exact fun place _ => congrFun isCode place
                · rw [List.map_append, List.map_singleton, overlay_append, ← isCode]
                  exact laid.symm
              · rw [List.map_append, List.map_singleton]
                exact sound.trampolines.append_right _
              · have nodup := sound.distinct.concat unused
                rwa [List.concat_eq_append] at nodup
              · rw [List.map_append, List.map_singleton]
                have nodup := sound.keys.concat new
                rwa [List.concat_eq_append] at nodup

theorem forall₂_split {α β : Type} {relates : α → β → Prop} {front back : List α} {item : α}
    {others : List β} (each : List.Forall₂ relates (front ++ item :: back) others) :
    ∃ front' item' back', others = front' ++ item' :: back' ∧
      List.Forall₂ relates front front' ∧ relates item item' ∧ List.Forall₂ relates back back' := by
  induction front generalizing others with
  | nil =>
      cases each with
      | cons here later => exact ⟨[], _, _, rfl, .nil, here, later⟩
  | cons head front ih =>
      cases each with
      | cons here later =>
          rcases ih later with ⟨front', item', back', rfl, isFront, isItem, isBack⟩
          exact ⟨_ :: front', item', back', rfl, .cons here isFront, isItem, isBack⟩

/-- The layer of a hook that no later one covers. -/
theorem apart_of_uncovered {front back : Records} {record : HookRecord} {layer : Layer Nat UInt8}
    {upper : List (Layer Nat UInt8)}
    (uncovered : Records.Uncovered (front ++ (target, record) :: back) target)
    (fits : Fits (target, record) layer) (each : List.Forall₂ Fits back upper) :
    ∀ other ∈ upper, layer.patch.Apart other.patch := by
  have apart := uncovered front record back rfl
  clear uncovered
  induction each with
  | nil => nofun
  | cons here later ih =>
      rename_i entry other back upper
      intro third member
      rcases List.mem_cons.mp member with rfl | member
      · intro place covered
        have near := apart entry List.mem_cons_self
        rw [fits.covers, window_iff] at covered
        rw [here.covers, ← Bool.not_eq_true, window_iff]
        dsimp only at covered
        omega
      · exact ih (fun later member => apart later (List.mem_cons_of_mem _ member)) third member

/-- An unhook has taken the patch away, or left everything as it was. -/
def AfterUnhook (original : Nat → UInt8) (records : Records) (target : Nat) (result : Bool)
    (state : Records × Text) : Prop :=
  Sound original state.1 state.2 ∧ ((result = false ∧ state.1 = records) ∨
    result = true ∧ target ∈ records.map Prod.fst ∧ state.1 = records.erase target)

theorem wp_unhook (sound : Sound original records text) :
    StateProg.wp machine (unhook target) (fun result records' text' =>
      (result = true → records.Uncovered target) →
        AfterUnhook original records target result (records', text')) records text := by
  unfold unhook
  rw [StateProg.wp_bind, StateProg.wp_get]
  cases found : records.find? target with
  | none => exact fun _ => ⟨sound, .inl ⟨rfl, rfl⟩⟩
  | some record =>
      dsimp only
      rw [StateProg.wp_bind, StateProg.wp_lift]
      apply wp_makePatchWritable
      rintro writable
      cases writable with
      | false => exact fun _ => ⟨sound, .inl ⟨rfl, rfl⟩⟩
      | true =>
          rintro _ _ rfl _ _ rfl _ _ rfl orderly
          change AfterUnhook original records target true (records.erase target, _)
          have uncovered := orderly rfl
          rcases find?_split found sound.keys with ⟨front, back, split, rest⟩
          rcases sound.layers with ⟨layers, each, saved, isCode⟩
          rw [split] at each uncovered
          rcases forall₂_split each with ⟨lower, layer, upper, rfl, eachLower, fits, eachUpper⟩
          have apart := apart_of_uncovered uncovered fits eachUpper
          have member : target ∈ records.map Prod.fst := by
            rw [split]
            simp
          refine ⟨⟨⟨lower ++ upper, ?_, saved.remove apart, ?_⟩, ?_, ?_, ?_⟩,
            .inr ⟨rfl, member, rfl⟩⟩
          · rw [rest]
            exact List.rel_append eachLower eachUpper
          · refine (fits.write _).trans ?_
            rw [isCode, List.map_append, List.map_cons, List.map_append]
            apply overlay_restore
            · intro other isOther
              rcases List.mem_map.mp isOther with ⟨later, isLater, rfl⟩
              exact apart later isLater
            · exact fun place covered => saved lower layer upper rfl place covered
          · have held := sound.trampolines
            rw [split, List.map_append, List.map_cons] at held
            rw [rest, List.map_append]
            have erased := (held.trans List.perm_middle).erase record.trampoline
            rwa [List.erase_cons_head] at erased
          · exact sound.distinct.erase _
          · exact sound.keys.sublist ((List.filter_sublist).map _)

/-- A section under the lock keeps the invariant, and is a step of the backend that the API relies
on. -/
theorem sound_step {code : Nat → UInt8} {before after : Records × Text} {exchange : Exchange Api}
    (sound : Sound original before.1 before.2) (orderly : Orderly before exchange)
    (step : (backend code).Step before exchange after) :
    Sound original after.1 after.2 ∧ Refines before.1 after.1 exchange := by
  rcases exchange with ⟨request, answer⟩
  cases request with
  | hook target replacement =>
      have hooks : StateProg.wp machine (body (.hook target replacement)) (fun result records text =>
          AfterHook original before.1 target result (records, text)) before.1 before.2 :=
        wp_hook sound
      have holds := StateProg.of_section (AfterHook original before.1 target) step hooks
      rcases holds with ⟨kept, ⟨rfl, same⟩ | ⟨new, trampoline, record, rfl, added⟩⟩
      · exact ⟨kept, congrArg Records.backend same⟩
      · refine ⟨kept, by simpa [Records.backend] using new, ?_⟩
        rw [added]
        exact backend_append before.1 target record
  | unhook target =>
      have unhooks : StateProg.wp machine (body (.unhook target)) (fun result records text =>
          (result = true → before.1.Uncovered target) →
            AfterUnhook original before.1 target result (records, text)) before.1 before.2 :=
        wp_unhook sound
      have holds : (answer = true → before.1.Uncovered target) →
          AfterUnhook original before.1 target answer after :=
        StateProg.of_section (fun result state => (result = true → before.1.Uncovered target) →
          AfterUnhook original before.1 target result state) step unhooks
      have uncovered : answer = true → before.1.Uncovered target := by
        rintro rfl
        exact orderly target rfl
      rcases holds uncovered with ⟨kept, ⟨rfl, same⟩ | ⟨rfl, member, erased⟩⟩
      · exact ⟨kept, congrArg Records.backend same⟩
      · refine ⟨kept, by simpa [Records.backend] using member, ?_⟩
        rw [erased]
        exact backend_erase before.1 target

theorem sound_of_reachable {code : Nat → UInt8} {state : Records × Text}
    (reached : ((backend code).restrict Orderly).Reachable state) : Sound code state.1 state.2 := by
  apply reached.induct
  · rintro _ rfl
    exact ⟨⟨[], .nil, saved_nil, rfl⟩, .nil, .nil, .nil⟩
  · intro before exchange after sound orderly step
    exact (sound_step sound orderly step).1

theorem overlay_layers {layers : List (Layer Nat UInt8)} (each : List.Forall₂ Fits records layers)
    {address : Nat} (outside : ∀ target ∈ records.map Prod.fst, window target address = false) :
    overlay original (layers.map Layer.patch) address = original address := by
  apply overlay_of_uncovered
  induction each with
  | nil => simp
  | cons here later ih =>
      intro patch member
      rw [List.map_cons, List.mem_cons] at member
      rcases member with rfl | member
      · rw [here.covers]
        exact outside _ (List.mem_map_of_mem List.mem_cons_self)
      · exact ih (fun target isTarget => outside target (List.mem_cons_of_mem _ isTarget)) patch
          member

end Layers

/-- However often addresses are hooked and unhooked again, none from under one that came later, and
whatever fails but `munmap`: outside of the words of the hooks in force the code is the one that it
was at first, the trampolines that are mapped are theirs, and a step does to the hooked addresses
what the API takes a backend to do. -/
theorem hooks_undone {code : Nat → UInt8} {records : Records} {text : Text}
    (reached : ((backend code).restrict Orderly).Reachable (records, text)) :
    (∀ address, (∀ target ∈ records.map Prod.fst, window target address = false) →
      text.code address = code address) ∧
    text.trampolines.Perm (records.map fun entry => entry.2.trampoline) ∧
    text.trampolines.Nodup ∧
    ∀ exchange after, Orderly (records, text) exchange →
      (backend code).Step (records, text) exchange after → Refines records after.1 exchange := by
  have sound := sound_of_reachable reached
  refine ⟨?_, sound.trampolines, sound.distinct, ?_⟩
  · intro address outside
    rcases sound.layers with ⟨layers, each, _, isCode⟩
    rw [isCode]
    exact overlay_layers each outside
  · intro exchange after orderly step
    exact (sound_step sound orderly step).2

/-- A system in which all goes well; a jump is written as the address it leads to. -/
def working (request : Call) (text : Text) : request.Answer × Text :=
  match request with
  | .pageSize => (4096, text)
  | .mprotect _ _ => (true, text)
  | .mmap _ =>
      let address := text.trampolines.sum + 1
      (some address, { text with trampolines := text.trampolines ++ [address] })
  | .munmap address _ => ((), { text with trampolines := text.trampolines.erase address })
  | .load address length =>
      ((List.range length).map fun index => text.code (address + index), text)
  | .store address bytes => ((), text.write address bytes)
  | .clearCache _ _ => ((), text)
  | .hookFunction target replacement _ _ =>
      let code := fun address =>
        if window target address then UInt8.ofNat replacement else text.code address
      (true, { text with code := code })

theorem sound_working (request : Call) (text : Text) :
    machine.Step text request (working request text).1 (working request text).2 := by
  cases request with
  | mmap length =>
      refine ⟨fun member => ?_, rfl⟩
      have bound := List.single_le_sum (fun _ _ => Nat.zero_le _) _ member
      omega
  | load address length => exact ⟨rfl, rfl⟩
  | hookFunction target replacement trampoline length =>
      refine ⟨_, fun address outside => ?_, rfl⟩
      rw [outside]
      rfl
  | _ => rfl

/-- One call of the API there. -/
def call (state : Records × Text) (request : ApiCall) : Exchange Api × (Records × Text) :=
  let ran := ((body request).run state.1).eval working state.2
  (⟨request, ran.1.1⟩, (ran.1.2, ran.2))

theorem step_call {code : Nat → UInt8} (state : Records × Text) (request : ApiCall) :
    (backend code).Step state (call state request).1 (call state request).2 :=
  StateProg.section_eval (J := Api) body sound_working request state

/-- Calls one after another, of code that is all alike. -/
def calls (requests : List ApiCall) : Records × Text :=
  requests.foldl (fun state request => (call state request).2) ([], { code := fun _ => 7 })

theorem hooks_undone_overlapping :
    (calls [.hook 100 1, .hook 104 2, .unhook 104]).1.map Prod.fst = [100] ∧
      (calls [.hook 100 1, .hook 104 2, .unhook 104]).2.code 120 = 7 := by
  have hooked : ∀ before target replacement,
      Orderly before (call before (.hook target replacement)).1 :=
    fun _ _ _ _ other => nomatch other
  have both : (calls [.hook 100 1, .hook 104 2]).1.map Prod.fst = [100, 104] := by
    decide +kernel
  have last : Orderly (calls [.hook 100 1, .hook 104 2])
      (call (calls [.hook 100 1, .hook 104 2]) (.unhook 104)).1 := by
    rintro _ ⟨⟩ front record back split later member
    rw [split] at both
    rcases front with _ | ⟨_, _ | _⟩ <;> simp_all
  have first : ((backend fun _ => 7).restrict Orderly).Reachable (calls [.hook 100 1]) :=
    .step (.initial rfl) ⟨hooked _ 100 1, step_call _ _⟩
  have second : ((backend fun _ => 7).restrict Orderly).Reachable
      (calls [.hook 100 1, .hook 104 2]) :=
    .step first ⟨hooked _ 104 2, step_call _ _⟩
  have reached : ((backend fun _ => 7).restrict Orderly).Reachable
      (calls [.hook 100 1, .hook 104 2, .unhook 104]) :=
    .step second ⟨last, step_call _ _⟩
  have addresses : (calls [.hook 100 1, .hook 104 2, .unhook 104]).1.map Prod.fst = [100] := by
    decide +kernel
  have outside : ∀ target ∈ (calls [.hook 100 1, .hook 104 2, .unhook 104]).1.map Prod.fst,
      window target 120 = false := by
    rw [addresses]
    decide +kernel
  exact ⟨addresses, (hooks_undone reached).1 120 outside⟩

/-- A hook that is taken away from under one that came later leaves its jump behind. -/
theorem hooks_out_of_order : ∃ text : Text, (backend fun _ => 7).Reachable ([], text) ∧
    text.code 104 ≠ 7 := by
  refine ⟨(calls [.hook 100 1, .hook 104 2, .unhook 100, .unhook 104]).2, ?_, by decide +kernel⟩
  have empty : (calls [.hook 100 1, .hook 104 2, .unhook 100, .unhook 104]).1 = [] := by
    decide +kernel
  have reached : (backend fun _ => 7).Reachable
      (calls [.hook 100 1, .hook 104 2, .unhook 100, .unhook 104]) :=
    ((((System.Reachable.initial rfl).step (step_call _ _)).step (step_call _ _)).step
      (step_call _ _)).step (step_call _ _)
  rwa [← empty]

end And64InlineHook

end Znn.Loader
