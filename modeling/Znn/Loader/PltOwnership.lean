import Znn.Loader.PltHook

/-!
# One owner for a PLT symbol

A call of `pltHook` that is told the original of a symbol owns it: the slot holds its replacement,
the record says so, and every other call is refused until the owner calls again with the original.
Two backends see to this by holding their lock, and one by claiming the symbol. With lsplt it takes
that no call installs its replacement over that of another which is not recorded yet.
-/

namespace Znn.Loader.PltHook

open Interaction

/-- The slot that is hooked. -/
def PltEngine.slot (engine : PltEngine) (target : Target) : Slot :=
  match engine with
  | .lsplt => ⟨.file target.dev target.inode, target.symbol⟩
  | _ => ⟨.path target.path, target.symbol⟩

/-- The key of its record. -/
def PltEngine.key (engine : PltEngine) (target : Target) : String :=
  match engine with
  | .lsplt => lspltKey target.dev target.inode target.symbol
  | _ => recordKey target.path target.symbol

/-- There is no record of the symbol. -/
def Free (engine : PltEngine) (target : Target) (globals : Globals) : Prop :=
  match engine with
  | .lsplt => globals.lspltRecords (engine.key target) = none
  | .byteHook =>
      globals.bytehookStubs (engine.key target) = none ∧
        engine.key target ∉ globals.bytehookPending
  | .xHook => ∀ record ∈ globals.xhookRecords, record.key ≠ engine.key target
  | .plti => globals.pltiRecords (engine.key target) = none
  | .disable => True

/-- The symbol is recorded, with its replacement and its original. -/
def Recorded (engine : PltEngine) (target : Target) (first replacement : Address)
    (globals : Globals) : Prop :=
  match engine with
  | .lsplt => globals.lspltRecords (engine.key target) = some ⟨replacement, first⟩
  | .byteHook =>
      globals.bytehookStubs (engine.key target) = some ⟨engine.slot target, some first⟩ ∧
        globals.bytehookOriginals (engine.key target) = some first ∧
          engine.key target ∉ globals.bytehookPending
  | .xHook =>
      ∃ others, globals.xhookRecords =
          others ++ [⟨target.path, target.symbol, replacement, some first⟩] ∧
        ∀ record ∈ others, record.key ≠ engine.key target
  | .plti => globals.pltiRecords (engine.key target) = some ⟨replacement, first⟩
  | .disable => False

/-- The slot holds its first value, and nothing stands in the way of a hook. -/
structure Unhooked (engine : PltEngine) (target : Target) (first : Address)
    (state : Globals × Engine) : Prop where
  slot : state.2.slots (engine.slot target) = first
  free : Free engine target state.1

/-- The symbol has an owner. -/
structure Hooked (engine : PltEngine) (target : Target) (first replacement : Address)
    (state : Globals × Engine) : Prop where
  slot : state.2.slots (engine.slot target) = replacement
  recorded : Recorded engine target first replacement state.1

/-- How a call that finds the symbol unhooked ends: it becomes the owner, or nothing changes. -/
def Attempted (present : Slot → Bool) (sure : Prop) (engine : PltEngine) (target : Target)
    (first replacement : Address) (result : Option Address) (state : Globals × Engine) : Prop :=
  match result with
  | none =>
      (sure → present (engine.slot target) = false) ∧ Unhooked engine target first state
  | some original =>
      original = first ∧ present (engine.slot target) = true ∧
        Hooked engine target first replacement state

/-- How the owner's call with the original ends. -/
def Undone (sure : Prop) (engine : PltEngine) (target : Target) (first : Address)
    (result : Option Address) (state : Globals × Engine) : Prop :=
  match result with
  | none => ¬sure
  | some _ => Unhooked engine target first state

section Sections

variable {present : Slot → Bool} {sure : Prop} {target : Target} {first replacement owner : Address}
  {globals : Globals} {engine : Engine} {others : List XhookRecord} {last : XhookRecord}
  {key : String}

theorem findXhook_none (apart : ∀ record ∈ globals.xhookRecords, record.key ≠ key) :
    globals.findXhook key = none := by
  apply List.find?_eq_none.mpr
  simpa using apart

theorem findXhook_last (records : globals.xhookRecords = others ++ [last])
    (apart : ∀ record ∈ others, record.key ≠ last.key) :
    globals.findXhook last.key = some last := by
  have before : others.find? (fun record => record.key = last.key) = none := by
    apply List.find?_eq_none.mpr
    simpa using apart
  rw [Globals.findXhook, records, List.find?_append, before]
  simp

theorem eraseXhook_last (records : globals.xhookRecords = others ++ [last])
    (apart : ∀ record ∈ others, record.key ≠ last.key) :
    globals.eraseXhook last.key = { globals with xhookRecords := others } := by
  rw [Globals.eraseXhook, records, List.filter_append, List.filter_eq_self.mpr]
  · simp
  · simpa using apart

theorem setReplacement_last (records : globals.xhookRecords = others ++ [last])
    (apart : ∀ record ∈ others, record.key ≠ last.key) (replacement : Address) :
    globals.setReplacement last.key replacement =
      { globals with xhookRecords := others ++ [{ last with replacement := replacement }] } := by
  have same : others.map (fun record =>
      if record.key = last.key then { record with replacement := replacement } else record) =
        others := by
    calc
      _ = others.map id :=
        List.map_congr_left fun record member => if_neg (apart record member)
      _ = others := List.map_id others
  rw [Globals.setReplacement, records, List.map_append, same]
  simp

/-- A record that could not be installed is taken back. -/
theorem wp_abandon (records : globals.xhookRecords = others ++ [last])
    (apart : ∀ record ∈ others, record.key ≠ last.key)
    (isTarget : last.key = recordKey target.path target.symbol)
    (slot : engine.slots ⟨.path target.path, target.symbol⟩ = first) :
    StateProg.wp (Engine.machine present sure) (do
        modify fun globals => globals.eraseXhook (recordKey target.path target.symbol)
        let _ ← commitLocked
        return (none : Option Address))
      (fun result globals' engine' =>
        result = none ∧ Unhooked .xHook target first (globals', engine')) globals engine := by
  rw [StateProg.wp_bind, StateProg.wp_modify, StateProg.wp_bind, ← isTarget,
    eraseXhook_last records apart]
  rw [isTarget] at apart
  apply StateProg.wp_mono (wp_commitLocked_others _ _ apart)
  rintro committed globals' engine' ⟨free, same⟩
  exact ⟨rfl, same.trans slot, free⟩

/-- `xhookHook` of a symbol that is not hooked. -/
theorem wp_xhookHook_unhooked (unhooked : Unhooked .xHook target first (globals, engine))
    (differs : replacement ≠ first) :
    StateProg.wp (Engine.machine present sure) (xhookHook target.path target.symbol replacement)
      (fun result globals' engine' =>
        Attempted present sure .xHook target first replacement result (globals', engine'))
      globals engine := by
  have apart : ∀ record ∈ globals.xhookRecords, record.key ≠ recordKey target.path target.symbol :=
    unhooked.free
  have slot : engine.slots ⟨.path target.path, target.symbol⟩ = first := unhooked.slot
  unfold xhookHook
  rw [if_neg target.named, StateProg.wp_bind, StateProg.wp_get, findXhook_none apart]
  dsimp only
  rw [StateProg.wp_bind, StateProg.wp_modify, StateProg.wp_bind]
  apply StateProg.wp_mono (wp_commitLocked_last _ _ rfl apart)
  intro committed globals' engine' holds
  rw [StateProg.wp_bind, StateProg.wp_get]
  cases committed with
  | false =>
      rcases holds with ⟨unsure, rfl, same⟩
      rw [Bool.not_false, if_pos (.inl rfl)]
      apply StateProg.wp_mono (wp_abandon rfl apart rfl ((congrFun same _).trans slot))
      rintro result globals' engine' ⟨rfl, later⟩
      exact ⟨fun isSure => absurd isSure unsure, later⟩
  | true =>
      rcases holds with ⟨others', apart', holds⟩
      split at holds
      case isTrue swapped =>
        rcases holds with ⟨records, isReplaced⟩
        have found := findXhook_last records apart'
        change globals'.findXhook (recordKey target.path target.symbol) = _ at found
        rw [found, if_neg (by simp)]
        change engine.slots ⟨.path target.path, target.symbol⟩ = first ∧ _
        refine ⟨slot, swapped.1, isReplaced, others', ?_, apart'⟩
        rw [records]
        change others' ++ [XhookRecord.mk _ _ _ (some (engine.slots ⟨.path target.path, target.symbol⟩))] = _
        rw [slot]
      case isFalse unswapped =>
        rcases holds with ⟨records, same⟩
        have absent : present ⟨.path target.path, target.symbol⟩ = false := by
          by_contra isPresent
          refine unswapped ⟨Bool.eq_true_of_not_eq_false isPresent, ?_⟩
          exact fun same => differs (same.symm.trans slot)
        have found := findXhook_last records apart'
        change globals'.findXhook (recordKey target.path target.symbol) = _ at found
        rw [found, if_pos (.inr rfl)]
        apply StateProg.wp_mono (wp_abandon records apart' rfl (same.trans slot))
        rintro result globals' engine' ⟨rfl, later⟩
        exact ⟨fun _ => absent, later⟩

/-- `xhookHook` of a symbol that has an owner. -/
theorem wp_xhookHook_refused (hooked : Hooked .xHook target first owner (globals, engine))
    (differs : replacement ≠ first) :
    StateProg.wp (Engine.machine present sure) (xhookHook target.path target.symbol replacement)
      (fun result globals' engine' => result = none ∧ globals = globals' ∧ engine = engine')
      globals engine := by
  rcases hooked.recorded with ⟨others, records, apart⟩
  have found := findXhook_last records apart
  change globals.findXhook (recordKey target.path target.symbol) = _ at found
  unfold xhookHook
  rw [if_neg target.named, StateProg.wp_bind, StateProg.wp_get, found]
  dsimp only
  rw [if_pos (fun same => differs (Option.some.inj same))]
  exact ⟨rfl, rfl, rfl⟩

/-- `xhookHook` by the owner, with the original. -/
theorem wp_xhookHook_undone (hooked : Hooked .xHook target first owner (globals, engine))
    (isPresent : present ⟨.path target.path, target.symbol⟩ = true) :
    StateProg.wp (Engine.machine present sure) (xhookHook target.path target.symbol first)
      (fun result globals' engine' => Undone sure .xHook target first result (globals', engine'))
      globals engine := by
  rcases hooked.recorded with ⟨others, records, apart⟩
  have slot : engine.slots ⟨.path target.path, target.symbol⟩ = owner := hooked.slot
  have found := findXhook_last records apart
  change globals.findXhook (recordKey target.path target.symbol) = _ at found
  have changed := setReplacement_last records apart first
  change globals.setReplacement (recordKey target.path target.symbol) _ = _ at changed
  unfold xhookHook
  rw [if_neg target.named, StateProg.wp_bind, StateProg.wp_get, found]
  dsimp only
  rw [if_neg (fun differs => differs rfl), StateProg.wp_bind, StateProg.wp_modify, changed,
    StateProg.wp_bind]
  apply StateProg.wp_mono (wp_commitLocked_last _ _ rfl apart)
  intro committed globals' engine' holds
  cases committed with
  | false => exact holds.1
  | true =>
      rcases holds with ⟨others', apart', holds⟩
      rw [Bool.not_true, if_neg Bool.false_ne_true, StateProg.wp_bind, StateProg.wp_modify]
      split at holds
      case isTrue swapped =>
        have erased := eraseXhook_last holds.1 apart'
        change globals'.eraseXhook (recordKey target.path target.symbol) = _ at erased
        rw [erased]
        exact ⟨holds.2, apart'⟩
      case isFalse unswapped =>
        have erased := eraseXhook_last holds.1 apart'
        change globals'.eraseXhook (recordKey target.path target.symbol) = _ at erased
        rw [erased]
        refine ⟨holds.2.trans ?_, apart'⟩
        by_contra differs
        exact unswapped ⟨isPresent, differs⟩

/-- `ensureContextLocked` changes nothing that matters to a symbol. -/
theorem wp_ensureContextLocked (globals : Globals) (engine : Engine) :
    StateProg.wp (Engine.machine present sure) ensureContextLocked (fun ready globals' engine' =>
      (ready = false → ¬sure) ∧ globals'.pltiRecords = globals.pltiRecords ∧ engine = engine')
      globals engine := by
  unfold ensureContextLocked
  rw [StateProg.wp_bind, StateProg.wp_get]
  split
  · exact ⟨nofun, rfl, rfl⟩
  · rw [StateProg.wp_bind, StateProg.wp_lift]
    rintro (_ | _) after step
    · rcases step with ⟨unsure, rfl⟩
      exact ⟨fun _ => unsure, rfl, rfl⟩
    · cases step
      exact ⟨nofun, rfl, rfl⟩

/-- `pltiHook` of a symbol that is not hooked. -/
theorem wp_pltiHook_unhooked (unhooked : Unhooked .plti target first (globals, engine)) :
    StateProg.wp (Engine.machine present sure)
      (pltiHook target.path target.start target.symbol replacement)
      (fun result globals' engine' =>
        Attempted present sure .plti target first replacement result (globals', engine'))
      globals engine := by
  have free : globals.pltiRecords (recordKey target.path target.symbol) = none := unhooked.free
  have slot : engine.slots ⟨.path target.path, target.symbol⟩ = first := unhooked.slot
  unfold pltiHook
  rw [if_neg target.named, StateProg.wp_bind]
  apply StateProg.wp_mono (wp_ensureContextLocked globals engine)
  rintro ready globals' _ ⟨unready, records, rfl⟩
  have still : Unhooked .plti target first (globals', engine) :=
    ⟨slot, (congrFun records _).trans free⟩
  cases ready with
  | false => exact ⟨fun isSure => absurd isSure (unready rfl), still⟩
  | true =>
      rw [Bool.not_true, if_neg Bool.false_ne_true, StateProg.wp_bind, StateProg.wp_get, records, free]
      dsimp only
      rw [StateProg.wp_bind, StateProg.wp_lift]
      rintro (_ | _) added step
      · rcases step with ⟨unsure, rfl⟩
        exact ⟨fun isSure => absurd isSure unsure, still⟩
      · cases step
        rw [Prog.wp_pure, Bool.not_true, if_neg Bool.false_ne_true, StateProg.wp_bind,
          StateProg.wp_lift]
        rintro (_ | backup) after step
        · rcases step with ⟨absent, rfl⟩
          exact ⟨absent, still⟩
        · rcases step with ⟨isPresent, rfl, rfl⟩
          rw [Prog.wp_pure, StateProg.wp_bind, StateProg.wp_modify]
          refine ⟨slot, isPresent, Function.update_self _ _ _, ?_⟩
          rw [← slot]
          exact Function.update_self _ _ _

/-- `pltiHook` of a symbol that has an owner. -/
theorem wp_pltiHook_refused (hooked : Hooked .plti target first owner (globals, engine))
    (differs : replacement ≠ first) :
    StateProg.wp (Engine.machine present sure)
      (pltiHook target.path target.start target.symbol replacement)
      (fun result globals' engine' => result = none ∧
        globals'.pltiRecords = globals.pltiRecords ∧ engine = engine') globals engine := by
  have recorded : globals.pltiRecords (recordKey target.path target.symbol) =
      some ⟨owner, first⟩ := hooked.recorded
  unfold pltiHook
  rw [if_neg target.named, StateProg.wp_bind]
  apply StateProg.wp_mono (wp_ensureContextLocked globals engine)
  rintro ready globals' _ ⟨unready, records, rfl⟩
  cases ready with
  | false => exact ⟨rfl, records, rfl⟩
  | true =>
      rw [Bool.not_true, if_neg Bool.false_ne_true, StateProg.wp_bind, StateProg.wp_get, records,
        recorded]
      dsimp only
      rw [if_pos differs]
      exact ⟨rfl, records, rfl⟩

/-- `pltiHook` by the owner, with the original. -/
theorem wp_pltiHook_undone (hooked : Hooked .plti target first owner (globals, engine)) :
    StateProg.wp (Engine.machine present sure)
      (pltiHook target.path target.start target.symbol first)
      (fun result globals' engine' => Undone sure .plti target first result (globals', engine'))
      globals engine := by
  have recorded : globals.pltiRecords (recordKey target.path target.symbol) =
      some ⟨owner, first⟩ := hooked.recorded
  unfold pltiHook
  rw [if_neg target.named, StateProg.wp_bind]
  apply StateProg.wp_mono (wp_ensureContextLocked globals engine)
  rintro ready globals' _ ⟨unready, records, rfl⟩
  cases ready with
  | false => exact unready rfl
  | true =>
      rw [Bool.not_true, if_neg Bool.false_ne_true, StateProg.wp_bind, StateProg.wp_get, records,
        recorded]
      dsimp only
      rw [if_neg (fun differs => differs rfl), StateProg.wp_bind, StateProg.wp_lift]
      rintro (_ | restore) after step
      · exact step.1
      · cases step
        rw [Prog.wp_pure, StateProg.wp_bind, StateProg.wp_modify]
        exact ⟨Function.update_self _ _ _, Function.update_self _ _ _⟩

end Sections

/-- What a call holds: nothing, the claim of `bytehookHook`, a slot that it has installed its
replacement in, or the symbol. -/
inductive Token where
  | idle
  | claimed
  | installed (replacement : Address)
  | owner (replacement : Address)
deriving DecidableEq

/-- The symbol is not recorded yet; `bytehookHook` has claimed it. -/
def Unrecorded (engine : PltEngine) (target : Target) (globals : Globals) : Prop :=
  match engine with
  | .lsplt => globals.lspltRecords (engine.key target) = none
  | .byteHook =>
      globals.bytehookStubs (engine.key target) = none ∧
        engine.key target ∈ globals.bytehookPending
  | _ => False

/-- What the state is when a call holds a token and the others hold none. -/
def Fits (present : Slot → Bool) (engine : PltEngine) (target : Target) (first : Address) :
    Token → Globals × Engine → Prop
  | .idle, state => Unhooked engine target first state
  | .claimed, state =>
      engine = .byteHook ∧ state.2.slots (engine.slot target) = first ∧
        Unrecorded engine target state.1
  | .installed replacement, state =>
      replacement ≠ first ∧ present (engine.slot target) = true ∧
        state.2.slots (engine.slot target) = replacement ∧ Unrecorded engine target state.1
  | .owner replacement, state =>
      replacement ≠ first ∧ present (engine.slot target) = true ∧
        Hooked engine target first replacement state

/-- A call that returns the original owns the symbol. -/
def Final (first : Address) (token : Token) (result : Option Address) : Prop :=
  match result with
  | none => token = .idle
  | some original => original = first ∧ ∃ replacement, token = .owner replacement

/-- Which answers are considered: those with which lsplt installs over the first value only. -/
def Considered (engine : PltEngine) (target : Target) (first : Address) (state : Globals × Engine)
    (request : Call) (answer : request.Answer) : Prop :=
  engine = .lsplt → ∀ value backup,
    (⟨request, answer⟩ : Exchange Sys) =
        ⟨.lspltInstall (PltEngine.lsplt.slot target) value, some backup⟩ →
      state.2.slots (PltEngine.lsplt.slot target) = first

section Races

variable {ι : Type} [DecidableEq ι] {present : Slot → Bool} {sure : Prop} {target : Target}
  {first replacement : Address} {before after : Globals × Engine}

/-- A program that leaves no more than one owner. -/
abbrev Keeps (ι : Type) [DecidableEq ι] (present : Slot → Bool) (sure : Prop) (engine : PltEngine)
    (target : Target) (first : Address) (token : Token)
    (program : Prog Sys (Option Address)) : Prop :=
  program.Keeps ((machine present sure).restrict (Considered engine target first))
    (Exclusive (ι := ι) .idle (Fits present engine target first)) (Final first) token

theorem step_lspltFind {key : String} {answer : Option Address}
    (step : (machine present sure).Step before (.lspltFind key) answer after) :
    answer = (before.1.lspltRecords key).map Record.original ∧ before = after :=
  StateProg.of_section (fun answer after =>
    answer = (before.1.lspltRecords key).map Record.original ∧ before = after) step ⟨rfl, rfl⟩

theorem step_lspltInstall {slot : Slot} {value : Address} {backup : Option Address}
    (step : (machine present sure).Step before (.lspltInstall slot value) backup after) :
    before.1 = after.1 ∧ Engine.Swap present sure before.2 slot value backup after.2 := by
  apply StateProg.of_section (fun (backup : Option Address) after =>
    before.1 = after.1 ∧ Engine.Swap present sure before.2 slot value backup after.2) step
  change StateProg.wp _ (liftM (Engine.perform (.lspltInstall slot value))) _ _ _
  rw [StateProg.wp_lift]
  intro answer engine swap
  exact ⟨rfl, swap⟩

theorem step_lspltStore {key : String} {record : Record} {answer : PUnit}
    (step : (machine present sure).Step before (.lspltStore key record) answer after) :
    after = ({ before.1 with
      lspltRecords := Function.update before.1.lspltRecords key (some record) }, before.2) := by
  apply StateProg.of_section (fun _ after => after = ({ before.1 with
    lspltRecords := Function.update before.1.lspltRecords key (some record) }, before.2)) step
  rfl

/-- `lspltHook` once it has found no record, as long as it installs over the first value. -/
theorem keeps_lspltAdd (differs : replacement ≠ first) :
    Keeps ι present sure .lsplt target first .idle
      (lspltAdd (PltEngine.lsplt.key target) (PltEngine.lsplt.slot target) replacement) := by
  apply Prog.Keeps.call_idle
  · rintro before backup after unhooked ⟨step, _⟩
    rcases step_lspltInstall step with ⟨globals, swap⟩
    cases backup with
    | none =>
        have same : after = before := Prod.ext globals.symm swap.2
        rw [same]
        exact ⟨.idle, unhooked, rfl⟩
    | some backup =>
        rcases swap with ⟨isPresent, isFirst, written⟩
        refine ⟨.installed replacement, ⟨differs, isPresent, ?_, ?_⟩, ?_⟩
        · rw [written]
          exact Function.update_self _ _ _
        · have free := unhooked.free
          rwa [globals] at free
        · apply Prog.Keeps.call_busy Token.noConfusion
          rintro before' _ after' ⟨_, _, slot, _⟩ ⟨stored, _⟩
          cases step_lspltStore stored
          have original : backup = first := isFirst.trans unhooked.slot
          refine ⟨.owner replacement, ⟨differs, isPresent, slot, ?_⟩, original, replacement, rfl⟩
          rw [← original]
          exact Function.update_self _ _ _
  · rintro token before backup after busy fits ⟨step, considered⟩
    rcases step_lspltInstall step with ⟨globals, swap⟩
    cases backup with
    | none =>
        have same : after = before := Prod.ext globals.symm swap.2
        rw [same]
        exact ⟨fits, rfl⟩
    | some backup =>
        have slot := considered rfl replacement backup rfl
        cases token with
        | idle => exact absurd rfl busy
        | claimed => exact absurd fits.1 (by decide)
        | installed other => exact absurd (fits.2.2.1.symm.trans slot) fits.1
        | owner other => exact absurd (fits.2.2.slot.symm.trans slot) fits.1

/-- `lspltHook`, as long as it installs over the first value. -/
theorem keeps_lspltHook (differs : replacement ≠ first) :
    Keeps ι present sure .lsplt target first .idle
      (lspltHook target.dev target.inode target.symbol replacement) := by
  apply Prog.Keeps.call_idle
  · rintro before previous after unhooked ⟨step, _⟩
    rcases step_lspltFind step with ⟨isPrevious, rfl⟩
    have free : before.1.lspltRecords (lspltKey target.dev target.inode target.symbol) = none :=
      unhooked.free
    rw [free] at isPrevious
    rw [isPrevious]
    exact ⟨.idle, unhooked, keeps_lspltAdd differs⟩
  · rintro token before previous after busy fits ⟨step, _⟩
    rcases step_lspltFind step with ⟨isPrevious, rfl⟩
    refine ⟨fits, ?_⟩
    cases token with
    | idle => exact absurd rfl busy
    | claimed => exact absurd fits.1 (by decide)
    | installed other =>
        have unrecorded : before.1.lspltRecords
            (lspltKey target.dev target.inode target.symbol) = none := fits.2.2.2
        rw [unrecorded] at isPrevious
        rw [isPrevious]
        exact keeps_lspltAdd differs
    | owner other =>
        have recorded : before.1.lspltRecords
            (lspltKey target.dev target.inode target.symbol) = some ⟨other, first⟩ :=
          fits.2.2.recorded
        rw [recorded] at isPrevious
        rw [isPrevious]
        change Prog.Keeps _ _ _ _ (if replacement ≠ first then pure none else _)
        rw [if_pos differs]
        rfl

theorem step_bytehookInit {answer : Bool}
    (step : (machine present sure).Step before .bytehookInit answer after) :
    (before.1.bytehookResult = none → sure → answer = true) ∧
      (∀ result, before.1.bytehookResult = some result → answer = result) ∧
        after = ({ before.1 with bytehookResult := some answer }, before.2) := by
  apply StateProg.of_section (fun (answer : Bool) after =>
    (before.1.bytehookResult = none → sure → answer = true) ∧
      (∀ result, before.1.bytehookResult = some result → answer = result) ∧
        after = ({ before.1 with bytehookResult := some answer }, before.2)) step
  change StateProg.wp _ bytehookInit _ _ _
  unfold bytehookInit
  rw [StateProg.wp_bind, StateProg.wp_get]
  cases known : before.1.bytehookResult with
  | some result =>
      refine ⟨nofun, ?_, ?_⟩
      · rintro _ ⟨⟩
        rfl
      · rw [← known]
  | none =>
      dsimp only
      rw [StateProg.wp_bind, StateProg.wp_lift]
      rintro (_ | _) engine same
      · rcases same with ⟨unsure, rfl⟩
        exact ⟨fun _ isSure => absurd isSure unsure, nofun, rfl⟩
      · cases same
        exact ⟨fun _ _ => rfl, nofun, rfl⟩

theorem step_bytehookHookSingle {slot : Slot} {value : Address}
    {answer : Option (Stub × Option Address)}
    (step : (machine present sure).Step before (.bytehookHookSingle slot value) answer after) :
    before.1 = after.1 ∧
      (Engine.machine present sure).Step before.2 (.bytehookHookSingle slot value) answer after.2 := by
  apply StateProg.of_section (fun (answer : Option (Stub × Option Address)) after =>
    before.1 = after.1 ∧ (Engine.machine present sure).Step before.2
      (.bytehookHookSingle slot value) answer after.2) step
  change StateProg.wp _ (liftM (Engine.perform (.bytehookHookSingle slot value))) _ _ _
  rw [StateProg.wp_lift]
  intro answer engine moved
  exact ⟨rfl, moved⟩

/-- A stub that found nothing is taken back without effect. -/
theorem step_bytehookUnhook {slot : Slot} {answer : Bool}
    (step : (machine present sure).Step before (.bytehookUnhook ⟨slot, none⟩) answer after) :
    before = after := by
  apply StateProg.of_section (fun _ after => before = after) step
  change StateProg.wp _ (liftM (Engine.perform (.bytehookUnhook ⟨slot, none⟩))) _ _ _
  rw [StateProg.wp_lift]
  rintro (_ | _) engine moved
  · rcases moved with ⟨_, rfl⟩
    rfl
  · cases moved
    rfl

theorem step_bytehookLeave {key : String} {answer : PUnit}
    (step : (machine present sure).Step before (.bytehookLeave key) answer after) :
    after = ({ before.1 with bytehookPending := before.1.bytehookPending.erase key }, before.2) := by
  apply StateProg.of_section (fun _ after => after =
    ({ before.1 with bytehookPending := before.1.bytehookPending.erase key }, before.2)) step
  rfl

theorem step_bytehookStore {key : String} {stub : Stub} {backup : Address} {answer : PUnit}
    (step : (machine present sure).Step before (.bytehookStore key stub backup) answer after) :
    after = ({ before.1 with
      bytehookPending := before.1.bytehookPending.erase key
      bytehookStubs := Function.update before.1.bytehookStubs key (some stub)
      bytehookOriginals := Function.update before.1.bytehookOriginals key (some backup) },
        before.2) := by
  apply StateProg.of_section (fun _ after => after = ({ before.1 with
      bytehookPending := before.1.bytehookPending.erase key
      bytehookStubs := Function.update before.1.bytehookStubs key (some stub)
      bytehookOriginals := Function.update before.1.bytehookOriginals key (some backup) },
        before.2)) step
  rfl

/-- Whether the engine is ready matters to no token. -/
theorem fits_result {token : Token} {result : Option Bool}
    (fits : Fits present .byteHook target first token before) :
    Fits present .byteHook target first token
      ({ before.1 with bytehookResult := result }, before.2) := by
  cases token with
  | idle => exact ⟨fits.slot, fits.free⟩
  | claimed => exact fits
  | installed other => exact fits
  | owner other => exact ⟨fits.1, fits.2.1, fits.2.2.slot, fits.2.2.recorded⟩

/-- A symbol that is not hooked is claimed. -/
theorem step_bytehookEnter_unhooked {answer : Entry}
    (step : (machine present sure).Step before
      (.bytehookEnter (PltEngine.byteHook.key target) replacement) answer after)
    (free : Free .byteHook target before.1) :
    answer = .claimed ∧ after = ({ before.1 with
      bytehookPending := insert (PltEngine.byteHook.key target) before.1.bytehookPending },
        before.2) := by
  apply StateProg.of_section (fun (answer : Entry) after => answer = .claimed ∧
    after = ({ before.1 with
      bytehookPending := insert (PltEngine.byteHook.key target) before.1.bytehookPending },
        before.2)) step
  change StateProg.wp _ (bytehookEnter _ _) _ _ _
  unfold bytehookEnter
  rw [StateProg.wp_bind, StateProg.wp_get, free.1]
  dsimp only
  rw [if_neg free.2]
  exact ⟨rfl, rfl⟩

/-- A symbol that is claimed is refused. -/
theorem step_bytehookEnter_claimed {answer : Entry}
    (step : (machine present sure).Step before
      (.bytehookEnter (PltEngine.byteHook.key target) replacement) answer after)
    (unrecorded : Unrecorded .byteHook target before.1) :
    answer = .ended none ∧ before = after := by
  apply StateProg.of_section (fun (answer : Entry) after =>
    answer = .ended none ∧ before = after) step
  change StateProg.wp _ (bytehookEnter _ _) _ _ _
  unfold bytehookEnter
  rw [StateProg.wp_bind, StateProg.wp_get, unrecorded.1]
  dsimp only
  rw [if_pos unrecorded.2]
  exact ⟨rfl, rfl⟩

/-- A symbol that has an owner is refused. -/
theorem step_bytehookEnter_hooked {answer : Entry} {owner : Address}
    (step : (machine present sure).Step before
      (.bytehookEnter (PltEngine.byteHook.key target) replacement) answer after)
    (recorded : Recorded .byteHook target first owner before.1) (differs : replacement ≠ first) :
    answer = .ended none ∧ before = after := by
  apply StateProg.of_section (fun (answer : Entry) after =>
    answer = .ended none ∧ before = after) step
  change StateProg.wp _ (bytehookEnter _ _) _ _ _
  unfold bytehookEnter
  rw [StateProg.wp_bind, StateProg.wp_get, recorded.1]
  dsimp only
  rw [recorded.2.1, if_neg (fun same => differs (Option.some.inj same))]
  exact ⟨rfl, rfl⟩

/-- The claim is given up. -/
theorem keeps_bytehookLeave :
    Keeps ι present sure .byteHook target first .claimed
      ((perform (.bytehookLeave (PltEngine.byteHook.key target))).bind fun _ => .pure none) := by
  apply Prog.Keeps.call_busy Token.noConfusion
  rintro before answer after ⟨_, slot, unrecorded⟩ ⟨step, _⟩
  cases step_bytehookLeave step
  exact ⟨.idle, ⟨slot, unrecorded.1, Finset.notMem_erase _ _⟩, rfl⟩

/-- `bytehookHook` once it has claimed the symbol. -/
theorem keeps_bytehookAdd (differs : replacement ≠ first) :
    Keeps ι present sure .byteHook target first .claimed
      (bytehookAdd (PltEngine.byteHook.key target) (PltEngine.byteHook.slot target)
        replacement) := by
  apply Prog.Keeps.call_busy Token.noConfusion
  rintro before answer after ⟨isEngine, slot, unrecorded⟩ ⟨step, _⟩
  rcases step_bytehookHookSingle step with ⟨globals, moved⟩
  rcases answer with _ | ⟨stub, _ | backup⟩
  · have same : after = before := Prod.ext globals.symm moved.2
    rw [same]
    exact ⟨.claimed, ⟨isEngine, slot, unrecorded⟩, keeps_bytehookLeave⟩
  · rcases moved with ⟨rfl, _, unmoved⟩
    have same : after = before := Prod.ext globals.symm unmoved
    rw [same]
    refine ⟨.claimed, ⟨isEngine, slot, unrecorded⟩, ?_⟩
    apply Prog.Keeps.call_busy Token.noConfusion
    rintro before' answer after' fits ⟨step', _⟩
    cases step_bytehookUnhook step'
    exact ⟨.claimed, fits, keeps_bytehookLeave⟩
  · rcases moved with ⟨rfl, isPresent, isFirst, written⟩
    have original : backup = first := isFirst.trans slot
    rw [globals] at unrecorded
    refine ⟨.installed replacement, ⟨differs, isPresent, ?_, unrecorded⟩, ?_⟩
    · rw [written]
      exact Function.update_self _ _ _
    · apply Prog.Keeps.call_busy Token.noConfusion
      rintro before' answer after' ⟨_, _, slot', _⟩ ⟨stored, _⟩
      cases step_bytehookStore stored
      refine ⟨.owner replacement, ⟨differs, isPresent, slot', ?_, ?_, ?_⟩, original, replacement, rfl⟩
      · rw [original]
        exact Function.update_self _ _ _
      · rw [original]
        exact Function.update_self _ _ _
      · exact Finset.notMem_erase _ _

/-- `bytehookHook`. -/
theorem keeps_bytehookHook (differs : replacement ≠ first) :
    Keeps ι present sure .byteHook target first .idle
      (bytehookHook target.path target.symbol replacement) := by
  -- The first section, in the two situations in which it is entered.
  have enter : Keeps ι present sure .byteHook target first .idle
      ((perform (.bytehookEnter (PltEngine.byteHook.key target) replacement)).bind
        (bytehookProceed (PltEngine.byteHook.key target) (PltEngine.byteHook.slot target)
          replacement)) := by
    apply Prog.Keeps.call_idle
    · rintro before entry after unhooked ⟨step, _⟩
      rcases step_bytehookEnter_unhooked step unhooked.free with ⟨rfl, rfl⟩
      refine ⟨.claimed, ⟨rfl, unhooked.slot, unhooked.free.1, Finset.mem_insert_self _ _⟩, ?_⟩
      exact keeps_bytehookAdd differs
    · rintro token before entry after busy fits ⟨step, _⟩
      cases token with
      | idle => exact absurd rfl busy
      | claimed =>
          rcases step_bytehookEnter_claimed step fits.2.2 with ⟨rfl, rfl⟩
          exact ⟨fits, rfl⟩
      | installed other =>
          rcases step_bytehookEnter_claimed step fits.2.2.2 with ⟨rfl, rfl⟩
          exact ⟨fits, rfl⟩
      | owner other =>
          rcases step_bytehookEnter_hooked step fits.2.2.recorded differs with ⟨rfl, rfl⟩
          exact ⟨fits, rfl⟩
  apply Prog.Keeps.call_idle
  · rintro before ready after unhooked ⟨step, _⟩
    rcases step_bytehookInit step with ⟨_, _, rfl⟩
    refine ⟨.idle, fits_result unhooked, ?_⟩
    cases ready with
    | false => rfl
    | true => exact enter
  · rintro token before ready after busy fits ⟨step, _⟩
    rcases step_bytehookInit step with ⟨_, _, rfl⟩
    refine ⟨fits_result fits, ?_⟩
    cases ready with
    | false => rfl
    | true => exact enter

/-- A call of `xhookHook` or of `pltiHook` is one step. -/
theorem keeps_xhookHook (differs : replacement ≠ first) :
    Keeps ι present sure .xHook target first .idle
      (perform (.xhook target.path target.symbol replacement)) := by
  apply Prog.Keeps.call_idle
  · rintro before result after unhooked ⟨step, _⟩
    have attempted := StateProg.of_section (fun (result : Option Address) after =>
      Attempted present sure .xHook target first replacement result after) step
        (wp_xhookHook_unhooked unhooked differs)
    cases result with
    | none => exact ⟨.idle, attempted.2, rfl⟩
    | some original =>
        exact ⟨.owner replacement, ⟨differs, attempted.2⟩, attempted.1, replacement, rfl⟩
  · rintro token before result after busy fits ⟨step, _⟩
    cases token with
    | idle => exact absurd rfl busy
    | claimed => exact absurd fits.1 (by decide)
    | installed other => exact absurd fits.2.2.2 id
    | owner other =>
        have refused := StateProg.of_section (fun (result : Option Address) after =>
          result = none ∧ before.1 = after.1 ∧ before.2 = after.2) step
            (wp_xhookHook_refused fits.2.2 differs)
        rcases refused with ⟨rfl, globals, engine⟩
        have same : before = after := Prod.ext globals engine
        rw [← same]
        exact ⟨fits, rfl⟩

theorem keeps_pltiHook (differs : replacement ≠ first) :
    Keeps ι present sure .plti target first .idle
      (perform (.plti target.path target.start target.symbol replacement)) := by
  apply Prog.Keeps.call_idle
  · rintro before result after unhooked ⟨step, _⟩
    have attempted := StateProg.of_section (fun (result : Option Address) after =>
      Attempted present sure .plti target first replacement result after) step
        (wp_pltiHook_unhooked unhooked)
    cases result with
    | none => exact ⟨.idle, attempted.2, rfl⟩
    | some original =>
        exact ⟨.owner replacement, ⟨differs, attempted.2⟩, attempted.1, replacement, rfl⟩
  · rintro token before result after busy fits ⟨step, _⟩
    cases token with
    | idle => exact absurd rfl busy
    | claimed => exact absurd fits.1 (by decide)
    | installed other => exact absurd fits.2.2.2 id
    | owner other =>
        have refused := StateProg.of_section (fun (result : Option Address) after =>
          result = none ∧ after.1.pltiRecords = before.1.pltiRecords ∧ before.2 = after.2) step
            (wp_pltiHook_refused fits.2.2 differs)
        rcases refused with ⟨rfl, records, engine⟩
        refine ⟨⟨fits.1, fits.2.1, ?_, (congrFun records _).trans fits.2.2.recorded⟩, rfl⟩
        rw [← engine]
        exact fits.2.2.slot

/-- Every backend keeps to one owner. -/
theorem keeps_pltHook (engine : PltEngine) (differs : replacement ≠ first) :
    Keeps ι present sure engine target first .idle
      (pltHook engine target replacement) := by
  cases engine with
  | lsplt => exact keeps_lspltHook differs
  | byteHook => exact keeps_bytehookHook differs
  | xHook => exact keeps_xhookHook differs
  | plti => exact keeps_pltiHook differs
  | disable => rfl

/-- The request is one of `bytehookHook`. -/
def Call.isBytehook : Call → Bool
  | .bytehookInit | .bytehookEnter _ _ | .bytehookHookSingle _ _ | .bytehookUnhook _
  | .bytehookLeave _ | .bytehookStore _ _ _ => true
  | _ => false

theorem step_bytehookEnter {key : String} {answer : Entry}
    (step : (machine present sure).Step before (.bytehookEnter key replacement) answer after) :
    after.1.bytehookResult = before.1.bytehookResult := by
  apply StateProg.of_section (fun _ after =>
    after.1.bytehookResult = before.1.bytehookResult) step
  change StateProg.wp _ (bytehookEnter _ _) _ _ _
  unfold bytehookEnter
  rw [StateProg.wp_bind, StateProg.wp_get]
  split
  · split
    · rw [StateProg.wp_bind, StateProg.wp_lift]
      rintro (_ | _) engine _
      · rfl
      · rfl
    · rfl
  · split
    · rfl
    · rfl

/-- An engine that is ready stays ready. -/
theorem ready_kept {request : Call} {answer : request.Answer}
    (step : (machine present sure).Step before request answer after)
    (isBytehook : request.isBytehook = true) (ready : before.1.bytehookResult = some true) :
    after.1.bytehookResult = some true := by
  cases request with
  | bytehookInit =>
      rcases step_bytehookInit step with ⟨_, same, rfl⟩
      exact congrArg some (same true ready)
  | bytehookEnter key replacement => exact (step_bytehookEnter step).trans ready
  | bytehookHookSingle slot value => rwa [← (step_bytehookHookSingle step).1]
  | bytehookUnhook stub =>
      have same := StateProg.of_section (fun _ after => before.1 = after.1) step ?_
      · rwa [← same]
      · change StateProg.wp _ (liftM (Engine.perform (.bytehookUnhook stub))) _ _ _
        rw [StateProg.wp_lift]
        exact fun _ _ _ => rfl
  | bytehookLeave key =>
      cases step_bytehookLeave step
      exact ready
  | bytehookStore key stub backup =>
      cases step_bytehookStore step
      exact ready
  | _ => exact absurd isBytehook Bool.false_ne_true

theorem all_bytehookHook (path symbol : String) (replacement : Address) :
    (bytehookHook path symbol replacement).All fun request : Call => request.isBytehook = true := by
  refine ⟨rfl, ?_⟩
  rintro (_ | _)
  · trivial
  · refine ⟨rfl, ?_⟩
    rintro (_ | _)
    · trivial
    · refine ⟨rfl, ?_⟩
      rintro (_ | ⟨stub, _ | backup⟩)
      · exact ⟨rfl, fun _ => trivial⟩
      · exact ⟨rfl, fun _ => ⟨rfl, fun _ => trivial⟩⟩
      · exact ⟨rfl, fun _ => trivial⟩

/-- A call of `bytehookHook` that succeeds has found the engine ready. -/
theorem says_bytehookHook (path symbol : String) (replacement : Address) :
    (bytehookHook path symbol replacement).Says fun result transcript =>
      result.isSome = true → ⟨.bytehookInit, true⟩ ∈ transcript := by
  rintro (_ | _)
  · exact nofun
  · apply Prog.says_iff_talks.mpr
    exact fun _ _ _ _ => List.mem_cons_self

/-- The engine of the backend has not refused to start. -/
def Ready (engine : PltEngine) (globals : Globals) : Prop :=
  engine = .byteHook → globals.bytehookResult = some true

theorem step_lspltErase {key : String} {answer : PUnit}
    (step : (machine present sure).Step before (.lspltErase key) answer after) :
    after = ({ before.1 with
      lspltRecords := Function.update before.1.lspltRecords key none }, before.2) := by
  apply StateProg.of_section (fun _ after => after = ({ before.1 with
    lspltRecords := Function.update before.1.lspltRecords key none }, before.2)) step
  rfl

/-- The owner of a symbol gives it back. -/
theorem step_bytehookEnter_owner {answer : Entry} {owner : Address}
    (step : (machine present sure).Step before
      (.bytehookEnter (PltEngine.byteHook.key target) first) answer after)
    (recorded : Recorded .byteHook target first owner before.1) :
    ∃ result, answer = .ended result ∧ Undone sure .byteHook target first result after := by
  apply StateProg.of_section (fun (answer : Entry) after => ∃ result,
    answer = .ended result ∧ Undone sure .byteHook target first result after) step
  change StateProg.wp _ (bytehookEnter _ _) _ _ _
  unfold bytehookEnter
  rw [StateProg.wp_bind, StateProg.wp_get, recorded.1]
  dsimp only
  rw [recorded.2.1, if_pos rfl, StateProg.wp_bind, StateProg.wp_lift]
  rintro (_ | _) engine moved
  · exact ⟨none, rfl, moved.1⟩
  · cases moved
    refine ⟨some first, rfl, Function.update_self _ _ _, Function.update_self _ _ _, ?_⟩
    exact recorded.2.2

/-- The owner's call with the original. -/
theorem wp_pltHook_undone {engine : PltEngine} {owner : Address} {state : Globals × Engine}
    (hooked : Hooked engine target first owner state)
    (isPresent : present (engine.slot target) = true) (ready : Ready engine state.1) :
    (pltHook engine target first).wp (machine present sure) (fun result after =>
      Undone sure engine target first result after ∧ Ready engine after.1) state := by
  cases engine with
  | lsplt =>
      rintro previous before step
      rcases step_lspltFind step with ⟨isPrevious, rfl⟩
      have recorded : state.1.lspltRecords
          (lspltKey target.dev target.inode target.symbol) = some ⟨owner, first⟩ := hooked.recorded
      rw [recorded] at isPrevious
      rw [isPrevious]
      change Prog.wp _ (if first ≠ first then pure none else lspltRemove _ _ _) _ _
      rw [if_neg (fun differs => differs rfl)]
      intro backup installed step
      rcases step_lspltInstall step with ⟨globals, swap⟩
      cases backup with
      | none =>
          refine ⟨fun isSure => ?_, nofun⟩
          exact absurd isPresent (Bool.eq_false_iff.mp (swap.1 isSure))
      | some backup =>
          rcases swap with ⟨_, _, written⟩
          intro _ after erased
          cases step_lspltErase erased
          refine ⟨⟨?_, Function.update_self _ _ _⟩, nofun⟩
          change installed.2.slots _ = _
          rw [written]
          exact Function.update_self _ _ _
  | byteHook =>
      intro isReady started step
      rcases step_bytehookInit step with ⟨_, known, rfl⟩
      cases known true (ready rfl)
      intro entry entered step
      have recorded : Recorded .byteHook target first owner
          { state.1 with bytehookResult := some true } := hooked.recorded
      rcases step_bytehookEnter_owner step recorded with ⟨result, rfl, undone⟩
      exact ⟨undone, fun _ => step_bytehookEnter step⟩
  | xHook =>
      intro result after step
      refine ⟨?_, nofun⟩
      exact StateProg.of_section (fun (result : Option Address) after =>
        Undone sure .xHook target first result after) step (wp_xhookHook_undone hooked isPresent)
  | plti =>
      intro result after step
      refine ⟨?_, nofun⟩
      exact StateProg.of_section (fun (result : Option Address) after =>
        Undone sure .plti target first result after) step (wp_pltiHook_undone hooked)
  | disable => exact absurd hooked.recorded id

/-- `bytehookHook` once it has claimed the symbol. -/
theorem wp_bytehookAdd {state : Globals × Engine}
    (slot : state.2.slots (PltEngine.byteHook.slot target) = first)
    (unrecorded : Unrecorded .byteHook target state.1) :
    (bytehookAdd (PltEngine.byteHook.key target) (PltEngine.byteHook.slot target)
      replacement).wp (machine present sure)
        (Attempted present sure .byteHook target first replacement) state := by
  intro answer installed step
  rcases step_bytehookHookSingle step with ⟨globals, moved⟩
  rcases answer with _ | ⟨stub, _ | backup⟩
  · rcases moved with ⟨unsure, unmoved⟩
    have same : installed = state := Prod.ext globals.symm unmoved
    rw [same]
    intro _ after left
    cases step_bytehookLeave left
    exact ⟨fun isSure => absurd isSure unsure, slot, unrecorded.1, Finset.notMem_erase _ _⟩
  · rcases moved with ⟨rfl, absent, unmoved⟩
    have same : installed = state := Prod.ext globals.symm unmoved
    rw [same]
    intro _ unhooked step
    cases step_bytehookUnhook step
    intro _ after left
    cases step_bytehookLeave left
    exact ⟨absent, slot, unrecorded.1, Finset.notMem_erase _ _⟩
  · rcases moved with ⟨rfl, isPresent, isFirst, written⟩
    have original : backup = first := isFirst.trans slot
    intro _ after stored
    cases step_bytehookStore stored
    refine ⟨original, isPresent, ?_, ?_, ?_, Finset.notMem_erase _ _⟩
    · change installed.2.slots _ = _
      rw [written]
      exact Function.update_self _ _ _
    · rw [original]
      exact Function.update_self _ _ _
    · rw [original]
      exact Function.update_self _ _ _

/-- A call that finds the symbol unhooked. -/
theorem wp_pltHook_unhooked {engine : PltEngine} {state : Globals × Engine}
    (unhooked : Unhooked engine target first state) (differs : replacement ≠ first)
    (enabled : engine ≠ .disable) (ready : Ready engine state.1) :
    (pltHook engine target replacement).wp (machine present sure)
      (Attempted present sure engine target first replacement) state := by
  cases engine with
  | lsplt =>
      intro previous before step
      rcases step_lspltFind step with ⟨isPrevious, rfl⟩
      have free : state.1.lspltRecords (lspltKey target.dev target.inode target.symbol) = none :=
        unhooked.free
      rw [free] at isPrevious
      rw [isPrevious]
      intro backup installed step
      rcases step_lspltInstall step with ⟨globals, swap⟩
      cases backup with
      | none =>
          have same : installed = state := Prod.ext globals.symm swap.2
          rw [same]
          exact ⟨swap.1, unhooked⟩
      | some backup =>
          rcases swap with ⟨isPresent, isFirst, written⟩
          intro _ after stored
          cases step_lspltStore stored
          have original : backup = first := isFirst.trans unhooked.slot
          refine ⟨original, isPresent, ?_, ?_⟩
          · change installed.2.slots _ = _
            rw [written]
            exact Function.update_self _ _ _
          · rw [original]
            exact Function.update_self _ _ _
  | byteHook =>
      intro isReady started step
      rcases step_bytehookInit step with ⟨_, known, rfl⟩
      cases known true (ready rfl)
      intro entry entered step
      rcases step_bytehookEnter_unhooked step unhooked.free with ⟨rfl, rfl⟩
      apply wp_bytehookAdd
      · exact unhooked.slot
      · exact ⟨unhooked.free.1, Finset.mem_insert_self _ _⟩
  | xHook =>
      intro result after step
      exact StateProg.of_section (fun (result : Option Address) after =>
        Attempted present sure .xHook target first replacement result after) step
          (wp_xhookHook_unhooked unhooked differs)
  | plti =>
      intro result after step
      exact StateProg.of_section (fun (result : Option Address) after =>
        Attempted present sure .plti target first replacement result after) step
          (wp_pltiHook_unhooked unhooked)
  | disable => exact absurd rfl enabled

end Races

/-- Who has been told an original can give the symbol back with it; then it can be hooked again.
The engines work from here on. -/
def GivesBack (present : Slot → Bool) (engine : PltEngine) (target : Target) (first original : Address)
    (state : Globals × Engine) : Prop :=
  (pltHook engine target original).wp (machine present True) (fun result after =>
    result.isSome = true ∧ after.2.slots (engine.slot target) = first ∧
      ∀ replacement, replacement ≠ first →
        (pltHook engine target replacement).wp (machine present True) (fun again later =>
          again = some first ∧ later.2.slots (engine.slot target) = replacement) after) state

/-- One call at most has returned true, and it can give the symbol back. -/
structure OneOwner {ι : Type} (present : Slot → Bool) (engine : PltEngine) (target : Target)
    (first : Address) (results : ι → Option Address) (state : Globals × Engine) : Prop where
  single : ∀ i j, (results i).isSome = true → (results j).isSome = true → i = j
  givesBack : ∀ i original, results i = some original →
    GivesBack present engine target first original state

/-- The answers of engines that work, with every slot there. -/
def Engine.working (request : Engine.Call) (engine : Engine) : request.Answer × Engine :=
  match request with
  | .lspltInstall slot value | .pltiAddHook slot value =>
      (some (engine.slots slot), engine.write slot value)
  | .bytehookHookSingle slot value =>
      (some (⟨slot, some (engine.slots slot)⟩, some (engine.slots slot)), engine.write slot value)
  | .bytehookUnhook ⟨slot, some previous⟩ => (true, engine.write slot previous)
  | .xhookClear => ((), { engine with registered := [] })
  | .xhookRegister slot value =>
      (true, { engine with registered := engine.registered ++ [(slot, value)] })
  | .xhookRefresh =>
      let installed := Engine.installAll (fun _ => true) engine.registered engine.slots
      (some installed.1, { engine with slots := installed.2 })
  | .pltiRemoveHook slot restore => (some restore, engine.write slot restore)
  | .bytehookUnhook ⟨_, none⟩ | .bytehookInit | .pltiInit | .pltiAddManualLib _ _ => (true, engine)

theorem Engine.sound_working {sure : Prop} (request : Engine.Call) (engine : Engine) :
    (Engine.machine (fun _ => true) sure).Step engine request (Engine.working request engine).1
      (Engine.working request engine).2 := by
  cases request with
  | lspltInstall slot value => exact ⟨rfl, rfl, rfl⟩
  | pltiAddHook slot value => exact ⟨rfl, rfl, rfl⟩
  | bytehookHookSingle slot value => exact ⟨rfl, rfl, rfl, rfl⟩
  | bytehookUnhook stub => rcases stub with ⟨slot, _ | previous⟩ <;> rfl
  | xhookRefresh => exact ⟨rfl, rfl⟩
  | _ => rfl

/-- The answers of the steps with engines that work. -/
def working (request : Call) (state : Globals × Engine) :
    request.Answer × (Globals × Engine) :=
  let ran := ((body request).run state.1).eval Engine.working state.2
  (ran.1.1, (ran.1.2, ran.2))

theorem sound_working {sure : Prop} (request : Call) (state : Globals × Engine) :
    (machine (fun _ => true) sure).Step state request (working request state).1
      (working request state).2 :=
  StateProg.section_eval (J := Sys) body Engine.sound_working request state

section Runs

variable {ι : Type} [DecidableEq ι]

/-- The calls before any of them has started. -/
def unstarted (engine : PltEngine) (target : Target) (replacements : ι → Address)
    (start : Globals × Engine) : Pool Sys ι (Option Address) (Globals × Engine) where
  threads i := pltHook engine target (replacements i)
  shared := start

/-- The runs of the calls, in which any request to an engine may fail. -/
abbrev system (present : Slot → Bool) (engine : PltEngine) (target : Target)
    (replacements : ι → Address) (start : Globals × Engine) :
    System (Pool Sys ι (Option Address) (Globals × Engine)) (ι × Exchange Sys) :=
  Pool.system (machine present False) (unstarted engine target replacements start)

/-- No call of `lspltHook` installs over what another has installed. -/
def Undisturbed (target : Target) (first : Address)
    (steps : List (Pool Sys ι (Option Address) (Globals × Engine) × (ι × Exchange Sys))) : Prop :=
  ∀ step ∈ steps, ∀ i value backup,
    step.2 = (i, ⟨.lspltInstall (PltEngine.lsplt.slot target) value, some backup⟩) →
      step.1.shared.2.slots (PltEngine.lsplt.slot target) = first

/-- Two calls never leave more than one owner. -/
def AlwaysOneOwner : Prop :=
  ∀ (present : Slot → Bool) (engine : PltEngine) (target : Target) (first : Address)
    (start : Globals × Engine) (replacements : Bool → Address) (results : Bool → Option Address)
    (steps : List (Pool Sys Bool (Option Address) (Globals × Engine) × (Bool × Exchange Sys)))
    (pool : Pool Sys Bool (Option Address) (Globals × Engine)),
    Unhooked engine target first start → Function.Injective replacements →
      (∀ i, replacements i ≠ first) →
      (system present engine target replacements start).Run
        (unstarted engine target replacements start) steps pool →
      (∀ i, pool.threads i = .pure (results i)) →
      OneOwner present engine target first results pool.shared

/-- Two modules hook one symbol with lsplt. -/
def library : Target :=
  ⟨1, 2, "/system/lib64/libart.so", 4096, "open", by decide⟩

def handlers : Bool → Address
  | true => 200
  | false => 300

/-- The symbol is not hooked. -/
def untouched : Globals × Engine :=
  ({}, { slots := fun _ => 100 })

/-- The calls take turns. -/
def turns (schedule : List Bool) :
    List (Pool Sys Bool (Option Address) (Globals × Engine) × (Bool × Exchange Sys)) ×
      Pool Sys Bool (Option Address) (Globals × Engine) :=
  Pool.exec working schedule ([], unstarted .lsplt library handlers untouched)

theorem run_turns (schedule : List Bool) :
    (system (fun _ => true) .lsplt library handlers untouched).Run
      (unstarted .lsplt library handlers untouched) (turns schedule).1 (turns schedule).2 :=
  Pool.run_exec sound_working schedule .nil

theorem handlers_differ (i : Bool) : handlers i ≠ 100 := by
  cases i <;> decide

/-- Both calls look the symbol up before either records it. -/
theorem two_owners : ¬AlwaysOneOwner := by
  intro always
  let results : Bool → Option Address
    | true => some 100
    | false => some 200
  have finished : ∀ i, (turns [true, false, true, false, true, false]).2.threads i =
      .pure (results i) := by
    rintro (_ | _)
    · rfl
    · rfl
  have distinct : Function.Injective handlers := by
    rintro (_ | _) (_ | _) same
    · rfl
    · exact absurd same (by decide)
    · exact absurd same (by decide)
    · rfl
  have owner := always _ .lsplt library 100 untouched handlers results _ _ ⟨rfl, rfl⟩ distinct
    handlers_differ (run_turns [true, false, true, false, true, false]) finished
  exact absurd (owner.single true false rfl rfl) (by decide)

variable {present : Slot → Bool} {engine : PltEngine} {target : Target} {first : Address}
  {replacements : ι → Address} {start : Globals × Engine} {results : ι → Option Address}
  {pool : Pool Sys ι (Option Address) (Globals × Engine)}
  {steps : List (Pool Sys ι (Option Address) (Globals × Engine) × (ι × Exchange Sys))}

omit [DecidableEq ι] in
theorem givesBack_of_hooked {owner : Address} {state : Globals × Engine}
    (hooked : Hooked engine target first owner state)
    (isPresent : present (engine.slot target) = true) (ready : Ready engine state.1) :
    GivesBack present engine target first first state := by
  have enabled : engine ≠ .disable := by
    rintro rfl
    exact hooked.recorded
  apply Prog.wp_mono (wp_pltHook_undone hooked isPresent ready)
  rintro (_ | original) after ⟨undone, readyAfter⟩
  · exact absurd trivial undone
  · refine ⟨rfl, undone.slot, fun replacement differs => ?_⟩
    apply Prog.wp_mono (wp_pltHook_unhooked undone differs enabled readyAfter)
    rintro (_ | again) later attempted
    · exact absurd isPresent (Bool.eq_false_iff.mp (attempted.1 trivial))
    · exact ⟨congrArg some attempted.1, attempted.2.2.slot⟩

/-- Where a call of `bytehookHook` has found the engine ready, it is. -/
theorem ready_of_run
    (run : (system present .byteHook target replacements start).Run
      (unstarted .byteHook target replacements start) steps pool) {i : ι}
    (asked : (⟨.bytehookInit, true⟩ : Exchange Sys) ∈ Pool.own i steps) :
    pool.shared.1.bytehookResult = some true := by
  induction run with
  | nil => exact absurd asked List.not_mem_nil
  | snoc run next ih =>
      rename_i steps before after event
      have made := Pool.after_own run
      rcases next with ⟨isNext, step⟩
      rename_i j request next answer shared
      have requests := (made j).asks (all_bytehookHook _ _ _).asks
      rw [isNext] at requests
      rw [Pool.own_snoc] at asked
      split at asked
      case isFalse => exact ready_kept step requests.1 (ih asked)
      case isTrue =>
        rcases List.mem_append.mp asked with earlier | last
        · exact ready_kept step requests.1 (ih earlier)
        · cases List.mem_singleton.mp last
          rcases step_bytehookInit step with ⟨_, _, rfl⟩
          rfl

/-- Without a disturbance there is one owner. -/
theorem oneOwner_of_undisturbed (unhooked : Unhooked engine target first start)
    (differ : ∀ i, replacements i ≠ first)
    (run : (system present engine target replacements start).Run
      (unstarted engine target replacements start) steps pool)
    (finished : ∀ i, pool.threads i = .pure (results i))
    (undisturbed : engine = .lsplt → Undisturbed target first steps) :
    OneOwner present engine target first results pool.shared := by
  have considered : ∀ step ∈ steps, Considered engine target first step.1.shared step.2.2.1
      step.2.2.2 := by
    intro step member isLsplt value backup same
    exact undisturbed isLsplt step member step.2.1 value backup (Prod.ext rfl same)
  have exclusive : Exclusive .idle (Fits present engine target first) (fun _ : ι => Token.idle)
      start := .inl ⟨fun _ => rfl, unhooked⟩
  rcases Pool.invariant_of_keeps (Pool.run_restrict run considered) exclusive
    (fun i => keeps_pltHook engine (differ i)) with ⟨tokens, holds, keeps, _⟩
  have owns : ∀ i original, results i = some original →
      original = first ∧ ∃ owner, tokens i = .owner owner := by
    intro i original isResult
    have final := keeps i
    rw [finished i, isResult] at final
    exact final
  refine ⟨?_, ?_⟩
  · intro i j won alsoWon
    rcases Option.isSome_iff_exists.mp won with ⟨original, isResult⟩
    rcases Option.isSome_iff_exists.mp alsoWon with ⟨another, isResult'⟩
    rcases owns i original isResult with ⟨_, owner, token⟩
    rcases owns j another isResult' with ⟨_, owner', token'⟩
    rcases holds with ⟨allIdle, _⟩ | ⟨k, _, others, _⟩
    · exact absurd ((allIdle i).symm.trans token) Token.noConfusion
    · have isI : i = k := by
        by_contra other
        exact absurd ((others i other).symm.trans token) Token.noConfusion
      have isJ : j = k := by
        by_contra other
        exact absurd ((others j other).symm.trans token') Token.noConfusion
      exact isI.trans isJ.symm
  · intro i original isResult
    rcases owns i original isResult with ⟨rfl, owner, token⟩
    rcases holds with ⟨allIdle, _⟩ | ⟨k, _, others, fits⟩
    · exact absurd ((allIdle i).symm.trans token) Token.noConfusion
    · have isI : i = k := by
        by_contra other
        exact absurd ((others i other).symm.trans token) Token.noConfusion
      rw [← isI, token] at fits
      apply givesBack_of_hooked fits.2.2 fits.2.1
      rintro rfl
      have talks := Pool.talks_of_done run (finished i)
      apply ready_of_run run (i := i)
      apply talks.of_says (says_bytehookHook _ _ _)
      rw [isResult]
      rfl

/-- The call has installed something with lsplt. -/
def HasInstalled (transcript : List (Exchange Sys)) : Prop :=
  ∃ slot value backup, (⟨.lspltInstall slot value, some backup⟩ : Exchange Sys) ∈ transcript

omit [DecidableEq ι] in
/-- A call of `lspltHook` that has installed something returns true. -/
theorem says_lspltHook (dev inode : Nat) (symbol : String) (replacement : Address) :
    (lspltHook dev inode symbol replacement).Says fun result transcript =>
      HasInstalled transcript → result.isSome = true := by
  rintro (_ | previous)
  · rintro (_ | backup)
    · rintro ⟨slot, value, backup, present⟩
      simp at present
    · exact fun _ _ => rfl
  · change Prog.Says (if replacement ≠ previous then pure none else lspltRemove _ _ _) _
    split
    · rintro ⟨slot, value, backup, present⟩
      simp at present
    · rintro (_ | backup)
      · rintro ⟨slot, value, backup, present⟩
        simp at present
      · exact fun _ _ => rfl

omit [DecidableEq ι] in
/-- A call of `lspltHook` installs once. -/
theorem asks_lspltHook (dev inode : Nat) (symbol : String) (replacement : Address) :
    (lspltHook dev inode symbol replacement).Asks fun made (request : Call) =>
      ∀ slot value, request = .lspltInstall slot value → ¬HasInstalled made := by
  have first : ∀ previous : Option Address,
      ¬HasInstalled [⟨.lspltFind (lspltKey dev inode symbol), previous⟩] := by
    rintro previous ⟨slot, value, backup, present⟩
    cases List.mem_singleton.mp present
  refine ⟨nofun, ?_⟩
  rintro (_ | previous)
  · refine ⟨fun _ _ _ => first none, ?_⟩
    rintro (_ | backup)
    · trivial
    · exact ⟨nofun, fun _ => trivial⟩
  · change Prog.Asks (if replacement ≠ previous then pure none else lspltRemove _ _ _) _
    split
    · trivial
    · refine ⟨fun _ _ _ => first (some previous), ?_⟩
      rintro (_ | backup)
      · trivial
      · exact ⟨nofun, fun _ => trivial⟩

/-- The request is one of `lspltHook`. -/
def Call.isLsplt : Call → Bool
  | .lspltFind _ | .lspltErase _ | .lspltStore _ _ | .lspltInstall _ _ => true
  | _ => false

omit [DecidableEq ι] in
theorem all_lspltHook (dev inode : Nat) (symbol : String) (replacement : Address) :
    (lspltHook dev inode symbol replacement).All fun request : Call => request.isLsplt = true := by
  refine ⟨rfl, ?_⟩
  rintro (_ | previous)
  · refine ⟨rfl, ?_⟩
    rintro (_ | backup)
    · trivial
    · exact ⟨rfl, fun _ => trivial⟩
  · change Prog.All _ (if replacement ≠ previous then pure none else lspltRemove _ _ _)
    split
    · trivial
    · refine ⟨rfl, ?_⟩
      rintro (_ | backup)
      · trivial
      · exact ⟨rfl, fun _ => trivial⟩

/-- Only an install moves a slot. -/
theorem slot_kept {sure : Prop} {before after : Globals × Engine} {request : Call}
    {answer : request.Answer} {slot : Slot}
    (step : (machine present sure).Step before request answer after)
    (isLsplt : request.isLsplt = true)
    (other : ∀ value backup, (⟨request, answer⟩ : Exchange Sys) ≠
      ⟨.lspltInstall slot value, some backup⟩) :
    after.2.slots slot = before.2.slots slot := by
  cases request with
  | lspltFind key =>
      rcases step_lspltFind step with ⟨_, rfl⟩
      rfl
  | lspltErase key =>
      cases step_lspltErase step
      rfl
  | lspltStore key record =>
      cases step_lspltStore step
      rfl
  | lspltInstall installed value =>
      have swap := (step_lspltInstall step).2
      cases answer with
      | none => rw [swap.2]
      | some backup =>
          rw [swap.2.2]
          apply Function.update_of_ne
          rintro rfl
          exact other value backup rfl
  | _ => exact absurd isLsplt Bool.false_ne_true

/-- A slot that has moved was installed in. -/
theorem exists_install
    (run : (system present .lsplt target replacements start).Run
      (unstarted .lsplt target replacements start) steps pool) {slot : Slot}
    (moved : pool.shared.2.slots slot ≠ start.2.slots slot) :
    ∃ step ∈ steps, ∃ i value backup, step.2 = (i, ⟨.lspltInstall slot value, some backup⟩) := by
  induction run with
  | nil => exact absurd rfl moved
  | snoc run next ih =>
      rename_i steps before after event
      have made := Pool.after_own run
      rcases next with ⟨isNext, step⟩
      rename_i j request next answer shared
      have requests := (made j).asks (all_lspltHook _ _ _ _).asks
      rw [isNext] at requests
      by_cases isInstall : ∃ value backup, (⟨request, answer⟩ : Exchange Sys) =
          ⟨.lspltInstall slot value, some backup⟩
      · rcases isInstall with ⟨value, backup, same⟩
        exact ⟨_, List.mem_append_right _ List.mem_cons_self, j, value, backup,
          Prod.ext rfl same⟩
      · have kept := slot_kept step requests.1
          fun value backup same => isInstall ⟨value, backup, same⟩
        rcases ih (kept ▸ moved) with ⟨step, present, installs⟩
        exact ⟨step, List.mem_append_left _ present, installs⟩

/-- A disturbance makes two owners. -/
theorem undisturbed_of_single (unhooked : Unhooked .lsplt target first start)
    (run : (system present .lsplt target replacements start).Run
      (unstarted .lsplt target replacements start) steps pool)
    (finished : ∀ i, pool.threads i = .pure (results i))
    (single : ∀ i j, (results i).isSome = true → (results j).isSome = true → i = j) :
    Undisturbed target first steps := by
  have won : ∀ i, HasInstalled (Pool.own i steps) → (results i).isSome = true := by
    intro i
    have talks := Pool.talks_of_done run (finished i)
    exact talks.of_says (says_lspltHook _ _ _ _)
  rintro ⟨before, event⟩ member i value backup rfl
  by_contra moved
  rcases List.append_of_mem member with ⟨front, behind, split⟩
  rcases run.split split with ⟨earlier, after, step⟩
  have installedI : HasInstalled (Pool.own i steps) :=
    ⟨_, value, backup, Pool.mem_own.mpr ⟨_, member, rfl⟩⟩
  -- The other install, before this one.
  have startSlot : start.2.slots (PltEngine.lsplt.slot target) = first := unhooked.slot
  rcases exists_install earlier (startSlot.symm ▸ moved) with ⟨other, inFront, j, value', backup', isStep⟩
  have inSteps : other ∈ steps := split ▸ List.mem_append_left _ inFront
  have installedJ : HasInstalled (Pool.own j steps) :=
    ⟨_, value', backup', Pool.mem_own.mpr ⟨other, inSteps, isStep⟩⟩
  have same : j = i := single j i (won j installedJ) (won i installedI)
  have asked := (Pool.after_own earlier i).asks (asks_lspltHook _ _ _ _)
  rcases step with ⟨isNext, _⟩
  rw [isNext] at asked
  apply asked.1 _ _ rfl
  rw [List.append_nil]
  exact ⟨_, value', backup', Pool.mem_own.mpr ⟨other, inFront, same ▸ isStep⟩⟩

/-- The symbol has one owner exactly if lsplt does not install over what another call has
installed. -/
theorem oneOwner_iff (unhooked : Unhooked engine target first start)
    (differ : ∀ i, replacements i ≠ first)
    (run : (system present engine target replacements start).Run
      (unstarted engine target replacements start) steps pool)
    (finished : ∀ i, pool.threads i = .pure (results i)) :
    OneOwner present engine target first results pool.shared ↔
      (engine = .lsplt → Undisturbed target first steps) := by
  constructor
  · rintro owner rfl
    exact undisturbed_of_single unhooked run finished owner.single
  · exact oneOwner_of_undisturbed unhooked differ run finished

/-- A call that comes second is refused. -/
theorem oneOwner_in_turn :
    OneOwner (fun _ => true) .lsplt library 100 (fun i : Bool => if i then some 100 else none)
      (turns [true, true, true, false]).2.shared := by
  have unhooked : Unhooked .lsplt library 100 untouched := ⟨rfl, rfl⟩
  refine (oneOwner_iff unhooked handlers_differ (run_turns [true, true, true, false]) ?_).mpr ?_
  · rintro (_ | _)
    · rfl
    · rfl
  · intro _ step member i value backup same
    rcases List.mem_append.mp member with member | last
    · rcases List.mem_append.mp member with member | last
      · rcases List.mem_append.mp member with member | last
        · cases List.mem_singleton.mp member
          cases same
        · cases List.mem_singleton.mp last
          rfl
      · cases List.mem_singleton.mp last
        cases same
    · cases List.mem_singleton.mp last
      cases same

end Runs

end Znn.Loader.PltHook
