import Mathlib.Data.String.Basic
import Znn.Injector.Daemon
import Znn.Interaction.Semantics

/-!
# The module table

The table is a list in the order of the ids. `collect` builds a new one from the directories and
from the records of the previous table; what holds of every record that it can make holds of every
record of the table it returns.
-/

namespace Znn.Injector

open Interaction

namespace Modules

/-- The table is in the order of the ids, and every record in it is good. -/
structure Ordered (good : ModuleInfo → Prop) (modules : Modules) : Prop where
  sorted : modules.Pairwise fun module other => module.id < other.id
  each : ∀ module ∈ modules, good module

variable {good : ModuleInfo → Prop} {modules : Modules} {module other : ModuleInfo}

theorem mem_insert (member : other ∈ modules.insert module) : other = module ∨ other ∈ modules := by
  induction modules with
  | nil => exact .inl (List.mem_singleton.mp member)
  | cons head rest ih =>
      rw [Modules.insert] at member
      split at member
      case isTrue =>
        rcases List.mem_cons.mp member with same | inRest
        · exact .inl same
        · exact .inr (List.mem_cons_of_mem _ inRest)
      case isFalse =>
        split at member
        case isTrue => exact List.mem_cons.mp member
        case isFalse =>
          rcases List.mem_cons.mp member with isHead | inserted
          · exact .inr (List.mem_cons.mpr (.inl isHead))
          · exact (ih inserted).imp_right (List.mem_cons_of_mem _)

theorem mem_of_get? {id : String} (found : modules.get? id = some module) :
    module ∈ modules ∧ module.id = id :=
  ⟨List.mem_of_find?_eq_some found, by simpa using List.find?_some found⟩

theorem Ordered.nil : Ordered good [] :=
  ⟨List.Pairwise.nil, fun _ member => absurd member List.not_mem_nil⟩

/-- A module takes its place in the order of the ids. -/
theorem Ordered.insert (ordered : Ordered good modules) (isGood : good module) :
    Ordered good (modules.insert module) := by
  constructor
  · have sorted := ordered.sorted
    clear ordered
    induction modules with
    | nil => exact List.pairwise_singleton _ _
    | cons head rest ih =>
        rw [List.pairwise_cons] at sorted
        rw [Modules.insert]
        split
        case isTrue same =>
          rw [List.pairwise_cons, same]
          exact sorted
        case isFalse different =>
          split
          case isTrue before =>
            rw [List.pairwise_cons, List.pairwise_cons]
            refine ⟨?_, sorted⟩
            intro other member
            rcases List.mem_cons.mp member with rfl | inRest
            · exact before
            · exact lt_trans before (sorted.1 other inRest)
          case isFalse notBefore =>
            rw [List.pairwise_cons]
            refine ⟨?_, ih sorted.2⟩
            intro other member
            rcases mem_insert member with rfl | inRest
            · exact lt_of_le_of_ne (not_lt.mp notBefore) (Ne.symm different)
            · exact sorted.1 other inRest
  · intro other member
    rcases mem_insert member with rfl | inTable
    · exact isGood
    · exact ordered.each other inTable

/-- Every record of the table is changed under its own id. -/
theorem Ordered.map {update : ModuleInfo → ModuleInfo} (ordered : Ordered good modules)
    (sameId : ∀ module, (update module).id = module.id)
    (keeps : ∀ module, good module → good (update module)) : Ordered good (modules.map update) := by
  constructor
  · rw [List.pairwise_map]
    simpa only [sameId] using ordered.sorted
  · intro other member
    rcases List.mem_map.mp member with ⟨module, inTable, rfl⟩
    exact keeps module (ordered.each module inTable)

section Places

variable {front back : Modules}

/-- The place of a module in the order is where it is found. -/
theorem get?_middle (before : ∀ other ∈ front, other.id < module.id) :
    get? (front ++ module :: back) module.id = some module := by
  rw [get?, List.find?_append, List.find?_eq_none.mpr, List.find?_cons_of_pos]
  · rfl
  · exact beq_self_eq_true _
  · intro other member same
    exact (before other member).ne (eq_of_beq same)

/-- A record is replaced where the module is. -/
theorem insert_middle {updated : ModuleInfo} (before : ∀ other ∈ front, other.id < module.id)
    (sameId : updated.id = module.id) :
    Modules.insert (front ++ module :: back) updated = front ++ updated :: back := by
  induction front with
  | nil => rw [List.nil_append, Modules.insert, if_pos sameId, List.nil_append]
  | cons head front ih =>
      have less : head.id < updated.id := sameId ▸ before head List.mem_cons_self
      rw [List.cons_append, Modules.insert, if_neg less.ne', if_neg less.not_gt,
        ih fun other member => before other (List.mem_cons_of_mem _ member)]
      rfl

end Places

end Modules

namespace Procfs

theorem retainAlive_sublist {α : Type} (pidOf : α → Pid) (items : List α) :
    (retainAlive pidOf items).Returns fun kept => kept.Sublist items := by
  induction items with
  | nil => exact List.Sublist.slnil
  | cons item rest ih =>
      apply Prog.Returns.bind_any
      intro alive
      apply Prog.Returns.bind ih
      intro kept isSublist
      cases alive with
      | true => exact isSublist.cons_cons item
      | false => exact isSublist.cons item

end Procfs

namespace Targets

/-- A record that `collect` makes: an old one, or a new one that takes over what the old one says
of the processes that are still there. -/
inductive Collected (previous : Modules) : ModuleInfo → Prop where
  | kept {module : ModuleInfo} (known : module ∈ previous) : Collected previous module
  | fresh {module : ModuleInfo}
      (targets : module.targets = module.declarations.map Declaration.target)
      (processes : module.processes = []) (failed : module.failed = []) : Collected previous module
  | renewed {module old : ModuleInfo} (known : old ∈ previous)
      (targets : module.targets = module.declarations.map Declaration.target)
      (processes : module.processes.Sublist old.processes) (failed : module.failed = old.failed) :
      Collected previous module

section Collecting

variable {previous modules : Modules}

/-- What a turn of the loop of `collect` can do. -/
theorem collectOne_cases (previous modules : Modules) (id : String) :
    (collectOne previous modules id).Returns fun result => result = modules ∨
      ∃ module, Collected previous module ∧ result = modules.insert module := by
  unfold collectOne
  split
  case isTrue => exact .inl rfl
  case isFalse =>
    apply Prog.Returns.bind_any
    intro enabled
    split
    case isTrue => exact .inl rfl
    case isFalse =>
      apply Prog.Returns.bind_any
      intro read
      split
      case h_1 => exact .inl rfl
      case h_2 =>
        split
        case h_1 old found => exact .inr ⟨old, .kept (Modules.mem_of_get? found).1, rfl⟩
        case h_2 => exact .inl rfl
      case h_3 =>
        apply Prog.Returns.bind_any
        intro name
        apply Prog.Returns.bind_any
        intro version
        dsimp only
        split
        case isTrue => exact .inl rfl
        case isFalse =>
          split
          case h_1 old found =>
            apply Prog.Returns.bind (Procfs.retainAlive_sublist Prod.fst old.processes)
            intro processes isSublist
            refine .inr ⟨_, ?_, rfl⟩
            exact .renewed (Modules.mem_of_get? found).1 rfl isSublist rfl
          case h_2 =>
            refine .inr ⟨_, ?_, rfl⟩
            exact .fresh rfl rfl rfl

variable {good : ModuleInfo → Prop}

theorem ordered_collectEach (made : ∀ module, Collected previous module → good module)
    (ordered : modules.Ordered good) (ids : List String) :
    (collectEach previous modules ids).Returns (Modules.Ordered good) := by
  induction ids generalizing modules with
  | nil => exact ordered
  | cons id ids ih =>
      apply Prog.Returns.bind (collectOne_cases previous modules id)
      rintro middle (rfl | ⟨module, collected, rfl⟩)
      · exact ih ordered
      · exact ih (ordered.insert (made module collected))

/-- What holds of every record that is made holds throughout the table. -/
theorem ordered_collect (before : previous.Ordered good)
    (made : ∀ module, Collected previous module → good module) :
    (collect previous).Returns (Modules.Ordered good) := by
  intro ids
  cases ids with
  | none => exact before
  | some ids => exact ordered_collectEach made Modules.Ordered.nil ids

end Collecting

end Targets

end Znn.Injector
