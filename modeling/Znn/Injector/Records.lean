import Znn.Injector.ConfigSet
import Znn.Injector.ModuleTable
import Znn.Injector.Startup
import Znn.Interaction.Reach
import Znn.Lists.Keyed

/-!
# Records of processes

Four operations write the records of a module: a success, a failure, a collection of the targets
and the restoration from the state file. Each of them checks for itself what is there already.
Together they keep every pid and every failure at most once, in any order. What a daemon writes to
its state file is then taken over as it is by one that starts afterwards, as far as the processes
are still there.
-/

namespace Znn.Injector

open Interaction

/-- No process is recorded twice, and no failure is. -/
structure ModuleInfo.Distinct (module : ModuleInfo) : Prop where
  processes : (module.processes.map Prod.fst).Nodup
  failed : module.failed.Nodup

section Writers

/-- The operations that write the table. -/
inductive Writer where
  | success (pid : Pid) (exe : String)
  | failure (pid : Pid) (exe reason : String)
  | collect
  | restore (snapshot : Option (List SnapshotModule))
deriving DecidableEq, Repr

def Writer.program : Writer → DaemonM Unit
  | .success pid exe => Daemon.recordSuccess pid exe
  | .failure pid exe reason => Daemon.recordFailure pid exe reason
  | .collect => Daemon.collectTargets
  | .restore snapshot => Daemon.restoreProcesses snapshot

/-- The table as it is written, from an empty one on, with any answers of the system. -/
def recordKeeping : System Daemon (Writer × Transcript) where
  Initial daemon := daemon.modules = []
  Step own step own' := StateProg.Talks step.1.program own ⟨⟩ own' step.2

/-- What a writer does to one record: it appends what is not there yet. -/
inductive ModuleInfo.Grows (module : ModuleInfo) : ModuleInfo → Prop where
  | same : Grows module module
  | process {pid : Pid} {name : String} (new : pid ∉ module.processes.map Prod.fst) :
      Grows module { module with processes := module.processes ++ [(pid, name)] }
  | failure {name reason : String} (new : (name, reason) ∉ module.failed) :
      Grows module { module with failed := module.failed ++ [(name, reason)] }

namespace ModuleInfo

variable {module other : ModuleInfo}

theorem Grows.id_eq (grows : module.Grows other) : other.id = module.id := by
  cases grows with
  | same => rfl
  | process new => rfl
  | failure new => rfl

theorem Distinct.grows (distinct : module.Distinct) (grows : module.Grows other) :
    other.Distinct := by
  cases grows with
  | same => exact distinct
  | process new =>
      refine ⟨?_, distinct.failed⟩
      rw [List.map_append, List.map_singleton, ← List.concat_eq_append]
      exact distinct.processes.concat new
  | failure new =>
      refine ⟨distinct.processes, ?_⟩
      rw [← List.concat_eq_append]
      exact distinct.failed.concat new

theorem grows_addProcess (module : ModuleInfo) (pid : Pid) (exe name : String) :
    module.Grows (module.addProcess pid exe name) := by
  rw [addProcess]
  split
  · exact .same
  split
  · exact .same
  · rename_i unknown
    apply Grows.process
    intro known
    rcases List.mem_map.mp known with ⟨record, member, rfl⟩
    exact unknown (List.any_eq_true.mpr ⟨record, member, beq_self_eq_true _⟩)

theorem grows_addFailure (module : ModuleInfo) (exe name reason : String) :
    module.Grows (module.addFailure exe name reason) := by
  rw [addFailure]
  split
  · exact .same
  split
  · exact .same
  · rename_i unknown
    apply Grows.failure
    intro known
    exact unknown (List.any_eq_true.mpr ⟨_, known, by simp⟩)

/-- A recorded process is appended under its pid, if that is new. -/
theorem grows_restore (module : ModuleInfo) (recorded : SnapshotProcess) :
    (module.restore recorded).Returns module.Grows := by
  unfold restore
  split
  case h_2 => exact .same
  case h_1 pid isPid =>
    split
    case isTrue => exact .same
    case isFalse unknown =>
      apply Prog.Returns.bind_any
      intro gone
      split
      case isTrue => exact .same
      case isFalse =>
        apply Prog.Returns.bind_any
        intro exe
        split
        case isTrue => exact .same
        case isFalse =>
          apply Grows.process
          intro known
          rcases List.mem_map.mp known with ⟨record, member, rfl⟩
          exact unknown (List.any_eq_true.mpr ⟨record, member, beq_self_eq_true _⟩)

theorem Distinct.restoreEach (distinct : module.Distinct) (recorded : List SnapshotProcess) :
    (module.restoreEach recorded).Returns fun restored =>
      restored.id = module.id ∧ restored.Distinct := by
  induction recorded generalizing module with
  | nil => exact ⟨rfl, distinct⟩
  | cons record recorded ih =>
      apply Prog.Returns.bind (grows_restore module record)
      intro grown grows
      apply Prog.Returns.mono (ih (distinct.grows grows))
      rintro restored ⟨sameId, distinct'⟩
      exact ⟨sameId.trans grows.id_eq, distinct'⟩

/-- A record that `collect` makes says nothing twice either. -/
theorem Distinct.collected {previous : Modules}
    (distinct : ∀ module ∈ previous, module.Distinct)
    (collected : Targets.Collected previous module) : module.Distinct := by
  cases collected with
  | kept known => exact distinct module known
  | fresh targets processes failed =>
      constructor
      · rw [processes]
        exact List.nodup_nil
      · rw [failed]
        exact List.nodup_nil
  | renewed known targets processes failed =>
      constructor
      · exact (distinct _ known).processes.sublist (processes.map Prod.fst)
      · rw [failed]
        exact (distinct _ known).failed

end ModuleInfo

theorem Modules.restoreEach_ordered {modules : Modules}
    (ordered : modules.Ordered ModuleInfo.Distinct) (recorded : List SnapshotModule) :
    (modules.restoreEach recorded).Returns (Modules.Ordered ModuleInfo.Distinct) := by
  induction recorded generalizing modules with
  | nil => exact ordered
  | cons record recorded ih =>
      rw [restoreEach]
      split
      case h_1 => exact ih ordered
      case h_2 module found =>
        have inTable := (mem_of_get? found).1
        apply Prog.Returns.bind ((ordered.each module inTable).restoreEach record.processes)
        rintro restored ⟨-, distinct⟩
        exact ih (ordered.insert distinct)

/-- No writer records anything twice. -/
theorem Writer.keeps_distinct (writer : Writer) {own : Daemon}
    (ordered : own.modules.Ordered ModuleInfo.Distinct) :
    StateProg.Says writer.program
      (fun _ own' _ => own'.modules.Ordered ModuleInfo.Distinct) own := by
  have keeps : ∀ update : ModuleInfo → ModuleInfo,
      (∀ module : ModuleInfo, module.Grows (update module)) →
      (Daemon.updateModules update own).modules.Ordered ModuleInfo.Distinct := by
    intro update grows
    apply ordered.map
    · exact fun module => (grows module).id_eq
    · exact fun module distinct => distinct.grows (grows module)
  cases writer with
  | success pid exe =>
      intro noted name
      exact keeps _ fun module => module.grows_addProcess pid exe name
  | failure pid exe reason =>
      intro noted name
      exact keeps _ fun module => module.grows_addFailure exe name reason
  | collect =>
      have collected := Targets.ordered_collect ordered
        fun module => ModuleInfo.Distinct.collected ordered.each
      rw [program, Daemon.collectTargets, StateProg.says_bind, StateProg.says_get,
        StateProg.says_bind, StateProg.says_lift]
      apply collected.transcripts.mono
      exact fun modules transcript isOrdered => isOrdered
  | restore snapshot =>
      cases snapshot with
      | none => exact ordered
      | some recorded =>
          have restored := Modules.restoreEach_ordered ordered recorded
          rw [program, Daemon.restoreProcesses, StateProg.says_bind, StateProg.says_get,
            StateProg.says_bind, StateProg.says_lift]
          apply restored.transcripts.mono
          exact fun modules transcript isOrdered => isOrdered

/-- Whatever order the table is written in. -/
theorem ordered_of_reachable {own : Daemon} (reached : recordKeeping.Reachable own) :
    own.modules.Ordered ModuleInfo.Distinct := by
  induction reached with
  | initial start =>
      have empty : _ = ([] : Modules) := start
      rw [empty]
      exact Modules.Ordered.nil
  | step _ next ih => exact StateProg.Talks.of_says next (Writer.keeps_distinct _ ih)

end Writers

end Znn.Injector
