import Znn.Injector.Staging
import Znn.Injector.Transparency

/-!
# Helpers for the companions of a plan

A module that is a companion gets a helper process of its own. `finish_injection` spawns the
helpers when the plan is in the memory of the target, and before the call of `znn_loader_init`
is set up. Nothing takes a helper back: what is refused after that leaves it without a loader.
-/

namespace Znn.Injector

open Interaction PtraceOps Trace Bytes Usize

/-- A helper process, by what it was given. -/
structure Helper where
  path : String
  nonce : UInt32
  index : UInt32
  token : Vector UInt8 16
deriving DecidableEq

/-- The helper that a call spawns. -/
def Call.helper : Call → Option Helper
  | .spawnCompanion path nonce index token => some ⟨path, nonce, index, token⟩
  | _ => none

/-- Calls that neither spawn a helper nor let a process run. -/
def Call.quiet : Call → Prop
  | .spawnCompanion _ _ _ _ | .cont _ _ => False
  | _ => True

theorem Call.quiet_of_touches (pid : Pid) (request : Call) (touched : request.touches pid) :
    request.quiet := by
  cases request <;> first | exact touched.elim | trivial

theorem Call.helper_of_quiet {request : Call} (isQuiet : request.quiet) : request.helper = none := by
  cases request <;> first | exact isQuiet.elim | rfl

/-- A request on the memory or the registers of a process that was refused. -/
def Refuses : Exchange Sys → Prop
  | ⟨.peekData _ _, answer⟩ => answer = none
  | ⟨.pokeData _ _ _, ok⟩ => ok = false
  | ⟨.setRegset _ _, ok⟩ => ok = false
  | _ => False

instance (exchange : Exchange Sys) : Decidable (Refuses exchange) := by
  rcases exchange with ⟨request, answer⟩
  cases request <;> unfold Refuses <;> infer_instance

/-- The exchanges of a run, each with the process as it was then. -/
abbrev History : Type := List (Process × Exchange Sys)

/-- The helpers that were spawned, in their order. -/
def helpersIn (history : History) : List Helper :=
  history.filterMap fun event => event.2.1.helper

/-- One helper for each companion of the plan. -/
def Plan.helpers (plan : Plan) : List Helper :=
  plan.companions.map fun module => ⟨module.path, plan.nonce, module.index, plan.token⟩

/-- The width of the registers. -/
def Arch.word (arch : Arch) : Nat :=
  arch.layout.elim 0 Layout.word

section Law

variable [Usize]

/-- The target is about to run on at `znn_loader_init`, with the plan in its memory. -/
structure Entered (tracee : Tracee) (plan : Plan) (process : Process) : Prop where
  stopped : process.phase = .stopped
  pc : (process.registers tracee.arch).pc = tracee.initFunction % 256 ^ tracee.arch.word
  written : ∃ address bytes, plan.encode .little = some bytes ∧
    load process.mem address bytes.length = bytes

/-- A helper is spawned only for a loader that is entered afterwards with the plan that names
its module. A finished injection has spawned none, one that goes on has spawned one for each
companion of the plan. -/
structure HelpersFollow (pid : Pid) (tracee : Tracee) (progress : Progress) (history : History) :
    Prop where
  entered : ∀ front event behind helper, history = front ++ event :: behind →
    event.2.1.helper = some helper → ∃ plan process signal,
      helper ∈ plan.helpers ∧ (process, ⟨.cont pid signal, ()⟩) ∈ behind ∧
        Entered tracee plan process
  finished : progress = .finished → helpersIn history = []
  once : ∀ next, progress = .tracing next → ∃ plan process signal,
    (process, ⟨.cont pid signal, ()⟩) ∈ history ∧ Entered tracee plan process ∧
      plan.modules = tracee.modules ∧ helpersIn history = plan.helpers

end Law

/-- After a helper has been spawned nothing is refused. -/
def GrantedAfterHelper (tracee : Tracee) (history : History) : Prop :=
  ∀ front event behind, history = front ++ event :: behind → event.2.1.helper.isSome →
    tracee.arch ≠ .unknown ∧ ∀ later ∈ behind, ¬Refuses later.2

section Quiet

variable {pid : Pid}

theorem quiet_perform (request : Call) (isQuiet : request.quiet) :
    Only Call.quiet (perform request) :=
  ⟨isQuiet, fun _ => trivial⟩

theorem quiet_effective [Config.Build] : Only Call.quiet Config.effective := by
  simp only [Config.effective, Config.readFile, Prog.bind_eq]
  apply Prog.All.bind
  · refine ⟨trivial, fun answer => ?_⟩
    cases answer <;> trivial
  · intro stored
    cases stored <;> trivial

theorem quiet_readRegisters (arch : Arch) : Only Call.quiet (readRegisters pid arch) := by
  simp only [readRegisters, Prog.bind_eq, Prog.all_perform_bind]
  refine ⟨trivial, fun answer => ?_⟩
  cases answer <;> trivial

variable [Usize]

theorem quiet_writeMemory (address : Nat) (buffer : List UInt8) :
    Only Call.quiet (writeMemory pid address buffer) :=
  (touches_writeMemory pid address buffer).mono (Call.quiet_of_touches pid)

theorem quiet_setupCall (regs : Regs) (function returnTo : Nat) (args : List Nat) :
    Only Call.quiet (setupCall pid regs function returnTo args) :=
  (touches_setupCall pid regs function returnTo args).mono (Call.quiet_of_touches pid)

theorem quiet_releaseTracee (tracee : Tracee) : Only Call.quiet (releaseTracee pid tracee) := by
  apply Prog.All.bind
  · unfold restoreEntry
    split
    · exact Prog.All.bind (quiet_writeMemory _ _) fun ok => ⟨trivial, fun _ => trivial⟩
    · trivial
  intro _
  split
  · unfold unskipEntryInstruction
    split
    · apply Prog.All.bind (quiet_readRegisters _)
      intro regs
      cases regs with
      | none => trivial
      | some regs =>
          dsimp only
          split
          · exact ⟨trivial, fun ok => ⟨trivial, fun _ => trivial⟩⟩
          · trivial
    · trivial
  · exact ⟨trivial, fun ok => ⟨trivial, fun _ => trivial⟩⟩

theorem quiet_giveUp (tracee : Tracee) (reason : String) :
    StateProg.All Call.quiet (Daemon.giveUp pid tracee reason) := by
  apply StateProg.All.bind
  · apply StateProg.All.bind (.lift (quiet_perform (.note _) trivial))
    intro _
    apply StateProg.All.bind (.lift (quiet_perform (.processName pid tracee.exe) trivial))
    intro name
    exact StateProg.All.modify _
  · intro _
    apply StateProg.All.bind (.lift (quiet_releaseTracee tracee))
    intro _
    exact .lift ⟨trivial, fun _ => trivial⟩

end Quiet

/-- The result tells whether a request was refused. -/
def Tells (ok : Bool) (transcript : Transcript) : Prop :=
  if ok then ∀ exchange ∈ transcript, ¬Refuses exchange
  else ∃ exchange ∈ transcript, Refuses exchange

namespace Tells

variable {ok : Bool} {first second : Transcript} {exchange : Exchange Sys}

theorem nothing : Tells true [] := by
  simp [Tells]

theorem granted (isGranted : ¬Refuses exchange) (tells : Tells ok second) :
    Tells ok (exchange :: second) := by
  cases ok with
  | true =>
      intro other present
      rcases List.mem_cons.mp present with rfl | later
      · exact isGranted
      · exact tells other later
  | false =>
      rcases tells with ⟨other, present, refuses⟩
      exact ⟨other, List.mem_cons_of_mem _ present, refuses⟩

theorem refused (refuses : Refuses exchange) : Tells false (exchange :: second) :=
  ⟨exchange, List.mem_cons_self, refuses⟩

theorem append (left : Tells true first) (right : Tells ok second) : Tells ok (first ++ second) := by
  cases ok with
  | true =>
      intro other present
      rcases List.mem_append.mp present with inFirst | inSecond
      · exact left other inFirst
      · exact right other inSecond
  | false =>
      rcases right with ⟨other, present, refuses⟩
      exact ⟨other, List.mem_append_right _ present, refuses⟩

theorem append_refused (left : Tells false first) : Tells false (first ++ second) := by
  rcases left with ⟨other, present, refuses⟩
  exact ⟨other, List.mem_append_left _ present, refuses⟩

end Tells

section Telling

variable [Usize] {pid : Pid}

/-- A write of memory that fails was refused a word. -/
theorem tells_writeFrom (address : Nat) (buffer : List UInt8) (fuel done : Nat) :
    (writeFrom pid address buffer fuel done).Says Tells := by
  induction fuel generalizing done with
  | zero => exact Tells.nothing
  | succ fuel ih =>
      unfold writeFrom
      split
      · dsimp only
        split
        · intro existing
          cases existing with
          | none => exact Tells.refused rfl
          | some existing =>
              intro ok
              cases ok with
              | false => exact Tells.granted (by simp [Refuses]) (Tells.refused rfl)
              | true =>
                  apply Prog.Says.mono (ih _)
                  intro result transcript tells
                  exact Tells.granted (by simp [Refuses]) (Tells.granted (by simp [Refuses]) tells)
        · intro ok
          cases ok with
          | false => exact Tells.refused rfl
          | true =>
              apply Prog.Says.mono (ih _)
              intro result transcript tells
              exact Tells.granted (by simp [Refuses]) tells
      · exact Tells.nothing

theorem tells_writeMemory (address : Nat) (buffer : List UInt8) :
    (writeMemory pid address buffer).Says Tells :=
  tells_writeFrom address buffer _ _

theorem tells_pushArguments (args : List Nat) (stack : Nat) :
    (pushArguments pid stack args).Says fun result => Tells result.isSome := by
  induction args generalizing stack with
  | nil => exact Tells.nothing
  | cons argument rest ih =>
      unfold pushArguments
      rw [Prog.bind_eq, Prog.says_bind]
      apply Prog.Says.mono (tells_writeMemory _ _)
      intro ok first tells
      cases ok with
      | false => exact tells.append_refused
      | true =>
          apply Prog.Says.mono (ih _)
          intro result second rest
          exact tells.append rest

/-- A call that cannot be set up was refused a word of the stack. -/
theorem tells_setupCall {regs : Regs} (known : regs.arch ≠ .unknown) (function returnTo : Nat)
    {args : List Nat} (few : args.length ≤ 4) :
    (setupCall pid regs function returnTo args).Says fun result => Tells result.isSome := by
  unfold setupCall
  split
  · exact Tells.nothing
  · exact Tells.nothing
  · exact Tells.nothing
  case h_4 arch =>
    rcases Option.isSome_iff_exists.mp (setAllArguments_isSome args 0 arch (by omega)) with
      ⟨next, set⟩
    rw [set]
    dsimp only
    rw [Prog.bind_eq, Prog.says_bind]
    apply Prog.Says.mono (tells_writeMemory _ _)
    intro ok first tells
    cases ok with
    | false => exact tells.append_refused
    | true => exact tells.append Tells.nothing
  case h_5 arch =>
    rw [Prog.bind_eq, Prog.says_bind]
    apply Prog.Says.mono (tells_pushArguments _ _)
    intro lowered first tells
    cases lowered with
    | none => exact tells.append_refused
    | some stack =>
        dsimp only
        rw [Prog.bind_eq, Prog.says_bind]
        apply Prog.Says.mono (tells_writeMemory _ _)
        intro ok second more
        cases ok with
        | false => exact tells.append more.append_refused
        | true => exact tells.append (more.append Tells.nothing)
  case h_6 arch => exact absurd arch known

end Telling

section Splits

variable {α : Type} {xs ys front behind : List α} {item : α}

/-- What follows the part that an item is in follows the item. -/
theorem mem_behind_of_notMem_right (split : xs ++ ys = front ++ item :: behind) (off : item ∉ ys) :
    ∀ other ∈ ys, other ∈ behind := by
  intro other present
  rcases List.append_eq_append_iff.mp split with ⟨rest, _, right⟩ | ⟨rest, _, right⟩
  · exact absurd (right ▸ List.mem_append_right rest List.mem_cons_self) off
  · cases rest with
    | nil => exact absurd (by rw [← List.nil_append ys, ← right]; exact List.mem_cons_self) off
    | cons head tail =>
        rw [(List.cons.inj right).2]
        exact List.mem_append_right tail present

/-- What follows an item is in the part that the item is in. -/
theorem mem_right_of_notMem_left (split : xs ++ ys = front ++ item :: behind) (off : item ∉ xs) :
    ∀ other ∈ behind, other ∈ ys := by
  intro other present
  rcases List.append_eq_append_iff.mp split with ⟨rest, _, right⟩ | ⟨rest, left, right⟩
  · rw [right]
    exact List.mem_append_right rest (List.mem_cons_of_mem item present)
  · cases rest with
    | nil =>
        rw [← List.nil_append ys, ← right]
        exact List.mem_cons_of_mem item present
    | cons head tail =>
        have same : item = head := (List.cons.inj right).1
        rw [left, same] at off
        exact absurd (List.mem_append_right front List.mem_cons_self) off

end Splits

/-- The helpers of the plan have been spawned between the two parts of the history. -/
structure Spawned (plan : Plan) (early spawns late : History) : Prop where
  early : ∀ event ∈ early, event.2.1.helper = none
  spawns : spawns.map (fun event => event.2.1.helper) = plan.helpers.map some
  late : ∀ event ∈ late, event.2.1.helper = none

namespace Spawned

variable {plan : Plan} {early spawns late front behind : History}
  {event : Process × Exchange Sys} {helper : Helper}

theorem notMem (unspawned : ∀ event ∈ late, event.2.1.helper = none)
    (spawn : event.2.1.helper = some helper) : event ∉ late := by
  intro present
  rw [unspawned event present] at spawn
  cases spawn

theorem mem_helpers (spawned : Spawned plan early spawns late) (present : event ∈ spawns)
    (spawn : event.2.1.helper = some helper) : helper ∈ plan.helpers := by
  have inMap : event.2.1.helper ∈ spawns.map fun event => event.2.1.helper :=
    List.mem_map_of_mem present
  rw [spawned.spawns, spawn] at inMap
  rcases List.mem_map.mp inMap with ⟨other, isHelper, same⟩
  rwa [← Option.some.inj same]

/-- What follows a spawned helper. -/
theorem follows (spawned : Spawned plan early spawns late)
    (split : early ++ spawns ++ late = front ++ event :: behind)
    (spawn : event.2.1.helper = some helper) :
    event ∈ spawns ∧ (∀ other ∈ late, other ∈ behind) ∧ ∀ other ∈ behind, other ∈ spawns ++ late := by
  have inHistory : event ∈ early ++ spawns ++ late := by
    rw [split]
    exact List.mem_append_right front List.mem_cons_self
  refine ⟨?_, mem_behind_of_notMem_right split (notMem spawned.late spawn), ?_⟩
  · rcases List.mem_append.mp inHistory with inFront | inLate
    · rcases List.mem_append.mp inFront with inEarly | inSpawns
      · exact absurd inEarly (notMem spawned.early spawn)
      · exact inSpawns
    · exact absurd inLate (notMem spawned.late spawn)
  · rw [List.append_assoc] at split
    exact mem_right_of_notMem_left split (notMem spawned.early spawn)

theorem none_append {new : History} (unspawned : ∀ event ∈ early, event.2.1.helper = none)
    (quiet : ∀ exchange ∈ new.map Prod.snd, exchange.1.quiet) :
    ∀ event ∈ early ++ new, event.2.1.helper = none := by
  intro event present
  rcases List.mem_append.mp present with inEarly | inNew
  · exact unspawned event inEarly
  · exact Call.helper_of_quiet (quiet event.2 (List.mem_map_of_mem inNew))

theorem helpersIn_eq_nil {history : History} (unspawned : ∀ event ∈ history, event.2.1.helper = none) :
    helpersIn history = [] :=
  List.filterMap_eq_nil_iff.mpr unspawned

theorem helpersIn_eq (spawned : Spawned plan early spawns late) :
    helpersIn (early ++ spawns ++ late) = plan.helpers := by
  have middle : helpersIn spawns = plan.helpers := by
    have mapped : helpersIn spawns =
        (spawns.map fun event => event.2.1.helper).filterMap id := by
      rw [List.filterMap_map]
      rfl
    rw [mapped, spawned.spawns]
    simp
  rw [helpersIn, List.filterMap_append, List.filterMap_append]
  change helpersIn early ++ helpersIn spawns ++ helpersIn late = _
  rw [helpersIn_eq_nil spawned.early, helpersIn_eq_nil spawned.late, middle]
  simp

end Spawned

section Entering

variable [Usize] {pid : Pid} {regs : Regs}

theorem arch_setArguments (args : List Nat) (index : Nat) (regs : Regs) :
    (setArguments regs index args).arch = regs.arch := by
  induction args generalizing index regs with
  | nil => rfl
  | cons argument rest ih =>
      rw [setArguments]
      split
      case h_1 next set => rw [ih, (Regs.sp_setArgument set).1]
      case h_2 => rfl

omit [Usize] in
theorem arch_setLink (regs : Regs) (value : Nat) : (regs.setLink value).arch = regs.arch := by
  unfold Regs.setLink
  cases regs.arch.layout.bind Layout.link with
  | none => rfl
  | some offset => exact Regs.write_arch regs offset value

/-- The registers that enter a function have its address in the program counter. -/
theorem returns_setupCall_pc {layout : Layout} (known : regs.arch.layout = some layout)
    {function : Nat} (small : function < count) (returnTo : Nat) (args : List Nat) :
    (setupCall pid regs function returnTo args).Returns fun entered =>
      ∀ next, entered = some next →
        next.arch = regs.arch ∧ next.pc = function % 256 ^ layout.word := by
  have enters (other : Regs) (arch : other.arch = regs.arch) :
      (other.setPc function).arch = regs.arch ∧
        (other.setPc function).pc = function % 256 ^ layout.word := by
    refine ⟨(Regs.setPc_arch other function).trans arch, Regs.pc_setPc ?_ small⟩
    rwa [arch]
  have linked : ((setArguments regs 0 args).setLink returnTo).arch = regs.arch := by
    rw [arch_setLink, arch_setArguments]
  unfold setupCall
  split
  · rintro next ⟨⟩
    exact enters _ linked
  · rintro next ⟨⟩
    exact enters _ linked
  · rintro next ⟨⟩
    exact enters _ linked
  · cases set : setAllArguments regs 0 args with
    | none => rintro next ⟨⟩
    | some other =>
        apply Prog.Returns.bind_any
        intro ok
        split
        · rintro next ⟨⟩
        · rintro next ⟨⟩
          apply enters
          rw [Regs.setSp_arch, (Regs.sp_setAllArguments args set).1]
  · apply Prog.Returns.bind_any
    intro lowered
    cases lowered with
    | none => rintro next ⟨⟩
    | some stack =>
        apply Prog.Returns.bind_any
        intro ok
        split
        · rintro next ⟨⟩
        · rintro next ⟨⟩
          apply enters
          rw [Regs.setSp_arch]
  · rintro next ⟨⟩

/-- The addresses outside the `size` bytes from `stack` on. -/
def Outside (stack size : Nat) : Set Nat :=
  { address | ∀ index < size, address ≠ wrappingAdd stack index }

/-- What is below the stack pointer is not in the bytes that it points to. -/
theorem below_outside {layout : Layout} (known : regs.arch.layout = some layout) {stack size : Nat}
    (small : stack < count) (short : size ≤ 2 ^ 15) :
    Below (Outside stack size) (regs.setSp stack).sp 12 := by
  rw [Regs.sp_setSp known small]
  intro depth near index inside same
  rw [wrappingSub, wrappingAdd] at same
  rcases Usize.bytes_eq with four | eight
  · rw [count, four] at same small
    rcases Regs.layout_word known with word | word
    · rw [word] at same
      omega
    · rw [word] at same
      omega
  · rw [count, eight] at same small
    rcases Regs.layout_word known with word | word
    · rw [word] at same
      omega
    · rw [word] at same
      omega

end Entering

section Laws

variable [Usize] {pid : Pid} {tracee next : Tracee} {plan : Plan} {process : Process}
  {history early spawns late : History}

omit [Usize] in
theorem Refuses.helper {exchange : Exchange Sys} (refuses : Refuses exchange) :
    exchange.1.helper = none := by
  rcases exchange with ⟨request, answer⟩
  cases request <;> first | exact refuses.elim | rfl

/-- A run that has spawned no helper may fail. -/
theorem law_of_unspawned (unspawned : ∀ event ∈ history, event.2.1.helper = none) :
    HelpersFollow pid tracee .finished history ↔ GrantedAfterHelper tracee history := by
  apply iff_of_true
  · refine ⟨?_, fun _ => Spawned.helpersIn_eq_nil unspawned, by rintro _ ⟨⟩⟩
    rintro front event behind helper rfl spawn
    exact absurd (by simp) (Spawned.notMem unspawned spawn)
  · rintro front event behind rfl spawn
    rw [unspawned event (by simp)] at spawn
    cases spawn

/-- A run that fails when it has spawned a helper leaves it behind. -/
theorem law_of_finished (spawned : Spawned plan early spawns late)
    (failed : tracee.arch = .unknown ∨ ∃ event ∈ late, Refuses event.2) :
    HelpersFollow pid tracee .finished (early ++ spawns ++ late) ↔
      GrantedAfterHelper tracee (early ++ spawns ++ late) := by
  cases spawns with
  | nil =>
      apply law_of_unspawned
      intro event present
      rw [List.append_nil] at present
      rcases List.mem_append.mp present with inEarly | inLate
      · exact spawned.early event inEarly
      · exact spawned.late event inLate
  | cons spawn rest =>
      have inMap : spawn.2.1.helper ∈ plan.helpers.map some := by
        rw [← spawned.spawns]
        exact List.mem_cons_self
      rcases List.mem_map.mp inMap with ⟨helper, _, isHelper⟩
      have split : early ++ spawn :: rest ++ late = early ++ spawn :: (rest ++ late) := by simp
      apply iff_of_false
      · intro follow
        have noHelper := follow.finished rfl
        rw [spawned.helpersIn_eq] at noHelper
        rw [noHelper] at inMap
        cases inMap
      · intro granted
        have after := granted early spawn (rest ++ late) split (by rw [← isHelper]; rfl)
        rcases failed with unknown | ⟨event, inLate, refuses⟩
        · exact after.1 unknown
        · exact after.2 event (List.mem_append_right rest inLate) refuses

/-- A run that goes on has entered the loader after it has spawned the helpers. -/
theorem law_of_entered {signal : Option Int}
    (spawned : Spawned plan early spawns (late ++ [(process, ⟨.cont pid signal, ()⟩)]))
    (entered : Entered tracee plan process) (same : plan.modules = tracee.modules)
    (known : tracee.arch ≠ .unknown) (granted : ∀ event ∈ late, ¬Refuses event.2) :
    HelpersFollow pid tracee (.tracing next)
        (early ++ spawns ++ (late ++ [(process, ⟨.cont pid signal, ()⟩)])) ↔
      GrantedAfterHelper tracee
        (early ++ spawns ++ (late ++ [(process, ⟨.cont pid signal, ()⟩)])) := by
  apply iff_of_true
  · refine ⟨?_, by rintro ⟨⟩, ?_⟩
    · intro front event behind helper split spawn
      rcases spawned.follows split spawn with ⟨inSpawns, resumed, _⟩
      exact ⟨plan, process, signal, spawned.mem_helpers inSpawns spawn, resumed _ (by simp), entered⟩
    · intro _ _
      exact ⟨plan, process, signal, by simp, entered, same, spawned.helpersIn_eq⟩
  · intro front event behind split spawn
    rcases Option.isSome_iff_exists.mp spawn with ⟨helper, isHelper⟩
    rcases spawned.follows split isHelper with ⟨_, _, inRest⟩
    refine ⟨known, ?_⟩
    intro later isLater refuses
    rcases List.mem_append.mp (inRest later isLater) with inSpawns | inLate
    · have inMap : later.2.1.helper ∈ plan.helpers.map some := by
        rw [← spawned.spawns]
        exact List.mem_map_of_mem inSpawns
      rw [refuses.helper] at inMap
      simp at inMap
    · rcases List.mem_append.mp inLate with inside | last
      · exact granted later inside refuses
      · cases List.mem_singleton.mp last
        exact refuses

end Laws

section Finishing

variable [Usize] {pid : Pid} {tracee : Tracee} {plan : Plan} {process : Process}
  {history early spawns late : History}

/-- What is to be shown of an end of `finish_injection`. -/
def Settles (pid : Pid) (tracee : Tracee) (progress : Progress) (_ : Daemon)
    (after : Process × History) : Prop :=
  HelpersFollow pid tracee progress after.2 ↔ GrantedAfterHelper tracee after.2

theorem wp_abort_unspawned (unspawned : ∀ event ∈ history, event.2.1.helper = none) (reason : String)
    (own : Daemon) :
    StateProg.wp Process.machine.told (Daemon.abort pid tracee reason) (Settles pid tracee) own
      (process, history) := by
  unfold Daemon.abort
  rw [StateProg.wp_bind]
  apply StateProg.wp_mono (StateProg.says_told ((quiet_giveUp tracee reason).exchanges own) _ _)
  rintro _ own' ⟨after, told⟩ ⟨new, appended, quiet⟩
  apply law_of_unspawned
  intro event present
  rw [appended] at present
  rcases List.mem_append.mp present with before | inNew
  · exact unspawned event before
  · exact Call.helper_of_quiet (quiet event.2 (List.mem_map_of_mem inNew))

theorem wp_abort_spawned (spawned : Spawned plan early spawns late)
    (quiet : ∀ event ∈ late, event.2.1.quiet)
    (failed : tracee.arch = .unknown ∨ ∃ event ∈ late, Refuses event.2) (reason : String)
    (own : Daemon) :
    StateProg.wp Process.machine.told (Daemon.abort pid tracee reason) (Settles pid tracee) own
      (process, early ++ spawns ++ late) := by
  unfold Daemon.abort
  rw [StateProg.wp_bind]
  apply StateProg.wp_mono (StateProg.says_told ((quiet_giveUp tracee reason).exchanges own) _ _)
  rintro _ own' ⟨after, told⟩ ⟨new, appended, quietNew⟩
  have isTold : told = early ++ spawns ++ (late ++ new) := by
    rw [← List.append_assoc]
    exact appended
  have quietLate : ∀ event ∈ late ++ new, event.2.1.quiet := by
    intro event present
    rcases List.mem_append.mp present with inLate | inNew
    · exact quiet event inLate
    · exact quietNew event.2 (List.mem_map_of_mem inNew)
  subst isTold
  apply law_of_finished
  · exact ⟨spawned.early, spawned.spawns, fun event present =>
      Call.helper_of_quiet (quietLate event present)⟩
  · rcases failed with unknown | ⟨event, present, refuses⟩
    · exact .inl unknown
    · exact .inr ⟨event, List.mem_append_left new present, refuses⟩

/-- The processes that a call set up below the plan can leave. -/
theorem wp_setupCall_below {layout : Layout} (known : tracee.arch.layout = some layout) {regs : Regs}
    (isArch : regs.arch = tracee.arch) {stack size function : Nat} (small : stack < count)
    (short : size ≤ 2 ^ 15) (isAddress : function < count) (returnTo argument : Nat) :
    (setupCall pid (regs.setSp stack) function returnTo [argument]).wp Process.machine
      (fun entered after => after.phase = process.phase ∧
        load after.mem stack size = load process.mem stack size ∧
        ∀ next, entered = some next →
          next.arch = tracee.arch ∧ next.pc = function % 256 ^ layout.word) process := by
  have knownRegs : regs.arch.layout = some layout := by rwa [isArch]
  have lowered : (regs.setSp stack).arch = tracee.arch := (Regs.setSp_arch regs stack).trans isArch
  have knownLowered : (regs.setSp stack).arch.layout = some layout := by rwa [lowered]
  have confined : Confined pid (Outside stack size)
      (setupCall pid (regs.setSp stack) function returnTo [argument]) fun _ => True :=
    confined_setupCall function returnTo (by simp) (below_outside knownRegs small short)
  apply Prog.wp_mono (Prog.wp_and (confined process)
    (returns_setupCall_pc knownLowered isAddress returnTo [argument]).wp)
  rintro entered after ⟨⟨_, inside⟩, enters⟩
  refine ⟨inside.phase, ?_, ?_⟩
  · apply List.map_congr_left
    intro index inRange
    apply inside.mem
    intro outside
    exact outside index (List.mem_range.mp inRange) rfl
  · intro next isNext
    rcases enters next isNext with ⟨arch, pc⟩
    exact ⟨arch.trans lowered, pc⟩

/-- The end of `finish_injection`, when the helpers have been spawned. -/
def enterLoader (pid : Pid) (tracee : Tracee) (regs : Regs) (stack : Nat) : DaemonM Progress := do
  let some regs ← setupCall pid (regs.setSp stack) tracee.initFunction tracee.returnAddress [stack]
    | Daemon.abort pid tracee "cannot enter znn_loader_init"
  if !(← writeRegisters pid regs) then
    return ← Daemon.abort pid tracee "cannot enter znn_loader_init"
  Ptrace.cont pid none
  return .tracing { tracee with state := .init }

theorem wp_enterLoader {layout : Layout} (known : tracee.arch.layout = some layout)
    (isAddress : tracee.initFunction < count) {regs : Regs} (isArch : regs.arch = tracee.arch)
    {stack : Nat} (small : stack < count) {bytes : List UInt8}
    (encoded : plan.encode .little = some bytes) (same : plan.modules = tracee.modules)
    (stopped : process.phase = .stopped) (written : load process.mem stack bytes.length = bytes)
    (spawned : Spawned plan early spawns []) (own : Daemon) :
    StateProg.wp Process.machine.told (enterLoader pid tracee regs stack) (Settles pid tracee) own
      (process, early ++ spawns) := by
  have short : bytes.length ≤ 2 ^ 15 := Plan.length_encode_le encoded
  have notUnknown : tracee.arch ≠ .unknown := by
    intro unknown
    rw [unknown] at known
    cases known
  have loweredKnown : (regs.setSp stack).arch ≠ .unknown := by
    rwa [Regs.setSp_arch, isArch]
  unfold enterLoader
  rw [StateProg.wp_bind, StateProg.wp_lift]
  apply Prog.wp_mono (Prog.wp_told_says
    (wp_setupCall_below known isArch small short isAddress tracee.returnAddress stack)
    ((tells_setupCall loweredKnown tracee.initFunction tracee.returnAddress (by simp)).and
      (quiet_setupCall _ _ _ _).exchanges) _)
  rintro entered ⟨middle, told⟩ ⟨⟨phase, kept, enters⟩, prepared, rfl, tells, quiet⟩
  have quietPrepared : ∀ event ∈ prepared, event.2.1.quiet :=
    fun event present => quiet event.2 (List.mem_map_of_mem present)
  cases entered with
  | none =>
      rcases tells with ⟨exchange, present, refuses⟩
      rcases List.mem_map.mp present with ⟨event, inPrepared, rfl⟩
      have spawnedPrepared : Spawned plan early spawns prepared :=
        ⟨spawned.early, spawned.spawns, fun event present =>
          Call.helper_of_quiet (quietPrepared event present)⟩
      exact wp_abort_spawned spawnedPrepared quietPrepared (.inr ⟨event, inPrepared, refuses⟩) _ own
  | some next =>
      rcases enters next rfl with ⟨nextArch, nextPc⟩
      have grantedPrepared : ∀ event ∈ prepared, ¬Refuses event.2 :=
        fun event present => tells event.2 (List.mem_map_of_mem present)
      dsimp only
      rw [StateProg.wp_bind, StateProg.wp_lift]
      rintro ok ⟨last, told⟩ ⟨step, rfl⟩
      have quietLate : ∀ event ∈ prepared ++ [(middle, ⟨.setRegset pid next.bytes, ok⟩)],
          event.2.1.quiet := by
        intro event present
        rcases List.mem_append.mp present with inside | isLast
        · exact quietPrepared event inside
        · cases List.mem_singleton.mp isLast
          trivial
      have spawnedLate : Spawned plan early spawns
          (prepared ++ [(middle, ⟨.setRegset pid next.bytes, ok⟩)]) :=
        ⟨spawned.early, spawned.spawns, fun event present =>
          Call.helper_of_quiet (quietLate event present)⟩
      rw [List.append_assoc (early ++ spawns)]
      cases ok with
      | false =>
          rw [Prog.wp_pure, Bool.not_false, if_pos rfl]
          have refused : (middle, ⟨.setRegset pid next.bytes, false⟩) ∈
              prepared ++ [(middle, (⟨.setRegset pid next.bytes, false⟩ : Exchange Sys))] := by
            simp
          exact wp_abort_spawned spawnedLate quietLate (.inr ⟨_, refused, rfl⟩) _ own
      | true =>
          rw [Prog.wp_pure, Bool.not_true, if_neg Bool.false_ne_true, StateProg.wp_bind,
            StateProg.wp_lift]
          rintro answer ⟨after, told⟩ ⟨_, rfl⟩
          have grantedLate : ∀ event ∈ prepared ++ [(middle, ⟨.setRegset pid next.bytes, true⟩)],
              ¬Refuses event.2 := by
            intro event present
            rcases List.mem_append.mp present with inside | isLast
            · exact grantedPrepared event inside
            · cases List.mem_singleton.mp isLast
              simp [Refuses]
          have isLast : last = { middle with
              regs := next.bytes
              heard := middle.heard ++ [⟨.setRegset pid next.bytes, true⟩] } := step.2
          have entered : Entered tracee plan last := by
            refine ⟨?_, ?_, stack, bytes, encoded, ?_⟩
            · rw [isLast]
              exact phase.trans stopped
            · have isRegs : last.registers tracee.arch = (Regs.new tracee.arch).fill next.bytes := by
                rw [isLast, Process.registers]
              have knownRead : ((Regs.new tracee.arch).fill next.bytes).arch.layout = some layout :=
                known
              rw [isRegs, Regs.pc_eq knownRead,
                Regs.read_fill_bytes nextArch known (Regs.layout_pc known).1, Arch.word, known,
                ← Regs.pc_eq (by rwa [nextArch])]
              exact nextPc
            · rw [isLast]
              exact kept.trans written
          have spawnedAll : Spawned plan early spawns
              (prepared ++ [(middle, ⟨.setRegset pid next.bytes, true⟩)] ++
                [(last, ⟨.cont pid none, ()⟩)]) := by
            refine ⟨spawned.early, spawned.spawns, ?_⟩
            intro event present
            rcases List.mem_append.mp present with inside | isResumed
            · exact spawnedLate.late event inside
            · cases List.mem_singleton.mp isResumed
              rfl
          rw [Prog.wp_pure, StateProg.wp_pure, Settles]
          dsimp only
          rw [List.append_assoc (early ++ spawns)]
          exact law_of_entered spawnedAll entered same notUnknown grantedLate

/-- Without a layout nothing can be entered. -/
theorem wp_enterLoader_unknown (unknown : tracee.arch = .unknown) {regs : Regs}
    (isArch : regs.arch = tracee.arch) (stack : Nat) (spawned : Spawned plan early spawns [])
    (own : Daemon) :
    StateProg.wp Process.machine.told (enterLoader pid tracee regs stack) (Settles pid tracee) own
      (process, early ++ spawns) := by
  have refuses : setupCall pid (regs.setSp stack) tracee.initFunction tracee.returnAddress [stack] =
      Prog.pure none := by
    rw [setupCall, Regs.setSp_arch, isArch, unknown]
    rfl
  unfold enterLoader
  rw [StateProg.wp_bind, StateProg.wp_lift, refuses, Prog.wp_pure]
  dsimp only
  rw [← List.append_nil (early ++ spawns)]
  exact wp_abort_spawned spawned (by simp) (.inl unknown) "cannot enter znn_loader_init" own

omit [Usize] in
/-- What the spawning of the helpers says. -/
theorem says_spawn (plan : Plan) (own : Daemon) :
    StateProg.Says (plan.companions.forM fun module =>
        (liftM (perform (.spawnCompanion module.path plan.nonce module.index plan.token)) :
          DaemonM PUnit))
      (fun _ own' transcript => own' = own ∧
        transcript.map (fun exchange => exchange.1.helper) = plan.helpers.map some) own := by
  apply StateProg.says_mono (Daemon.says_spawning plan own)
  rintro _ own' _ ⟨same, rfl⟩
  refine ⟨same, ?_⟩
  simp [spawning, Plan.helpers, Call.helper]

/-- Every end of `finish_injection` keeps to the law if nothing is refused after a helper has
been spawned, and otherwise breaks it. -/
theorem wp_finishInjection [Config.Build] (stopped : process.phase = .stopped)
    (isAddress : tracee.initFunction < count) (own : Daemon) :
    StateProg.wp Process.machine.told (Daemon.finishInjection pid tracee) (Settles pid tracee) own
      (process, []) := by
  unfold Daemon.finishInjection
  rw [StateProg.wp_bind, StateProg.wp_lift]
  have still : Config.effective.wp Process.machine (fun _ after => process = after) process :=
    Process.wp_reads reads_effective fun _ => rfl
  apply Prog.wp_mono (Prog.wp_told_says still quiet_effective.exchanges [])
  rintro config ⟨_, first⟩ ⟨rfl, _, rfl, quietFirst⟩
  rw [StateProg.wp_bind, StateProg.wp_lift]
  have stillToken : (perform .freshToken).wp Process.machine (fun _ after => process = after)
      process :=
    Process.wp_reads (reads_perform .freshToken trivial) fun _ => rfl
  apply Prog.wp_mono (Prog.wp_told_says stillToken (quiet_perform .freshToken trivial).exchanges _)
  rintro token ⟨_, _⟩ ⟨rfl, second, rfl, quietSecond⟩
  have noneFirst : ∀ event ∈ ([] : History) ++ first, event.2.1.helper = none :=
    Spawned.none_append (by simp) quietFirst
  have noneSecond := Spawned.none_append noneFirst quietSecond
  dsimp only
  split
  case h_2 => exact wp_abort_unspawned noneSecond _ own
  case h_1 bytes encoded =>
    have short : bytes.length ≤ 2 ^ 15 := Plan.length_encode_le encoded
    rw [StateProg.wp_bind, StateProg.wp_lift]
    have reading : (readRegisters pid tracee.arch).wp Process.machine
        (fun found after => process = after ∧
          ∀ regs, found = some regs → regs.arch = tracee.arch) process := by
      apply Process.wp_readRegisters
      · exact ⟨rfl, by simp⟩
      · refine ⟨rfl, ?_⟩
        rintro regs ⟨⟩
        rfl
    apply Prog.wp_mono (Prog.wp_told_says reading (quiet_readRegisters tracee.arch).exchanges _)
    rintro found ⟨_, _⟩ ⟨⟨rfl, arch⟩, third, rfl, quietThird⟩
    have noneThird := Spawned.none_append noneSecond quietThird
    cases found with
    | none => exact wp_abort_unspawned noneThird _ own
    | some regs =>
        have isArch := arch regs rfl
        dsimp only
        rw [StateProg.wp_bind, StateProg.wp_lift]
        generalize isStack : alignStack (wrappingSub regs.sp (bytes.length + 0x10)) = stack
        have small : stack < count := by
          rw [← isStack]
          exact Nat.lt_of_le_of_lt (Nat.sub_le _ _) (wrappingSub_lt _ _)
        apply Prog.wp_mono (Prog.wp_told_says
          (wp_writeMemory (small_count (Nat.le_trans short (by decide))))
          (quiet_writeMemory stack bytes).exchanges _)
        rintro ok ⟨middle, _⟩ ⟨⟨upto, written, complete⟩, fourth, rfl, quietFourth⟩
        have noneFourth := Spawned.none_append noneThird quietFourth
        cases ok with
        | false => exact wp_abort_unspawned noneFourth _ own
        | true =>
            have isWritten : load middle.mem stack bytes.length = bytes :=
              written.load_whole (Nat.le_trans short (by
                have roomy := small_count (show 2 ^ 15 ≤ 2 ^ 16 by decide)
                omega)) (complete.mp rfl)
            have stoppedMiddle : middle.phase = .stopped := written.phase.trans stopped
            rw [Bool.not_true, if_neg Bool.false_ne_true, StateProg.wp_bind]
            have stillSpawn (plan : Plan) : StateProg.wp Process.machine
                (plan.companions.forM fun module =>
                  (liftM (perform (.spawnCompanion module.path plan.nonce module.index plan.token)) :
                    DaemonM PUnit)) (fun _ _ after => middle = after) own middle := by
              apply StateProg.wp_forM
              · rfl
              · rintro module _ own process rfl
                rw [StateProg.wp_lift]
                exact Process.wp_reads (reads_perform (.spawnCompanion _ _ _ _) trivial) fun _ => rfl
            apply StateProg.wp_mono (StateProg.wp_told_says (stillSpawn _) (says_spawn _ own) _)
            rintro _ own' ⟨_, _⟩ ⟨rfl, spawns, rfl, rfl, areSpawns⟩
            have spawned : Spawned _ _ spawns [] :=
              ⟨noneFourth, by simpa [Function.comp_def] using areSpawns, by simp⟩
            cases known : tracee.arch.layout with
            | some layout =>
                exact wp_enterLoader known isAddress isArch small encoded rfl stoppedMiddle isWritten
                  spawned own'
            | none =>
                have unknown : tracee.arch = .unknown := by
                  cases arch : tracee.arch <;> first | rfl | (rw [arch] at known; cases known)
                exact wp_enterLoader_unknown unknown isArch stack spawned own'

/-- A run of `finish_injection` keeps to the law exactly if nothing is refused after a helper has
been spawned. -/
theorem helpersFollow_iff [Config.Build] {own later : Daemon} {progress : Progress}
    {after : Process × History} (stopped : process.phase = .stopped)
    (isAddress : tracee.initFunction < count)
    (run : StateProg.Runs Process.machine.told (Daemon.finishInjection pid tracee) own (process, [])
      progress later after) :
    HelpersFollow pid tracee progress after.2 ↔ GrantedAfterHelper tracee after.2 :=
  run.of_wp (wp_finishInjection stopped isAddress own)

end Finishing

section Runs

/-- The law for every run. -/
def AlwaysHelpersFollow [Usize] [Config.Build] : Prop :=
  ∀ pid tracee process own progress later after, process.phase = .stopped →
    tracee.initFunction < count →
    StateProg.Runs Process.machine.told (Daemon.finishInjection pid tracee) own (process, [])
      progress later after → HelpersFollow pid tracee progress after.2

/-- A tracee that is to load one companion. -/
def companionA : Tracee :=
  { Tracee.new .file .arm64 with
    exe := "/a"
    entry := 4112
    initFunction := 8192
    modules := [⟨0, "/m.so", true, 5⟩]
    moduleIndex := 1 }

/-- The answers of the process as scripted, and its history with them. -/
def toldA (script : (request : Call) → request.Answer) (request : Call)
    (before : Process × History) : request.Answer × (Process × History) :=
  let answered := @Process.scripted .eight script request before.1
  (answered.1, answered.2, before.2 ++ [(before.1, ⟨request, answered.1⟩)])

theorem sound_toldA (script : (request : Call) → request.Answer) (request : Call)
    (before : Process × History) :
    (@Process.machine .eight).told.Step before request (toldA script request before).1
      (toldA script request before).2 :=
  ⟨⟨@Process.answers_truthful .eight script before.1 request, rfl⟩, rfl⟩

/-- The end of its injection. -/
def finishingA (script : (request : Call) → request.Answer) :
    (Progress × Daemon) × (Process × History) :=
  Prog.eval (I := Sys) (toldA script)
    ((@Daemon.finishInjection .eight .arm64 100 companionA).run {}) (trappedAt .arm64 4112, [])

theorem runs_finishingA (script : (request : Call) → request.Answer) :
    StateProg.Runs (@Process.machine .eight).told (@Daemon.finishInjection .eight .arm64 100 companionA)
      {} (trappedAt .arm64 4112, []) (finishingA script).1.1 (finishingA script).1.2
      (finishingA script).2 :=
  Prog.runs_eval (I := Sys) (sound_toldA script) _ _

/-- The registers cannot be written. -/
def unwritableA : (request : Call) → request.Answer
  | .setRegset _ _ => false
  | request => runningA (some []) request

/-- An injection that is given up at its last request leaves a helper without a loader. -/
theorem helper_left_by_unwritten_registers : ¬@AlwaysHelpersFollow .eight .arm64 := by
  intro always
  have follow := always 100 companionA (trappedAt .arm64 4112) {} _ _ _ rfl (by decide)
    (runs_finishingA unwritableA)
  have ends : (finishingA unwritableA).1.1 = .finished := by decide +kernel
  have spawned : helpersIn (finishingA unwritableA).2.2 ≠ [] := by decide +kernel
  exact spawned (@HelpersFollow.finished .eight _ _ _ _ follow ends)

/-- Where every request is granted, the helper of the companion follows its loader. -/
theorem helper_follows_granted_registers :
    @HelpersFollow .eight 100 companionA (finishingA (runningA (some []))).1.1
      (finishingA (runningA (some []))).2.2 := by
  apply (@helpersFollow_iff .eight 100 companionA (trappedAt .arm64 4112) .arm64 {} _ _ _ rfl
    (by decide) (runs_finishingA (runningA (some [])))).mpr
  have granted : (finishingA (runningA (some []))).2.2.all
      (fun event => decide (¬Refuses event.2)) = true := by
    decide +kernel
  intro front event behind split _
  refine ⟨by decide, ?_⟩
  intro later isLater
  apply of_decide_eq_true (List.all_eq_true.mp granted later _)
  rw [split]
  simp [isLater]

end Runs

end Znn.Injector
