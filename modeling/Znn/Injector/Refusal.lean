import Znn.Injector.Confined
import Znn.Injector.Reports

/-!
# A refused seizure

When a target is not taken after all, it has to be let go, and the breakpoint has to be out of
its code. The process is let go by a detach, which the kernel grants only if the process has
stopped. The breakpoint is out if every word that was overwritten with it is written back.
-/

namespace Znn.Injector

open Interaction PtraceOps Trace Mode Bytes Usize

def Process.Traced (process : Process) : Prop :=
  process.phase = .running ∨ process.phase = .stopped

/-- The process has been seized, and it runs until a wait for it reports something. -/
def Watched (pid : Pid) (process : Process) : Prop :=
  (∃ options, (⟨.seize pid options, SeizeResult.ok⟩ : Exchange Sys) ∈ process.heard) ∧
    (process.phase = .running ∧ (∀ raw, stopOf pid raw ∉ process.heard) ∨
      (process.phase = .stopped ∨ process.phase = .dead) ∧ ∃ raw, stopOf pid raw ∈ process.heard)

/-- If the process was seized, a wait for it has reported something. -/
def HeardFrom (pid : Pid) (process : Process) : Prop :=
  (∃ options, (⟨.seize pid options, SeizeResult.ok⟩ : Exchange Sys) ∈ process.heard) →
    ∃ raw, stopOf pid raw ∈ process.heard

/-- Memory and registers are the same, and nothing was poked. -/
structure Still (before after : Process) : Prop where
  mem : after.mem = before.mem
  regs : after.regs = before.regs
  header : after.header = before.header
  pokes : ∀ word, pokesAt word after.heard = pokesAt word before.heard

section Still

variable {first second third : Process}

theorem Still.refl (process : Process) : Still process process :=
  ⟨rfl, rfl, rfl, fun _ => rfl⟩

theorem Still.trans (left : Still first second) (right : Still second third) :
    Still first third :=
  ⟨right.mem.trans left.mem, right.regs.trans left.regs, right.header.trans left.header,
    fun word => (right.pokes word).trans (left.pokes word)⟩

end Still

section Letting

variable {pid : Pid} {process : Process}

theorem heardFrom_of_stop {raw : RawStatus} (stop : stopOf pid raw ∈ process.heard) :
    HeardFrom pid process :=
  fun _ => ⟨raw, stop⟩

/-- The process is watched and stands still. -/
structure Standing (pid : Pid) (process : Process) : Prop where
  seized : ∃ options, (⟨.seize pid options, SeizeResult.ok⟩ : Exchange Sys) ∈ process.heard
  stopped : process.phase = .stopped
  stop : ∃ raw, stopOf pid raw ∈ process.heard

theorem Standing.watched (standing : Standing pid process) : Watched pid process :=
  ⟨standing.seized, .inr ⟨.inl standing.stopped, standing.stop⟩⟩

/-- What follows a stop without a change of the phase leaves the process standing. -/
theorem Standing.later {after : Process} (standing : Standing pid process)
    (phase : after.phase = process.phase) (heard : ∃ new, after.heard = process.heard ++ new) :
    Standing pid after := by
  rcases heard with ⟨new, heard⟩
  rcases standing with ⟨⟨options, seized⟩, stopped, raw, stop⟩
  refine ⟨⟨options, ?_⟩, phase.trans stopped, raw, ?_⟩
  · rw [heard]
    exact List.mem_append_left _ seized
  · rw [heard]
    exact List.mem_append_left _ stop

variable [Usize]

/-- A detach lets a watched process go exactly if it was reported. -/
theorem wp_detach_watched (watched : Watched pid process) :
    (Ptrace.detach pid none).wp Process.machine
      (fun _ after => Still process after ∧ (after.Traced ↔ ¬HeardFrom pid after)) process := by
  rcases watched with ⟨⟨options, seized⟩, standing⟩
  rintro ok after ⟨answer, rfl⟩
  cases ok with
  | true =>
      have stopped : process.phase = .stopped := answer.mp rfl
      refine ⟨⟨rfl, rfl, rfl, fun word => by simp [pokesAt, kept]⟩, ?_⟩
      rcases standing with ⟨running, _⟩ | ⟨_, raw, stop⟩
      · rw [stopped] at running
        cases running
      · apply iff_of_false
        · rintro (running | stopped)
          · cases running
          · cases stopped
        · intro unreported
          exact unreported (heardFrom_of_stop (List.mem_append_left _ stop))
  | false =>
      refine ⟨⟨rfl, rfl, rfl, fun word => by simp [pokesAt, kept]⟩, ?_⟩
      rcases standing with ⟨running, unreported⟩ | ⟨ended, raw, stop⟩
      · apply iff_of_true (.inl running)
        intro reported
        rcases reported ⟨options, List.mem_append_left _ seized⟩ with ⟨raw, stop⟩
        rcases List.mem_append.mp stop with inHeard | isDetach
        · exact unreported raw inHeard
        · cases List.mem_singleton.mp isDetach
      · have notStopped : process.phase ≠ .stopped := fun stopped => by
          simpa using answer.mpr stopped
        have dead := ended.resolve_left notStopped
        apply iff_of_false
        · rintro (running | stopped)
          · exact absurd (dead.symm.trans running) (by decide)
          · exact notStopped stopped
        · intro unreported
          exact unreported (heardFrom_of_stop (List.mem_append_left _ stop))

/-- What a wait makes of a process that runs: it is still watched, and a status that it returns
is of a process that has stopped, or says that the process is gone. -/
def WaitEnds (pid : Pid) (before : Process) (result : Option Status) (after : Process) : Prop :=
  Still before after ∧ Watched pid after ∧
    ∀ status, result = some status → ¬status.Gone → Standing pid after

omit [Usize] in
theorem WaitEnds.nothing (watched : Watched pid process) : WaitEnds pid process none process :=
  ⟨Still.refl process, watched, by simp⟩

omit [Usize] in
theorem WaitEnds.after {middle last : Process} {result : Option Status}
    (still : Still process middle) (ends : WaitEnds pid middle result last) :
    WaitEnds pid process result last :=
  ⟨still.trans ends.1, ends.2⟩

omit [Usize] in
/-- A process that runs and has been asked for something that did not end its wait. -/
theorem Watched.asked {exchange : Exchange Sys} (watched : Watched pid process)
    (running : process.phase = .running) (other : ∀ raw, exchange ≠ stopOf pid raw) :
    Watched pid { process with heard := process.heard ++ [exchange] } := by
  rcases watched with ⟨⟨options, seized⟩, ⟨_, unreported⟩ | ⟨stopped | dead, _⟩⟩
  · refine ⟨⟨options, List.mem_append_left _ seized⟩, .inl ⟨running, ?_⟩⟩
    intro raw stop
    rcases List.mem_append.mp stop with inHeard | isExchange
    · exact unreported raw inHeard
    · exact other raw (List.mem_singleton.mp isExchange).symm
  · exact absurd (stopped.symm.trans running) (by decide)
  · exact absurd (dead.symm.trans running) (by decide)

theorem wp_waitRounds (deadline rounds : Nat) (running : process.phase = .running)
    (watched : Watched pid process) :
    (waitRounds pid deadline rounds).wp Process.machine (WaitEnds pid process) process := by
  induction rounds generalizing process with
  | zero => exact WaitEnds.nothing watched
  | succ rounds ih =>
      have again {process : Process} (running : process.phase = .running)
          (watched : Watched pid process) : Prog.wp Process.machine (do
            if (← perform .nowMs) ≥ deadline then
              return none
            else
              waitRounds pid deadline rounds) (WaitEnds pid process) process := by
        intro now after step
        have same : after = process := by
          apply Process.step_reads _ step
          trivial
        rw [same]
        dsimp only [Prog.bind]
        split
        · exact WaitEnds.nothing watched
        · exact ih running watched
      unfold waitRounds Wait.waitpid
      simp only [Prog.bind_eq, Prog.bind_assoc']
      rintro answer after ⟨allowed, rfl⟩
      have still : Still process { process.change (.waitpid pid) answer with
          heard := process.heard ++ kept (.waitpid pid) answer } := by
        cases answer <;> exact ⟨rfl, rfl, rfl, fun word => by simp [pokesAt, kept]⟩
      have asked (answer : WaitResult)
          (other : ∀ raw, (⟨.waitpid pid, answer⟩ : Exchange Sys) ≠ stopOf pid raw) :
          Watched pid { process with heard := process.heard ++ [⟨.waitpid pid, answer⟩] } :=
        watched.asked running other
      cases answer with
      | stillAlive =>
          have watching := asked .stillAlive (by rintro raw ⟨⟩)
          exact Prog.wp_mono (again running watching) fun _ _ ends => ends.after still
      | interrupted =>
          have watching := asked .interrupted (by rintro raw ⟨⟩)
          exact Prog.wp_mono (ih running watching) fun _ _ ends => ends.after still
      | noChild | failed => exact ⟨still, asked _ (by rintro raw ⟨⟩), by simp⟩
      | status child raw =>
          rcases allowed with ⟨rfl, notContinued⟩
          rcases watched with ⟨⟨options, seized⟩, _⟩
          have seizedStill : (⟨.seize child options, SeizeResult.ok⟩ : Exchange Sys) ∈
              process.heard ++ [stopOf child raw] := List.mem_append_left _ seized
          have stop : stopOf child raw ∈ process.heard ++ [stopOf child raw] := by simp
          have ended : Process.phaseOf raw process.phase = .stopped ∨
              Process.phaseOf raw process.phase = .dead := by
            cases raw with
            | continued => exact absurd rfl notContinued
            | stopped signal event => exact .inl rfl
            | exited code | signaled signal => exact .inr rfl
          have watching : Watched child { process with
              phase := Process.phaseOf raw process.phase
              heard := process.heard ++ [stopOf child raw] } :=
            ⟨⟨options, seizedStill⟩, .inr ⟨ended, raw, stop⟩⟩
          dsimp only [Prog.bind]
          cases decoded : WaitStatus.fromRaw raw with
          | none => exact ⟨still, watching, by simp⟩
          | some status =>
              dsimp only [Prog.bind, Prog.pure_eq]
              rw [if_pos rfl]
              refine ⟨still, watching, ?_⟩
              rintro _ ⟨⟩ alive
              refine ⟨⟨options, seizedStill⟩, ?_, raw, stop⟩
              cases raw with
              | continued => exact absurd rfl notContinued
              | stopped signal event => rfl
              | exited code =>
                  cases decoded
                  exact absurd (.inl rfl) alive
              | signaled signal =>
                  rcases Option.map_eq_some_iff.mp decoded with ⟨number, _, rfl⟩
                  exact absurd (.inr rfl) alive

theorem wp_waitForStop (deadline : Nat) (running : process.phase = .running)
    (watched : Watched pid process) :
    (waitForStop pid deadline).wp Process.machine (WaitEnds pid process) process := by
  intro rounds after step
  have same : after = process := by
    apply Process.step_reads _ step
    trivial
  rw [same]
  exact wp_waitRounds deadline rounds running watched

end Letting

section Catching

variable [Usize] {pid : Pid} {exe : String} {before : Process}

/-- Nothing was written, and the process has been let go if it was heard from. -/
structure LetGo (pid : Pid) (before after : Process) : Prop where
  still : Still before after
  traced : after.Traced ↔ ¬HeardFrom pid after

/-- The process stands still and is as it was found. -/
structure Caught (pid : Pid) (before : Process) (stopped : StoppedTarget) (after : Process) :
    Prop where
  still : Still before after
  standing : Standing pid after
  known : stopped.arch ≠ .unknown
  arch : stopped.arch = Elf.archOf before.header
  pc : stopped.pc = ((Regs.new stopped.arch).fill before.regs).pc

/-- What an attempt to stop the process leaves. -/
def Attempt (pid : Pid) (before : Process) (result : Except Seizure StoppedTarget)
    (after : Process) : Prop :=
  match result with
  | .error seizure => seizure ≠ .seized ∧ LetGo pid before after
  | .ok stopped => Caught pid before stopped after

omit [Usize] in
theorem LetGo.of_unseized {after : Process} (still : Still before after)
    (free : after.phase = .free)
    (unseized : ∀ options, (⟨.seize pid options, SeizeResult.ok⟩ : Exchange Sys) ∉ after.heard) :
    LetGo pid before after := by
  refine ⟨still, iff_of_false ?_ ?_⟩
  · rintro (running | stopped)
    · exact absurd (free.symm.trans running) (by decide)
    · exact absurd (free.symm.trans stopped) (by decide)
  · intro unheard
    apply unheard
    rintro ⟨options, granted⟩
    exact absurd granted (unseized options)

theorem wp_letGo {middle : Process} (still : Still before middle) (watched : Watched pid middle) :
    ((Ptrace.detach pid none).bind fun _ => Prog.pure (.error .giveUp)).wp Process.machine
      (Attempt pid before) middle := by
  rw [Prog.wp_bind]
  apply Prog.wp_mono (wp_detach_watched watched)
  rintro _ after ⟨stillToo, traced⟩
  exact ⟨by simp, still.trans stillToo, traced⟩

theorem wp_seizeWith (fresh : before.heard = []) (free : before.phase = .free)
    (known : Elf.archOf before.header ≠ .unknown) (is64 : Bool) (entry : Nat) (thumb : Bool) :
    (Daemon.seizeWith pid (Elf.archOf before.header) is64 entry thumb).wp Process.machine
      (Attempt pid before) before := by
  rintro seized after ⟨_, rfl⟩
  cases seized with
  | permissionDenied | failed =>
      refine ⟨by simp, LetGo.of_unseized ⟨rfl, rfl, rfl, fun word => ?_⟩ free ?_⟩
      · simp [pokesAt, kept]
      · simp [fresh, kept]
  | ok =>
      have watched : Watched pid { before with
          phase := .running
          heard := before.heard ++ [⟨.seize pid 0, SeizeResult.ok⟩] } := by
        refine ⟨⟨0, by simp⟩, .inl ⟨rfl, ?_⟩⟩
        simp [fresh, stopOf]
      have still : Still before { before with
          phase := .running
          heard := before.heard ++ [⟨.seize pid 0, SeizeResult.ok⟩] } :=
        ⟨rfl, rfl, rfl, fun word => by simp [pokesAt]⟩
      rintro interrupted after ⟨_, rfl⟩
      have asked : Watched pid { before with
          phase := .running
          heard := before.heard ++ [⟨.seize pid 0, SeizeResult.ok⟩] ++
            [⟨.interrupt pid, interrupted⟩] } :=
        watched.asked rfl (by rintro raw ⟨⟩)
      have stillAsked : Still before { before with
          phase := .running
          heard := before.heard ++ [⟨.seize pid 0, SeizeResult.ok⟩] ++
            [⟨.interrupt pid, interrupted⟩] } :=
        still.trans ⟨rfl, rfl, rfl, fun word => by simp [pokesAt]⟩
      cases interrupted with
      | false => exact wp_letGo stillAsked asked
      | true =>
          apply Process.wp_read .nowMs trivial
          intro now _
          apply (Prog.wp_bind _ _).mpr
          apply Prog.wp_mono (wp_waitForStop _ rfl asked)
          rintro status stopped ⟨stillWaited, watching, standing⟩
          have stillStopped := stillAsked.trans stillWaited
          cases status with
          | none => exact wp_letGo stillStopped watching
          | some status =>
              dsimp only
              split
              · exact wp_letGo stillStopped watching
              case isFalse alive =>
                have stands := standing status rfl (by simpa [Status.Gone] using alive)
                apply Process.wp_read (.getRegset pid _) trivial
                intro filled answer
                rcases answer with rfl | rfl
                · exact wp_letGo stillStopped watching
                · exact ⟨stillStopped, stands, known, rfl, by rw [stillStopped.regs]⟩

/-- The plan of a seizure is made for the architecture of the process. -/
theorem wp_seizePlan :
    (Daemon.seizePlan pid exe).wp Process.machine
      (fun plan after => after = before ∧ ∀ arch is64 entry thumb,
        plan = some (arch, is64, entry, thumb) →
          arch = Elf.archOf before.header ∧ arch ≠ .unknown) before := by
  apply Process.wp_read (.elfHeader pid) trivial
  intro header answer
  rcases answer with rfl | rfl
  · exact ⟨rfl, by simp⟩
  · dsimp only
    split
    · exact ⟨rfl, by simp⟩
    case isFalse known =>
      apply Process.wp_read (.maps pid) trivial
      intro entries _
      split
      · exact ⟨rfl, by simp⟩
      split
      · exact ⟨rfl, by simp⟩
      split
      · exact ⟨rfl, by simp⟩
      refine ⟨rfl, ?_⟩
      rintro arch is64 entry thumb ⟨⟩
      exact ⟨rfl, known⟩

theorem wp_seizeAndStop (own : Daemon) (fresh : before.heard = []) (free : before.phase = .free) :
    StateProg.wp Process.machine (Daemon.seizeAndStop pid exe)
      (fun result _ after => Attempt pid before result after) own before := by
  have untouched (seizure : Seizure) (refused : seizure ≠ .seized) :
      Attempt pid before (.error seizure) before :=
    ⟨refused, LetGo.of_unseized (Still.refl before) free (by simp [fresh])⟩
  unfold Daemon.seizeAndStop
  rw [StateProg.wp_bind, StateProg.wp_lift]
  apply Process.wp_reads (reads_perform (.foreignTracer pid) trivial)
  intro tracer
  cases tracer with
  | some tracer => exact untouched .retry (by simp)
  | none =>
      dsimp only
      rw [StateProg.wp_bind, StateProg.wp_lift]
      apply Prog.wp_mono wp_seizePlan
      rintro plan _ ⟨rfl, planned⟩
      cases plan with
      | none => exact untouched .giveUp (by simp)
      | some plan =>
          rcases plan with ⟨arch, is64, entry, thumb⟩
          rcases planned arch is64 entry thumb rfl with ⟨rfl, known⟩
          dsimp only
          rw [StateProg.wp_lift]
          exact wp_seizeWith fresh free known is64 entry thumb

end Catching

section Code

variable [Usize]

/-- The 64 bytes below a stack pointer, and below what is left of it when it is lowered by up to
64 bytes and cut to the width of a 32-bit target. -/
def NearStack (stack : Nat) : Set Nat :=
  { address | ∃ used ≤ 64, ∃ depth < 64,
    address = wrappingSub (wrappingSub stack used) (depth + 1) ∨
      address = wrappingSub (wrappingSub stack used % 2 ^ 32) (depth + 1) }

/-- The address is in no word of the stack. -/
def OffStack (stack address : Nat) : Prop :=
  address < count ∧ ∀ other ∈ NearStack stack, alignDown other ≠ alignDown address

def Process.stackPointer (process : Process) : Nat :=
  ((Regs.new (Elf.archOf process.header)).fill process.regs).sp

/-- The word is as it was exactly if it was not overwritten just once, by something else. -/
def WordSettled (before after : Process) (word : Nat) : Prop :=
  load after.mem word Usize.bytes = load before.mem word Usize.bytes ↔
    ∀ bytes, pokesAt word after.heard = [bytes] → bytes = load before.mem word Usize.bytes

/-- No byte of the code is different. -/
def CodeKept (before after : Process) : Prop :=
  ∀ address, OffStack before.stackPointer address → after.mem address = before.mem address

/-- No word of the code was overwritten just once, by something else than it held. -/
def WrittenBack (before after : Process) : Prop :=
  ∀ address, OffStack before.stackPointer address → ∀ bytes,
    pokesAt (alignDown address) after.heard = [bytes] →
      bytes = load before.mem (alignDown address) Usize.bytes

/-- The condition speaks of every word of the code. -/
def Settled (before after : Process) : Prop :=
  ∀ address, OffStack before.stackPointer address → WordSettled before after (alignDown address)

variable {before after : Process}

theorem OffStack.sameWord {stack address other : Nat} (off : OffStack stack address)
    (small : other < count) (same : alignDown other = alignDown address) : OffStack stack other :=
  ⟨small, fun near isNear => same ▸ off.2 near isNear⟩

theorem load_word_eq_iff {first second : Memory} {address : Nat} (small : address < count) :
    load first (alignDown address) Usize.bytes = load second (alignDown address) Usize.bytes ↔
      ∀ other < count, alignDown other = alignDown address → first other = second other := by
  rw [load, load, List.map_inj_left]
  have wordEnd := alignDown_add_le small
  constructor
  · intro same other otherSmall inWord
    have offset := sub_alignDown_lt other
    have isOther := wrappingAdd_alignDown otherSmall
    rw [inWord] at offset isOther
    have equal := same _ (List.mem_range.mpr offset)
    rwa [isOther] at equal
  · intro same offset inRange
    rw [List.mem_range] at inRange
    apply same _ (wrappingAdd_lt _ _)
    rw [wrappingAdd_of_lt (by omega), alignDown_add inRange]

theorem codeKept_iff (settled : Settled before after) :
    CodeKept before after ↔ WrittenBack before after := by
  constructor
  · intro codeKept address off
    apply (settled address off).mp
    rw [load_word_eq_iff off.1]
    intro other small same
    exact codeKept other (off.sameWord small same)
  · intro writtenBack address off
    have same := (settled address off).mpr (writtenBack address off)
    rw [load_word_eq_iff off.1] at same
    exact same address off.1 rfl

variable {pid : Pid} {middle last : Process}

theorem Settled.same (settled : Settled before middle) (mem : after.mem = middle.mem)
    (pokes : ∀ word, pokesAt word after.heard = pokesAt word middle.heard) :
    Settled before after := by
  intro address off
  have atWord := settled address off
  rw [WordSettled] at atWord ⊢
  rw [mem, pokes]
  exact atWord

theorem settled_of_still (fresh : before.heard = []) (still : Still before after) :
    Settled before after := by
  intro address off
  rw [WordSettled, still.mem, still.pokes, fresh]
  simp [pokesAt]

/-- A write that is not undone is in the words it has poked. -/
theorem settled_of_written (fresh : before.heard = []) (still : Still before middle)
    {address done upto : Nat} {buffer : List UInt8} (short : buffer.length ≤ count)
    (written : Written pid address buffer done upto middle after) : Settled before after := by
  intro target off
  rcases written.heard with ⟨new, heard, _, atWord⟩
  have before : pokesAt (alignDown target) middle.heard = [] := by
    rw [still.pokes, fresh]
    rfl
  rw [WordSettled, heard, pokesAt_append, before, List.nil_append]
  rcases atWord (alignDown target) with ⟨none, untouched⟩ | ⟨one, _⟩
  · rw [none, written.load_eq short off.1 untouched, still.mem]
    simp
  · rw [one]
    simp

/-- What lies off the stack is not touched by a call that is prepared on it. -/
theorem Inside.offStack (inside : Inside pid (NearStack before.stackPointer) middle after)
    {address : Nat} (off : OffStack before.stackPointer address) :
    load after.mem (alignDown address) Usize.bytes = load middle.mem (alignDown address) Usize.bytes ∧
      pokesAt (alignDown address) after.heard = pokesAt (alignDown address) middle.heard := by
  constructor
  · rw [load_word_eq_iff off.1]
    intro other _ inWord
    exact inside.mem other fun near => off.2 other near inWord
  · rcases inside.heard with ⟨new, heard, _, apart⟩
    rw [heard, pokesAt_append, apart _ fun other near => off.2 other near, List.append_nil]

/-- A breakpoint that is undone is out of every word that was poked twice. -/
theorem settled_of_restored (fresh : before.heard = []) (still : Still before middle)
    {armed called : Process} {entry upto : Nat} {instruction original : List UInt8}
    (short : instruction.length + Usize.bytes ≤ count)
    (set : Written pid entry instruction 0 instruction.length middle armed)
    (inside : Inside pid (NearStack before.stackPointer) armed called)
    (same : original = load middle.mem entry instruction.length)
    (restored : Written pid entry original 0 upto called after) : Settled before after := by
  have sizes : original.length = instruction.length := by rw [same, length_load]
  intro target off
  rcases inside.offStack off with ⟨calledWord, calledPokes⟩
  rcases set.heard with ⟨setNew, setHeard, _, setAt⟩
  rcases restored.heard with ⟨new, heard, _, atWord⟩
  have none : pokesAt (alignDown target) middle.heard = [] := by
    rw [still.pokes, fresh]
    rfl
  rw [WordSettled, heard, pokesAt_append, calledPokes, setHeard, pokesAt_append, none,
    List.nil_append]
  have fits := restored.fits
  rcases setAt (alignDown target) with ⟨setNone, untouched⟩ | ⟨setOne, _⟩
  · -- The breakpoint is in another word, and so is everything that restores it.
    have restoreUntouched : ∀ index, 0 ≤ index → index < upto →
        alignDown (wrappingAdd entry index) ≠ alignDown target :=
      fun index _ bound => untouched index (Nat.zero_le index) (by omega)
    have restoreNone : pokesAt (alignDown target) new = [] := by
      rcases atWord (alignDown target) with ⟨none, _⟩ | ⟨_, ⟨index, after, bound, inWord⟩, _⟩
      · exact none
      · exact absurd inWord (restoreUntouched index after bound)
    rw [setNone, restoreNone, restored.load_eq (by omega) off.1 restoreUntouched, calledWord,
      set.load_eq (by omega) off.1 untouched, still.mem]
    simp
  · rcases atWord (alignDown target) with ⟨restoreNone, untouched⟩ | ⟨restoreOne, _, whole⟩
    · rw [setOne, restoreNone, restored.load_eq (by omega) off.1 untouched, calledWord]
      simp
    · rw [setOne, restoreOne]
      apply iff_of_true _ (by simp)
      rw [load_word_eq_iff off.1]
      intro other small inWord
      by_cases inBreakpoint : Covers entry instruction.length other
      · rw [covers_iff (by omega)] at inBreakpoint
        rcases inBreakpoint with ⟨index, bound, rfl⟩
        have reached := whole index (Nat.zero_le index) (by omega) inWord
        rw [restored.mem_at (by omega) reached (by omega), ← still.mem]
        subst same
        simp [load]
      · have notRestored : ¬Covers entry upto other := fun covered =>
          inBreakpoint (covered.mono (by omega))
        rw [restored.mem_off (by omega) notRestored,
          inside.mem other fun near => off.2 other near inWord,
          set.mem_off (by omega) inBreakpoint, still.mem]

end Code

section Refusing

variable [Usize] {pid : Pid} {exe : String} {before middle armed called after : Process}
  {tracee : Tracee}

/-- The breakpoint of the tracee is in the memory, and the tracee knows what it replaced. -/
structure HasBreakpoint (pid : Pid) (tracee : Tracee) (middle armed : Process) : Prop where
  set : ∃ instruction : List UInt8, instruction.length + Usize.bytes ≤ count ∧
    instruction.length ≠ 0 ∧ tracee.breakpointSize = instruction.length ∧
    tracee.originalInstruction.take instruction.length =
      load middle.mem tracee.entry instruction.length ∧
    Written pid tracee.entry instruction 0 instruction.length middle armed

/-- What an attempt to set the breakpoint leaves. -/
def Setting (pid : Pid) (tracee : Tracee) (before : Process) (result : Option Tracee)
    (after : Process) : Prop :=
  match result with
  | none => ∃ buffer upto, buffer.length ≤ count ∧ Written pid tracee.entry buffer 0 upto before after
  | some next =>
      HasBreakpoint pid next before after ∧ next.entry = tracee.entry ∧ next.arch = tracee.arch

omit [Usize] in
theorem breakpoint_fits {arch : Arch} (known : arch ≠ .unknown) (thumb : Bool) :
    (arch.breakpoint thumb).length ≠ 0 ∧ (arch.breakpoint thumb).length ≤ INSTRUCTION_CAPACITY := by
  cases arch <;> cases thumb <;> first | exact absurd rfl known | decide

theorem wp_setEntryBreakpoint (known : tracee.arch ≠ .unknown) (thumb : Bool) :
    (setEntryBreakpoint pid tracee thumb).wp Process.machine (Setting pid tracee before) before := by
  rcases breakpoint_fits known thumb with ⟨nonempty, fits⟩
  have short : (tracee.arch.breakpoint thumb).length + Usize.bytes ≤ count :=
    small_count (Nat.le_trans fits (by decide))
  have usable : ¬((tracee.arch.breakpoint thumb).isEmpty ||
      decide ((tracee.arch.breakpoint thumb).length > INSTRUCTION_CAPACITY)) = true := by
    simp only [Bool.or_eq_true, List.isEmpty_iff, decide_eq_true_eq, not_or]
    exact ⟨fun empty => nonempty (by simp [empty]), by omega⟩
  unfold setEntryBreakpoint
  dsimp only
  rw [if_neg usable, Prog.bind_eq, Prog.wp_bind]
  apply Prog.wp_mono (wp_readMemory _)
  rintro original _ ⟨rfl, isOriginal⟩
  cases original with
  | none => exact ⟨[], 0, Nat.zero_le _, Written.nothing (Nat.zero_le _)⟩
  | some original =>
      dsimp only
      rw [Prog.bind_eq, Prog.wp_bind]
      apply Prog.wp_mono (wp_writeMemory short)
      rintro ok last ⟨upto, written, complete⟩
      cases ok with
      | false => exact ⟨_, upto, by omega, written⟩
      | true =>
          have whole := complete.mp rfl
          subst whole
          have read := isOriginal original rfl
          refine ⟨⟨_, short, nonempty, rfl, ?_, written⟩, rfl, rfl⟩
          rw [List.take_left' (by rw [read, length_load])]
          exact read

/-- The tracee is let go without having been taken. -/
structure Refusal (pid : Pid) (before after : Process) : Prop where
  settled : Settled before after
  traced : after.Traced ↔ ¬HeardFrom pid after

theorem wp_detach_refusal (settled : Settled before middle) (watched : Watched pid middle) :
    (Ptrace.detach pid none).wp Process.machine (fun _ after => Refusal pid before after) middle := by
  apply Prog.wp_mono (wp_detach_watched watched)
  rintro _ after ⟨still, traced⟩
  exact ⟨settled.same still.mem still.pokes, traced⟩

theorem Standing.of_inside {region : Set Nat} (standing : Standing pid middle)
    (inside : Inside pid region middle after) : Standing pid after := by
  rcases inside.heard with ⟨new, heard, _⟩
  exact standing.later inside.phase ⟨new, heard⟩

theorem Standing.of_written {address done upto : Nat} {buffer : List UInt8}
    (standing : Standing pid middle) (written : Written pid address buffer done upto middle after) :
    Standing pid after := by
  rcases written.heard with ⟨new, heard, _⟩
  exact standing.later written.phase ⟨new, heard⟩

/-- The entry is restored, or what is left of the breakpoint is in words that were poked once. -/
theorem wp_restoreEntry (fresh : before.heard = []) (still : Still before middle)
    (breakpoint : HasBreakpoint pid tracee middle armed)
    (inside : Inside pid (NearStack before.stackPointer) armed called)
    (standing : Standing pid called) :
    (restoreEntry pid tracee).wp Process.machine
      (fun _ after => Settled before after ∧ Standing pid after) called := by
  rcases breakpoint.set with ⟨instruction, short, nonempty, size, original, written⟩
  unfold restoreEntry
  rw [size, if_pos nonempty, Prog.bind_eq, Prog.wp_bind]
  have sizes : (tracee.originalInstruction.take instruction.length).length =
      instruction.length := by
    rw [original, length_load]
  apply Prog.wp_mono (wp_writeMemory (by rw [sizes]; exact short))
  rintro ok restoring ⟨upto, restored, _⟩
  have settled := settled_of_restored fresh still short written inside original restored
  apply Prog.wp_mono (Confined.restored ok restoring)
  rintro _ after ⟨_, noted⟩
  exact ⟨settled.same noted.nowhere.1 noted.nowhere.2, (standing.of_written restored).of_inside noted⟩

theorem wp_undo_refusal (fresh : before.heard = []) (still : Still before middle)
    (breakpoint : HasBreakpoint pid tracee middle armed)
    (inside : Inside pid (NearStack before.stackPointer) armed called)
    (standing : Standing pid called) (own : Daemon) :
    StateProg.wp Process.machine (Daemon.undo pid tracee)
      (fun _ own' after => own' = own ∧ Refusal pid before after) own called := by
  unfold Daemon.undo releaseTracee
  rw [StateProg.wp_bind, StateProg.wp_lift, Prog.bind_eq, Prog.wp_bind]
  apply Prog.wp_mono (wp_restoreEntry fresh still breakpoint inside standing)
  rintro _ restored ⟨settled, standing⟩
  apply Prog.wp_mono (confined_releaseRegisters ∅ tracee restored)
  rintro _ released ⟨_, nowhere⟩
  rw [StateProg.wp_lift]
  apply Prog.wp_mono (wp_detach_refusal (settled.same nowhere.nowhere.1 nowhere.nowhere.2)
    (standing.of_inside nowhere).watched)
  exact fun _ _ refusal => ⟨rfl, refusal⟩

/-- What a seizure that is over leaves. -/
def Finish (pid : Pid) (before : Process) (seizure : Seizure) (own : Daemon) (after : Process) :
    Prop :=
  match seizure with
  | .seized => pid ∈ own.tracees
  | .retry | .giveUp => Refusal pid before after

theorem wp_refuse (settled : Settled before middle) (watched : Watched pid middle)
    (own : Daemon) :
    StateProg.wp Process.machine (do
        Ptrace.detach pid none
        return Seizure.giveUp)
      (Finish pid before) own middle := by
  rw [StateProg.wp_bind, StateProg.wp_lift]
  exact Prog.wp_mono (wp_detach_refusal settled watched) fun _ _ refusal => refusal

theorem wp_armEntryInjection_refusal (fresh : before.heard = []) {stopped : StoppedTarget}
    (caught : Caught pid before stopped middle) (own : Daemon) :
    StateProg.wp Process.machine (Daemon.armEntryInjection pid exe stopped)
      (Finish pid before) own middle := by
  unfold Daemon.armEntryInjection
  rw [StateProg.wp_bind, StateProg.wp_get, StateProg.wp_bind, StateProg.wp_lift]
  apply Process.wp_reads (reads_perform .nowMs trivial)
  intro now
  rw [StateProg.wp_bind, StateProg.wp_lift]
  apply Prog.wp_mono (wp_setEntryBreakpoint caught.known stopped.thumb)
  intro result last setting
  cases result with
  | none =>
      rcases setting with ⟨buffer, upto, short, written⟩
      apply wp_refuse
      · exact settled_of_written fresh caught.still short written
      · exact (caught.standing.of_written written).watched
  | some next =>
      rw [StateProg.wp_bind, StateProg.wp_modify, StateProg.wp_bind, StateProg.wp_lift]
      intro answer resumed _
      simp [Finish]

theorem room_nearStack (regs : Regs) : Room (NearStack regs.sp) regs 63 := by
  have whole : wrappingSub regs.sp 0 = regs.sp := wrappingSub_of_le (Nat.zero_le _) regs.sp_lt
  constructor
  · intro depth bound
    refine ⟨0, by omega, depth, by omega, .inl ?_⟩
    rw [whole]
  · intro used le depth bound
    have small := wrappingSub_lt regs.sp used
    cases known : regs.arch.layout with
    | none =>
        have unset : regs.setSp (wrappingSub regs.sp used) = regs := by
          rw [Regs.setSp, known]
          rfl
        refine ⟨0, by omega, depth, by omega, .inl ?_⟩
        rw [whole, unset]
    | some layout =>
        rw [Regs.sp_setSp known small]
        refine ⟨used, by omega, depth, by omega, ?_⟩
        rcases Regs.layout_word known with four | eight
        · right
          rw [four]
          norm_num
        · left
          have wide : count ≤ 256 ^ 8 := by
            rcases bytes_eq with four | eight
            · rw [count, four]
              decide
            · rw [count, eight]
          rw [eight, Nat.mod_eq_of_lt (by omega)]

/-- Where a process is that has been stopped at `pc`: there without the Thumb bit. -/
def standsAt (arch : Arch) (pc : Nat) : Nat :=
  if decide (arch = .arm32 ∧ pc % 2 ≠ 0) then pc - 1 else pc

theorem HasBreakpoint.of_same {other : Tracee} (breakpoint : HasBreakpoint pid tracee middle armed)
    (entry : other.entry = tracee.entry) (size : other.breakpointSize = tracee.breakpointSize)
    (original : other.originalInstruction = tracee.originalInstruction) :
    HasBreakpoint pid other middle armed := by
  refine ⟨?_⟩
  rw [entry, size, original]
  exact breakpoint.set

theorem wp_startLoader (fresh : before.heard = []) (still : Still before middle)
    (breakpoint : HasBreakpoint pid tracee middle armed) (standing : Standing pid armed)
    {regs : Regs} (stack : regs.sp = before.stackPointer) (own : Daemon) :
    StateProg.wp Process.machine (Daemon.startLoader pid tracee regs)
      (fun progress _ after => ∀ (_ : progress = .finished), Refusal pid before after) own armed := by
  have name := length_memfdName_loader tracee
  have room := room_nearStack regs
  rw [stack] at room
  unfold Daemon.startLoader
  rw [StateProg.wp_bind, StateProg.wp_lift]
  have confined : Confined pid (NearStack before.stackPointer)
      (startFile pid tracee .loader regs) fun _ => True :=
    confined_startFile .loader (by rw [name]; decide) (by rw [name]; exact room)
  apply Prog.wp_mono (Prog.wp_and (confined armed) (returns_startFile tracee .loader regs).wp)
  rintro ⟨started, next⟩ called ⟨⟨_, inside⟩, same, _⟩
  cases started with
  | false =>
      dsimp only
      rw [if_pos (by rfl), StateProg.wp_bind]
      apply StateProg.wp_mono (wp_undo_refusal fresh still
        (breakpoint.of_same same.entry same.breakpointSize same.originalInstruction) inside
        (standing.of_inside inside) own)
      exact fun _ _ _ undone _ => undone.2
  | true =>
      dsimp only
      rw [if_neg (by decide), StateProg.wp_bind, StateProg.wp_lift]
      intro answer resumed _ finished
      cases finished

theorem wp_trapAtLate (fresh : before.heard = []) (still : Still before middle)
    (breakpoint : HasBreakpoint pid tracee middle armed) (standing : Standing pid armed)
    (regs : armed.regs = before.regs) (arch : tracee.arch = Elf.archOf before.header)
    (entry : tracee.entry = standsAt tracee.arch ((Regs.new tracee.arch).fill before.regs).pc)
    (own : Daemon) :
    StateProg.wp Process.machine (Daemon.trapAtLate pid tracee)
      (fun progress _ after => ∀ (_ : progress = .finished), Refusal pid before after) own armed := by
  unfold Daemon.trapAtLate
  rw [StateProg.wp_bind, StateProg.wp_lift]
  apply Process.wp_readRegisters
  · rw [StateProg.wp_bind, StateProg.wp_lift]
    apply Prog.wp_mono (wp_restoreEntry fresh still breakpoint (Inside.refl armed) standing)
    rintro _ restored ⟨settled, standing⟩
    rw [StateProg.wp_bind, StateProg.wp_lift]
    exact Prog.wp_mono (wp_detach_refusal settled standing.watched) fun _ _ refusal _ => refusal
  · rw [regs]
    have stack : ((Regs.new tracee.arch).fill before.regs).sp = before.stackPointer := by
      rw [arch, Process.stackPointer]
    refine wp_startLoader fresh still ?_ standing stack own
    refine breakpoint.of_same ?_ rfl rfl
    exact entry.symm

theorem wp_injectLate [Config.Build] (fresh : before.heard = []) {stopped : StoppedTarget}
    (caught : Caught pid before stopped middle) (own : Daemon) :
    StateProg.wp Process.machine (Daemon.injectLate pid exe stopped)
      (Finish pid before) own middle := by
  unfold Daemon.injectLate
  rw [StateProg.wp_bind, StateProg.wp_get]
  dsimp only
  rw [StateProg.wp_bind, StateProg.wp_lift]
  apply Prog.wp_mono (wp_setEntryBreakpoint caught.known _)
  intro result last setting
  cases result with
  | none =>
      rcases setting with ⟨buffer, upto, short, written⟩
      apply wp_refuse
      · exact settled_of_written fresh caught.still short written
      · exact (caught.standing.of_written written).watched
  | some next =>
      rcases setting with ⟨breakpoint, entry, arch⟩
      rcases breakpoint.set with ⟨_, _, _, _, _, written⟩
      dsimp only
      rw [StateProg.wp_bind]
      unfold Daemon.beginLateInjection
      rw [StateProg.wp_bind]
      have late : HasBreakpoint pid { next with state := .late } middle last :=
        breakpoint.of_same rfl rfl rfl
      apply StateProg.wp_mono (wp_trapAtLate fresh caught.still late
        (caught.standing.of_written written) (written.regs.trans caught.still.regs)
        (arch.trans caught.arch) _ own)
      · intro progress own' after refusal
        cases progress with
        | tracing owned =>
            rw [StateProg.wp_bind, StateProg.wp_modify]
            simp [Finish]
        | finished => exact refusal rfl
      · change next.entry = standsAt next.arch ((Regs.new next.arch).fill before.regs).pc
        have nextArch : next.arch = stopped.arch := arch
        have nextEntry : next.entry = standsAt stopped.arch stopped.pc := entry
        rw [nextEntry, nextArch, ← caught.pc]

/-- The two ways to seize a target differ in what they do with one that is past its entry. -/
theorem wp_seizing (fresh : before.heard = []) (free : before.phase = .free) (own : Daemon)
    {rest : StoppedTarget → Bool → DaemonM Seizure}
    (finishes : ∀ stopped inText own middle, Caught pid before stopped middle →
      StateProg.wp Process.machine (rest stopped inText) (Finish pid before) own middle) :
    StateProg.wp Process.machine (do
        match ← Daemon.seizeAndStop pid exe with
        | .error seizure => return seizure
        | .ok stopped => do
            let inText ← Procfs.pcInExeText pid exe stopped.pc
            rest stopped inText) (Finish pid before) own before := by
  rw [StateProg.wp_bind]
  apply StateProg.wp_mono (wp_seizeAndStop own fresh free)
  intro result own' middle attempt
  cases result with
  | error seizure =>
      rcases attempt with ⟨refused, still, traced⟩
      have refusal : Refusal pid before middle := ⟨settled_of_still fresh still, traced⟩
      cases seizure with
      | seized => exact absurd rfl refused
      | retry | giveUp => exact refusal
  | ok stopped =>
      rw [StateProg.wp_bind, StateProg.wp_lift]
      apply Process.wp_reads (reads_pcInExeText pid exe stopped.pc)
      intro inText
      exact finishes stopped inText own' middle attempt

/-- A record that is made leaves the process standing. -/
theorem wp_recordFailure (reason : String) (standing : Standing pid middle) (own : Daemon) :
    StateProg.wp Process.machine (Daemon.recordFailure pid exe reason)
      (fun _ _ after => Still middle after ∧ Standing pid after) own middle := by
  unfold Daemon.recordFailure
  rw [StateProg.wp_bind, StateProg.wp_lift]
  rintro answer noted ⟨_, rfl⟩
  rw [Prog.wp_pure, StateProg.wp_bind, StateProg.wp_lift]
  apply Process.wp_reads (reads_perform (.processName pid exe) trivial)
  intro name
  rw [StateProg.wp_modify]
  exact ⟨⟨rfl, rfl, rfl, fun word => by simp [pokesAt, kept]⟩, standing.later rfl ⟨_, rfl⟩⟩

theorem wp_missed (fresh : before.heard = []) {stopped : StoppedTarget}
    (caught : Caught pid before stopped middle) (reason : String) (own : Daemon) :
    StateProg.wp Process.machine (do
        Daemon.recordFailure pid exe reason
        Ptrace.detach pid none
        return Seizure.giveUp) (Finish pid before) own middle := by
  rw [StateProg.wp_bind]
  apply StateProg.wp_mono (wp_recordFailure reason caught.standing own)
  rintro _ own' noted ⟨still, standing⟩
  exact wp_refuse (settled_of_still fresh (caught.still.trans still)) standing.watched own'

theorem wp_seizeTarget (fresh : before.heard = []) (free : before.phase = .free) (own : Daemon) :
    StateProg.wp Process.machine (Daemon.seizeTarget pid exe) (Finish pid before) own before := by
  unfold Daemon.seizeTarget
  apply wp_seizing fresh free
  intro stopped inText own middle caught
  split
  · exact wp_missed fresh caught _ own
  · exact wp_armEntryInjection_refusal fresh caught own

theorem wp_seizeLateTarget [Config.Build] (fresh : before.heard = [])
    (free : before.phase = .free) (own : Daemon) :
    StateProg.wp Process.machine (Daemon.seizeLateTarget pid exe) (Finish pid before) own before := by
  unfold Daemon.seizeLateTarget
  apply wp_seizing fresh free
  intro stopped inText own middle caught
  split
  · exact wp_armEntryInjection_refusal fresh caught own
  rw [StateProg.wp_bind, StateProg.wp_lift]
  apply Process.wp_reads (reads_perform (.isSingleThreaded pid) trivial)
  intro singleThreaded
  rw [StateProg.wp_bind, StateProg.wp_lift]
  apply Process.wp_reads (reads_perform (.processAgeMs pid) trivial)
  intro age
  dsimp only
  split
  · exact wp_missed fresh caught _ own
  · exact wp_injectLate fresh caught own

/-- The process is not traced, and no byte of its code is different. -/
def NothingLeft (before after : Process) : Prop :=
  ¬after.Traced ∧ CodeKept before after

/-- The functions that seize a target. -/
inductive Seizes [Config.Build] (pid : Pid) (exe : String) : DaemonM Seizure → Prop
  | target : Seizes pid exe (Daemon.seizeTarget pid exe)
  | lateTarget : Seizes pid exe (Daemon.seizeLateTarget pid exe)

/-- A seizure that is refused leaves nothing behind exactly if the process was heard from after it
was seized, and every word of its code that was overwritten was written back. One that succeeds
leaves a tracee. -/
theorem refused_seizure_iff [Config.Build] {program : DaemonM Seizure}
    (seizes : Seizes pid exe program) {own own' : Daemon} {seizure : Seizure}
    (run : StateProg.Runs Process.machine program own before seizure own' after)
    (fresh : before.heard = []) (free : before.phase = .free) :
    (seizure = .seized → pid ∈ own'.tracees) ∧
      (seizure ≠ .seized →
        (NothingLeft before after ↔ HeardFrom pid after ∧ WrittenBack before after)) := by
  have finish : Finish pid before seizure own' after := by
    cases seizes with
    | target => exact run.of_wp (wp_seizeTarget fresh free own)
    | lateTarget => exact run.of_wp (wp_seizeLateTarget fresh free own)
  have refused (refusal : Refusal pid before after) :
      NothingLeft before after ↔ HeardFrom pid after ∧ WrittenBack before after := by
    rw [NothingLeft, refusal.traced, not_not, codeKept_iff refusal.settled]
  cases seizure with
  | seized => exact ⟨fun _ => finish, fun other => absurd rfl other⟩
  | retry | giveUp => exact ⟨by simp, fun _ => refused finish⟩

/-- A seizure that is refused leaves nothing behind. -/
def RefusalLeavesNothing [Config.Build] : Prop :=
  ∀ pid exe program, Seizes pid exe program → ∀ own before seizure own' after,
    StateProg.Runs Process.machine program own before seizure own' after →
      before.heard = [] → before.phase = .free → seizure ≠ .seized → NothingLeft before after

end Refusing

section Runs

/-- A 64-bit ARM process that nobody traces; all its memory is zero. -/
def untracedA : Process where
  mem := fun _ => 0
  edited := ∅
  regs := registersAt 0
  header := ⟨true, Elf.ET_DYN, Elf.EM_AARCH64, 16⟩
  phase := .free
  heard := []

/-- It can be seized, but its memory cannot be written. -/
def readOnlyA : (request : Call) → request.Answer
  | .seize _ _ => .ok
  | .interrupt _ => true
  | .waitRounds => (1 : Nat)
  | .pokeData _ _ _ => false
  | request => runningA (some []) request

/-- It can be seized, but not interrupted. -/
def uninterruptedA : (request : Call) → request.Answer
  | .interrupt _ => false
  | request => readOnlyA request

/-- An attempt to seize the process. -/
def seizingA (script : (request : Call) → request.Answer) : (Seizure × Daemon) × Process :=
  Prog.eval (I := Sys) (@Process.scripted .eight script)
    ((@Daemon.seizeTarget .eight 100 "/a").run {}) untracedA

theorem runs_seizingA (script : (request : Call) → request.Answer) :
    StateProg.Runs (@Process.machine .eight) (@Daemon.seizeTarget .eight 100 "/a") {} untracedA
      (seizingA script).1.1 (seizingA script).1.2 (seizingA script).2 :=
  @Process.runs_scripted .eight _ _ script (@Daemon.seizeTarget .eight 100 "/a") {} untracedA

/-- A process in which the breakpoint cannot be set is let go as it was. -/
theorem refused_seizure_of_unwritten :
    (seizingA readOnlyA).1.1 = .giveUp ∧ @NothingLeft .eight untracedA (seizingA readOnlyA).2 := by
  have refused : (seizingA readOnlyA).1.1 = .giveUp := by decide
  refine ⟨refused, ?_⟩
  apply ((@refused_seizure_iff .eight 100 "/a" untracedA _ .arm64 _
    (@Seizes.target .eight .arm64 100 "/a") _ _ _ (runs_seizingA readOnlyA) rfl rfl).2
    (by simp [refused])).mpr
  have heard : (seizingA readOnlyA).2.heard = [⟨.seize 100 0, SeizeResult.ok⟩,
      ⟨.interrupt 100, true⟩, stopOf 100 (.stopped Signal.SIGTRAP Ptrace.EVENT_STOP),
      ⟨.pokeData 100 4112 [0, 0, 32, 212, 0, 0, 0, 0], false⟩, ⟨.detach 100 none, true⟩] := rfl
  constructor
  · intro _
    exact ⟨.stopped Signal.SIGTRAP Ptrace.EVENT_STOP, by simp [heard]⟩
  · intro address off bytes
    simp [heard, pokesAt, stopOf]

/-- A process that is seized and cannot be interrupted stays traced. -/
theorem uninterrupted_stays_traced : ¬@RefusalLeavesNothing .eight .arm64 := by
  intro leavesNothing
  have refused : (seizingA uninterruptedA).1.1 ≠ .seized := by decide
  have nothing := leavesNothing 100 "/a" _ (@Seizes.target .eight .arm64 100 "/a") {} untracedA _ _ _
    (runs_seizingA uninterruptedA) rfl rfl refused
  have running : (seizingA uninterruptedA).2.phase = .running := by decide
  exact nothing.1 (.inl running)

end Runs

end Znn.Injector
