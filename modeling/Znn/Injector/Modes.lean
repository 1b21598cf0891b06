import Znn.Interaction.Preserves
import Znn.Interaction.Reach
import Znn.Injector.Handled
import Znn.Injector.Startup

/-!
# The tracking mode

The mode, the kernel tracker and the tracing of init go together. A run of the daemon is a run of
its constructor and then of the turns of its main loop; the configuration is read anew wherever
the code reads it, and every start, seizure and hand-over may fail. Init is there from the
beginning to the end: it is nobody's new child, and it neither exits nor runs a new program.
-/

namespace Znn.Injector

open Interaction Trace Mode

/-- What the mode says of the tracker and of init. -/
def Consistent (mode : Tracking) (kernel : Bool) (traced : Prop) : Prop :=
  (mode = .kernel → kernel = true) ∧ (mode = .ptrace ∨ mode = .proc → kernel = false) ∧
    (traced ↔ mode = .ptrace)

/-- A kernel tracker runs where the mode needs one, none runs where the mode has no use for it,
and init is in the table exactly while the mode is to trace it. -/
def Daemon.ModeKept (daemon : Daemon) : Prop :=
  Consistent daemon.mode daemon.kernel (1 ∈ daemon.tracees)

/-- No pass of the daemon is about init; if it is traced, it is merely followed. -/
structure InitAside (daemon : Daemon) : Prop where
  traced : ∀ tracee, daemon.tracees.lookup 1 = some tracee → tracee.state = .traced
  deferred : daemon.deferred.lookup 1 = none
  recheck : daemon.recheck.lookup 1 = none

structure Ruled (daemon : Daemon) : Prop where
  kept : daemon.ModeKept
  aside : InitAside daemon

/-- The exchange does not report a new child that is init, nor that init has ended or run a new
program. -/
def InitStays : Exchange Sys → Prop
  | ⟨.eventMessage _, some child⟩ => child ≠ 1
  | ⟨.waitpid _, .status pid raw⟩ =>
      pid = 1 → ∀ status, WaitStatus.fromRaw raw = some status →
        ¬(⟨status⟩ : Status).Gone ∧ ¬(⟨status⟩ : Status).Execs ∧ ¬(⟨status⟩ : Status).Exits
  | _ => True

/-- The mode that the contents of the configuration file ask for. -/
def Config.modeOf (contents : FileText) : String :=
  match contents with
  | .text contents =>
      Config.choose Config.trackingModeOptions
        ((Targets.lines contents).foldl Config.storeLine ⟨"", "", "", "", ""⟩).mode
        Config.MODE_AUTO
  | .notFound | .failed => Config.MODE_AUTO

/-- The exchange that reads the configuration file. -/
abbrev configured (contents : FileText) : Exchange Sys :=
  ⟨.readToString Config.CONFIG_FILE, contents⟩

/-- Once the constructor has started a kernel tracker, the configuration does not ask for a mode
that has none. -/
def Unretracted (transcript : Transcript) : Prop :=
  ∀ before contents after, transcript = before ++ configured contents :: after →
    ⟨.startKernelTracker, true⟩ ∈ before →
    Config.modeOf contents ≠ Config.MODE_PROC ∧ Config.modeOf contents ≠ Config.MODE_PTRACE

theorem Unretracted.of_append {first second : Transcript} (holds : Unretracted (first ++ second)) :
    Unretracted second := by
  rintro before contents after rfl heard
  apply holds (first ++ before) contents after
  · rw [List.append_assoc]
  · exact List.mem_append_right _ heard

/-- The runs of the daemon whose constructor meets a condition: a turn of the main loop, with or
without a rescan, and what the system answers in it. -/
def looping [Usize] [Config.Build] (constructed : Transcript → Prop) :
    System Daemon (Bool × Transcript) where
  Initial daemon := ∃ moduleDir snapshot transcript,
    (Daemon.new moduleDir snapshot).Talks daemon transcript ∧ constructed transcript
  Step own turn own' := StateProg.Talks (Daemon.tick turn.1) own ⟨⟩ own' turn.2 ∧
    ∀ exchange ∈ turn.2, InitStays exchange

section Parts

variable {own : Daemon}

theorem says_effective [Config.Build] : Config.effective.Says fun config transcript =>
    ∃ contents, transcript = [configured contents] ∧ config.mode = Config.modeOf contents := by
  intro contents
  cases contents with
  | text contents => exact ⟨.text contents, rfl, rfl⟩
  | notFound => exact ⟨.notFound, rfl, rfl⟩
  | failed => exact ⟨.failed, rfl, rfl⟩

theorem says_startKernelTracker :
    StateProg.Says Daemon.startKernelTracker (fun started own' transcript =>
      own' = { own with kernel := started } ∧ (own.kernel = true → started = true) ∧
        (started = true → own.kernel = true ∨ ⟨.startKernelTracker, true⟩ ∈ transcript)) own := by
  unfold Daemon.startKernelTracker
  rw [StateProg.says_bind, StateProg.says_get]
  split
  case isTrue running =>
    apply StateProg.says_pure
    refine ⟨?_, fun _ => rfl, fun _ => .inl running⟩
    rw [← running]
  case isFalse notRunning =>
    rw [StateProg.says_bind, StateProg.says_lift]
    intro started
    refine ⟨rfl, fun running => absurd running notRunning, fun isStarted => .inr ?_⟩
    cases isStarted
    exact List.mem_cons_self

theorem says_handOverInit : StateProg.Says Daemon.handOverInit (fun handedOver own' _ =>
    own' = if handedOver then { own with tracees := own.tracees.erase 1 } else own) own := by
  unfold Daemon.handOverInit
  rw [StateProg.says_bind, StateProg.says_lift]
  apply Prog.says_iff_talks.mpr
  intro status _ _
  cases status with
  | none => exact rfl
  | some status =>
      dsimp only
      rw [StateProg.says_bind, StateProg.says_lift]
      intro detached
      cases detached with
      | true => exact rfl
      | false => exact fun _ => rfl

theorem says_seizeInit : StateProg.Says Daemon.seizeInit (fun seized own' _ =>
    own' = if seized then
      { own with tracees := own.tracees.insert 1 (Tracee.new .traced .unknown) }
    else own) own := by
  unfold Daemon.seizeInit
  rw [StateProg.says_bind, StateProg.says_lift]
  intro seized
  cases seized with
  | ok => exact rfl
  | permissionDenied | failed => exact rfl

end Parts

namespace InitAside

variable {own : Daemon}

theorem erase (aside : InitAside own) :
    InitAside { own with tracees := own.tracees.erase 1 } := by
  constructor
  · intro tracee found
    rw [AList.lookup_erase] at found
    cases found
  · exact aside.deferred
  · exact aside.recheck

theorem insert (aside : InitAside own) :
    InitAside { own with tracees := own.tracees.insert 1 (Tracee.new .traced .unknown) } := by
  constructor
  · intro tracee found
    rw [AList.lookup_insert] at found
    cases found
    rfl
  · exact aside.deferred
  · exact aside.recheck

end InitAside

namespace Ruled

variable {own : Daemon}

theorem untraced (ruled : Ruled own) (notPtrace : own.mode ≠ .ptrace) : (1 : Pid) ∉ own.tracees :=
  fun traced => notPtrace (ruled.kept.2.2.mp traced)

/-- What does not touch init, the mode or the tracker. -/
theorem frame {own' : Daemon} (ruled : Ruled own) (mode : own'.mode = own.mode)
    (kernel : own'.kernel = own.kernel) (tracee : own'.tracees.lookup 1 = own.tracees.lookup 1)
    (deferred : own'.deferred.lookup 1 = own.deferred.lookup 1)
    (recheck : own'.recheck.lookup 1 = own.recheck.lookup 1) : Ruled own' := by
  constructor
  · have kept := ruled.kept
    rw [Daemon.ModeKept, ← AList.lookup_isSome] at kept ⊢
    rwa [mode, kernel, tracee]
  · constructor
    · rw [tracee]
      exact ruled.aside.traced
    · rw [deferred]
      exact ruled.aside.deferred
    · rw [recheck]
      exact ruled.aside.recheck

/-- Init is not traced and no tracker runs: the mode is to poll. -/
theorem polling (aside : InitAside own) (mode : own.mode = .proc) (kernel : own.kernel = false)
    (untraced : (1 : Pid) ∉ own.tracees) : Ruled own := by
  refine ⟨?_, aside⟩
  simp [Daemon.ModeKept, Consistent, mode, kernel, untraced]

theorem driven (aside : InitAside own) (mode : own.mode = .kernel) (kernel : own.kernel = true)
    (untraced : (1 : Pid) ∉ own.tracees) : Ruled own := by
  refine ⟨?_, aside⟩
  simp [Daemon.ModeKept, Consistent, mode, kernel, untraced]

theorem deferring (aside : InitAside own) (mode : own.mode = .late)
    (untraced : (1 : Pid) ∉ own.tracees) : Ruled own := by
  refine ⟨?_, aside⟩
  simp [Daemon.ModeKept, Consistent, mode, untraced]

theorem tracing (aside : InitAside own) (mode : own.mode = .ptrace) (kernel : own.kernel = false)
    (traced : (1 : Pid) ∈ own.tracees) : Ruled own := by
  refine ⟨?_, aside⟩
  simp [Daemon.ModeKept, Consistent, mode, kernel, traced]

end Ruled

theorem untraced_erase (own : Daemon) : (1 : Pid) ∉ own.tracees.erase 1 := by
  simp

namespace Daemon

section Changes

variable {good : Exchange Sys → Prop}

theorem preserves_leaveKernelMode (wanted : String) :
    StateProg.Preserves good Ruled (leaveKernelMode wanted) := by
  apply StateProg.Preserves.bind_get_here
  intro own ruled
  have leaves : own.mode ≠ .ptrace →
      Ruled { own with kernel := false, mode := .proc, dirty := true } := by
    intro notPtrace
    apply Ruled.polling
    · exact ⟨ruled.aside.traced, ruled.aside.deferred, ruled.aside.recheck⟩
    · rfl
    · rfl
    · exact ruled.untraced notPtrace
  dsimp only
  split
  case isTrue late => exact fun _ => leaves (by simp [late.1])
  split
  case isTrue kernel => exact fun _ => leaves (by simp [kernel])
  split
  case isFalse => exact fun _ => ruled
  case isTrue ptrace =>
    rw [StateProg.says_bind]
    apply StateProg.says_mono says_handOverInit
    intro handedOver own' _ same
    rw [same]
    cases handedOver with
    | false => exact fun _ => ruled
    | true =>
        intro _
        apply Ruled.polling
        · exact ⟨ruled.aside.erase.traced, ruled.aside.deferred, ruled.aside.recheck⟩
        · rfl
        · exact ruled.kept.2.1 (.inl ptrace.2)
        · exact untraced_erase own

theorem preserves_enterKernelMode (wanted : String) :
    StateProg.Preserves good Ruled (enterKernelMode wanted) := by
  apply StateProg.Preserves.bind_get_here
  intro own ruled
  split
  case isTrue => exact fun _ => ruled
  case isFalse =>
    rw [StateProg.says_bind]
    apply StateProg.says_mono says_startKernelTracker
    rintro started _ _ ⟨rfl, running, _⟩
    cases started with
    | false =>
        have stopped : own.kernel = false := by
          by_contra isRunning
          exact absurd (running (by simpa using isRunning)) Bool.false_ne_true
        have same : Ruled { own with kernel := false } := by
          rwa [← stopped]
        apply StateProg.says_mono (@preserves_leaveKernelMode good wanted _ same)
        intro _ _ _ kept allGood
        exact kept fun exchange present => allGood exchange (List.mem_append_right _ present)
    | true =>
        dsimp only
        rw [if_pos rfl, StateProg.says_bind, StateProg.says_get]
        dsimp only
        split
        case isTrue ptrace =>
          rw [StateProg.says_bind]
          apply StateProg.says_mono says_handOverInit
          intro handedOver own' _ same
          rw [same]
          cases handedOver with
          | false =>
              intro _
              have stopped : own.kernel = false := ruled.kept.2.1 (.inl ptrace)
              apply ruled.frame
              · rfl
              · exact stopped.symm
              · rfl
              · rfl
              · rfl
          | true =>
              intro _
              apply Ruled.driven
              · exact ⟨ruled.aside.erase.traced, ruled.aside.deferred, ruled.aside.recheck⟩
              · rfl
              · rfl
              · exact untraced_erase own
        case isFalse notPtrace =>
          intro _
          apply Ruled.driven
          · exact ⟨ruled.aside.traced, ruled.aside.deferred, ruled.aside.recheck⟩
          · rfl
          · rfl
          · exact ruled.untraced notPtrace

/-- The tracker may run or not: late mode is served either way. -/
theorem says_defer (own : Daemon) (aside : InitAside own) (untraced : (1 : Pid) ∉ own.tracees) :
    StateProg.Says (do
      let _ ← startKernelTracker
      changeMode .late) (fun _ own' _ => Ruled own') own := by
  rw [StateProg.says_bind]
  apply StateProg.says_mono says_startKernelTracker
  rintro started _ _ ⟨rfl, _, _⟩
  apply Ruled.deferring
  · exact ⟨aside.traced, aside.deferred, aside.recheck⟩
  · rfl
  · exact untraced

theorem preserves_enterLateMode : StateProg.Preserves good Ruled enterLateMode := by
  apply StateProg.Preserves.bind_get_here
  intro own ruled
  have enters : ∀ own : Daemon, InitAside own → (1 : Pid) ∉ own.tracees → StateProg.Says (do
      let _ ← startKernelTracker
      changeMode .late) (fun _ own' transcript =>
        (∀ exchange ∈ transcript, good exchange) → Ruled own') own := by
    intro own aside untraced
    apply StateProg.says_mono (says_defer own aside untraced)
    intro _ _ _ held _
    exact held
  split
  case isFalse notPtrace => exact enters own ruled.aside (ruled.untraced notPtrace)
  case isTrue =>
    rw [StateProg.says_bind]
    apply StateProg.says_mono says_handOverInit
    intro handedOver own' _ same
    rw [same]
    cases handedOver with
    | false => exact fun _ => ruled
    | true =>
        apply StateProg.says_mono (enters _ ruled.aside.erase (untraced_erase own))
        intro _ _ _ kept allGood
        exact kept fun exchange present => allGood exchange (List.mem_append_right _ present)

theorem preserves_applyRequestedMode [Config.Build] :
    StateProg.Preserves good Ruled applyRequestedMode := by
  apply StateProg.Preserves.bind_any
  intro config
  apply StateProg.Preserves.bind_get_here
  intro own ruled
  have changes : StateProg.Preserves good Ruled (do
      modify fun daemon => { daemon with requestedMode := config.mode }
      if config.mode = Config.MODE_LATE then
        enterLateMode
      else if config.mode = Config.MODE_KERNEL ∨ config.mode = Config.MODE_AUTO then
        enterKernelMode config.mode
      else
        leaveKernelMode config.mode) := by
    apply StateProg.Preserves.bind
    · apply StateProg.Preserves.modify
      intro daemon held
      exact held.frame rfl rfl rfl rfl rfl
    intro _
    split
    · exact preserves_enterLateMode
    split
    · exact preserves_enterKernelMode _
    · exact preserves_leaveKernelMode _
  split
  · exact fun _ => ruled
  · exact changes own ruled

end Changes

section Selection

variable {own : Daemon}

/-- Init is traced from here on, or everything is as it was. -/
theorem says_traceInit {good : Daemon → Prop} (stopped : own.kernel = false)
    (aside : InitAside own) (traced : ∀ own', Ruled own' → good own')
    (otherwise : StateProg.Says (setMode .proc) (fun _ own' _ => good own') own) :
    StateProg.Says (do
      let seized ← seizeInit
      setMode (if seized then .ptrace else .proc)) (fun _ own' _ => good own') own := by
  rw [StateProg.says_bind]
  apply StateProg.says_mono says_seizeInit
  intro seized own' _ same
  rw [same]
  cases seized with
  | false => exact otherwise
  | true =>
      apply traced
      apply Ruled.tracing
      · exact ⟨aside.insert.traced, aside.deferred, aside.recheck⟩
      · rfl
      · exact stopped
      · simp

theorem says_trackOrPoll (aside : InitAside own) (untraced : (1 : Pid) ∉ own.tracees) :
    StateProg.Says (do
      let started ← startKernelTracker
      setMode (if started then .kernel else .proc)) (fun _ own' _ => Ruled own') own := by
  rw [StateProg.says_bind]
  apply StateProg.says_mono says_startKernelTracker
  rintro started _ _ ⟨rfl, _, _⟩
  cases started with
  | true =>
      apply Ruled.driven
      · exact ⟨aside.traced, aside.deferred, aside.recheck⟩
      · rfl
      · rfl
      · exact untraced
  | false =>
      apply Ruled.polling
      · exact ⟨aside.traced, aside.deferred, aside.recheck⟩
      · rfl
      · rfl
      · exact untraced

/-- The automatic choice. -/
theorem says_selectAuto (aside : InitAside own) (untraced : (1 : Pid) ∉ own.tracees) :
    StateProg.Says (do
      if !(← monitorPresent) then
        if ← seizeInit then
          stopKernelTracker
          return ← setMode .ptrace
      if ← monitorPresent then
        let _ ← startKernelTracker
        return ← setMode .late
      let started ← startKernelTracker
      setMode (if started then .kernel else .proc) : DaemonM Unit)
      (fun _ own' _ => Ruled own') own := by
  have later : StateProg.Says (do
      if ← monitorPresent then
        let _ ← startKernelTracker
        return ← setMode .late
      let started ← startKernelTracker
      setMode (if started then .kernel else .proc) : DaemonM Unit)
      (fun _ own' _ => Ruled own') own := by
    rw [StateProg.says_bind, StateProg.says_lift]
    apply Prog.says_iff_talks.mpr
    intro present _ _
    cases present with
    | false => exact says_trackOrPoll aside untraced
    | true =>
        rw [if_pos rfl, StateProg.says_bind]
        apply StateProg.says_mono says_startKernelTracker
        rintro started _ _ ⟨rfl, _, _⟩
        apply Ruled.deferring
        · exact ⟨aside.traced, aside.deferred, aside.recheck⟩
        · rfl
        · exact untraced
  rw [StateProg.says_bind, StateProg.says_lift]
  apply Prog.says_iff_talks.mpr
  intro present _ _
  cases present with
  | true => exact later
  | false =>
      dsimp only
      rw [if_pos (by rfl), StateProg.says_bind]
      apply StateProg.says_mono says_seizeInit
      intro seized own' _ same
      rw [same]
      cases seized with
      | false => exact later
      | true =>
          apply Ruled.tracing
          · exact ⟨aside.insert.traced, aside.deferred, aside.recheck⟩
          · rfl
          · rfl
          · simp

/-- The constructor's choice of a mode is consistent unless it finds a tracker running that the
mode has no use for. -/
theorem says_selectMode [Config.Build] (aside : InitAside own)
    (untraced : (1 : Pid) ∉ own.tracees) :
    StateProg.Says selectMode (fun _ own' transcript => ∃ contents rest,
      transcript = configured contents :: rest ∧
        ((own.kernel = true → Config.modeOf contents ≠ Config.MODE_PROC ∧
          Config.modeOf contents ≠ Config.MODE_PTRACE) → Ruled own')) own := by
  unfold selectMode
  rw [StateProg.says_bind, StateProg.says_lift]
  apply says_effective.mono
  rintro config _ ⟨contents, rfl, mode⟩
  rw [StateProg.says_bind, StateProg.says_modify, mode]
  let requested : Daemon := { own with requestedMode := Config.modeOf contents }
  have aside' : InitAside requested := ⟨aside.traced, aside.deferred, aside.recheck⟩
  by_cases wanted : own.kernel = true → Config.modeOf contents ≠ Config.MODE_PROC ∧
      Config.modeOf contents ≠ Config.MODE_PTRACE
  swap
  · apply Prog.says_iff_talks.mpr
    intro _ rest _
    exact ⟨contents, rest, rfl, fun isWanted => absurd isWanted wanted⟩
  have enough : ∀ {program : DaemonM Unit},
      StateProg.Says program (fun _ own' _ => Ruled own') requested →
      StateProg.Says program (fun _ own' transcript => ∃ contents' rest,
        [configured contents] ++ ([] ++ transcript) = configured contents' :: rest ∧
          ((own.kernel = true → Config.modeOf contents' ≠ Config.MODE_PROC ∧
            Config.modeOf contents' ≠ Config.MODE_PTRACE) → Ruled own')) requested := by
    intro program ruled
    apply StateProg.says_mono ruled
    intro _ own' rest held
    exact ⟨contents, rest, rfl, fun _ => held⟩
  apply enough
  have stopped : Config.modeOf contents = Config.MODE_PROC ∨
      Config.modeOf contents = Config.MODE_PTRACE → own.kernel = false := by
    intro asked
    by_contra running
    have refuses := wanted (by simpa using running)
    rcases asked with asked | asked
    · exact refuses.1 asked
    · exact refuses.2 asked
  have polls : Config.modeOf contents = Config.MODE_PROC ∨
      Config.modeOf contents = Config.MODE_PTRACE →
      StateProg.Says (setMode .proc) (fun _ own' _ => Ruled own') requested := by
    intro asked
    apply Ruled.polling
    · exact ⟨aside.traced, aside.deferred, aside.recheck⟩
    · rfl
    · exact stopped asked
    · exact untraced
  split
  case isTrue asked => exact polls (.inl asked)
  split
  case isTrue asked =>
    exact says_traceInit (stopped (.inr asked)) aside' (fun _ held => held) (polls (.inr asked))
  split
  case isTrue =>
    rw [StateProg.says_bind]
    apply StateProg.says_mono says_startKernelTracker
    rintro started _ _ ⟨rfl, _, _⟩
    apply Ruled.deferring
    · exact ⟨aside.traced, aside.deferred, aside.recheck⟩
    · rfl
    · exact untraced
  split
  case isTrue => exact says_trackOrPoll aside' untraced
  case isFalse => exact says_selectAuto aside' untraced

end Selection

end Daemon

end Znn.Injector
