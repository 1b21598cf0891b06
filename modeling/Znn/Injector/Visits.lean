import Znn.Injector.Observed

/-!
# One visit to one process

A pass of the daemon is a sequence of visits: `poll_processes` looks at every process it lists,
`recheck_pending` and `retry_deferred` at every process they have queued, a kernel event is about
one process. For each kind of visit, the cases of what it makes of the sheet of that process, with
the answers that lead there.
-/

namespace Znn.Injector

open Interaction PtraceOps Trace Mode

/-- The exchange that reads the link of a process. -/
abbrev linkOf (pid : Pid) (link : ExeLink) : Exchange Sys :=
  ⟨.exeLink pid, link⟩

/-- The exchange that asks for another tracer of a process. -/
abbrev tracerOf (pid : Pid) (tracer : Option Pid) : Exchange Sys :=
  ⟨.foreignTracer pid, tracer⟩

/-- The mark of a call of `observe_target`. -/
abbrev observation (pid : Pid) (exe : String) : Exchange Sys :=
  ⟨.note (.observeTarget pid exe), ()⟩

/-- The link of the process is the same whenever it is read. -/
def ShowsLink (pid : Pid) (link : ExeLink) (transcript : Transcript) : Prop :=
  ∀ other, linkOf pid other ∈ transcript → other = link

/-- What a look at a process in `/proc` makes of its sheet. -/
inductive Polled (pid : Pid) (settings : Settings) (sheet : Sheet) : Sheet → Transcript → Prop where
  | known (isKnown : sheet.Known) : Polled pid settings sheet sheet []
  | unread (unknown : ¬sheet.Known) (link : ExeLink) (unreadable : link.exe = "") :
      Polled pid settings sheet sheet [linkOf pid link]
  /-- A program that no module names, seen for the first time. -/
  | passedOver (unknown : ¬sheet.Known) (link : ExeLink) (readable : link.exe ≠ "")
      (noTarget : Targets.matches settings.targets link.exe = false)
      (noFork : Procfs.isPreExecFork link.exe = false) (new : sheet.candidate = none) :
      Polled pid settings sheet { sheet with ignored := true } [linkOf pid link]
  /-- A fork of init that has not executed its program yet. -/
  | fork (unknown : ¬sheet.Known) (link : ExeLink) (readable : link.exe ≠ "")
      (noTarget : Targets.matches settings.targets link.exe = false)
      (isFork : Procfs.isPreExecFork link.exe = true) (new : sheet.candidate = none) :
      Polled pid settings sheet { sheet with candidate := some ⟨link.exe, 0⟩ } [linkOf pid link]
  /-- A candidate that still runs the program it was found with. -/
  | same (unknown : ¬sheet.Known) (link : ExeLink) (readable : link.exe ≠ "")
      (noTarget : Targets.matches settings.targets link.exe = false)
      (candidate : Candidate) (old : sheet.candidate = some candidate)
      (unchanged : link.exe = candidate.exe) : Polled pid settings sheet sheet [linkOf pid link]
  /-- A candidate that runs another program now. -/
  | changed (unknown : ¬sheet.Known) (link : ExeLink) (readable : link.exe ≠ "")
      (noTarget : Targets.matches settings.targets link.exe = false)
      (candidate : Candidate) (old : sheet.candidate = some candidate)
      (differs : link.exe ≠ candidate.exe) :
      Polled pid settings sheet { sheet with candidate := none, ignored := true }
        [linkOf pid link]
  | observed (unknown : ¬sheet.Known) (link : ExeLink) (readable : link.exe ≠ "")
      (isTarget : Targets.matches settings.targets link.exe = true) (candidate : Candidate)
      (rest : Transcript) (sheet' : Sheet) (marked : observation pid link.exe ∈ rest)
      (observed : Observed pid settings.mode { sheet with candidate := some candidate } rest
        sheet') :
      Polled pid settings sheet sheet' (linkOf pid link :: rest)
  | abandoned (unknown : ¬sheet.Known) (link : ExeLink) (readable : link.exe ≠ "")
      (isTarget : Targets.matches settings.targets link.exe = true) (candidate : Candidate)
      (old : sheet.candidate = some candidate) (notLate : settings.mode ≠ .late)
      (rest : Transcript) :
      Polled pid settings sheet { sheet with done := true, candidate := none }
        (linkOf pid link :: rest)

/-- What a second look at a process whose exec was in flight makes of its sheet. -/
inductive Rechecked (pid : Pid) (settings : Settings) (sheet : Sheet) :
    Sheet → Transcript → Prop where
  | dropped (transcript : Transcript) :
      Rechecked pid settings sheet { sheet with recheck := none } transcript
  | kept (alive link : ExeLink) (unknown : ¬sheet.Known)
      (noTarget : link.exe = "" ∨ Targets.matches settings.targets link.exe = false) :
      Rechecked pid settings sheet sheet [linkOf pid alive, linkOf pid link]
  | observed (alive link : ExeLink) (unknown : ¬sheet.Known) (readable : link.exe ≠ "")
      (isTarget : Targets.matches settings.targets link.exe = true) (rest : Transcript)
      (sheet' : Sheet) (marked : observation pid link.exe ∈ rest)
      (observed : Observed pid settings.mode { sheet with recheck := none } rest sheet') :
      Rechecked pid settings sheet sheet' (linkOf pid alive :: linkOf pid link :: rest)

/-- What a retry makes of the sheet of a deferred process. -/
inductive Retried (now : Nat) (pid : Pid) (settings : Settings) (sheet : Sheet) :
    Sheet → Transcript → Prop where
  | held (tracer : Pid) (early : now < sheet.deferred.getD 0) :
      Retried now pid settings sheet sheet [tracerOf pid (some tracer)]
  | writtenOff (tracer : Pid) (due : sheet.deferred.getD 0 ≤ now) (exe reason : String)
      (rest : Transcript) (recorded : ⟨.note (.recordFailure pid exe reason), ()⟩ ∈ rest) :
      Retried now pid settings sheet { sheet with deferred := none, done := true }
        (tracerOf pid (some tracer) :: rest)
  /-- The tracer is gone, and so is the process, or it is known or no target. -/
  | dropped (rest : Transcript)
      (reason : linkOf pid .gone ∈ rest ∨ sheet.Known ∨ ∃ link : ExeLink,
        rest.getLast? = some (linkOf pid link) ∧
          (link.exe = "" ∨ Targets.matches settings.targets link.exe = false)) :
      Retried now pid settings sheet { sheet with deferred := none }
        (tracerOf pid none :: rest)
  | observed (alive link : ExeLink) (unknown : ¬sheet.Known) (readable : link.exe ≠ "")
      (isTarget : Targets.matches settings.targets link.exe = true) (rest : Transcript)
      (sheet' : Sheet)
      (observed : Observed pid settings.mode { sheet with deferred := none } rest sheet') :
      Retried now pid settings sheet sheet'
        (tracerOf pid none :: linkOf pid alive :: linkOf pid link :: rest)

/-- Whether the executable or the reported path of an exec event names a target. -/
def KernelEvent.namesTarget (event : KernelEvent) (targets : List Target) (exe : String) : Bool :=
  Targets.matches targets exe ||
    (Daemon.execPath event.filename).any fun name => Targets.matches targets name

/-- An event about an exec to come reports a path that names no target. -/
def KernelEvent.Misnamed (event : KernelEvent) (targets : List Target) : Prop :=
  event.preExec = true ∧ ∃ path, Daemon.execPath event.filename = some path ∧
    Targets.matches targets path = false

/-- The answers on which a kernel event puts its process among the ignored: the path of an exec to
come names no target, the process is gone, or neither its executable nor the reported path names a
target. -/
inductive KernelEvent.Dismisses (event : KernelEvent) (targets : List Target) :
    Transcript → Prop where
  | path (early : event.preExec = true) (path : String)
      (reported : Daemon.execPath event.filename = some path)
      (noTarget : Targets.matches targets path = false) :
      Dismisses event targets [tracerOf event.pid none]
  | gone (late : event.preExec = false) (link : ExeLink) (unreadable : link.exe = "") :
      Dismisses event targets [linkOf event.pid link, linkOf event.pid .gone]
  | noTarget (late : event.preExec = false) (link : ExeLink) (readable : link.exe ≠ "")
      (noTarget : event.namesTarget targets link.exe = false) :
      Dismisses event targets [linkOf event.pid link]

/-- What a kernel event makes of the sheet of its process. -/
inductive Considered (event : KernelEvent) (settings : Settings) (sheet : Sheet) :
    Sheet → Transcript → Prop where
  | skipped (reason : event.pid ≤ 1 ∨ event.kind = .fork ∨ event.kind = .exec ∧ sheet.Known) :
      Considered event settings sheet sheet []
  | exited (isExit : event.kind = .exit) :
      Considered event settings sheet
        { tracee := sheet.tracee, done := false, ignored := false, candidate := none,
          deferred := none, recheck := none } []
  | held (isExec : event.kind = .exec) (unknown : ¬sheet.Known) (early : event.preExec = true)
      (tracer : Pid) :
      Considered event settings sheet sheet [tracerOf event.pid (some tracer)]
  /-- The path of an exec that is about to happen does not name a target. -/
  | passedOver (isExec : event.kind = .exec) (unknown : ¬sheet.Known)
      (early : event.preExec = true) (path : String)
      (reported : Daemon.execPath event.filename = some path)
      (noTarget : Targets.matches settings.targets path = false) :
      Considered event settings sheet { sheet with ignored := true } [tracerOf event.pid none]
  | queued (isExec : event.kind = .exec) (unknown : ¬sheet.Known) (early : event.preExec = true)
      (named : ∀ path, Daemon.execPath event.filename = some path →
        Targets.matches settings.targets path = true)
      (recheck : Option Nat) (rest : Transcript) (queues : recheck ≠ none) :
      Considered event settings sheet { sheet with recheck := recheck }
        (tracerOf event.pid none :: rest)
  | unread (isExec : event.kind = .exec) (unknown : ¬sheet.Known) (late : event.preExec = false)
      (link again : ExeLink) (unreadable : link.exe = "") (there : again ≠ .gone) :
      Considered event settings sheet sheet [linkOf event.pid link, linkOf event.pid again]
  | gone (isExec : event.kind = .exec) (unknown : ¬sheet.Known) (late : event.preExec = false)
      (link : ExeLink) (unreadable : link.exe = "") :
      Considered event settings sheet { sheet with ignored := true }
        [linkOf event.pid link, linkOf event.pid .gone]
  /-- Neither the executable nor the path of an exec that has happened names a target. -/
  | noTarget (isExec : event.kind = .exec) (unknown : ¬sheet.Known)
      (late : event.preExec = false) (link : ExeLink) (readable : link.exe ≠ "")
      (noTarget : event.namesTarget settings.targets link.exe = false) :
      Considered event settings sheet { sheet with ignored := true } [linkOf event.pid link]
  | observed (isExec : event.kind = .exec) (unknown : ¬sheet.Known)
      (late : event.preExec = false) (link : ExeLink) (readable : link.exe ≠ "")
      (isTarget : event.namesTarget settings.targets link.exe = true) (rest : Transcript)
      (sheet' : Sheet) (marked : observation event.pid link.exe ∈ rest)
      (observed : Observed event.pid settings.mode sheet rest sheet') :
      Considered event settings sheet sheet' (linkOf event.pid link :: rest)

/-- What a pass over `/proc` makes of a sheet at its end. -/
def Sheet.swept (sheet : Sheet) (listed forgets : Bool) : Sheet :=
  { sheet with
    done := sheet.done && listed
    ignored := sheet.ignored && listed && !forgets
    candidate := if listed then sheet.candidate else none }

theorem Daemon.sheet_finishPoll (seen : List Pid) (active : Bool) (own : Daemon) (pid : Pid) :
    (finishPoll seen active own).sheet pid =
      (own.sheet pid).swept (decide (pid ∈ seen)) (decide (own.ignoredRescans + 1 ≥ RESCANS)) := by
  simp only [sheet, finishPoll, Sheet.swept, Table.lookup_retain, Sheet.mk.injEq, true_and,
    and_true]
  refine ⟨?_, ?_, ?_⟩
  · simp
  · split <;> simp_all
  · simp

/-- A process that is known is passed over. -/
theorem Polled.of_known {pid : Pid} {settings : Settings} {sheet sheet' : Sheet}
    {transcript : Transcript} (polled : Polled pid settings sheet sheet' transcript)
    (known : sheet.Known) :
    sheet' = sheet ∧ transcript = [] := by
  cases polled with
  | known => exact ⟨rfl, rfl⟩
  | unread unknown | passedOver unknown | fork unknown | same unknown | changed unknown
    | observed unknown | abandoned unknown => exact absurd known unknown

section Visits

variable {settings : Settings} {sheet : Sheet}

open Daemon

theorem acts_abandon {pid : Pid} (exe : String) :
    Acts pid (abandon pid exe) settings sheet fun _ sheet' _ =>
      sheet' = { sheet with done := true, candidate := none } := by
  apply Acts.bind_any
  intro tracer _
  have records : ∀ holder : String, Acts pid (do
      recordFailure pid exe (heldReason holder)
      modify fun daemon =>
        { daemon with
          done := daemon.done.insert pid
          candidates := daemon.candidates.erase pid }) settings sheet fun _ sheet' _ =>
      sheet' = { sheet with done := true, candidate := none } := by
    intro holder
    apply Acts.bind (acts_recordFailure pid exe _)
    rintro _ _ _ ⟨rfl, _⟩
    exact Acts.change sets_settled rfl
  cases tracer with
  | none => exact records ""
  | some tracer =>
      apply Acts.bind_any
      intro holder _
      exact records holder

theorem acts_dropRecheck {pid : Pid} :
    Acts pid (dropRecheck pid) settings sheet fun _ sheet' _ =>
      sheet' = { sheet with recheck := none } :=
  Acts.change sets_eraseRecheck rfl

theorem acts_giveUpDeferred {now : Nat} {pid tracer : Pid} (due : sheet.deferred.getD 0 ≤ now) :
    Acts pid (giveUpDeferred pid tracer) settings sheet fun _ sheet' rest =>
      Retried now pid settings sheet sheet' (tracerOf pid (some tracer) :: rest) := by
  apply Acts.bind_any
  intro exe first
  apply Acts.bind_any
  intro holder second
  apply Acts.bind (acts_recordFailure pid exe _)
  rintro _ _ third ⟨rfl, recorded⟩
  apply Acts.change sets_writtenOff
  apply Retried.writtenOff tracer due exe
  apply List.mem_append_right first
  apply List.mem_append_right second
  exact List.mem_append_left _ recorded

theorem acts_deferRecheck {event : KernelEvent} (isExec : event.kind = .exec)
    (unknown : ¬sheet.Known) (early : event.preExec = true) :
    Acts event.pid (deferRecheck event.pid event.filename) settings sheet fun _ sheet' rest =>
      Considered event settings sheet sheet' (tracerOf event.pid none :: rest) := by
  apply Acts.bind_get
  intro own isSettings isSheet
  have targets : own.targets = settings.targets := congrArg Settings.targets isSettings
  have rechecks : own.recheck.lookup event.pid = sheet.recheck := congrArg Sheet.recheck isSheet
  rw [targets]
  split
  case isTrue noTarget =>
    rw [Option.any_eq_true] at noTarget
    rcases noTarget with ⟨path, reported, noMatch⟩
    apply Acts.change sets_ignored
    exact .passedOver isExec unknown early path reported (by simpa using noMatch)
  case isFalse isNamed =>
    have named : ∀ path, execPath event.filename = some path →
        Targets.matches settings.targets path = true := by
      intro path reported
      rw [reported] at isNamed
      simpa using isNamed
    split
    case isTrue present =>
      apply Acts.pure
      apply Considered.queued isExec unknown early named sheet.recheck []
      rw [← rechecks, Option.ne_none_iff_isSome]
      exact AList.lookup_isSome.mpr present
    case isFalse =>
      apply Acts.bind_any
      intro now first
      apply Acts.change (sets_recheck _)
      exact .queued isExec unknown early named _ _ (by simp)

variable [Usize] [Config.Build]

theorem acts_pollNew {pid : Pid} (unknown : ¬sheet.Known) (link : ExeLink)
    (readable : link.exe ≠ "") (new : sheet.candidate = none) :
    Acts pid (pollNew pid link.exe (Targets.matches settings.targets link.exe)) settings sheet
      fun _ sheet' rest => Polled pid settings sheet sheet' (linkOf pid link :: rest) := by
  unfold pollNew
  split
  case isTrue isTarget =>
    apply Acts.bind_any
    intro now first
    apply Acts.bind_change (sets_candidate _)
    apply (acts_observeTarget link.exe).mono
    rintro _ sheet' rest ⟨observed, marked⟩
    apply Polled.observed unknown link readable isTarget _ _ _ (List.mem_append_right _ marked)
    exact observed.mono (List.subset_append_right _ _)
  case isFalse noTarget =>
    rw [Bool.not_eq_true] at noTarget
    split
    case isTrue isFork =>
      apply Acts.change (sets_candidate _)
      exact .fork unknown link readable noTarget isFork new
    case isFalse noFork =>
      apply Acts.change sets_ignored
      exact .passedOver unknown link readable noTarget (by simpa using noFork) new

theorem acts_pollSame {pid : Pid} (unknown : ¬sheet.Known) (link : ExeLink)
    (readable : link.exe ≠ "") (candidate : Candidate) (old : sheet.candidate = some candidate)
    (unchanged : link.exe = candidate.exe) :
    Acts pid (pollSame pid link.exe (Targets.matches settings.targets link.exe) candidate) settings
      sheet fun _ sheet' rest => Polled pid settings sheet sheet' (linkOf pid link :: rest) := by
  have observes : Targets.matches settings.targets link.exe = true → ∀ first : Transcript,
      Acts pid (observeTarget pid link.exe) settings sheet fun _ sheet' rest =>
        Polled pid settings sheet sheet' (linkOf pid link :: (first ++ rest)) := by
    intro isTarget first
    apply (acts_observeTarget link.exe).mono
    rintro _ sheet' rest ⟨observed, marked⟩
    apply Polled.observed unknown link readable isTarget candidate _ _
      (List.mem_append_right _ marked)
    rw [← old]
    exact observed.mono (List.subset_append_right _ _)
  unfold pollSame
  split
  case isFalse noTarget =>
    apply Acts.pure
    exact .same unknown link readable (by simpa using noTarget) candidate old unchanged
  case isTrue isTarget =>
    apply Acts.bind_get
    intro own isSettings _
    have modes : own.mode = settings.mode := congrArg Settings.mode isSettings
    split
    case isFalse late => exact observes isTarget []
    case isTrue notLate =>
      apply Acts.bind_any
      intro now first
      split
      · apply (acts_abandon link.exe).mono
        rintro _ _ rest rfl
        rw [modes] at notLate
        exact .abandoned unknown link readable isTarget candidate old notLate _
      · exact observes isTarget first

theorem acts_pollChanged {pid : Pid} (unknown : ¬sheet.Known) (link : ExeLink)
    (readable : link.exe ≠ "") (candidate : Candidate) (old : sheet.candidate = some candidate)
    (differs : link.exe ≠ candidate.exe) :
    Acts pid (pollChanged pid link.exe (Targets.matches settings.targets link.exe)) settings sheet
      fun _ sheet' rest => Polled pid settings sheet sheet' (linkOf pid link :: rest) := by
  cases isTarget : Targets.matches settings.targets link.exe with
  | true =>
      apply Acts.bind_any
      intro since first
      apply Acts.bind_change (sets_candidate _)
      apply (acts_observeTarget link.exe).mono
      rintro _ sheet' rest ⟨observed, marked⟩
      apply Polled.observed unknown link readable isTarget _ _ _ (List.mem_append_right _ marked)
      exact observed.mono (List.subset_append_right _ _)
  | false =>
      have zero : Acts pid (pure 0 : DaemonM Nat) settings sheet fun _ sheet' transcript =>
          sheet' = sheet ∧ transcript = [] := Acts.pure ⟨rfl, rfl⟩
      apply Acts.bind zero
      rintro _ _ _ ⟨rfl, rfl⟩
      apply Acts.bind_change (sets_candidate _)
      apply Acts.bind_change sets_eraseCandidate
      apply Acts.change sets_ignored
      exact .changed unknown link readable isTarget candidate old differs

theorem acts_pollOne (pid : Pid) :
    Acts pid (pollOne pid) settings sheet fun _ => Polled pid settings sheet := by
  apply Acts.bind_get
  intro own isSettings isSheet
  have targets : own.targets = settings.targets := congrArg Settings.targets isSettings
  have candidates : own.candidates.lookup pid = sheet.candidate :=
    congrArg Sheet.candidate isSheet
  have knows := known_iff own pid
  rw [isSheet] at knows
  dsimp only
  rw [targets, candidates]
  split
  case isTrue known => exact Acts.pure (.known (knows.mp known))
  case isFalse unknown =>
    rw [knows] at unknown
    apply Acts.bind_says (says_readExePath pid)
    rintro _ _ ⟨link, rfl, rfl⟩
    split
    case isTrue unreadable => exact Acts.pure (.unread unknown link unreadable)
    case isFalse readable =>
      have returned : ∀ {program : DaemonM Unit} {value : Bool},
          Acts pid program settings sheet (fun _ sheet' rest =>
            Polled pid settings sheet sheet' (linkOf pid link :: rest)) →
          Acts pid (do program; return value) settings sheet fun _ sheet' rest =>
            Polled pid settings sheet sheet' (linkOf pid link :: rest) := by
        intro program value acts
        apply Acts.bind acts
        intro _ sheet' rest polled
        apply Acts.pure
        rwa [List.append_nil]
      cases old : sheet.candidate with
      | none => exact returned (acts_pollNew unknown link readable old)
      | some candidate =>
          dsimp only
          split
          case isTrue unchanged =>
            exact returned (acts_pollSame unknown link readable candidate old unchanged)
          case isFalse differs =>
            exact returned (acts_pollChanged unknown link readable candidate old differs)

theorem acts_recheckOne (now : Nat) (pid : Pid) :
    Acts pid (recheckOne now pid) settings sheet fun _ => Rechecked pid settings sheet := by
  apply Acts.bind_get
  intro own isSettings isSheet
  have targets : own.targets = settings.targets := congrArg Settings.targets isSettings
  have drops : ∀ first : Transcript, Acts pid (dropRecheck pid) settings sheet
      fun _ sheet' rest => Rechecked pid settings sheet sheet' (first ++ rest) := by
    intro first
    apply acts_dropRecheck.mono
    rintro _ _ rest rfl
    exact .dropped _
  have knows := known_iff own pid
  rw [isSheet] at knows
  dsimp only
  split
  · exact drops []
  apply Acts.bind_says (says_isAlive pid)
  rintro alive _ ⟨there, rfl, _⟩
  split
  · exact drops _
  rw [targets]
  split
  · exact drops _
  case isFalse unknown =>
    rw [knows] at unknown
    apply Acts.bind_says (says_readExePath pid)
    rintro _ _ ⟨link, rfl, rfl⟩
    split
    case isTrue noTarget =>
      apply Acts.pure
      exact .kept there link unknown (by simpa using noTarget)
    case isFalse isTarget =>
      simp only [not_or, Bool.not_eq_true, Bool.not_eq_false'] at isTarget
      apply Acts.bind acts_dropRecheck
      rintro _ _ first rfl
      apply (acts_observeTarget link.exe).mono
      rintro _ sheet' rest ⟨observed, marked⟩
      apply Rechecked.observed there link unknown isTarget.1 isTarget.2
      · exact List.mem_append_right first marked
      · exact observed.mono (List.subset_append_right _ _)

theorem acts_retryFreed (now : Nat) (pid : Pid) (late : settings.mode = .late) :
    Acts pid (retryFreed pid) settings sheet fun _ sheet' rest =>
      Retried now pid settings sheet sheet' (tracerOf pid none :: rest) := by
  apply Acts.bind_change sets_eraseDeferred
  apply Acts.bind_says (says_isAlive pid)
  rintro alive _ ⟨there, rfl, lives⟩
  split
  case isTrue dead =>
    apply Acts.pure
    apply Retried.dropped
    left
    have gone : there = .gone := by
      by_contra isThere
      rw [lives.mpr isThere] at dead
      exact absurd dead (by decide)
    rw [gone]
    exact List.mem_cons_self
  case isFalse =>
    apply Acts.bind_get
    intro own isSettings isSheet
    have targets : own.targets = settings.targets := congrArg Settings.targets isSettings
    have knows := known_iff own pid
    rw [isSheet] at knows
    dsimp only
    rw [targets]
    split
    case isTrue known => exact Acts.pure (.dropped _ (.inr (.inl (knows.mp known))))
    case isFalse notKnown =>
      have unknown : ¬sheet.Known := fun isKnown => notKnown (knows.mpr isKnown)
      apply Acts.bind_says (says_readExePath pid)
      rintro _ _ ⟨link, rfl, rfl⟩
      split
      case isTrue noTarget =>
        apply Acts.pure
        exact .dropped _ (.inr (.inr ⟨link, rfl, by simpa using noTarget⟩))
      case isFalse isTarget =>
        simp only [not_or, Bool.not_eq_true, Bool.not_eq_false'] at isTarget
        apply (acts_observeLateTarget late link.exe).mono
        intro _ sheet' rest observed
        exact .observed there link unknown isTarget.1 isTarget.2 rest sheet' observed

theorem acts_retryOne (now : Nat) (pid : Pid) (late : settings.mode = .late) :
    Acts pid (retryOne now pid) settings sheet fun _ => Retried now pid settings sheet := by
  apply Acts.bind_get
  intro own _ isSheet
  have deferred : own.deferred.lookup pid = sheet.deferred := congrArg Sheet.deferred isSheet
  dsimp only
  rw [deferred]
  apply Acts.bind_perform (.foreignTracer pid)
  intro tracer
  cases tracer with
  | none => exact acts_retryFreed now pid late
  | some tracer =>
      dsimp only
      split
      case isTrue due => exact acts_giveUpDeferred due
      case isFalse early => exact Acts.pure (.held tracer (by omega))

theorem acts_considerExec {event : KernelEvent} (isExec : event.kind = .exec)
    (unknown : ¬sheet.Known) :
    Acts event.pid (considerExec event) settings sheet fun _ =>
      Considered event settings sheet := by
  unfold considerExec
  dsimp only
  split
  case isTrue early =>
    apply Acts.bind_perform (.foreignTracer event.pid)
    intro tracer
    cases tracer with
    | some tracer =>
        apply Acts.pure
        exact .held isExec unknown early tracer
    | none =>
        apply Acts.bind (acts_deferRecheck isExec unknown early)
        intro _ sheet' rest considered
        apply Acts.pure
        rwa [List.append_nil]
  case isFalse notEarly =>
    have late : event.preExec = false := by simpa using notEarly
    apply Acts.bind_says (says_readExePath event.pid)
    rintro _ _ ⟨link, rfl, rfl⟩
    split
    case isTrue unreadable =>
      apply Acts.bind_says (says_processGone event.pid)
      rintro gone _ ⟨again, rfl, isGone⟩
      split
      case isTrue dead =>
        rw [isGone] at dead
        apply Acts.change sets_ignored
        rw [dead]
        exact .gone isExec unknown late link unreadable
      case isFalse there =>
        rw [isGone] at there
        apply Acts.pure
        exact .unread isExec unknown late link again unreadable there
    case isFalse readable =>
      apply Acts.bind_get
      intro own isSettings _
      have targets : own.targets = settings.targets := congrArg Settings.targets isSettings
      dsimp only
      rw [targets]
      split
      case isTrue noTarget =>
        apply Acts.change sets_ignored
        apply Considered.noTarget isExec unknown late link readable
        rw [KernelEvent.namesTarget]
        simpa only [Bool.not_eq_eq_eq_not, Bool.not_true] using noTarget
      case isFalse isTarget =>
        apply (acts_observeTarget link.exe).mono
        rintro _ sheet' rest ⟨observed, marked⟩
        apply Considered.observed isExec unknown late link readable _ _ _ marked observed
        rw [KernelEvent.namesTarget]
        simpa only [Bool.not_eq_eq_eq_not, Bool.not_true, Bool.not_eq_false] using isTarget

theorem acts_considerKernelEvent (event : KernelEvent) :
    Acts event.pid (considerKernelEvent event) settings sheet fun _ =>
      Considered event settings sheet := by
  unfold considerKernelEvent
  dsimp only
  split
  case isTrue init => exact Acts.pure (.skipped (.inl init))
  split
  case h_1 isFork => exact Acts.pure (.skipped (.inr (.inl isFork)))
  case h_2 isExit =>
    apply Acts.change sets_forgetExited
    exact .exited isExit
  case h_3 isExec =>
    apply Acts.bind_get
    intro own _ isSheet
    have knows := known_iff own event.pid
    rw [isSheet] at knows
    split
    case isTrue known =>
      exact Acts.pure (.skipped (.inr (.inr ⟨isExec, knows.mp known⟩)))
    case isFalse unknown =>
      rw [knows] at unknown
      exact acts_considerExec isExec unknown

end Visits

end Znn.Injector
