import Znn.Injector.Modes

/-!
# The mode over the whole run

No pass of the main loop is about init, and a report of init that is not its end leaves it where
it is; the mode changes only where it is meant to. So what the constructor has set up is kept, as
long as the constructor has set it up.
-/

namespace Znn.Injector

open Interaction Trace Mode

/-- The rules of a mode, and that the mode is still the same. -/
structure RuledIn (mode : Tracking) (daemon : Daemon) : Prop where
  ruled : Ruled daemon
  mode : daemon.mode = mode

namespace RuledIn

variable {mode : Tracking} {own own' : Daemon}

/-- What leaves the settings and the sheet of init. -/
theorem frame (held : RuledIn mode own) (settings : own'.settings = own.settings)
    (sheet : own'.sheet 1 = own.sheet 1) : RuledIn mode own' := by
  have modes : own'.mode = own.mode := congrArg Settings.mode settings
  refine ⟨held.ruled.frame modes ?_ ?_ ?_ ?_, modes.trans held.mode⟩
  · exact congrArg Settings.kernel settings
  · exact congrArg Sheet.tracee sheet
  · exact congrArg Sheet.deferred sheet
  · exact congrArg Sheet.recheck sheet

theorem of_local {pid : Pid} (held : RuledIn mode own) (isLocal : Local pid own own')
    (ne : pid ≠ 1) : RuledIn mode own' :=
  held.frame isLocal.settings (isLocal.elsewhere 1 ne.symm)

end RuledIn

namespace Daemon

variable {good : Exchange Sys → Prop} {mode : Tracking}

/-- What is about another process than init keeps the rules. -/
theorem preserves_visit {α : Type} {pid : Pid} {program : DaemonM α}
    {post : Settings → Sheet → α → Sheet → Transcript → Prop} (ne : pid ≠ 1)
    (acts : ∀ settings sheet, settings.mode = mode →
      Acts pid program settings sheet (post settings sheet)) :
    StateProg.Preserves good (RuledIn mode) program := by
  apply StateProg.Preserves.of_says
  intro own held
  apply StateProg.says_mono (acts own.settings (own.sheet pid) held.mode own rfl rfl)
  rintro _ own' _ ⟨isLocal, _⟩
  exact held.of_local isLocal ne

/-- A change of the tables that leaves init aside. -/
theorem preserves_change {change : Daemon → Daemon}
    (fields : ∀ own : Daemon, (change own).mode = own.mode ∧ (change own).kernel = own.kernel ∧
      (change own).tracees = own.tracees)
    (tables : ∀ own : Daemon, InitAside own → (change own).deferred.lookup 1 = none ∧
      (change own).recheck.lookup 1 = none) :
    StateProg.Preserves good (RuledIn mode) (modify change) := by
  apply StateProg.Preserves.modify
  intro own held
  rcases fields own with ⟨modes, kernels, tracees⟩
  rcases tables own held.ruled.aside with ⟨deferred, recheck⟩
  refine ⟨held.ruled.frame modes kernels (by rw [tracees]) ?_ ?_, modes.trans held.mode⟩
  · rw [deferred, held.ruled.aside.deferred]
  · rw [recheck, held.ruled.aside.recheck]

section Upkeep

theorem preserves_collectTargets :
    StateProg.Preserves good (RuledIn mode) collectTargets := by
  apply StateProg.Preserves.bind_get
  intro own _
  apply StateProg.Preserves.bind_any
  intro modules
  apply preserves_change
  · exact fun own => ⟨rfl, rfl, rfl⟩
  · exact fun own aside => ⟨aside.deferred, aside.recheck⟩

theorem preserves_prunes {program : DaemonM Unit} (prunes : Prunes program) :
    StateProg.Preserves good (RuledIn mode) program := by
  have stays : ∀ {entry entry' : Option Nat} {gone : Prop}, entry = none →
      (entry' = entry ∨ entry' = none ∧ gone) → entry' = none := by
    rintro entry entry' gone rfl (same | ⟨none, _⟩)
    · exact same
    · exact none
  apply StateProg.Preserves.of_says
  intro own held
  apply StateProg.says_mono (prunes own)
  rintro _ own' _ ⟨settings, sheets⟩
  have modes : own'.mode = own.mode := congrArg Settings.mode settings
  have deferred : own'.deferred.lookup 1 = none := stays held.ruled.aside.deferred (sheets 1).deferred
  have recheck : own'.recheck.lookup 1 = none := stays held.ruled.aside.recheck (sheets 1).recheck
  refine ⟨held.ruled.frame modes ?_ (sheets 1).tracee ?_ ?_, modes.trans held.mode⟩
  · exact congrArg Settings.kernel settings
  · rw [deferred, held.ruled.aside.deferred]
  · rw [recheck, held.ruled.aside.recheck]

end Upkeep

section Passes

theorem ne_of_mem_keys {table : Table Nat} {pid : Pid} (absent : table.lookup 1 = none)
    (present : pid ∈ table.keys) : pid ≠ 1 := by
  rintro rfl
  exact AList.lookup_eq_none.mp absent (AList.mem_keys.mpr present)

variable [Usize]

/-- Init is never armed, so its breakpoint never expires. -/
theorem preserves_expirePending : StateProg.Preserves good (RuledIn mode) expirePending := by
  apply StateProg.Preserves.bind_any
  intro now
  apply StateProg.Preserves.bind_get
  intro own held
  apply StateProg.Preserves.forM
  intro pid selected
  have ne : pid ≠ 1 := by
    rintro rfl
    rcases mem_pidsWhere.mp selected with ⟨tracee, found, overdue⟩
    have traced := held.ruled.aside.traced tracee found
    simp [traced] at overdue
  exact preserves_visit ne fun _ _ _ => acts_expireOne

variable [Config.Build]

theorem preserves_considerKernelEvent (event : KernelEvent) :
    StateProg.Preserves good (RuledIn mode) (considerKernelEvent event) := by
  by_cases init : event.pid ≤ 1
  · unfold considerKernelEvent
    dsimp only
    rw [if_pos init]
    exact StateProg.Preserves.pure _
  · have ne : event.pid ≠ 1 := fun same => init (le_of_eq same)
    exact preserves_visit ne fun _ _ _ => acts_considerKernelEvent event

theorem preserves_pollKernel : StateProg.Preserves good (RuledIn mode) pollKernel := by
  have considers : ∀ events : List KernelEvent,
      StateProg.Preserves good (RuledIn mode) (events.forM considerKernelEvent) :=
    fun events => StateProg.Preserves.forM fun event _ => preserves_considerKernelEvent event
  apply StateProg.Preserves.bind_get
  intro own _
  split
  · exact StateProg.Preserves.bind_any considers
  · exact StateProg.Preserves.bind (StateProg.Preserves.pure []) considers

theorem preserves_pollEach (pids : List Pid) (others : ∀ pid ∈ pids, pid ≠ 1) :
    StateProg.Preserves good (RuledIn mode) (pollEach pids) := by
  induction pids with
  | nil => exact StateProg.Preserves.pure _
  | cons pid rest ih =>
      apply StateProg.Preserves.bind
      · exact preserves_visit (others pid List.mem_cons_self) fun _ _ _ => acts_pollOne pid
      intro first
      apply StateProg.Preserves.bind
      · exact ih fun other present => others other (List.mem_cons_of_mem _ present)
      intro active
      exact StateProg.Preserves.pure _

theorem preserves_pollProcesses : StateProg.Preserves good (RuledIn mode) pollProcesses := by
  apply StateProg.Preserves.bind_any
  intro lastPid
  apply StateProg.Preserves.bind_get
  intro own _
  split
  · apply preserves_change
    · exact fun own => ⟨rfl, rfl, rfl⟩
    · exact fun own aside => ⟨aside.deferred, aside.recheck⟩
  apply StateProg.Preserves.bind
  · apply preserves_change
    · exact fun own => ⟨rfl, rfl, rfl⟩
    · exact fun own aside => ⟨aside.deferred, aside.recheck⟩
  intro _
  apply StateProg.Preserves.bind_any
  intro listed
  cases listed with
  | none => exact StateProg.Preserves.pure _
  | some listed =>
      apply StateProg.Preserves.bind
      · apply preserves_pollEach
        intro pid present
        have above : pid > 1 := by simpa using (List.mem_filter.mp present).2
        exact ne_of_gt above
      intro active
      apply preserves_change
      · exact fun own => ⟨rfl, rfl, rfl⟩
      · exact fun own aside => ⟨aside.deferred, aside.recheck⟩

theorem preserves_retryDeferred :
    StateProg.Preserves good (RuledIn .late) retryDeferred := by
  apply StateProg.Preserves.bind_get
  intro own held
  dsimp only
  split
  · exact StateProg.Preserves.pure _
  apply StateProg.Preserves.bind_any
  intro now
  apply StateProg.Preserves.forM
  intro pid present
  apply preserves_visit (ne_of_mem_keys held.ruled.aside.deferred present)
  exact fun _ _ late => acts_retryOne now pid late

theorem preserves_recheckPending : StateProg.Preserves good (RuledIn mode) recheckPending := by
  apply StateProg.Preserves.bind_get
  intro own held
  dsimp only
  split
  · exact StateProg.Preserves.pure _
  apply StateProg.Preserves.bind_any
  intro now
  apply StateProg.Preserves.forM
  intro pid present
  apply preserves_visit (ne_of_mem_keys held.ruled.aside.recheck present)
  exact fun _ _ _ => acts_recheckOne now pid

/-- A report that is not the end of init leaves init where it is. -/
theorem preserves_handleEvent (pid : Pid) (status : Status)
    (stays : pid = 1 → ¬status.Gone ∧ ¬status.Execs ∧ ¬status.Exits) :
    StateProg.Preserves InitStays (RuledIn mode) (handleEvent pid status) := by
  intro own held
  apply StateProg.says_mono (says_handleEvent status)
  rintro _ own' transcript ⟨settings, handled⟩ isGood
  cases handled with
  | unchanged same => exact held.frame settings (same 1)
  | attached child heard isLocal sheet =>
      apply held.of_local isLocal
      exact_mod_cast isGood _ heard
  | left isLocal reason sheet =>
      apply held.of_local isLocal
      rintro rfl
      rcases stays rfl with ⟨notGone, notExec, notExit⟩
      rcases reason with gone | execs | exits | ⟨tracee, found, notTraced⟩
      · exact notGone gone
      · exact notExec execs
      · exact notExit exits
      · exact notTraced (held.ruled.aside.traced tracee found)
  | armed isLocal execs traced tracee noDeadline sheet =>
      apply held.of_local isLocal
      rintro rfl
      exact (stays rfl).2.1 execs
  | stepped isLocal tracee next found steps sheet =>
      by_cases init : pid = 1
      · rw [init] at found sheet
        have traced := held.ruled.aside.traced tracee found
        rcases steps with ⟨_, rfl⟩ | ⟨notTraced, _⟩
        · apply held.frame settings
          rw [sheet, ← found]
          rfl
        · exact absurd traced notTraced
      · exact held.of_local isLocal init

omit [Usize] [Config.Build] in
theorem says_waitpid (pid : Pid) : (Wait.waitpid pid).Says fun waited transcript =>
    ∃ result : WaitResult, transcript = [⟨.waitpid pid, result⟩] ∧
      ∀ child status, waited = .ok (some (child, status)) →
        ∃ raw, result = .status child raw ∧ WaitStatus.fromRaw raw = some status.status := by
  intro result
  dsimp only [Prog.bind]
  cases result with
  | stillAlive | interrupted | noChild | failed =>
      refine ⟨_, rfl, ?_⟩
      rintro child status ⟨⟩
  | status child raw =>
      dsimp only
      split
      case h_1 status decoded =>
        refine ⟨_, rfl, ?_⟩
        rintro _ _ ⟨⟩
        exact ⟨raw, rfl, decoded⟩
      case h_2 =>
        refine ⟨_, rfl, ?_⟩
        rintro _ _ ⟨⟩

theorem preserves_reap : StateProg.Preserves InitStays (RuledIn mode) reap := by
  apply StateProg.Preserves.bind_lift (says_waitpid (-1))
  rintro waited _ ⟨result, rfl, decoded⟩ isGood
  cases waited with
  | error reason => cases reason <;> exact StateProg.Preserves.pure _
  | ok report =>
      cases report with
      | none => exact StateProg.Preserves.pure _
      | some report =>
          rcases report with ⟨pid, status⟩
          rcases decoded pid status rfl with ⟨raw, rfl, isStatus⟩
          apply StateProg.Preserves.bind
          · apply preserves_handleEvent
            intro init
            exact isGood _ List.mem_cons_self init status.status isStatus
          · exact fun _ => StateProg.Preserves.pure _

theorem preserves_reapTraces (rounds : Nat) :
    StateProg.Preserves InitStays (RuledIn mode) (reapTraces rounds) := by
  induction rounds with
  | zero => exact StateProg.Preserves.pure _
  | succ rounds ih =>
      apply StateProg.Preserves.bind preserves_reap
      intro more
      cases more with
      | false => exact StateProg.Preserves.pure _
      | true => exact ih

end Passes

section Turns

/-- What keeps the rules of the mode that is set, whichever it is, keeps the rules. -/
theorem preserves_ruled {α : Type} {program : DaemonM α}
    (each : ∀ mode, StateProg.Preserves good (RuledIn mode) program) :
    StateProg.Preserves good Ruled program := by
  intro own ruled
  apply StateProg.says_mono (each own.mode own ⟨ruled, rfl⟩)
  intro _ _ _ kept isGood
  exact (kept isGood).ruled

theorem preserves_yieldInit : StateProg.Preserves good Ruled (do
    if ← handOverInit then
      let _ ← startKernelTracker
      changeMode .late) := by
  intro own ruled
  rw [StateProg.says_bind]
  apply StateProg.says_mono says_handOverInit
  intro handedOver own' _ same
  rw [same]
  cases handedOver with
  | false => exact fun _ => ruled
  | true =>
      apply StateProg.says_mono (says_defer _ ruled.aside.erase (untraced_erase own))
      intro _ _ _ held _
      exact held

/-- A change of what only the clock and the state file are about. -/
theorem preserves_aside {change : Daemon → Daemon}
    (fields : ∀ own : Daemon, (change own).settings = own.settings)
    (tables : ∀ own : Daemon, (change own).sheet 1 = own.sheet 1) :
    StateProg.Preserves good Ruled (modify change) := by
  apply preserves_ruled
  intro mode
  apply StateProg.Preserves.modify
  exact fun own held => held.frame (fields own) (tables own)

theorem preserves_watchForMonitor : StateProg.Preserves good Ruled watchForMonitor := by
  apply StateProg.Preserves.bind_any
  intro now
  apply StateProg.Preserves.bind_get
  intro own _
  split
  · apply StateProg.Preserves.bind
    · exact preserves_aside (fun _ => rfl) fun _ => rfl
    intro _
    apply StateProg.Preserves.bind_any
    intro present
    cases present with
    | false => exact StateProg.Preserves.pure _
    | true => exact preserves_yieldInit
  · exact StateProg.Preserves.pure _

variable [Usize] [Config.Build]

theorem preserves_serve : StateProg.Preserves good Ruled serve := by
  apply StateProg.Preserves.bind_get_here
  intro own ruled
  have passes : ∀ {program : DaemonM Unit},
      StateProg.Preserves good (RuledIn own.mode) program →
      StateProg.Says program (fun _ own' transcript =>
        (∀ exchange ∈ transcript, good exchange) → Ruled own') own := by
    intro program preserves
    apply StateProg.says_mono (preserves own ⟨ruled, rfl⟩)
    intro _ _ _ kept isGood
    exact (kept isGood).ruled
  cases mode : own.mode with
  | kernel => exact passes preserves_pollKernel
  | proc => exact passes preserves_pollProcesses
  | ptrace => exact preserves_watchForMonitor own ruled
  | late =>
      dsimp only
      rw [mode] at passes
      split
      · apply passes
        apply StateProg.Preserves.bind preserves_pollKernel
        exact fun _ => preserves_retryDeferred
      · apply passes
        apply StateProg.Preserves.bind preserves_pollProcesses
        exact fun _ => preserves_retryDeferred

omit [Usize] [Config.Build] in
theorem preserves_maintain (now : Nat) : StateProg.Preserves good Ruled (maintain now) := by
  have optional : ∀ {wanted : Prop} [Decidable wanted] {first : DaemonM Unit}
      {rest : Unit → DaemonM Unit}, Prunes first → StateProg.Preserves good Ruled (rest ()) →
      StateProg.Preserves good Ruled (if wanted then first >>= rest else rest ()) := by
    intro wanted _ first rest prunes preserves
    split
    · apply StateProg.Preserves.bind
      · exact preserves_ruled fun _ => preserves_prunes prunes
      · exact fun _ => preserves
    · exact preserves
  apply StateProg.Preserves.bind (preserves_ruled fun _ => preserves_collectTargets)
  intro _
  apply StateProg.Preserves.bind
  · exact preserves_aside (fun _ => rfl) fun _ => rfl
  intro _
  apply StateProg.Preserves.bind_get
  intro own _
  apply optional prunes_kernelBookkeeping
  apply optional prunes_deferred
  exact preserves_ruled fun _ => preserves_prunes prunes_recheck

omit [Usize] in
theorem preserves_rescan : StateProg.Preserves good Ruled rescan := by
  apply StateProg.Preserves.bind (preserves_ruled fun _ => preserves_collectTargets)
  intro _
  apply StateProg.Preserves.bind preserves_applyRequestedMode
  intro _
  apply StateProg.Preserves.bind_any
  intro now
  exact preserves_aside (fun _ => rfl) fun _ => rfl

/-- A turn of the main loop keeps the rules. -/
theorem preserves_tick (requested : Bool) :
    StateProg.Preserves InitStays Ruled (tick requested) := by
  have turn : StateProg.Preserves InitStays Ruled (do
      serve
      let rounds ← perform .waitRounds
      reapTraces rounds
      expirePending
      recheckPending
      let now ← perform .nowMs
      let due := (← get).lastRescanMs.all fun last =>
        decide (elapsedMs now last ≥ RESCAN_INTERVAL_MS)
      if due then
        maintain now
      modify fun daemon =>
        if daemon.dirty && (decide (elapsedMs now daemon.lastStateWriteMs ≥
            STATE_WRITE_INTERVAL_MS) || daemon.lastStateWriteMs == 0) then
          { daemon with dirty := false, lastStateWriteMs := now }
        else
          daemon : DaemonM Unit) := by
    apply StateProg.Preserves.bind preserves_serve
    intro _
    apply StateProg.Preserves.bind_any
    intro rounds
    apply StateProg.Preserves.bind (preserves_ruled fun _ => preserves_reapTraces rounds)
    intro _
    apply StateProg.Preserves.bind (preserves_ruled fun _ => preserves_expirePending)
    intro _
    apply StateProg.Preserves.bind (preserves_ruled fun _ => preserves_recheckPending)
    intro _
    apply StateProg.Preserves.bind_any
    intro now
    apply StateProg.Preserves.bind_get
    intro own _
    have written : StateProg.Preserves InitStays Ruled (modify fun daemon =>
        if daemon.dirty && (decide (elapsedMs now daemon.lastStateWriteMs ≥
            STATE_WRITE_INTERVAL_MS) || daemon.lastStateWriteMs == 0) then
          { daemon with dirty := false, lastStateWriteMs := now }
        else
          daemon) := by
      apply preserves_aside
      · intro own
        split <;> rfl
      · intro own
        split <;> rfl
    dsimp only
    split
    · exact StateProg.Preserves.bind (preserves_maintain now) fun _ => written
    · exact written
  unfold tick
  dsimp only
  split
  · exact StateProg.Preserves.bind preserves_rescan fun _ => turn
  · exact turn

end Turns

section Constructor

variable {own : Daemon}

/-- What the constructor does before it selects a mode touches the modules and the tracker. -/
def Prepared (own own' : Daemon) : Prop :=
  ∃ modules targets dirty kernel, own' =
    { own with modules := modules, targets := targets, dirty := dirty, kernel := kernel }

theorem says_collectTargets :
    StateProg.Says collectTargets (fun _ own' _ => Prepared own own' ∧ own'.kernel = own.kernel)
      own := by
  unfold collectTargets
  rw [StateProg.says_bind, StateProg.says_get, StateProg.says_bind, StateProg.says_lift]
  apply Prog.says_iff_talks.mpr
  intro modules _ _
  exact ⟨⟨modules, _, own.dirty, own.kernel, rfl⟩, rfl⟩

theorem says_restoreProcesses (snapshot : Option (List SnapshotModule)) :
    StateProg.Says (restoreProcesses snapshot)
      (fun _ own' _ => Prepared own own' ∧ own'.kernel = own.kernel) own := by
  unfold restoreProcesses
  cases snapshot with
  | none => exact ⟨⟨own.modules, own.targets, own.dirty, own.kernel, rfl⟩, rfl⟩
  | some recorded =>
      dsimp only
      rw [StateProg.says_bind, StateProg.says_get, StateProg.says_bind, StateProg.says_lift]
      apply Prog.says_iff_talks.mpr
      intro modules _ _
      exact ⟨⟨modules, own.targets, _, own.kernel, rfl⟩, rfl⟩

theorem says_startEarly (requested : String) :
    StateProg.Says (startEarly requested) (fun _ own' transcript => Prepared own own' ∧
      (own'.kernel = true → own.kernel = true ∨ ⟨.startKernelTracker, true⟩ ∈ transcript))
      own := by
  have idle : Prepared own own ∧ ∀ transcript : Transcript, own.kernel = true →
      own.kernel = true ∨ ⟨.startKernelTracker, true⟩ ∈ transcript :=
    ⟨⟨own.modules, own.targets, own.dirty, own.kernel, rfl⟩, fun _ running => .inl running⟩
  have starts : ∀ first : Transcript, StateProg.Says (do
      let _ ← startKernelTracker) (fun _ own' transcript => Prepared own own' ∧
        (own'.kernel = true → own.kernel = true ∨
          ⟨.startKernelTracker, true⟩ ∈ first ++ transcript)) own := by
    intro first
    rw [StateProg.says_bind]
    apply StateProg.says_mono says_startKernelTracker
    rintro started _ transcript ⟨rfl, _, heard⟩
    refine ⟨⟨own.modules, own.targets, own.dirty, started, rfl⟩, fun isStarted => ?_⟩
    rcases heard isStarted with running | told
    · exact .inl running
    · exact .inr (List.mem_append_right _ (List.mem_append_left _ told))
  unfold startEarly
  split
  · exact starts []
  split
  case isFalse => exact ⟨idle.1, idle.2 _⟩
  case isTrue =>
    rw [StateProg.says_bind, StateProg.says_lift]
    apply Prog.says_iff_talks.mpr
    intro present first _
    cases present with
    | false => exact ⟨idle.1, idle.2 _⟩
    | true => exact starts first

variable [Config.Build]

/-- The constructor leaves the daemon by the rules, unless it has to take the tracker back. -/
theorem says_start (requested : String) (snapshot : Option (List SnapshotModule))
    (aside : InitAside own) (untraced : (1 : Pid) ∉ own.tracees) (stopped : own.kernel = false) :
    StateProg.Says (start requested snapshot)
      (fun _ own' transcript => Unretracted transcript → Ruled own') own := by
  unfold start
  rw [StateProg.says_bind]
  apply StateProg.says_mono says_collectTargets
  rintro _ _ first ⟨⟨_, _, _, _, rfl⟩, kernel⟩
  rw [StateProg.says_bind]
  apply StateProg.says_mono (says_restoreProcesses snapshot)
  rintro _ _ second ⟨⟨_, _, _, _, rfl⟩, kernel'⟩
  rw [StateProg.says_bind]
  apply StateProg.says_mono (says_startEarly requested)
  rintro _ _ third ⟨⟨_, _, _, _, rfl⟩, heard⟩
  apply StateProg.says_mono
  · exact says_selectMode ⟨aside.traced, aside.deferred, aside.recheck⟩ untraced
  rintro _ own' _ ⟨contents, rest, rfl, ruled⟩ unretracted
  apply ruled
  intro running
  have told : ⟨.startKernelTracker, true⟩ ∈ third := by
    rcases heard running with already | told
    · rw [kernel', kernel, stopped] at already
      exact absurd already Bool.false_ne_true
    · exact told
  exact unretracted.of_append.of_append third contents rest rfl told

theorem says_new (moduleDir : String) (snapshot : Option (List SnapshotModule)) :
    (Daemon.new moduleDir snapshot).Says fun daemon transcript =>
      Unretracted transcript → Ruled daemon := by
  unfold Daemon.new
  rw [Prog.bind_eq, Prog.says_bind]
  apply says_effective.mono
  rintro config _ ⟨contents, rfl, _⟩
  dsimp only
  rw [Prog.bind_eq, Prog.says_bind]
  have aside : ∀ daemon : Daemon, daemon.tracees = ∅ → daemon.deferred = ∅ → daemon.recheck = ∅ →
      InitAside daemon := by
    intro daemon tracees deferred recheck
    constructor
    · intro tracee found
      rw [tracees, AList.lookup_empty] at found
      cases found
    · rw [deferred, AList.lookup_empty]
    · rw [recheck, AList.lookup_empty]
  apply Prog.Says.mono (says_start config.mode snapshot (aside _ rfl rfl rfl) _ rfl)
  · rintro ⟨_, daemon⟩ transcript ruled unretracted
    rw [List.append_nil] at unretracted
    exact ruled unretracted.of_append
  · exact AList.notMem_empty 1

end Constructor

end Daemon

/-- In every state of a run whose constructor does not have to take a tracker back, the mode, the
tracker and the tracing of init go together. -/
theorem mode_kept [Usize] [Config.Build] {daemon : Daemon}
    (reached : (looping Unretracted).Reachable daemon) : daemon.ModeKept := by
  have ruled : Ruled daemon := by
    induction reached with
    | initial start =>
        rcases start with ⟨moduleDir, snapshot, transcript, talks, unretracted⟩
        exact talks.of_says (Daemon.says_new moduleDir snapshot) unretracted
    | step _ next ih =>
        rcases next with ⟨talks, stays⟩
        exact talks.of_says (Daemon.preserves_tick _ _ ih) stays
  exact ruled.kept

/-- Whatever the constructor is answered, the rules of the mode are kept. -/
def ModeAlwaysKept [Usize] [Config.Build] : Prop :=
  ∀ daemon, (looping fun _ => True).Reachable daemon → daemon.ModeKept

/-- The configuration asks for kernel mode when the constructor reads it, and for a second mode
when the constructor selects one. -/
def constructing (mode : String) : Transcript :=
  [configured (.text "mode=kernel"), ⟨.listModules, none⟩, ⟨.startKernelTracker, true⟩,
    configured (.text mode)]

/-- A turn with a rescan that finds the request for proc mode, and no process. -/
def rescanning : Transcript :=
  [⟨.listModules, none⟩, configured (.text "mode=proc"), ⟨.nowMs, (1 : Nat)⟩,
    ⟨.lastAllocatedPid, none⟩, ⟨.listProcesses, none⟩, ⟨.waitRounds, (0 : Nat)⟩,
    ⟨.nowMs, (2 : Nat)⟩, ⟨.nowMs, (3 : Nat)⟩]

theorem mode_kept_after_rescan : ∃ daemon,
    (@looping .eight .arm64 Unretracted).Reachable daemon ∧ daemon.mode = .proc ∧
      daemon.ModeKept := by
  let _ : Usize := .eight
  let _ : Config.Build := .arm64
  let constructed := (Daemon.new "" none).replay (constructing "mode=kernel")
  have ran : (constructed.bind fun own =>
      (((Daemon.tick true).run own).replay rescanning).map fun result => result.2.mode) =
      some .proc := by
    decide +kernel
  rw [Option.bind_eq_some_iff] at ran
  rcases ran with ⟨own, isOwn, ran⟩
  rw [Option.map_eq_some_iff] at ran
  rcases ran with ⟨⟨_, daemon⟩, isDaemon, mode⟩
  have reached : (looping Unretracted).Reachable daemon := by
    have start : (looping Unretracted).Reachable own := by
      refine .initial ⟨"", none, _, Prog.Talks.of_replay isOwn, ?_⟩
      intro before contents after split _
      have read : configured contents ∈ constructing "mode=kernel" := by
        rw [split]
        exact List.mem_append_right _ List.mem_cons_self
      have isKernel : contents = .text "mode=kernel" := by
        simpa [constructing] using read
      rw [isKernel]
      decide +kernel
    have turn : (looping Unretracted).Step own (true, rescanning) daemon := by
      refine ⟨Prog.Talks.of_replay isDaemon, ?_⟩
      simp [rescanning, InitStays]
    exact start.step turn
  exact ⟨daemon, reached, mode, mode_kept reached⟩

theorem tracker_left_running : ¬@ModeAlwaysKept .eight .arm64 := by
  intro always
  have ran : ((@Daemon.new .arm64 "" none).replay (constructing "mode=proc")).map
      (fun own => (own.mode, own.kernel)) = some (.proc, true) := by
    decide +kernel
  rw [Option.map_eq_some_iff] at ran
  rcases ran with ⟨daemon, constructed, fields⟩
  rw [Prod.mk.injEq] at fields
  have kept := always daemon (.initial ⟨"", none, _, Prog.Talks.of_replay constructed, trivial⟩)
  have stopped := kept.2.1 (.inr fields.1)
  rw [fields.2] at stopped
  cases stopped

end Znn.Injector
