import Znn.Injector.Handled
import Znn.Injector.Modes

/-!
# The daemon at work, process by process

A turn of the main loop is made of chores: one report, one expiry, one visit of a pass, one kernel
event, a change of the mode. A run of the daemon is a run of its constructor and then of chores in
any order that the mode allows, with any answers of the system.
-/

namespace Znn.Injector

open Interaction Trace Mode

inductive Chore where
  | report (pid : Pid) (status : Status)
  | expire (pid : Pid)
  | recheck (now : Nat) (pid : Pid)
  | kernel (event : KernelEvent)
  /-- The beginning of a pass over `/proc`, with the last pid allocated. -/
  | scan (last : Option Pid)
  | poll (pid : Pid)
  /-- The end of a pass over `/proc`. -/
  | sweep (seen : List Pid) (active : Bool)
  | retry (now : Nat) (pid : Pid)
  | targets
  | mode
  | monitor
  | prune
  | release (pid : Pid)
deriving DecidableEq, Repr

namespace Chore

variable [Usize] [Config.Build]

def program : Chore → DaemonM Unit
  | .report pid status => Daemon.handleEvent pid status
  | .expire pid => Daemon.expireOne pid
  | .recheck now pid => Daemon.recheckOne now pid
  | .kernel event => Daemon.considerKernelEvent event
  | .scan last => modify fun daemon =>
      if last.isSome ∧ last = daemon.lastAllocatedPid ∧ daemon.candidates.keys = [] then
        { daemon with procScanActive := false }
      else
        { daemon with lastAllocatedPid := last }
  | .poll pid => do
      let _ ← Daemon.pollOne pid
  | .sweep seen active => modify (Daemon.finishPoll seen active)
  | .retry now pid => Daemon.retryOne now pid
  | .targets => Daemon.collectTargets
  | .mode => Daemon.applyRequestedMode
  | .monitor => Daemon.watchForMonitor
  | .prune => do
      Daemon.pruneKernelBookkeeping
      Daemon.pruneDeferred
      Daemon.pruneRecheck
  | .release pid => do
      let _ ← Daemon.releaseOne pid

/-- When the main loop comes to the chore: the passes go with the mode, only a breakpoint that can
expire does, only what is deferred is retried, and `/proc` is not asked for init. -/
def Enabled (own : Daemon) : Chore → Prop
  | .expire pid => ∀ tracee, own.tracees.lookup pid = some tracee → tracee.Expires
  | .kernel _ => own.mode = .kernel ∨ own.mode = .late ∧ own.kernel = true
  | .poll pid => 1 < pid ∧ (own.mode = .proc ∨ own.mode = .late ∧ own.kernel = false)
  | .scan _ | .sweep _ _ => own.mode = .proc ∨ own.mode = .late ∧ own.kernel = false
  | .retry _ pid => own.mode = .late ∧ pid ∈ own.deferred
  | .monitor => own.mode = .ptrace
  | _ => True

instance (own : Daemon) : (chore : Chore) → Decidable (chore.Enabled own)
  | .expire pid => inferInstanceAs
      (Decidable (∀ tracee ∈ own.tracees.lookup pid, tracee.state = .entry ∧ tracee.deadlineMs ≠ 0))
  | .kernel _ =>
      inferInstanceAs (Decidable (own.mode = .kernel ∨ own.mode = .late ∧ own.kernel = true))
  | .poll pid => inferInstanceAs
      (Decidable (1 < pid ∧ (own.mode = .proc ∨ own.mode = .late ∧ own.kernel = false)))
  | .scan _ | .sweep _ _ =>
      inferInstanceAs (Decidable (own.mode = .proc ∨ own.mode = .late ∧ own.kernel = false))
  | .retry _ pid => inferInstanceAs (Decidable (own.mode = .late ∧ pid ∈ own.deferred))
  | .monitor => inferInstanceAs (Decidable (own.mode = .ptrace))
  | .report _ _ | .recheck _ _ | .targets | .mode | .prune | .release _ => isTrue trivial

/-- The daemon after a chore with these answers, where the chore can have them. -/
def attempt (own : Daemon) (chore : Chore × Transcript) : Option Daemon :=
  if chore.1.Enabled own then
    ((chore.1.program.run own).replay chore.2).map Prod.snd
  else
    none

end Chore

/-- The runs of the daemon, chore by chore. -/
def bookkeeping [Usize] [Config.Build] : System Daemon (Chore × Transcript) where
  Initial daemon := ∃ moduleDir snapshot transcript,
    (Daemon.new moduleDir snapshot).Talks daemon transcript
  Step own chore own' := chore.1.Enabled own ∧
    StateProg.Talks chore.1.program own ⟨⟩ own' chore.2

theorem bookkeeping_attempt [Usize] [Config.Build] (own : Daemon) (chore : Chore × Transcript)
    (own' : Daemon) (attempted : Chore.attempt own chore = some own') :
    bookkeeping.Step own chore own' := by
  unfold Chore.attempt at attempted
  split at attempted
  case isTrue enabled =>
    rw [Option.map_eq_some_iff] at attempted
    rcases attempted with ⟨⟨_, _⟩, replayed, rfl⟩
    exact ⟨enabled, Prog.Talks.of_replay replayed⟩
  case isFalse => cases attempted

/-- One module that names one program. -/
def declaring : Transcript :=
  [⟨.listModules, some ["m"]⟩, ⟨.accessible "/data/adb/modules/m/disable", false⟩,
    ⟨.accessible "/data/adb/modules/m/remove", false⟩,
    ⟨.readToString "/data/adb/modules/m/zn_modules.txt", .text "path=/bin/t lib.so"⟩,
    ⟨.readToString "/data/adb/modules/m/module.prop", .notFound⟩,
    ⟨.readToString "/data/adb/modules/m/module.prop", .notFound⟩]

/-- The constructor in late mode, without a kernel tracker. -/
def startingLate : Transcript :=
  configured (.text "mode=late") :: declaring ++
    [configured (.text "mode=late"), ⟨.startKernelTracker, false⟩]

/-- A pass over `/proc` finds the target, which another process traces. -/
def findingHeld : Chore × Transcript :=
  (.poll 7, [linkOf 7 (.path "/bin/t"), ⟨.nowMs, (100 : Nat)⟩, observation 7 "/bin/t",
    tracerOf 7 (some 3), ⟨.nowMs, (200 : Nat)⟩])

/-- A retry finds the target still traced. -/
def retryingHeld (now : Nat) (rest : Transcript) : Chore × Transcript :=
  (.retry now 7, tracerOf 7 (some 3) :: rest)

/-- What is done when the deadline has passed. -/
def writingOff : Transcript :=
  [linkOf 7 (.path "/bin/t"), linkOf 3 (.path "/bin/d"),
    ⟨.note (.recordFailure 7 "/bin/t" "held by /bin/d"), ()⟩, ⟨.processName 7 "/bin/t", "t"⟩]

section Steering

/-- Of all sheets only that of init may differ, in that init is traced or is not. -/
def Steered (own own' : Daemon) : Prop :=
  ∀ pid, own'.sheet pid = own.sheet pid ∨ pid = 1 ∧ ∃ tracee : Option Tracee,
    own'.sheet pid = { own.sheet pid with tracee := tracee } ∧
      ∀ found, tracee = some found → found.state = .traced

theorem Steered.refl (own : Daemon) : Steered own own :=
  fun _ => .inl rfl

theorem Steered.trans {own own' own'' : Daemon} (first : Steered own own')
    (second : Steered own' own'') : Steered own own'' := by
  intro pid
  rcases second pid with same | ⟨init, tracee, sheet, traced⟩
  · rw [same]
    exact first pid
  · refine .inr ⟨init, tracee, ?_, traced⟩
    rcases first pid with same' | ⟨_, tracee', sheet', _⟩
    · rw [sheet, same']
    · rw [sheet, sheet']

/-- No run of the program changes more than the tracing of init. -/
def Steers {α : Type} (program : DaemonM α) : Prop :=
  ∀ own, StateProg.Says program (fun _ own' _ => Steered own own') own

namespace Steers

variable {α β : Type}

theorem pure (value : α) : Steers (Pure.pure value : DaemonM α) :=
  fun own => .refl own

theorem bind {program : DaemonM α} {rest : α → DaemonM β} (first : Steers program)
    (second : ∀ value, Steers (rest value)) : Steers (program >>= rest) := by
  intro own
  rw [StateProg.says_bind]
  apply StateProg.says_mono (first own)
  intro value own' _ steered
  apply StateProg.says_mono (second value own')
  intro _ own'' _ steered'
  exact steered.trans steered'

theorem bind_get {rest : Daemon → DaemonM β} (second : ∀ own, Steers (rest own)) :
    Steers (get >>= rest) := by
  intro own
  rw [StateProg.says_bind, StateProg.says_get]
  exact second own own

theorem modify {change : Daemon → Daemon} (sheets : ∀ own pid, (change own).sheet pid = own.sheet pid) :
    Steers (modify change) :=
  fun own pid => .inl (sheets own pid)

theorem bind_any {program : Prog Sys α} {rest : α → DaemonM β}
    (second : ∀ value, Steers (rest value)) : Steers (liftM program >>= rest) := by
  intro own
  rw [StateProg.says_bind, StateProg.says_lift]
  apply Prog.says_iff_talks.mpr
  intro value _ _
  exact second value own

end Steers

namespace Daemon

theorem steers_collectTargets : Steers collectTargets := by
  apply Steers.bind_get
  intro own
  apply Steers.bind_any
  intro modules
  exact Steers.modify fun _ _ => rfl

theorem steers_startKernelTracker : Steers startKernelTracker := by
  intro own
  apply StateProg.says_mono says_startKernelTracker
  rintro _ _ _ ⟨rfl, _⟩
  exact fun _ => .inl rfl

theorem steers_stopKernelTracker : Steers stopKernelTracker :=
  Steers.modify fun _ _ => rfl

theorem steers_changeMode (mode : Tracking) : Steers (changeMode mode) :=
  Steers.modify fun _ _ => rfl

theorem steers_setMode (mode : Tracking) : Steers (setMode mode) :=
  Steers.modify fun _ _ => rfl

theorem steers_handOverInit : Steers handOverInit := by
  intro own
  apply StateProg.says_mono says_handOverInit
  intro handedOver own' _ same
  rw [same]
  cases handedOver with
  | false => exact .refl own
  | true =>
      intro pid
      by_cases init : pid = 1
      · refine .inr ⟨init, none, ?_, by rintro found ⟨⟩⟩
        rw [init]
        exact sets_eraseTracee.sheet own
      · exact .inl ((sets_eraseTracee.isLocal own).elsewhere pid init)

theorem steers_seizeInit : Steers seizeInit := by
  intro own
  apply StateProg.says_mono says_seizeInit
  intro seized own' _ same
  rw [same]
  cases seized with
  | false => exact .refl own
  | true =>
      intro pid
      by_cases init : pid = 1
      · refine .inr ⟨init, some (Tracee.new .traced .unknown), ?_, ?_⟩
        · rw [init]
          exact (sets_tracee _).sheet own
        · rintro found ⟨⟩
          rfl
      · exact .inl (((sets_tracee _).isLocal own).elsewhere pid init)

theorem steers_leaveKernelMode (wanted : String) : Steers (leaveKernelMode wanted) := by
  have leaves : Steers (do stopKernelTracker; changeMode .proc) :=
    Steers.bind steers_stopKernelTracker fun _ => steers_changeMode _
  apply Steers.bind_get
  intro own
  dsimp only
  split
  · exact leaves
  split
  · exact leaves
  split
  · apply Steers.bind steers_handOverInit
    intro handedOver
    split
    · exact steers_changeMode _
    · exact Steers.pure _
  · exact Steers.pure _

theorem steers_enterKernelMode (wanted : String) : Steers (enterKernelMode wanted) := by
  apply Steers.bind_get
  intro own
  split
  · exact Steers.pure _
  apply Steers.bind steers_startKernelTracker
  intro started
  split
  · apply Steers.bind_get
    intro daemon
    split
    · apply Steers.bind steers_handOverInit
      intro handedOver
      split
      · exact steers_stopKernelTracker
      · exact steers_changeMode _
    · exact steers_changeMode _
  · exact steers_leaveKernelMode wanted

theorem steers_defer : Steers (do
    let _ ← startKernelTracker
    changeMode .late) :=
  Steers.bind steers_startKernelTracker fun _ => steers_changeMode _

theorem steers_enterLateMode : Steers enterLateMode := by
  apply Steers.bind_get
  intro own
  split
  · apply Steers.bind steers_handOverInit
    intro handedOver
    split
    · exact Steers.pure _
    · exact steers_defer
  · exact steers_defer

theorem steers_watchForMonitor : Steers watchForMonitor := by
  apply Steers.bind_any
  intro now
  apply Steers.bind_get
  intro own
  split
  · apply Steers.bind
    · exact Steers.modify fun _ _ => rfl
    intro _
    apply Steers.bind_any
    intro present
    split
    · apply Steers.bind steers_handOverInit
      intro handedOver
      split
      · exact steers_defer
      · exact Steers.pure _
    · exact Steers.pure _
  · exact Steers.pure _

theorem steers_restoreProcesses (snapshot : Option (List SnapshotModule)) :
    Steers (restoreProcesses snapshot) := by
  cases snapshot with
  | none => exact Steers.pure _
  | some recorded =>
      apply Steers.bind_get
      intro own
      apply Steers.bind_any
      intro modules
      exact Steers.modify fun _ _ => rfl

theorem steers_startEarly (requested : String) : Steers (startEarly requested) := by
  have starts : Steers (do let _ ← startKernelTracker) :=
    Steers.bind steers_startKernelTracker fun _ => Steers.pure _
  unfold startEarly
  split
  · exact starts
  split
  · apply Steers.bind_any
    intro present
    split
    · exact starts
    · exact Steers.pure _
  · exact Steers.pure _

/-- Start the tracker if it will start, then set a mode by it. -/
theorem steers_track (mode : Bool → Tracking) : Steers (do
    let started ← startKernelTracker
    setMode (mode started)) :=
  Steers.bind steers_startKernelTracker fun _ => steers_setMode _

variable [Config.Build]

theorem steers_applyRequestedMode : Steers applyRequestedMode := by
  apply Steers.bind_any
  intro config
  apply Steers.bind_get
  intro own
  split
  · exact Steers.pure _
  apply Steers.bind
  · exact Steers.modify fun _ _ => rfl
  intro _
  split
  · exact steers_enterLateMode
  split
  · exact steers_enterKernelMode _
  · exact steers_leaveKernelMode _

theorem steers_selectMode : Steers selectMode := by
  have tracks : Steers (do
      let started ← startKernelTracker
      setMode (if started then .kernel else .proc)) :=
    steers_track fun started => if started then .kernel else .proc
  have later : Steers (do
      if ← monitorPresent then
        let _ ← startKernelTracker
        return ← setMode .late
      let started ← startKernelTracker
      setMode (if started then .kernel else .proc)) := by
    apply Steers.bind_any
    intro present
    cases present with
    | false => exact tracks
    | true => exact steers_track fun _ => .late
  apply Steers.bind_any
  intro config
  apply Steers.bind
  · exact Steers.modify fun _ _ => rfl
  intro _
  dsimp only
  split
  · exact steers_setMode _
  split
  · exact Steers.bind steers_seizeInit fun _ => steers_setMode _
  split
  · exact steers_track fun _ => .late
  split
  · exact tracks
  apply Steers.bind_any
  intro present
  cases present with
  | true => exact later
  | false =>
      apply Steers.bind steers_seizeInit
      intro seized
      cases seized with
      | false => exact later
      | true => exact Steers.bind steers_stopKernelTracker fun _ => steers_setMode _

theorem steers_start (requested : String) (snapshot : Option (List SnapshotModule)) :
    Steers (start requested snapshot) := by
  apply Steers.bind steers_collectTargets
  intro _
  apply Steers.bind (steers_restoreProcesses snapshot)
  intro _
  apply Steers.bind (steers_startEarly requested)
  exact fun _ => steers_selectMode

/-- The tables of a new daemon are empty, but for init, that may be traced. -/
theorem says_new_sheets (moduleDir : String) (snapshot : Option (List SnapshotModule)) :
    (Daemon.new moduleDir snapshot).Says fun daemon _ => ∃ empty : Daemon,
      (∀ pid, empty.sheet pid = ⟨none, false, false, none, none, none⟩) ∧ Steered empty daemon := by
  unfold Daemon.new
  rw [Prog.bind_eq, Prog.says_bind]
  apply says_effective.mono
  intro config _ _
  dsimp only
  rw [Prog.bind_eq, Prog.says_bind]
  apply Prog.Says.mono (steers_start config.mode snapshot _)
  rintro ⟨_, daemon⟩ _ steered
  exact ⟨_, fun _ => rfl, steered⟩

end Daemon

end Steering

section Moves

/-- What a chore can make of the sheet of a process. -/
inductive Moved (pid : Pid) (own : Daemon) : Chore → Sheet → Transcript → Prop where
  | unmoved (chore : Chore) (transcript : Transcript) :
      Moved pid own chore (own.sheet pid) transcript
  | attached (parent : Pid) (status : Status) (child : Nat) (isChild : (child : Pid) = pid)
      (transcript : Transcript) (heard : ⟨.eventMessage parent, some child⟩ ∈ transcript) :
      Moved pid own (.report parent status)
        { own.sheet pid with
          tracee := (own.sheet pid).tracee.or (some (Tracee.new .traced .unknown)) } transcript
  | left (status : Status) (transcript : Transcript)
      (reason : status.Gone ∨ status.Execs ∨ status.Exits ∨
        ∃ tracee, (own.sheet pid).tracee = some tracee ∧ tracee.state ≠ .traced) :
      Moved pid own (.report pid status) { own.sheet pid with tracee := none } transcript
  | armed (status : Status) (transcript : Transcript) (execs : status.Execs)
      (traced : (own.sheet pid).tracee ≠ none) (tracee : Tracee)
      (noDeadline : tracee.deadlineMs = 0) :
      Moved pid own (.report pid status) { own.sheet pid with tracee := some tracee } transcript
  | stepped (status : Status) (transcript : Transcript) (tracee next : Tracee)
      (found : (own.sheet pid).tracee = some tracee)
      (steps : tracee.state = .traced ∧ next = tracee ∨ tracee.state ≠ .traced ∧ next.Calling) :
      Moved pid own (.report pid status) { own.sheet pid with tracee := some next } transcript
  | expired (transcript : Transcript) (sheet : Sheet) (expired : Expired (own.sheet pid) sheet) :
      Moved pid own (.expire pid) sheet transcript
  | rechecked (now : Nat) (transcript : Transcript) (sheet : Sheet)
      (rechecked : Rechecked pid own.settings (own.sheet pid) sheet transcript) :
      Moved pid own (.recheck now pid) sheet transcript
  | considered (event : KernelEvent) (isPid : event.pid = pid) (transcript : Transcript)
      (sheet : Sheet)
      (considered : Considered event own.settings (own.sheet pid) sheet transcript) :
      Moved pid own (.kernel event) sheet transcript
  | polled (transcript : Transcript) (sheet : Sheet)
      (polled : Polled pid own.settings (own.sheet pid) sheet transcript) :
      Moved pid own (.poll pid) sheet transcript
  | swept (seen : List Pid) (active : Bool) (transcript : Transcript) :
      Moved pid own (.sweep seen active)
        ((own.sheet pid).swept (decide (pid ∈ seen)) (decide (own.ignoredRescans + 1 ≥ RESCANS)))
        transcript
  | retried (now : Nat) (transcript : Transcript) (sheet : Sheet)
      (retried : Retried now pid own.settings (own.sheet pid) sheet transcript) :
      Moved pid own (.retry now pid) sheet transcript
  | steered (chore : Chore) (changes : chore = .mode ∨ chore = .monitor) (init : pid = 1)
      (transcript : Transcript) (tracee : Option Tracee)
      (traced : ∀ found, tracee = some found → found.state = .traced) :
      Moved pid own chore { own.sheet pid with tracee := tracee } transcript
  | pruned (transcript : Transcript) (sheet : Sheet)
      (pruned : Pruned pid transcript (own.sheet pid) sheet) :
      Moved pid own .prune sheet transcript
  | released (transcript : Transcript) :
      Moved pid own (.release pid) { own.sheet pid with tracee := none } transcript

/-- What a chore does: to each process on its own, and to the targets and the mode. -/
structure Moves (chore : Chore) (own own' : Daemon) (transcript : Transcript) : Prop where
  moved : ∀ pid, Moved pid own chore (own'.sheet pid) transcript
  targets : own'.targets = own.targets ∨ chore = .targets ∨ chore = .mode ∨ chore = .monitor
  mode : own'.mode = own.mode ∧ own'.kernel = own.kernel ∨ chore = .mode ∨ chore = .monitor

section Rules

variable {chore : Chore} {own own' : Daemon} {transcript : Transcript}

/-- One process is moved, the others and the settings stay. -/
theorem Local.moves {pid : Pid} (isLocal : Local pid own own')
    (moved : Moved pid own chore (own'.sheet pid) transcript) :
    Moves chore own own' transcript := by
  constructor
  · intro other
    by_cases isPid : other = pid
    · rwa [isPid]
    · rw [isLocal.elsewhere other isPid]
      exact .unmoved chore transcript
  · exact .inl (congrArg Settings.targets isLocal.settings)
  · exact .inl ⟨congrArg Settings.mode isLocal.settings, congrArg Settings.kernel isLocal.settings⟩

/-- No sheet is touched. -/
theorem Moves.unmoved (same : ∀ pid, own'.sheet pid = own.sheet pid)
    (targets : own'.targets = own.targets ∨ chore = .targets ∨ chore = .mode ∨ chore = .monitor)
    (mode : own'.mode = own.mode) (kernel : own'.kernel = own.kernel) :
    Moves chore own own' transcript := by
  refine ⟨fun pid => ?_, targets, .inl ⟨mode, kernel⟩⟩
  rw [same pid]
  exact .unmoved chore transcript

/-- A program about one process moves that process only. -/
theorem Acts.moves {program : DaemonM Unit} {pid : Pid} {post : Unit → Sheet → Transcript → Prop}
    (acts : Acts pid program own.settings (own.sheet pid) post)
    (moves : ∀ sheet transcript, post () sheet transcript → Moved pid own chore sheet transcript) :
    StateProg.Says program (fun _ own' transcript => Moves chore own own' transcript) own := by
  apply StateProg.says_mono (acts own rfl rfl)
  rintro ⟨⟩ own' transcript ⟨isLocal, holds⟩
  exact isLocal.moves (moves _ _ holds)

theorem Steers.moves {program : DaemonM Unit} (steers : Steers program)
    (changes : chore = .mode ∨ chore = .monitor) (own : Daemon) :
    StateProg.Says program (fun _ own' transcript => Moves chore own own' transcript) own := by
  apply StateProg.says_mono (steers own)
  intro _ own' transcript steered
  refine ⟨fun pid => ?_, .inr (.inr changes), .inr changes⟩
  rcases steered pid with same | ⟨init, tracee, same, traced⟩
  · rw [same]
    exact .unmoved chore transcript
  · rw [same]
    exact .steered chore changes init transcript tracee traced

end Rules

variable [Usize] [Config.Build]

/-- Everything a chore can do. -/
theorem says_chore {own : Daemon} (chore : Chore) (enabled : chore.Enabled own) :
    StateProg.Says chore.program (fun _ own' transcript => Moves chore own own' transcript)
      own := by
  cases chore with
  | report pid status =>
      apply StateProg.says_mono (says_handleEvent status)
      rintro _ own' transcript ⟨settings, handled⟩
      cases handled with
      | unchanged same =>
          apply Moves.unmoved same
          · exact .inl (congrArg Settings.targets settings)
          · exact congrArg Settings.mode settings
          · exact congrArg Settings.kernel settings
      | attached child heard isLocal sheet =>
          apply isLocal.moves
          rw [sheet]
          exact .attached pid status child rfl transcript heard
      | left isLocal reason sheet =>
          apply isLocal.moves
          rw [sheet]
          exact .left status transcript reason
      | armed isLocal execs traced tracee noDeadline sheet =>
          apply isLocal.moves
          rw [sheet]
          exact .armed status transcript execs traced tracee noDeadline
      | stepped isLocal tracee next found steps sheet =>
          apply isLocal.moves
          rw [sheet]
          exact .stepped status transcript tracee next found steps
  | expire pid =>
      apply acts_expireOne.moves
      exact fun sheet transcript => .expired transcript sheet
  | recheck now pid =>
      apply (acts_recheckOne now pid).moves
      exact fun sheet transcript => .rechecked now transcript sheet
  | kernel event =>
      apply (acts_considerKernelEvent event).moves
      exact fun sheet transcript => .considered event rfl transcript sheet
  | scan last =>
      let change : Daemon → Daemon := fun daemon =>
        if last.isSome ∧ last = daemon.lastAllocatedPid ∧ daemon.candidates.keys = [] then
          { daemon with procScanActive := false }
        else
          { daemon with lastAllocatedPid := last }
      change Moves _ own (change own) _
      dsimp only [change]
      split
      · exact .unmoved (fun _ => rfl) (.inl rfl) rfl rfl
      · exact .unmoved (fun _ => rfl) (.inl rfl) rfl rfl
  | poll pid =>
      have acts : Acts pid (Chore.program (.poll pid)) own.settings (own.sheet pid)
          fun _ => Polled pid own.settings (own.sheet pid) := by
        apply Acts.bind (acts_pollOne pid)
        intro _ sheet transcript polled
        apply Acts.pure
        rwa [List.append_nil]
      apply acts.moves
      exact fun sheet transcript => .polled transcript sheet
  | sweep seen active =>
      refine ⟨fun pid => ?_, .inl rfl, .inl ⟨rfl, rfl⟩⟩
      rw [Daemon.sheet_finishPoll]
      exact .swept seen active _
  | retry now pid =>
      have late : own.settings.mode = .late := enabled.1
      apply (acts_retryOne now pid late).moves
      exact fun sheet transcript => .retried now transcript sheet
  | targets =>
      change StateProg.Says Daemon.collectTargets _ own
      unfold Daemon.collectTargets
      rw [StateProg.says_bind, StateProg.says_get, StateProg.says_bind, StateProg.says_lift]
      apply Prog.says_iff_talks.mpr
      intro modules _ _
      exact .unmoved (fun _ => rfl) (.inr (.inl rfl)) rfl rfl
  | mode => exact Daemon.steers_applyRequestedMode.moves (.inl rfl) own
  | monitor => exact Daemon.steers_watchForMonitor.moves (.inr rfl) own
  | prune =>
      have prunes := prunes_kernelBookkeeping.then (prunes_deferred.then prunes_recheck)
      apply StateProg.says_mono (prunes own)
      rintro _ own' transcript ⟨settings, pruned⟩
      constructor
      · exact fun pid => .pruned transcript _ (pruned pid)
      · exact .inl (congrArg Settings.targets settings)
      · exact .inl ⟨congrArg Settings.mode settings, congrArg Settings.kernel settings⟩
  | release pid =>
      have acts : Acts pid (Chore.program (.release pid)) own.settings (own.sheet pid)
          fun _ sheet _ => sheet = own.sheet pid ∨
            sheet = { own.sheet pid with tracee := none } := by
        apply Acts.bind acts_releaseOne
        intro _ sheet _ released
        exact Acts.pure released
      apply acts.moves
      rintro sheet transcript (rfl | rfl)
      · exact .unmoved _ transcript
      · exact .released transcript

/-- A step of the bookkeeping does what its chore does. -/
theorem moves_of_step {own own' : Daemon} {chore : Chore} {transcript : Transcript}
    (step : bookkeeping.Step own (chore, transcript) own') : Moves chore own own' transcript := by
  rcases step with ⟨enabled, talks⟩
  exact talks.of_says (says_chore chore enabled)

end Moves

section Queues

variable {own : Daemon} {pid : Pid} {chore : Chore} {sheet : Sheet} {transcript : Transcript}

theorem Observed.recheck {mode : Tracking} {sheet' : Sheet}
    (observed : Observed pid mode sheet transcript sheet') : sheet'.recheck = sheet.recheck := by
  cases observed with
  | settled | refused | deferred => rfl

/-- Only a kernel event about the process queues it for a recheck. -/
theorem Moved.unqueued (moved : Moved pid own chore sheet transcript)
    (elsewhere : ∀ event, chore = .kernel event → event.pid ≠ pid)
    (unqueued : (own.sheet pid).recheck = none) : sheet.recheck = none := by
  cases moved with
  | unmoved | attached | left | armed | stepped | swept | steered | released => exact unqueued
  | expired _ _ expired =>
      cases expired with
      | absent | kept | ended => exact unqueued
  | rechecked _ _ _ rechecked =>
      cases rechecked with
      | dropped => rfl
      | kept => exact unqueued
      | observed _ _ _ _ _ _ _ _ observed => exact observed.recheck
  | considered event isPid => exact absurd isPid (elsewhere event rfl)
  | polled _ _ polled =>
      cases polled with
      | known | unread | passedOver | fork | same | changed | abandoned => exact unqueued
      | observed _ _ _ _ _ _ _ _ observed => exact observed.recheck.trans unqueued
  | retried _ _ _ retried =>
      cases retried with
      | held | writtenOff | dropped => exact unqueued
      | observed _ _ _ _ _ _ _ observed => exact observed.recheck.trans unqueued
  | pruned _ _ pruned =>
      rcases pruned.recheck with same | ⟨none, _⟩
      · exact same.trans unqueued
      · exact none

end Queues

end Znn.Injector
