import Znn.Injector.Leaves

/-!
# What a turn spares

`Spares pid program` says that a program does nothing to a tracee `pid` that is in the table:
its entry stays what it is and no event is about it. Everything the daemon does for other
processes spares it, and so do the passes over its own tables, which skip the pids that are
traced.
-/

namespace Znn.Injector

open Interaction PtraceOps Trace Mode

/-- The event is not something done to the process. -/
def Event.Spares (pid : Pid) (event : Event) : Prop :=
  event.acts → event.pid ≠ pid

/-- No run of the program does anything to the tracee `pid`. -/
abbrev Spares {α : Type} (allowed : Allowed) (pid : Pid) (present : Prop)
    (program : DaemonM α) : Prop :=
  Leaves allowed pid present (Event.Spares pid) program

namespace Spares

variable {α : Type} {allowed : Allowed} {pid : Pid} {present : Prop}

/-- What has a tally about another process spares this one. -/
theorem of_tallies {other : Pid} (ne : other ≠ pid) {program : DaemonM α}
    {tally : α → List Event → Prop} (tallies : Tallies allowed other program tally) :
    Spares allowed pid present program := by
  intro own log _
  apply StateProg.wp_mono (tallies own log)
  rintro _ _ _ ⟨_, ⟨⟨_, _, rfl⟩, new, rfl, about, _⟩, _⟩
  refine ⟨rfl, new, rfl, fun event present acts => ?_⟩
  rw [about event present acts]
  exact ne

/-- A program whose acts are all on another process. -/
theorem of_about {other : Pid} (ne : other ≠ pid) {program : Prog Sys α}
    (calls : Only (Call.about other) program) :
    Spares allowed pid present (liftM program : DaemonM α) := by
  apply Leaves.lift calls
  intro request isAbout log answer _ event present acts same
  exact ne (same ▸ (effects_of_about isAbout answer event present acts).symm)

/-- A mark of the source that is about another process. -/
theorem note (mark : Note) (ne : (Event.ofNote mark).pid ≠ pid) :
    Spares allowed pid present (liftM (note mark) : DaemonM Unit) :=
  of_about ne ⟨rfl, fun _ => trivial⟩

end Spares

section About

variable (pid : Pid)

theorem about_waitForStop (deadline : Nat) :
    Only (Call.about pid) (waitForStop pid deadline) :=
  ⟨trivial, fun rounds => only_waitRounds (Call.about pid) trivial trivial deadline rounds⟩

theorem about_stopTracee (timeoutMs : Nat) :
    Only (Call.about pid) (stopTracee pid timeoutMs) := by
  refine ⟨trivial, fun ok => ?_⟩
  dsimp only [Prog.bind]
  split
  · trivial
  · exact ⟨trivial, fun now => about_waitForStop pid _⟩

theorem about_seizeWith [Usize] (arch : Arch) (is64 : Bool) (entry : Nat) (thumb : Bool) :
    Only (Call.about pid) (Daemon.seizeWith pid arch is64 entry thumb) := by
  have leave : ∀ seizure : Seizure, Only (Call.about pid) (do
      Ptrace.detach pid none
      return (Except.error seizure : Except Seizure StoppedTarget)) :=
    fun seizure => ⟨rfl, fun _ => trivial⟩
  refine ⟨trivial, fun result => ?_⟩
  cases result with
  | permissionDenied => trivial
  | failed => trivial
  | ok =>
      refine ⟨trivial, fun interrupted => ?_⟩
      dsimp only [Prog.bind]
      split
      · exact leave .giveUp
      refine ⟨trivial, fun now => ?_⟩
      apply Prog.All.bind (about_waitForStop pid _)
      intro status
      cases status with
      | none => exact leave .giveUp
      | some status =>
          dsimp only
          split
          · exact leave .giveUp
          apply Prog.All.bind ((reads_readRegisters pid arch).mono (Call.about_of_reads pid))
          intro regs
          cases regs with
          | none => exact leave .giveUp
          | some regs => trivial

end About

namespace Daemon

variable {allowed : Allowed} {pid other : Pid} {present : Prop} {quiet : Event → Prop}

section Tables

theorem spares_recordFailure (ne : other ≠ pid) (exe reason : String) :
    Spares allowed pid present (recordFailure other exe reason) :=
  Spares.of_tallies ne (tallies_recordFailure exe reason)

theorem spares_insert (ne : other ≠ pid) (tracee : Tracee) :
    Spares allowed pid present
      (modify fun daemon => { daemon with tracees := daemon.tracees.insert other tracee }) :=
  Leaves.modify fun _ => AList.lookup_insert_ne ne.symm

theorem spares_erase (ne : other ≠ pid) :
    Spares allowed pid present
      (modify fun daemon => { daemon with tracees := daemon.tracees.erase other }) :=
  Leaves.modify fun _ => AList.lookup_erase_ne ne.symm

theorem spares_cont (ne : other ≠ pid) (signal : Option Int) :
    Spares allowed pid present (liftM (Ptrace.cont other signal) : DaemonM Unit) :=
  Spares.of_tallies ne (Tallies.cont signal)

theorem spares_detach (ne : other ≠ pid) (signal : Option Int) :
    Spares allowed pid present (liftM (Ptrace.detach other signal) : DaemonM Unit) :=
  Spares.of_tallies ne (Tallies.detach signal)

theorem spares_defer (other : Pid) : Spares allowed pid present (defer other) := by
  apply Leaves.bind (Leaves.reads (reads_perform .nowMs trivial))
  intro now
  exact Leaves.modify fun _ => rfl

theorem spares_abandon (ne : other ≠ pid) (exe : String) :
    Spares allowed pid present (abandon other exe) := by
  have settle : ∀ holder : String, Spares allowed pid present (do
      recordFailure other exe (heldReason holder)
      modify fun daemon =>
        { daemon with
          done := daemon.done.insert other
          candidates := daemon.candidates.erase other }) := by
    intro holder
    apply Leaves.bind (spares_recordFailure ne _ _)
    intro _
    exact Leaves.modify fun _ => rfl
  apply Leaves.bind (Leaves.reads (reads_perform (.foreignTracer other) trivial))
  intro tracer
  cases tracer with
  | none => exact settle ""
  | some tracer =>
      apply Leaves.bind (Leaves.reads (reads_readExePath tracer))
      exact settle

theorem spares_insertCandidate (candidate : Candidate) :
    Spares allowed pid present (insertCandidate other candidate) :=
  Leaves.modify fun _ => rfl

theorem spares_ignore : Spares allowed pid present (ignore other) :=
  Leaves.modify fun _ => rfl

theorem spares_giveUpDeferred (ne : other ≠ pid) (tracer : Pid) :
    Spares allowed pid present (giveUpDeferred other tracer) := by
  apply Leaves.bind (Leaves.reads (reads_readExePath other))
  intro exe
  apply Leaves.bind (Leaves.reads (reads_readExePath tracer))
  intro holder
  apply Leaves.bind (spares_recordFailure ne _ _)
  intro _
  exact Leaves.modify fun _ => rfl

theorem spares_deferRecheck (other : Pid) (filename : Option String) :
    Spares allowed pid present (deferRecheck other filename) := by
  apply Leaves.bind_get
  intro daemon _
  split
  · exact spares_ignore
  split
  · exact Leaves.pure _
  apply Leaves.bind (Leaves.reads (reads_perform .nowMs trivial))
  intro now
  exact Leaves.modify fun _ => rfl

end Tables

section Observing

variable [Usize]

theorem spares_seizeAndStop (ne : other ≠ pid) (exe : String) :
    Spares allowed pid present (seizeAndStop other exe) := by
  apply Leaves.bind (Leaves.reads (reads_perform (.foreignTracer other) trivial))
  intro tracer
  cases tracer with
  | some tracer =>
      apply Leaves.bind
      · exact Leaves.modify fun _ => rfl
      · exact fun _ => Leaves.pure _
  | none =>
      apply Leaves.bind (Leaves.reads (reads_seizePlan other exe))
      intro plan
      cases plan with
      | none => exact Leaves.pure _
      | some plan => exact Spares.of_about ne (about_seizeWith other _ _ _ _)

theorem spares_setEntryBreakpoint (ne : other ≠ pid) (tracee : Tracee) (thumb : Bool) :
    Spares allowed pid present (liftM (setEntryBreakpoint other tracee thumb) :
      DaemonM (Option Tracee)) :=
  Spares.of_about ne ((accesses_setEntryBreakpoint other tracee thumb).mono
    fun request isAccess =>
      Call.about_of_edits other request (Call.edits_of_accesses other request isAccess))

theorem spares_armEntryInjection (ne : other ≠ pid) (exe : String) (stopped : StoppedTarget) :
    Spares allowed pid present (armEntryInjection other exe stopped) := by
  apply Leaves.bind_get
  intro daemon _
  apply Leaves.bind (Leaves.reads (reads_perform .nowMs trivial))
  intro now
  apply Leaves.bind (spares_setEntryBreakpoint ne _ _)
  intro armed
  cases armed with
  | none =>
      apply Leaves.bind (spares_detach ne none)
      intro _
      exact Leaves.pure _
  | some tracee =>
      apply Leaves.bind (spares_insert ne tracee)
      intro _
      apply Leaves.bind (spares_cont ne _)
      intro _
      exact Leaves.pure _

theorem spares_seizeTarget (ne : other ≠ pid) (exe : String) :
    Spares allowed pid present (seizeTarget other exe) := by
  apply Leaves.bind (spares_seizeAndStop ne exe)
  intro outcome
  cases outcome with
  | error seizure => exact Leaves.pure _
  | ok stopped =>
      apply Leaves.bind (Leaves.reads (reads_pcInExeText other exe stopped.pc))
      intro past
      cases past with
      | false => exact spares_armEntryInjection ne exe stopped
      | true =>
          apply Leaves.bind (spares_recordFailure ne _ _)
          intro _
          apply Leaves.bind (spares_detach ne none)
          intro _
          exact Leaves.pure _

variable [Config.Build]

theorem spares_beginLateInjection (ne : other ≠ pid) (tracee : Tracee) :
    Spares allowed pid present (beginLateInjection other tracee) := by
  apply Leaves.bind (Spares.of_tallies ne (tallies_step other _))
  intro progress
  cases progress with
  | finished => exact Leaves.pure _
  | tracing owned =>
      apply Leaves.bind (spares_insert ne owned)
      intro _
      exact Leaves.pure _

theorem spares_injectLate (ne : other ≠ pid) (exe : String) (stopped : StoppedTarget) :
    Spares allowed pid present (injectLate other exe stopped) := by
  apply Leaves.bind_get
  intro daemon _
  apply Leaves.bind (spares_setEntryBreakpoint ne _ _)
  intro armed
  cases armed with
  | none =>
      apply Leaves.bind (spares_detach ne none)
      intro _
      exact Leaves.pure _
  | some tracee =>
      apply Leaves.bind (spares_beginLateInjection ne tracee)
      intro begun
      cases begun <;> exact Leaves.pure _

theorem spares_seizeLateTarget (ne : other ≠ pid) (exe : String) :
    Spares allowed pid present (seizeLateTarget other exe) := by
  apply Leaves.bind (spares_seizeAndStop ne exe)
  intro outcome
  cases outcome with
  | error seizure => exact Leaves.pure _
  | ok stopped =>
      apply Leaves.bind (Leaves.reads (reads_pcInExeText other exe stopped.pc))
      intro past
      cases past with
      | false => exact spares_armEntryInjection ne exe stopped
      | true =>
          apply Leaves.bind (Leaves.reads (reads_perform (.isSingleThreaded other) trivial))
          intro singleThreaded
          apply Leaves.bind (Leaves.reads (reads_perform (.processAgeMs other) trivial))
          intro age
          dsimp only
          split
          · apply Leaves.bind (spares_recordFailure ne _ _)
            intro _
            apply Leaves.bind (spares_detach ne none)
            intro _
            exact Leaves.pure _
          · exact spares_injectLate ne exe stopped

theorem spares_observeLateTarget (ne : other ≠ pid) (exe : String) :
    Spares allowed pid present (observeLateTarget other exe) := by
  apply Leaves.bind (Leaves.reads (reads_perform (.foreignTracer other) trivial))
  intro tracer
  cases tracer with
  | some tracer => exact spares_defer other
  | none =>
      apply Leaves.bind (spares_seizeLateTarget ne exe)
      intro seizure
      cases seizure with
      | retry => exact spares_defer other
      | seized | giveUp => exact Leaves.modify fun _ => rfl

theorem spares_observeTarget (ne : other ≠ pid) (exe : String) :
    Spares allowed pid present (observeTarget other exe) := by
  apply Leaves.bind (Spares.note (.observeTarget other exe) ne)
  intro _
  apply Leaves.bind_get
  intro daemon _
  split
  · exact spares_observeLateTarget ne exe
  · apply Leaves.bind (spares_seizeTarget ne exe)
    intro seizure
    cases seizure with
    | retry => exact Leaves.pure _
    | seized | giveUp => exact Leaves.modify fun _ => rfl

/-- A pid that is not rechecked because it is traced, or another pid. -/
theorem spares_recheckOne (isPresent : present) (now : Nat) (other : Pid) :
    Spares allowed pid present (recheckOne now other) := by
  apply Leaves.bind_get
  intro daemon tracked
  have drop : Spares allowed pid present (dropRecheck other) := Leaves.modify fun _ => rfl
  dsimp only
  split
  · exact drop
  apply Leaves.bind (Leaves.reads (reads_isAlive other))
  intro alive
  split
  · exact drop
  split
  · exact drop
  case isFalse unsettled =>
    apply Leaves.bind (Leaves.reads (reads_readExePath other))
    intro exe
    split
    · exact Leaves.pure _
    apply Leaves.bind drop
    intro _
    apply spares_observeTarget
    rintro rfl
    exact unsettled (.inl (tracked isPresent))

theorem spares_recheckPending (isPresent : present) : Spares allowed pid present recheckPending := by
  apply Leaves.bind_get
  intro daemon _
  dsimp only
  split
  · exact Leaves.pure _
  apply Leaves.bind (Leaves.reads (reads_perform .nowMs trivial))
  intro now
  exact Leaves.forM fun other => spares_recheckOne isPresent now other

theorem spares_pollNew (ne : other ≠ pid) (exe : String) (isTarget : Bool) :
    Spares allowed pid present (pollNew other exe isTarget) := by
  unfold pollNew
  split
  · apply Leaves.bind (Leaves.reads (reads_perform .nowMs trivial))
    intro now
    apply Leaves.bind (spares_insertCandidate _)
    intro _
    exact spares_observeTarget ne exe
  · split
    · exact spares_insertCandidate _
    · exact spares_ignore

theorem spares_pollSame (ne : other ≠ pid) (exe : String) (isTarget : Bool)
    (candidate : Candidate) : Spares allowed pid present (pollSame other exe isTarget candidate) := by
  unfold pollSame
  split
  · apply Leaves.bind_get
    intro daemon _
    split
    · apply Leaves.bind (Leaves.reads (reads_perform .nowMs trivial))
      intro now
      split
      · exact spares_abandon ne exe
      · exact spares_observeTarget ne exe
    · exact spares_observeTarget ne exe
  · exact Leaves.pure _

theorem spares_pollChanged (ne : other ≠ pid) (exe : String) (isTarget : Bool) :
    Spares allowed pid present (pollChanged other exe isTarget) := by
  cases isTarget with
  | true =>
      apply Leaves.bind (Leaves.reads (reads_perform .nowMs trivial))
      intro since
      apply Leaves.bind (spares_insertCandidate _)
      intro _
      exact spares_observeTarget ne exe
  | false =>
      apply Leaves.bind (Leaves.pure 0)
      intro since
      apply Leaves.bind (spares_insertCandidate _)
      intro _
      apply Leaves.bind
      · exact Leaves.modify fun _ => rfl
      · exact fun _ => spares_ignore

theorem spares_pollOne (isPresent : present) (other : Pid) :
    Spares allowed pid present (pollOne other) := by
  apply Leaves.bind_get
  intro daemon tracked
  split
  · exact Leaves.pure _
  case isFalse unsettled =>
    have ne : other ≠ pid := by
      rintro rfl
      exact unsettled (.inl (tracked isPresent))
    apply Leaves.bind (Leaves.reads (reads_readExePath other))
    intro exe
    split
    · exact Leaves.pure _
    dsimp only
    split
    · apply Leaves.bind (spares_pollNew ne exe _)
      intro _
      exact Leaves.pure _
    · split
      · apply Leaves.bind (spares_pollSame ne exe _ _)
        intro _
        exact Leaves.pure _
      · apply Leaves.bind (spares_pollChanged ne exe _)
        intro _
        exact Leaves.pure _

theorem spares_pollEach (isPresent : present) (pids : List Pid) :
    Spares allowed pid present (pollEach pids) := by
  induction pids with
  | nil => exact Leaves.pure _
  | cons other rest ih =>
      apply Leaves.bind (spares_pollOne isPresent other)
      intro first
      apply Leaves.bind ih
      intro others
      exact Leaves.pure _

theorem spares_pollProcesses (isPresent : present) : Spares allowed pid present pollProcesses := by
  apply Leaves.bind (Leaves.reads (reads_perform .lastAllocatedPid trivial))
  intro lastPid
  apply Leaves.bind_get
  intro daemon _
  split
  · exact Leaves.modify fun _ => rfl
  apply Leaves.bind
  · exact Leaves.modify fun _ => rfl
  intro _
  apply Leaves.bind (Leaves.reads (reads_perform .listProcesses trivial))
  intro listed
  cases listed with
  | none => exact Leaves.pure _
  | some listed =>
      apply Leaves.bind (spares_pollEach isPresent _)
      intro active
      exact Leaves.modify fun _ => rfl

theorem spares_retryFreed (isPresent : present) (other : Pid) :
    Spares allowed pid present (retryFreed other) := by
  apply Leaves.bind
  · exact Leaves.modify fun _ => rfl
  intro _
  apply Leaves.bind (Leaves.reads (reads_isAlive other))
  intro alive
  split
  · exact Leaves.pure _
  apply Leaves.bind_get
  intro daemon tracked
  split
  · exact Leaves.pure _
  case isFalse unsettled =>
    apply Leaves.bind (Leaves.reads (reads_readExePath other))
    intro exe
    split
    · exact Leaves.pure _
    · apply spares_observeLateTarget
      rintro rfl
      exact unsettled (.inl (tracked isPresent))

/-- A process has one tracer: no other is seen at a process that the daemon traces. -/
theorem spares_retryOne (isPresent : present)
    (alone : ∀ log tracer, allowed log (.foreignTracer pid) tracer → tracer = none)
    (now : Nat) (other : Pid) : Spares allowed pid present (retryOne now other) := by
  apply Leaves.bind_get
  intro daemon _
  apply Leaves.bind_answer (.foreignTracer other) trivial
  intro log tracer isAllowed
  cases tracer with
  | none => exact spares_retryFreed isPresent other
  | some tracer =>
      have ne : other ≠ pid := by
        rintro rfl
        exact absurd (alone _ _ isAllowed) (by simp)
      dsimp only
      split
      · exact spares_giveUpDeferred ne tracer
      · exact Leaves.pure _

theorem spares_retryDeferred (isPresent : present)
    (alone : ∀ log tracer, allowed log (.foreignTracer pid) tracer → tracer = none) :
    Spares allowed pid present retryDeferred := by
  apply Leaves.bind_get
  intro daemon _
  dsimp only
  split
  · exact Leaves.pure _
  apply Leaves.bind (Leaves.reads (reads_perform .nowMs trivial))
  intro now
  exact Leaves.forM fun other => spares_retryOne isPresent alone now other

theorem spares_considerExec {event : KernelEvent} (ne : event.pid ≠ pid) :
    Spares allowed pid present (considerExec event) := by
  unfold considerExec
  dsimp only
  split
  · apply Leaves.bind (Leaves.reads (reads_perform (.foreignTracer event.pid) trivial))
    intro tracer
    split
    · apply Leaves.bind (spares_deferRecheck _ _)
      intro _
      exact Leaves.pure _
    · exact Leaves.pure _
  apply Leaves.bind (Leaves.reads (reads_readExePath event.pid))
  intro exe
  split
  · apply Leaves.bind (Leaves.reads (reads_processGone event.pid))
    intro gone
    split
    · apply Leaves.bind spares_ignore
      intro _
      exact Leaves.pure _
    · exact Leaves.pure _
  apply Leaves.bind_get
  intro daemon _
  split
  · exact spares_ignore
  · exact spares_observeTarget ne exe

theorem spares_considerKernelEvent (isPresent : present) (event : KernelEvent) :
    Spares allowed pid present (considerKernelEvent event) := by
  unfold considerKernelEvent
  dsimp only
  split
  · exact Leaves.pure _
  split
  · exact Leaves.pure _
  · exact Leaves.modify fun _ => rfl
  · apply Leaves.bind_get
    intro daemon tracked
    split
    · exact Leaves.pure _
    case isFalse unsettled =>
      apply spares_considerExec
      intro same
      rw [same] at unsettled
      exact unsettled (.inl (tracked isPresent))

end Observing

section Upkeep

theorem spares_collectTargets : Spares allowed pid present collectTargets := by
  apply Leaves.bind_get
  intro daemon _
  apply Leaves.bind (Leaves.reads (reads_collect _))
  intro modules
  exact Leaves.modify fun _ => rfl

theorem spares_prune : Spares allowed pid present (do
    pruneKernelBookkeeping
    pruneDeferred
    pruneRecheck) := by
  have pids : ∀ kept, Spares allowed pid present (liftM (alivePids kept) : DaemonM (List Pid)) :=
    fun kept => Leaves.reads (reads_retainAlive id kept)
  have entries : ∀ {α : Type} (table : Table α),
      Spares allowed pid present (liftM (aliveEntries table) : DaemonM (Table α)) :=
    fun table => Leaves.reads (reads_aliveEntries table)
  apply Leaves.bind
  · apply Leaves.bind_get
    intro daemon _
    apply Leaves.bind (pids _)
    intro done
    apply Leaves.bind
    · exact Leaves.modify fun _ => rfl
    intro _
    apply Leaves.bind_get
    intro daemon _
    apply Leaves.bind (pids _)
    intro ignored
    apply Leaves.bind
    · exact Leaves.modify fun _ => rfl
    intro _
    apply Leaves.bind_get
    intro daemon _
    apply Leaves.bind (entries _)
    intro candidates
    exact Leaves.modify fun _ => rfl
  intro _
  apply Leaves.bind
  · apply Leaves.bind_get
    intro daemon _
    apply Leaves.bind (entries _)
    intro deferred
    exact Leaves.modify fun _ => rfl
  intro _
  apply Leaves.bind_get
  intro daemon _
  apply Leaves.bind (entries _)
  intro recheck
  exact Leaves.modify fun _ => rfl

theorem spares_stopTracee (ne : other ≠ pid) (timeoutMs : Nat) :
    Spares allowed pid present (liftM (stopTracee other timeoutMs) : DaemonM (Option Status)) :=
  Spares.of_about ne (about_stopTracee other timeoutMs)

theorem spares_handOverInit (ne : pid ≠ 1) : Spares allowed pid present handOverInit := by
  apply Leaves.bind (spares_stopTracee ne.symm _)
  intro status
  cases status with
  | none => exact Leaves.pure _
  | some status =>
      apply Leaves.bind
      · exact Spares.of_about ne.symm ⟨rfl, fun _ => trivial⟩
      intro detached
      cases detached with
      | true =>
          apply Leaves.bind (spares_erase ne.symm)
          intro _
          exact Leaves.pure _
      | false =>
          apply Leaves.bind (spares_cont ne.symm none)
          intro _
          exact Leaves.pure _

theorem leaves_startKernelTracker : Leaves allowed pid present quiet startKernelTracker := by
  apply Leaves.bind_get
  intro daemon _
  split
  · exact Leaves.pure _
  apply Leaves.bind (Leaves.reads (reads_perform .startKernelTracker trivial))
  intro started
  apply Leaves.bind
  · exact Leaves.modify fun _ => rfl
  · exact fun _ => Leaves.pure _

theorem leaves_stopKernelTracker : Leaves allowed pid present quiet stopKernelTracker :=
  Leaves.modify fun _ => rfl

theorem leaves_changeMode (mode : Tracking) : Leaves allowed pid present quiet (changeMode mode) :=
  Leaves.modify fun _ => rfl

end Upkeep

section Modes

theorem leaves_leaveKernelMode (handOver : Leaves allowed pid present quiet handOverInit)
    (wanted : String) :
    Leaves allowed pid present quiet (leaveKernelMode wanted) := by
  apply Leaves.bind_get
  intro daemon _
  dsimp only
  split
  · apply Leaves.bind leaves_stopKernelTracker
    intro _
    exact leaves_changeMode _
  split
  · apply Leaves.bind leaves_stopKernelTracker
    intro _
    exact leaves_changeMode _
  split
  · apply Leaves.bind (handOver)
    intro handedOver
    cases handedOver with
    | true => exact leaves_changeMode _
    | false => exact Leaves.pure _
  · exact Leaves.pure _

theorem leaves_enterKernelMode (handOver : Leaves allowed pid present quiet handOverInit)
    (wanted : String) :
    Leaves allowed pid present quiet (enterKernelMode wanted) := by
  apply Leaves.bind_get
  intro daemon _
  split
  · exact Leaves.pure _
  apply Leaves.bind leaves_startKernelTracker
  intro started
  cases started with
  | false => exact leaves_leaveKernelMode handOver wanted
  | true =>
      apply Leaves.bind_get
      intro daemon _
      split
      · apply Leaves.bind (handOver)
        intro handedOver
        cases handedOver with
        | false => exact leaves_stopKernelTracker
        | true => exact leaves_changeMode _
      · exact leaves_changeMode _

theorem leaves_enterLateMode (handOver : Leaves allowed pid present quiet handOverInit) :
    Leaves allowed pid present quiet enterLateMode := by
  have enter : Leaves allowed pid present quiet (do
      let _ ← startKernelTracker
      changeMode .late) := by
    apply Leaves.bind leaves_startKernelTracker
    intro _
    exact leaves_changeMode _
  apply Leaves.bind_get
  intro daemon _
  split
  · apply Leaves.bind (handOver)
    intro handedOver
    cases handedOver with
    | false => exact Leaves.pure _
    | true => exact enter
  · exact enter

theorem leaves_applyRequestedMode [Config.Build]
    (handOver : Leaves allowed pid present quiet handOverInit) :
    Leaves allowed pid present quiet applyRequestedMode := by
  apply Leaves.bind (Leaves.reads reads_effective)
  intro config
  dsimp only
  apply Leaves.bind_get
  intro daemon _
  split
  · exact Leaves.pure _
  apply Leaves.bind
  · exact Leaves.modify fun _ => rfl
  intro _
  split
  · exact leaves_enterLateMode handOver
  split
  · exact leaves_enterKernelMode handOver _
  · exact leaves_leaveKernelMode handOver _

theorem leaves_watchForMonitor (handOver : Leaves allowed pid present quiet handOverInit) :
    Leaves allowed pid present quiet watchForMonitor := by
  apply Leaves.bind (Leaves.reads (reads_perform .nowMs trivial))
  intro now
  apply Leaves.bind_get
  intro daemon _
  split
  · apply Leaves.bind
    · exact Leaves.modify fun _ => rfl
    intro _
    apply Leaves.bind (Leaves.reads reads_monitorPresent)
    intro monitor
    cases monitor with
    | false => exact Leaves.pure _
    | true =>
        apply Leaves.bind (handOver)
        intro handedOver
        cases handedOver with
        | false => exact Leaves.pure _
        | true =>
            apply Leaves.bind leaves_startKernelTracker
            intro _
            exact leaves_changeMode _
  · exact Leaves.pure _

end Modes

section Reports

theorem spares_handleStopEvent (ne : other ≠ pid) :
    Spares allowed pid present (handleStopEvent other) := by
  apply Leaves.bind (Leaves.reads (reads_perform (.getsiginfo other) trivial))
  intro signo
  cases signo with
  | none => exact spares_cont ne none
  | some signo =>
      dsimp only
      split
      · apply Leaves.bind
        · exact Spares.of_about ne ⟨rfl, fun _ => trivial⟩
        intro parked
        split
        · exact spares_cont ne none
        · exact Leaves.pure _
      · exact spares_cont ne none

variable [Usize]

theorem spares_expireOne (ne : other ≠ pid) : Spares allowed pid present (expireOne other) := by
  apply Leaves.bind_get
  intro daemon _
  cases daemon.tracees.lookup other with
  | none => exact Leaves.pure _
  | some tracee =>
      apply Leaves.bind (spares_erase ne)
      intro _
      apply Leaves.bind (spares_stopTracee ne _)
      intro status
      cases status with
      | none =>
          apply Leaves.bind (Leaves.reads (reads_perform .nowMs trivial))
          intro now
          exact spares_insert ne _
      | some status =>
          have settle : Spares allowed pid present
              (modify fun daemon => { daemon with done := daemon.done.insert other }) :=
            Leaves.modify fun _ => rfl
          dsimp only
          split
          · apply Leaves.bind (Spares.of_about ne ((edits_releaseTracee other tracee).mono
              (Call.about_of_edits other)))
            intro _
            apply Leaves.bind (spares_detach ne none)
            intro _
            exact settle
          · exact settle

theorem spares_handleExec (ne : other ≠ pid) : Spares allowed pid present (handleExec other) := by
  apply Leaves.bind_get
  intro daemon _
  cases daemon.tracees.lookup other with
  | none => exact spares_detach ne none
  | some tracee =>
      apply Leaves.bind (spares_erase ne)
      intro _
      apply Leaves.bind (Spares.of_tallies ne (tallies_armEntryBreakpoint tracee))
      intro armed
      cases armed with
      | none => exact spares_detach ne none
      | some tracee =>
          apply Leaves.bind (spares_insert ne tracee)
          intro _
          exact spares_cont ne none

variable [Config.Build]

theorem spares_handleTrap (ne : other ≠ pid) : Spares allowed pid present (handleTrap other) := by
  apply Leaves.bind_get
  intro daemon _
  cases daemon.tracees.lookup other with
  | none => exact Leaves.pure _
  | some tracee =>
      apply Leaves.bind (spares_erase ne)
      intro _
      apply Leaves.bind (Spares.of_tallies ne (tallies_step other tracee))
      intro progress
      cases progress with
      | tracing tracee => exact spares_insert ne tracee
      | finished => exact Leaves.pure _

theorem spares_handleTrapEvent (isPresent : present) (ne : other ≠ pid) (event : Int) :
    Spares allowed pid present (handleTrapEvent other event) := by
  unfold handleTrapEvent
  split
  · apply Leaves.bind (Leaves.reads (reads_perform (.eventMessage other) trivial))
    intro child
    cases child with
    | none => exact spares_cont ne none
    | some child =>
        dsimp only
        split
        · apply Leaves.bind (Leaves.attachChild isPresent child)
          intro _
          exact spares_cont ne none
        · exact spares_cont ne none
  split
  · exact spares_handleExec ne
  split
  · apply Leaves.bind (spares_erase ne)
    intro _
    exact spares_cont ne none
  apply Leaves.bind_get
  intro daemon _
  split
  · exact spares_handleTrap ne
  · exact spares_cont ne none

/-- The report of one process spares every other. -/
theorem spares_handleEvent (isPresent : present) (ne : other ≠ pid) (status : Status) :
    Spares allowed pid present (handleEvent other status) := by
  unfold handleEvent
  split
  · exact spares_erase ne
  split
  · exact Leaves.pure _
  split
  · exact spares_handleStopEvent ne
  split
  · exact spares_handleTrapEvent isPresent ne _
  split
  · exact spares_cont ne _
  split
  · exact spares_cont ne _
  apply Leaves.bind (Leaves.reportFault other _)
  intro _
  exact spares_cont ne _

end Reports

section Expiry

/-- The entry breakpoint of the tracee is overdue. -/
def Overdue (tracee : Tracee) (now : Nat) : Prop :=
  tracee.state = .entry ∧ tracee.deadlineMs ≠ 0 ∧ tracee.deadlineMs ≤ now

theorem mem_pidsWhere {α : Type} {table : Table α} {select : α → Bool} {pid : Pid} :
    pid ∈ table.pidsWhere select ↔ ∃ value, table.lookup pid = some value ∧ select value := by
  simp only [Table.pidsWhere, List.mem_map, List.mem_filter]
  constructor
  · rintro ⟨⟨other, value⟩, ⟨present, selected⟩, rfl⟩
    exact ⟨value, AList.mem_lookup_iff.mpr present, selected⟩
  · rintro ⟨value, found, selected⟩
    exact ⟨⟨pid, value⟩, ⟨AList.mem_lookup_iff.mp found, selected⟩, rfl⟩

variable [Usize] {inv : Daemon → List Event → Prop} {own : Daemon} {log : List Event}

theorem spares_releaseOne (ne : other ≠ pid) : Spares allowed pid present (releaseOne other) := by
  apply Leaves.bind_get
  intro daemon _
  cases daemon.tracees.lookup other with
  | none => exact Leaves.pure _
  | some tracee =>
      apply Leaves.bind (spares_erase ne)
      intro _
      apply Leaves.bind (spares_stopTracee ne _)
      intro status
      cases status with
      | none =>
          apply Leaves.bind (spares_insert ne tracee)
          intro _
          exact Leaves.pure _
      | some status =>
          apply Leaves.bind (Spares.of_about ne ((edits_releaseTracee other tracee).mono
            (Call.about_of_edits other)))
          intro _
          apply Leaves.bind (spares_detach ne none)
          intro _
          exact Leaves.pure _

/-- What a pass of `expire_pending` preserves: what sparing the tracee preserves, and the expiry
of the tracee if it is overdue. -/
theorem wp_expirePending (pid : Pid) (start : inv own log)
    (frame : ∀ {own own' log log'}, inv own log → Left pid (Event.Spares pid) own own' log log' →
      inv own' log')
    (expires : ∀ now tracee, allowed log .nowMs now → own.tracees.lookup pid = some tracee →
      Overdue tracee now → ∀ own log, inv own log →
        StateProg.wp (answering allowed) (expireOne pid) (fun _ => inv) own log) :
    StateProg.wp (answering allowed) expirePending (fun _ => inv) own log := by
  unfold expirePending
  rw [StateProg.wp_bind, StateProg.wp_lift]
  intro now after step
  have still : after = log := by
    have moved := step.1
    rw [ledger_step] at moved
    simpa [effects] using moved
  rw [still, Prog.wp_pure, StateProg.wp_bind, StateProg.wp_get]
  apply StateProg.wp_forM _ _ start
  intro item selected own' log' held
  by_cases same : item = pid
  · rw [same] at selected ⊢
    obtain ⟨tracee, found, overdue⟩ := mem_pidsWhere.mp selected
    simp only [Bool.and_eq_true, decide_eq_true_eq] at overdue
    exact expires now tracee step.2 found ⟨overdue.1.1, overdue.1.2, overdue.2⟩ own' log' held
  · have spares : Spares allowed pid False (expireOne item) := spares_expireOne same
    apply StateProg.wp_mono (spares own' log' False.elim)
    intro _ _ _ left
    exact frame held left

/-- What the release at shutdown preserves. -/
theorem wp_releaseTracees (pid : Pid) (start : inv own log)
    (frame : ∀ {own own' log log'}, inv own log → Left pid (Event.Spares pid) own own' log log' →
      inv own' log')
    (releases : ∀ own log, inv own log →
      StateProg.wp (answering allowed) (releaseOne pid) (fun _ => inv) own log) :
    StateProg.wp (answering allowed) releaseTracees (fun _ => inv) own log := by
  have each : ∀ pids own log, inv own log →
      StateProg.wp (answering allowed) (releaseEach pids) (fun _ => inv) own log := by
    intro pids
    induction pids with
    | nil => exact fun own log held => held
    | cons item rest ih =>
        intro own log held
        have one : StateProg.wp (answering allowed) (releaseOne item) (fun _ => inv) own log := by
          by_cases same : item = pid
          · rw [same]
            exact releases own log held
          · have spares : Spares allowed pid False (releaseOne item) := spares_releaseOne same
            apply StateProg.wp_mono (spares own log False.elim)
            intro _ _ _ left
            exact frame held left
        rw [releaseEach, StateProg.wp_bind]
        apply StateProg.wp_mono one
        intro first own' log' held'
        rw [StateProg.wp_bind]
        exact ih own' log' held'
  unfold releaseTracees
  rw [StateProg.wp_bind, StateProg.wp_get]
  exact each _ own log start

/-- A tracee that is not overdue survives a pass of `expire_pending`. -/
theorem spared_expirePending {tracee : Tracee} (found : own.tracees.lookup pid = some tracee)
    (fresh : ∀ now, allowed log .nowMs now → ¬Overdue tracee now) :
    StateProg.wp (answering allowed) expirePending
      (fun _ own' log' => Left pid (Event.Spares pid) own own' log log') own log := by
  apply wp_expirePending pid (.refl pid own log)
  · exact fun held left => held.trans left
  · intro now other isNow isFound overdue
    rw [found, Option.some.injEq] at isFound
    exact absurd (isFound ▸ overdue) (fresh now isNow)

end Expiry

end Daemon

/-- Every turn but the report of the process itself, the expiry of overdue breakpoints and the
release at shutdown spares a tracee that is not init. -/
theorem spares_turn [Usize] [Config.Build] {allowed : Allowed} {pid : Pid} {turn : Turn}
    (notInit : turn = .mode ∨ turn = .monitor → pid ≠ 1)
    (alone : turn = .retry → ∀ log tracer, allowed log (.foreignTracer pid) tracer →
      tracer = none)
    (notReport : ∀ status, turn ≠ .report pid status) (notExpire : turn ≠ .expire)
    (notRelease : turn ≠ .release) : Spares allowed pid True turn.program := by
  cases turn with
  | report other status =>
      apply Daemon.spares_handleEvent trivial
      rintro rfl
      exact notReport status rfl
  | expire => exact absurd rfl notExpire
  | recheck => exact Daemon.spares_recheckPending trivial
  | kernel event => exact Daemon.spares_considerKernelEvent trivial event
  | scan => exact Daemon.spares_pollProcesses trivial
  | retry => exact Daemon.spares_retryDeferred trivial (alone rfl)
  | targets => exact Daemon.spares_collectTargets
  | mode => exact Daemon.leaves_applyRequestedMode (Daemon.spares_handOverInit (notInit (.inl rfl)))
  | monitor => exact Daemon.leaves_watchForMonitor (Daemon.spares_handOverInit (notInit (.inr rfl)))
  | prune => exact Daemon.spares_prune
  | release => exact absurd rfl notRelease

end Znn.Injector
