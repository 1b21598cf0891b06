import Znn.Injector.Attended
import Znn.Injector.Chores

/-!
# The chores of ptrace mode

While the daemon stays in ptrace mode only two chores change the table of tracees: the report of
a status and, at shutdown, the release of a process. Nothing is queued, no breakpoint expires,
and a request for another mode that fails leaves the table as it was.
-/

namespace Znn.Injector

open Interaction Trace Mode

/-- Unless the mode has changed, every sheet is what it was. -/
def Stays (own own' : Daemon) : Prop :=
  own'.mode = .ptrace → ∀ pid, own'.sheet pid = own.sheet pid

/-- Nothing waits for a second look and no breakpoint is to expire. -/
structure Daemon.Idle (own : Daemon) : Prop where
  unqueued : ∀ pid, (own.sheet pid).recheck = none
  lasting : ∀ pid tracee, own.tracees.lookup pid = some tracee → ¬tracee.Expires

section Changes

variable {own : Daemon}

theorem Stays.of_left {own own' : Daemon} (left : own'.mode ≠ .ptrace) : Stays own own' :=
  fun mode => absurd mode left

theorem says_startKernelTracker_mode : StateProg.Says Daemon.startKernelTracker
    (fun _ own' _ => own'.mode = own.mode ∧ ∀ pid, own'.sheet pid = own.sheet pid) own := by
  apply StateProg.says_mono says_startKernelTracker
  rintro started _ _ ⟨rfl, _, _⟩
  exact ⟨rfl, fun _ => rfl⟩

/-- The tracker is started if it will, and the mode is late. -/
theorem says_defer_left : StateProg.Says (do
    let _ ← Daemon.startKernelTracker
    Daemon.changeMode .late : DaemonM Unit) (fun _ own' _ => own'.mode ≠ .ptrace) own := by
  rw [StateProg.says_bind]
  apply StateProg.says_mono says_startKernelTracker_mode
  intro _ own' _ _ mode
  cases mode

theorem says_leaveKernelMode_stays (wanted : String) (mode : own.mode = .ptrace) :
    StateProg.Says (Daemon.leaveKernelMode wanted) (fun _ own' _ => Stays own own') own := by
  unfold Daemon.leaveKernelMode
  rw [StateProg.says_bind, StateProg.says_get]
  dsimp only
  rw [mode, if_neg (by simp), if_neg (by simp)]
  split
  · rw [StateProg.says_bind]
    apply StateProg.says_mono says_handOverInit
    intro handedOver own' _ same
    rw [same]
    cases handedOver with
    | false => exact StateProg.says_pure fun _ _ => rfl
    | true => exact Stays.of_left (by simp)
  · exact StateProg.says_pure fun _ _ => rfl

theorem says_enterKernelMode_stays (wanted : String) (mode : own.mode = .ptrace) :
    StateProg.Says (Daemon.enterKernelMode wanted) (fun _ own' _ => Stays own own') own := by
  unfold Daemon.enterKernelMode
  rw [StateProg.says_bind, StateProg.says_get, mode, if_neg (by simp), StateProg.says_bind]
  apply StateProg.says_mono says_startKernelTracker_mode
  rintro started tracking _ ⟨mode', sheets⟩
  rw [mode] at mode'
  cases started with
  | false =>
      apply StateProg.says_mono (says_leaveKernelMode_stays wanted mode')
      intro _ own' _ stays still pid
      rw [stays still pid, sheets pid]
  | true =>
      dsimp only
      rw [if_pos rfl, StateProg.says_bind, StateProg.says_get, if_pos mode', StateProg.says_bind]
      apply StateProg.says_mono says_handOverInit
      intro handedOver own' _ same
      rw [same]
      cases handedOver with
      | false => exact fun _ => sheets
      | true => exact Stays.of_left (by simp)

theorem says_enterLateMode_stays (mode : own.mode = .ptrace) :
    StateProg.Says Daemon.enterLateMode (fun _ own' _ => Stays own own') own := by
  unfold Daemon.enterLateMode
  rw [StateProg.says_bind, StateProg.says_get, if_pos mode, StateProg.says_bind]
  apply StateProg.says_mono says_handOverInit
  intro handedOver own' _ same
  rw [same]
  cases handedOver with
  | false => exact StateProg.says_pure fun _ _ => rfl
  | true =>
      apply StateProg.says_mono says_defer_left
      exact fun _ _ _ => Stays.of_left

theorem says_watchForMonitor_stays :
    StateProg.Says Daemon.watchForMonitor (fun _ own' _ => Stays own own') own := by
  unfold Daemon.watchForMonitor
  rw [StateProg.says_bind, StateProg.says_lift]
  apply Prog.says_iff_talks.mpr
  intro now _ _
  rw [StateProg.says_bind, StateProg.says_get]
  split
  · rw [StateProg.says_bind, StateProg.says_modify, StateProg.says_bind, StateProg.says_lift]
    apply Prog.says_iff_talks.mpr
    intro present _ _
    split
    · rw [StateProg.says_bind]
      apply StateProg.says_mono says_handOverInit
      intro handedOver own' _ same
      rw [same]
      cases handedOver with
      | false => exact StateProg.says_pure fun _ _ => rfl
      | true =>
          apply StateProg.says_mono says_defer_left
          exact fun _ _ _ => Stays.of_left
    · exact StateProg.says_pure fun _ _ => rfl
  · exact StateProg.says_pure fun _ _ => rfl

theorem says_applyRequestedMode_stays [Config.Build] (mode : own.mode = .ptrace) :
    StateProg.Says Daemon.applyRequestedMode (fun _ own' _ => Stays own own') own := by
  unfold Daemon.applyRequestedMode
  rw [StateProg.says_bind, StateProg.says_lift]
  apply Prog.says_iff_talks.mpr
  intro config _ _
  rw [StateProg.says_bind, StateProg.says_get]
  split
  · exact StateProg.says_pure fun _ _ => rfl
  rw [StateProg.says_bind, StateProg.says_modify]
  have still : ({ own with requestedMode := config.mode } : Daemon).mode = .ptrace := mode
  split
  · exact says_enterLateMode_stays still
  split
  · exact says_enterKernelMode_stays _ still
  · exact says_leaveKernelMode_stays _ still

theorem says_recheckOne_unqueued [Usize] [Config.Build] {now : Nat} {pid : Pid}
    (unqueued : (own.sheet pid).recheck = none) :
    StateProg.Says (Daemon.recheckOne now pid)
      (fun _ own' _ => ∀ other, own'.tracees.lookup other = own.tracees.lookup other) own := by
  have none : own.recheck.lookup pid = none := unqueued
  have due : now ≥ (Option.none : Option Nat).getD 0 := Nat.zero_le now
  unfold Daemon.recheckOne
  rw [StateProg.says_bind, StateProg.says_get]
  dsimp only
  rw [none, if_pos due]
  exact fun _ => rfl

end Changes

section Release

variable {own : Daemon} {pid : Pid}

theorem says_stopTracee (timeoutMs : Nat) :
    (stopTracee pid timeoutMs).Says fun _ transcript => ¬LetsGo pid transcript := by
  have quiet : Waits anything pid (stopTracee pid timeoutMs) := waits_stopTracee timeoutMs
  have waits := quiet []
  rw [answering_anything] at waits
  apply (Prog.says_of_wp waits).mono
  rintro _ transcript ⟨new, events, silent, _⟩ letGo
  rw [List.nil_append, List.nil_append] at events
  rw [LetsGo, eventsOf, events] at letGo
  exact absurd (silent _ letGo) (by simp [Event.acts])

/-- A process is released and detached, or it does not stop in time and is kept. -/
theorem says_releaseOne_letsGo [Usize] : StateProg.Says (Daemon.releaseOne pid)
    (fun _ own' transcript =>
      (∀ other, own'.tracees.lookup other = own.tracees.lookup other) ∧ ¬LetsGo pid transcript ∨
        own.Enters pid none own' ∧ LetsGo pid transcript ∧
          own.tracees.lookup pid ≠ none) own := by
  unfold Daemon.releaseOne
  rw [StateProg.says_bind, StateProg.says_get]
  cases found : own.tracees.lookup pid with
  | none => exact StateProg.says_pure (.inl ⟨fun _ => rfl, List.not_mem_nil⟩)
  | some tracee =>
      rw [StateProg.says_bind, StateProg.says_modify, StateProg.says_bind, StateProg.says_lift]
      apply (says_stopTracee INTERRUPT_TIMEOUT_MS).mono
      intro status waited held
      cases status with
      | none =>
          rw [StateProg.says_bind, StateProg.says_modify]
          apply StateProg.says_pure
          refine .inl ⟨fun other => ?_, by simpa using held⟩
          by_cases isPid : other = pid
          · rw [isPid, AList.lookup_insert, found]
          · rw [AList.lookup_insert_ne isPid, AList.lookup_erase_ne isPid]
      | some status =>
          rw [StateProg.says_bind, StateProg.says_lift]
          apply Prog.says_iff_talks.mpr
          intro _ restored _
          rw [StateProg.says_bind, StateProg.says_lift]
          intro detached
          refine Or.inr ⟨?_, ?_, by simp⟩
          · apply Local.enters (sets_eraseTracee.isLocal own)
            rw [sets_eraseTracee.sheet own]
          · simp [LetsGo, eventsOf, effects]

end Release

section Steps

variable [Usize] [Config.Build] {own own' : Daemon} {chore : Chore} {transcript : Transcript}

omit [Usize] [Config.Build] in
/-- A chore that moves single processes, and is none of those that may change a tracee. -/
theorem Moved.sameTracee {pid : Pid} {sheet : Sheet} (moved : Moved pid own chore sheet transcript)
    (enabled : chore.Enabled own) (mode : own.mode = .ptrace) (idle : own.Idle)
    (notReport : ∀ target status, chore ≠ .report target status)
    (notRelease : ∀ target, chore ≠ .release target)
    (notRecheck : ∀ now target, chore ≠ .recheck now target)
    (notSwitch : ¬(chore = .mode ∨ chore = .monitor)) :
    sheet.tracee = own.tracees.lookup pid := by
  cases moved with
  | unmoved => rfl
  | attached parent status => exact absurd rfl (notReport parent status)
  | left status | armed status | stepped status => exact absurd rfl (notReport pid status)
  | expired _ _ expired =>
      cases expired with
      | absent => rfl
      | kept tracee found | ended tracee found =>
          exact absurd (enabled tracee found) (idle.lasting pid tracee found)
  | rechecked now => exact absurd rfl (notRecheck now pid)
  | considered | polled | swept | retried => simp [Chore.Enabled, mode] at enabled
  | steered _ changes => exact absurd changes notSwitch
  | pruned _ _ pruned => exact pruned.tracee
  | released => exact absurd rfl (notRelease pid)

/-- In ptrace mode the other chores leave the table alone. -/
theorem lookup_of_step (step : bookkeeping.Step own (chore, transcript) own')
    (mode : own.mode = .ptrace) (mode' : own'.mode = .ptrace) (idle : own.Idle)
    (notReport : ∀ pid status, chore ≠ .report pid status)
    (notRelease : ∀ pid, chore ≠ .release pid) (pid : Pid) :
    own'.tracees.lookup pid = own.tracees.lookup pid := by
  cases chore with
  | recheck now target =>
      exact StateProg.Talks.of_says step.2 (says_recheckOne_unqueued (idle.unqueued target)) pid
  | mode =>
      have stays := StateProg.Talks.of_says step.2 (says_applyRequestedMode_stays mode)
      exact congrArg Sheet.tracee (stays mode' pid)
  | monitor =>
      have stays := StateProg.Talks.of_says step.2 says_watchForMonitor_stays
      exact congrArg Sheet.tracee (stays mode' pid)
  | report | expire | kernel | scan | poll | sweep | retry | targets | prune | release =>
      apply ((moves_of_step step).moved pid).sameTracee step.1 mode idle notReport notRelease
      · simp
      · simp

/-- Nothing is queued in ptrace mode. -/
theorem unqueued_of_step (step : bookkeeping.Step own (chore, transcript) own')
    (mode : own.mode = .ptrace) {pid : Pid} (unqueued : (own.sheet pid).recheck = none) :
    (own'.sheet pid).recheck = none := by
  apply ((moves_of_step step).moved pid).unqueued _ unqueued
  rintro event rfl _
  have enabled := step.1
  simp [Chore.Enabled, mode] at enabled

end Steps

end Znn.Injector
