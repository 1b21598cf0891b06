import Znn.Injector.Modes

/-!
# A mode that has been asked for

`apply_requested_mode` acts on a request once: it remembers the mode that is asked for before it
does anything, and passes over a request that it remembers. In ptrace mode every change begins with
the return of init, which may fail; the request is then remembered all the same.
-/

namespace Znn.Injector

open Interaction Trace Mode

/-- The mode that a request comes to, where it can be served. -/
def Config.trackingFor (wanted : String) : Tracking :=
  if wanted = Config.MODE_LATE then .late
  else if wanted = Config.MODE_KERNEL ∨ wanted = Config.MODE_AUTO then .kernel
  else if wanted = Config.MODE_PROC then .proc
  else .ptrace

/-- Init is stopped to be handed over, and is not handed over. -/
def HandOverFails (transcript : Transcript) : Prop :=
  (∃ stopped, ⟨.interrupt 1, stopped⟩ ∈ transcript) ∧ ⟨.detach 1 none, true⟩ ∉ transcript

/-- Nothing that is tried for the change of mode fails. -/
def Willing (transcript : Transcript) : Prop :=
  ¬HandOverFails transcript ∧ ⟨.startKernelTracker, false⟩ ∉ transcript

/-- Where handing over init fails at a request, a later call that still finds the request, and at
which nothing fails, performs the change. Between the calls anything may have happened that neither
changes the mode nor what the daemon remembers of the configuration. -/
def Daemon.Retries [Config.Build] (own : Daemon) (contents : FileText) : Prop :=
  ∀ own' first, StateProg.Talks applyRequestedMode own ⟨⟩ own' first →
    first.head? = some (configured contents) → HandOverFails first →
    ∀ later later' second, later.mode = own'.mode → later.requestedMode = own'.requestedMode →
      StateProg.Talks applyRequestedMode later ⟨⟩ later' second →
      second.head? = some (configured contents) → Willing second →
      later'.mode = Config.trackingFor (Config.modeOf contents)

theorem Config.modeOf_mem (contents : FileText) :
    Config.modeOf contents ∈ Config.trackingModeOptions := by
  have auto : Config.MODE_AUTO ∈ Config.trackingModeOptions := List.mem_cons_self
  cases contents with
  | notFound | failed => exact auto
  | text contents =>
      unfold Config.modeOf Config.choose
      dsimp only
      split
      case isTrue isOption => exact isOption
      case isFalse => exact auto

/-- Every request but that for ptrace mode comes to another mode. -/
theorem Config.trackingFor_modeOf {contents : FileText}
    (notPtrace : Config.modeOf contents ≠ Config.MODE_PTRACE) :
    Config.trackingFor (Config.modeOf contents) ≠ .ptrace := by
  have isOption := Config.modeOf_mem contents
  simp only [Config.trackingModeOptions, List.mem_cons, List.not_mem_nil, or_false] at isOption
  rcases isOption with asked | asked | asked | asked | asked
  · simp [asked, Config.trackingFor, Config.MODE_AUTO, Config.MODE_LATE]
  · simp [asked, Config.trackingFor, Config.MODE_KERNEL, Config.MODE_LATE]
  · exact absurd asked notPtrace
  · simp [asked, Config.trackingFor, Config.MODE_PROC, Config.MODE_LATE, Config.MODE_KERNEL,
      Config.MODE_AUTO]
  · simp [asked, Config.trackingFor]

section Untouched

variable {own : Daemon}

/-- Init is left alone. -/
def Untouched (transcript : Transcript) : Prop :=
  ∀ stopped, ⟨.interrupt 1, stopped⟩ ∉ transcript

theorem Untouched.append {first second : Transcript} (left : Untouched first)
    (right : Untouched second) : Untouched (first ++ second) := by
  intro stopped present
  rcases List.mem_append.mp present with earlier | later
  · exact left stopped earlier
  · exact right stopped later

theorem Untouched.not_fails {transcript : Transcript} (untouched : Untouched transcript) :
    ¬HandOverFails transcript := by
  rintro ⟨⟨stopped, present⟩, _⟩
  exact untouched stopped present

/-- A program that never asks init to stop. -/
theorem untouched_of_all {program : DaemonM Unit}
    (all : StateProg.All (I := Sys) (fun request => request ≠ .interrupt 1) program) :
    StateProg.Says program (fun _ _ transcript => Untouched transcript) own := by
  apply StateProg.says_mono (all.exchanges own)
  intro _ _ transcript each stopped present
  exact each _ present rfl

/-- Starting the tracker leaves init alone. -/
theorem all_startKernelTracker :
    StateProg.All (I := Sys) (fun request => request ≠ .interrupt 1) Daemon.startKernelTracker := by
  apply StateProg.All.bind StateProg.All.get
  intro daemon
  split
  · exact StateProg.All.pure true
  · have asks : Only (fun request => request ≠ .interrupt 1) (perform .startKernelTracker) :=
      ⟨by simp, fun _ => trivial⟩
    apply StateProg.All.bind (StateProg.All.lift asks)
    intro started
    exact StateProg.All.bind (StateProg.All.modify _) fun _ => StateProg.All.pure started

theorem untouched_leaveKernelMode (wanted : String)
    (elsewhere : own.mode ≠ .ptrace ∨ wanted ≠ Config.MODE_PROC) :
    StateProg.Says (Daemon.leaveKernelMode wanted) (fun _ _ transcript => Untouched transcript)
      own := by
  have nothing : Untouched [] := fun _ => List.not_mem_nil
  unfold Daemon.leaveKernelMode
  rw [StateProg.says_bind, StateProg.says_get]
  dsimp only
  split
  · exact nothing
  split
  · exact nothing
  split
  case isFalse => exact nothing
  case isTrue asked =>
    rcases elsewhere with notPtrace | notProc
    · exact absurd asked.2 notPtrace
    · exact absurd asked.1 notProc

theorem untouched_enterKernelMode (wanted : String) (elsewhere : own.mode ≠ .ptrace) :
    StateProg.Says (Daemon.enterKernelMode wanted) (fun _ _ transcript => Untouched transcript)
      own := by
  unfold Daemon.enterKernelMode
  rw [StateProg.says_bind, StateProg.says_get]
  split
  · exact fun _ => List.not_mem_nil
  rw [StateProg.says_bind]
  apply StateProg.says_mono (StateProg.says_and says_startKernelTracker
    (all_startKernelTracker.exchanges own))
  rintro started _ first ⟨⟨rfl, _⟩, each⟩
  have untouched : Untouched first := fun stopped present => each _ present rfl
  cases started with
  | false =>
      dsimp only
      rw [if_neg Bool.false_ne_true]
      have leaves : StateProg.Says (Daemon.leaveKernelMode wanted)
          (fun _ _ transcript => Untouched transcript) { own with kernel := false } :=
        untouched_leaveKernelMode wanted (.inl elsewhere)
      apply StateProg.says_mono leaves
      exact fun _ _ _ => untouched.append
  | true =>
      rw [if_pos rfl, StateProg.says_bind, StateProg.says_get]
      dsimp only
      rw [if_neg elsewhere]
      exact untouched.append (fun _ => List.not_mem_nil)

theorem untouched_enterLateMode (elsewhere : own.mode ≠ .ptrace) :
    StateProg.Says Daemon.enterLateMode (fun _ _ transcript => Untouched transcript) own := by
  unfold Daemon.enterLateMode
  rw [StateProg.says_bind, StateProg.says_get]
  dsimp only
  rw [if_neg elsewhere]
  apply untouched_of_all
  apply StateProg.All.bind all_startKernelTracker
  intro _
  exact StateProg.All.modify _

end Untouched

section Attempt

variable {own : Daemon}

/-- The return of init is tried: unless it succeeds the mode and the request stay. -/
def Attempts (own : Daemon) (own' : Daemon) (transcript : Transcript) : Prop :=
  (∃ stopped, ⟨.interrupt 1, stopped⟩ ∈ transcript) ∧
    (⟨.detach 1 none, true⟩ ∉ transcript →
      own'.mode = own.mode ∧ own'.requestedMode = own.requestedMode)

theorem says_handOverInit_answers :
    StateProg.Says Daemon.handOverInit (fun handedOver _ transcript =>
      (∃ stopped, ⟨.interrupt 1, stopped⟩ ∈ transcript) ∧
        (handedOver = true → ⟨.detach 1 none, true⟩ ∈ transcript)) own := by
  have stops : (stopTracee 1 INTERRUPT_TIMEOUT_MS).Says fun _ transcript =>
      ∃ stopped, ⟨.interrupt 1, stopped⟩ ∈ transcript := by
    intro stopped
    apply Prog.says_iff_talks.mpr
    exact fun _ _ _ => ⟨stopped, List.mem_cons_self⟩
  unfold Daemon.handOverInit
  rw [StateProg.says_bind, StateProg.says_lift]
  apply stops.mono
  rintro status first ⟨stopped, asked⟩
  cases status with
  | none =>
      refine ⟨⟨stopped, List.mem_append_left _ asked⟩, ?_⟩
      rintro ⟨⟩
  | some status =>
      dsimp only
      rw [StateProg.says_bind, StateProg.says_lift]
      intro detached
      cases detached with
      | true =>
          refine ⟨⟨stopped, List.mem_append_left _ asked⟩, fun _ => ?_⟩
          exact List.mem_append_right _ List.mem_cons_self
      | false =>
          intro _
          refine ⟨⟨stopped, List.mem_append_left _ asked⟩, ?_⟩
          rintro ⟨⟩

/-- What is done only once init has been handed over. -/
theorem says_afterHandOver {program : Bool → DaemonM Unit}
    (refused : ∀ daemon : Daemon, StateProg.Says (program false) (fun _ own' _ =>
      own'.mode = daemon.mode ∧ own'.requestedMode = daemon.requestedMode) daemon) :
    StateProg.Says (do program (← Daemon.handOverInit)) (fun _ own' transcript =>
      Attempts own own' transcript) own := by
  rw [StateProg.says_bind]
  apply StateProg.says_mono (StateProg.says_and says_handOverInit says_handOverInit_answers)
  rintro handedOver middle first ⟨same, ⟨stopped, asked⟩, detached⟩
  cases handedOver with
  | true =>
      apply Prog.says_iff_talks.mpr
      intro _ rest _
      refine ⟨⟨stopped, List.mem_append_left _ asked⟩, fun kept => ?_⟩
      exact absurd (List.mem_append_left _ (detached rfl)) kept
  | false =>
      rw [same]
      apply StateProg.says_mono (refused own)
      intro _ own' rest keeps
      exact ⟨⟨stopped, List.mem_append_left _ asked⟩, fun _ => keeps⟩

theorem says_startKernelTracker_answers :
    StateProg.Says Daemon.startKernelTracker (fun started own' transcript =>
      own'.mode = own.mode ∧ own'.requestedMode = own.requestedMode ∧
        (started = false → ⟨.startKernelTracker, false⟩ ∈ transcript)) own := by
  unfold Daemon.startKernelTracker
  rw [StateProg.says_bind, StateProg.says_get]
  split
  · refine ⟨rfl, rfl, ?_⟩
    rintro ⟨⟩
  · rw [StateProg.says_bind, StateProg.says_lift]
    intro started
    refine ⟨rfl, rfl, fun failed => ?_⟩
    cases failed
    exact List.mem_cons_self

theorem attempts_enterLateMode (ptrace : own.mode = .ptrace) :
    StateProg.Says Daemon.enterLateMode (fun _ own' transcript => Attempts own own' transcript)
      own := by
  unfold Daemon.enterLateMode
  rw [StateProg.says_bind, StateProg.says_get]
  dsimp only
  rw [if_pos ptrace]
  apply says_afterHandOver
  exact fun daemon => ⟨rfl, rfl⟩

theorem attempts_leaveKernelMode (ptrace : own.mode = .ptrace) :
    StateProg.Says (Daemon.leaveKernelMode Config.MODE_PROC) (fun _ own' transcript =>
      Attempts own own' transcript) own := by
  unfold Daemon.leaveKernelMode
  rw [StateProg.says_bind, StateProg.says_get]
  dsimp only
  rw [if_neg (by simp [ptrace]), if_neg (by simp [ptrace]), if_pos ⟨rfl, ptrace⟩]
  apply says_afterHandOver
  exact fun daemon => ⟨rfl, rfl⟩

theorem attempts_enterKernelMode (wanted : String) (ptrace : own.mode = .ptrace) :
    StateProg.Says (Daemon.enterKernelMode wanted) (fun _ own' transcript =>
      ⟨.startKernelTracker, false⟩ ∉ transcript → Attempts own own' transcript) own := by
  unfold Daemon.enterKernelMode
  rw [StateProg.says_bind, StateProg.says_get]
  rw [if_neg (by simp [ptrace]), StateProg.says_bind]
  apply StateProg.says_mono says_startKernelTracker_answers
  rintro started middle first ⟨mode, requested, failed⟩
  cases started with
  | false =>
      apply Prog.says_iff_talks.mpr
      intro _ rest _ starts
      exact absurd (List.mem_append_left _ (failed rfl)) starts
  | true =>
      rw [if_pos rfl, StateProg.says_bind, StateProg.says_get]
      dsimp only
      rw [if_pos (mode.trans ptrace)]
      have attempts : StateProg.Says (do
          let handedOver ← Daemon.handOverInit
          if !handedOver then
            Daemon.stopKernelTracker
          else
            Daemon.changeMode .kernel) (fun _ own' transcript => Attempts middle own' transcript)
          middle := by
        apply says_afterHandOver
        exact fun daemon => ⟨rfl, rfl⟩
      apply StateProg.says_mono attempts
      rintro _ own' rest ⟨⟨stopped, asked⟩, keeps⟩ _
      refine ⟨⟨stopped, List.mem_append_right first asked⟩, fun kept => ?_⟩
      rcases keeps fun detached => kept (List.mem_append_right first detached) with
        ⟨mode', requested'⟩
      exact ⟨mode'.trans mode, requested'.trans requested⟩

end Attempt

section Request

theorem configured_head {contents other : FileText} {rest : Transcript}
    (head : (configured other :: rest).head? = some (configured contents)) : other = contents := by
  cases head
  rfl

variable [Config.Build] {own : Daemon}

/-- The call reads the configuration, and passes over a request that it remembers. -/
theorem says_applyRequestedMode {post : Unit → Daemon → Transcript → Prop}
    (known : ∀ contents, Config.modeOf contents = own.requestedMode →
      post ⟨⟩ own [configured contents])
    (new : ∀ contents, Config.modeOf contents ≠ own.requestedMode →
      StateProg.Says (if Config.modeOf contents = Config.MODE_LATE then
          Daemon.enterLateMode
        else if Config.modeOf contents = Config.MODE_KERNEL ∨
            Config.modeOf contents = Config.MODE_AUTO then
          Daemon.enterKernelMode (Config.modeOf contents)
        else
          Daemon.leaveKernelMode (Config.modeOf contents))
        (fun value own' rest => post value own' (configured contents :: rest))
        { own with requestedMode := Config.modeOf contents }) :
    StateProg.Says Daemon.applyRequestedMode post own := by
  unfold Daemon.applyRequestedMode
  rw [StateProg.says_bind, StateProg.says_lift]
  apply says_effective.mono
  rintro config _ ⟨contents, rfl, mode⟩
  rw [StateProg.says_bind, StateProg.says_get, mode]
  split
  case isTrue same => exact known contents same
  case isFalse differs =>
    rw [StateProg.says_bind, StateProg.says_modify]
    exact new contents differs

/-- Outside ptrace mode, and at a request for ptrace mode, init is left alone. -/
theorem says_elsewhere (contents : FileText)
    (elsewhere : own.mode ≠ .ptrace ∨ Config.modeOf contents = own.requestedMode ∨
      Config.modeOf contents = Config.MODE_PTRACE) :
    StateProg.Says Daemon.applyRequestedMode (fun _ _ transcript =>
      transcript.head? = some (configured contents) → Untouched transcript) own := by
  have head : Untouched [configured contents] := by
    intro stopped present
    cases List.mem_singleton.mp present
  apply says_applyRequestedMode
  · intro other _ isHead
    rwa [configured_head isHead]
  intro other differs
  have reads : ∀ {program : DaemonM Unit} {own : Daemon},
      (other = contents → StateProg.Says program (fun _ _ transcript => Untouched transcript) own) →
      StateProg.Says program (fun _ _ rest =>
        (configured other :: rest).head? = some (configured contents) →
          Untouched (configured other :: rest)) own := by
    intro program own untouched
    apply Prog.says_iff_talks.mpr
    intro _ rest talks isHead
    have same := configured_head isHead
    rw [same]
    exact head.append (Prog.says_iff_talks.mp (untouched same) _ _ talks)
  apply reads
  rintro rfl
  rcases elsewhere with notPtrace | known | asked
  · split
    · exact untouched_enterLateMode notPtrace
    split
    · exact untouched_enterKernelMode _ notPtrace
    · exact untouched_leaveKernelMode _ (.inl notPtrace)
  · exact absurd known differs
  · rw [asked]
    exact untouched_leaveKernelMode _ (.inr (by simp [Config.MODE_PTRACE, Config.MODE_PROC]))

/-- A new request in ptrace mode that the tracker does not stand in the way of comes to the return
of init; unless init is handed over the daemon stays in ptrace mode and remembers the request. -/
theorem says_attempt (contents : FileText) (ptrace : own.mode = .ptrace)
    (new : Config.modeOf contents ≠ own.requestedMode)
    (asked : Config.modeOf contents ≠ Config.MODE_PTRACE) :
    StateProg.Says Daemon.applyRequestedMode (fun _ own' transcript =>
      transcript.head? = some (configured contents) → ⟨.startKernelTracker, false⟩ ∉ transcript →
        ⟨.detach 1 none, true⟩ ∉ transcript → (∃ stopped, ⟨.interrupt 1, stopped⟩ ∈ transcript) ∧
          own'.mode = .ptrace ∧ own'.requestedMode = Config.modeOf contents) own := by
  apply says_applyRequestedMode
  · intro other known isHead
    rw [configured_head isHead] at known
    exact absurd known new
  intro other _
  let remembering : Daemon := { own with requestedMode := Config.modeOf other }
  have stays : remembering.mode = .ptrace := ptrace
  have attempts : other = contents → ∀ {program : DaemonM Unit},
      StateProg.Says program (fun _ own' rest =>
        ⟨.startKernelTracker, false⟩ ∉ rest → Attempts remembering own' rest) remembering →
      StateProg.Says program (fun _ own' rest =>
        (configured other :: rest).head? = some (configured contents) →
        ⟨.startKernelTracker, false⟩ ∉ configured other :: rest →
        ⟨.detach 1 none, true⟩ ∉ configured other :: rest →
        (∃ stopped, ⟨.interrupt 1, stopped⟩ ∈ configured other :: rest) ∧
          own'.mode = .ptrace ∧ own'.requestedMode = Config.modeOf contents) remembering := by
    rintro rfl program holds
    apply StateProg.says_mono holds
    intro _ own' rest attempts _ starts kept
    rcases attempts fun failed => starts (List.mem_cons_of_mem _ failed) with
      ⟨⟨stopped, interrupted⟩, keeps⟩
    rcases keeps fun detached => kept (List.mem_cons_of_mem _ detached) with ⟨mode, requested⟩
    exact ⟨⟨stopped, List.mem_cons_of_mem _ interrupted⟩, mode.trans stays, requested⟩
  by_cases same : other = contents
  swap
  · apply Prog.says_iff_talks.mpr
    intro _ rest _ isHead
    exact absurd (configured_head isHead) same
  apply attempts same
  rw [same]
  have isOption := Config.modeOf_mem contents
  simp only [Config.trackingModeOptions, List.mem_cons, List.not_mem_nil, or_false] at isOption
  split
  · apply StateProg.says_mono (attempts_enterLateMode stays)
    exact fun _ _ _ attempts _ => attempts
  case isFalse notLate =>
    split
    · exact attempts_enterKernelMode _ stays
    case isFalse notKernel =>
      have isProc : Config.modeOf contents = Config.MODE_PROC := by
        rcases isOption with isAuto | isKernel | isPtrace | isProc | isLate
        · exact absurd (.inr isAuto) notKernel
        · exact absurd (.inl isKernel) notKernel
        · exact absurd isPtrace asked
        · exact isProc
        · exact absurd isLate notLate
      rw [isProc]
      apply StateProg.says_mono (attempts_leaveKernelMode stays)
      exact fun _ _ _ attempts _ => attempts

/-- A request that the daemon remembers is passed over. -/
theorem says_known (contents : FileText) (known : Config.modeOf contents = own.requestedMode) :
    StateProg.Says Daemon.applyRequestedMode (fun _ own' transcript =>
      transcript.head? = some (configured contents) →
        own' = own ∧ transcript = [configured contents]) own := by
  apply says_applyRequestedMode
  · intro other _ isHead
    rw [configured_head isHead]
    exact ⟨rfl, rfl⟩
  · intro other differs
    apply Prog.says_iff_talks.mpr
    intro _ rest _ isHead
    rw [configured_head isHead] at differs
    exact absurd known differs

/-- The answers of a system in which init does not stop and everything else succeeds. -/
def refusing (contents : FileText) : (request : Call) → request.Answer
  | .readToString _ => contents
  | .startKernelTracker => true
  | .interrupt _ => false
  | request => bare request

/-- The configuration can always be asked for. -/
theorem exists_request (own : Daemon) (contents : FileText) : ∃ own' rest,
    StateProg.Talks Daemon.applyRequestedMode own ⟨⟩ own' (configured contents :: rest) ∧
      ⟨.startKernelTracker, false⟩ ∉ rest ∧ ⟨.detach 1 none, true⟩ ∉ rest := by
  rcases Prog.exists_talks (refusing contents) (Daemon.applyRequestedMode.run own) with
    ⟨⟨_, own'⟩, transcript, talks, answered⟩
  have begins : StateProg.Says Daemon.applyRequestedMode (fun _ _ transcript =>
      ∃ other rest, transcript = configured other :: rest) own := by
    apply says_applyRequestedMode
    · exact fun other _ => ⟨other, [], rfl⟩
    · intro other _
      apply Prog.says_iff_talks.mpr
      exact fun _ rest _ => ⟨other, rest, rfl⟩
  rcases talks.of_says begins with ⟨other, rest, rfl⟩
  have same : other = contents := answered _ List.mem_cons_self
  rw [same] at talks
  refine ⟨own', rest, talks, ?_, ?_⟩
  · intro failed
    have starts : false = true := answered _ (List.mem_cons_of_mem _ failed)
    cases starts
  · intro detached
    have kept : true = false := answered _ (List.mem_cons_of_mem _ detached)
    cases kept

/-- A request whose hand-over fails is remembered as if it had been served: the call serves it
later only where there is no such failure. -/
theorem retries_iff (own : Daemon) (contents : FileText) :
    own.Retries contents ↔ own.mode ≠ .ptrace ∨ Config.modeOf contents = own.requestedMode ∨
      Config.modeOf contents = Config.MODE_PTRACE := by
  constructor
  · intro retries
    by_contra fails
    simp only [not_or, ne_eq, not_not] at fails
    rcases fails with ⟨ptrace, new, asked⟩
    rcases exists_request own contents with ⟨own', first, talks, starts, kept⟩
    rcases talks.of_says (says_attempt contents ptrace new asked) rfl (by simpa using starts)
      (by simpa using kept) with ⟨interrupted, stays, requested⟩
    -- the second call finds the request remembered
    rcases exists_request own' contents with ⟨later, second, talks', _, _⟩
    rcases talks'.of_says (says_known contents requested.symm) rfl with ⟨isSame, alone⟩
    have willing : Willing (configured contents :: second) := by
      rw [alone]
      constructor
      · rintro ⟨⟨stopped, present⟩, _⟩
        cases List.mem_singleton.mp present
      · intro present
        cases List.mem_singleton.mp present
    have switched := retries own' _ talks rfl ⟨interrupted, by simpa using kept⟩ own' later _ rfl
      rfl talks' rfl willing
    rw [isSame, stays] at switched
    exact Config.trackingFor_modeOf asked switched.symm
  · intro elsewhere own' first talks isHead fails
    exact absurd fails (talks.of_says (says_elsewhere contents elsewhere) isHead).not_fails

end Request

/-- A daemon that traces init, as it was asked to. -/
def tracingInit (requested : String) : Daemon where
  mode := .ptrace
  requestedMode := requested

theorem failed_switch_forgotten :
    ¬@Daemon.Retries .arm64 (tracingInit "ptrace") (.text "mode=proc") := by
  let _ : Config.Build := .arm64
  intro retries
  have first : StateProg.Talks Daemon.applyRequestedMode (tracingInit "ptrace") ⟨⟩
      (tracingInit "proc") [configured (.text "mode=proc"), ⟨.interrupt 1, false⟩] :=
    Prog.Talks.of_replay rfl
  have second : StateProg.Talks Daemon.applyRequestedMode (tracingInit "proc") ⟨⟩
      (tracingInit "proc") [configured (.text "mode=proc")] :=
    Prog.Talks.of_replay rfl
  have fails : HandOverFails [configured (.text "mode=proc"), ⟨.interrupt 1, false⟩] := by
    refine ⟨⟨false, by simp⟩, ?_⟩
    simp [configured]
  have willing : Willing [configured (.text "mode=proc")] := by
    simp [Willing, HandOverFails, configured]
  have switched := retries _ _ first rfl fails _ _ _ rfl rfl second rfl willing
  exact absurd switched (by decide)

end Znn.Injector
