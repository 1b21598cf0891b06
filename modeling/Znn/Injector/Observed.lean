import Znn.Injector.Sheet

/-!
# What looking at a process makes of its sheet

The passes over `/proc`, the kernel events, the rechecks and the retries all come to
`observe_target` in the end. Here is what each of them makes of the sheet of the process it looks
at, by what the system answered.
-/

namespace Znn.Injector

open Interaction PtraceOps Trace Mode

/-- The path that `read_exe_path` makes of a link: empty where there is none to read. -/
def ExeLink.exe : ExeLink → String
  | .path target => Procfs.stripDeletedSuffix target
  | .gone | .unknown => ""

/-- A request that turns a seizure into `Seizure::Retry`: another tracer holds the process, or it
cannot be seized for lack of permission. -/
def Denied (pid : Pid) (transcript : Transcript) : Prop :=
  (∃ tracer, ⟨.foreignTracer pid, some tracer⟩ ∈ transcript) ∨
    ⟨.seize pid 0, SeizeResult.permissionDenied⟩ ∈ transcript

theorem Denied.mono {pid : Pid} {transcript longer : Transcript} (refused : Denied pid transcript)
    (within : transcript ⊆ longer) : Denied pid longer := by
  rcases refused with ⟨tracer, heard⟩ | heard
  · exact .inl ⟨tracer, within heard⟩
  · exact .inr (within heard)

/-- What an attempt to seize a process makes of its sheet. -/
def AfterSeizure (pid : Pid) (sheet : Sheet) (seizure : Seizure) (sheet' : Sheet)
    (transcript : Transcript) : Prop :=
  match seizure with
  | .seized => ∃ tracee, sheet' = { sheet with tracee := some tracee }
  | .giveUp => sheet' = sheet
  | .retry => sheet' = sheet ∧ Denied pid transcript

theorem AfterSeizure.mono {pid : Pid} {sheet sheet' : Sheet} {seizure : Seizure}
    {transcript longer : Transcript} (after : AfterSeizure pid sheet seizure sheet' transcript)
    (within : transcript ⊆ longer) : AfterSeizure pid sheet seizure sheet' longer := by
  cases seizure with
  | seized | giveUp => exact after
  | retry => exact ⟨after.1, after.2.mono within⟩

/-- What `observe_target` makes of the sheet of its process. -/
inductive Observed (pid : Pid) (mode : Tracking) (sheet : Sheet) (transcript : Transcript) :
    Sheet → Prop where
  /-- The process is seized or given up: it is done with. -/
  | settled (tracee : Option Tracee) :
      Observed pid mode sheet transcript
        { sheet with
          tracee := tracee
          done := true
          candidate := none
          deferred := if mode = .late then none else sheet.deferred }
  /-- The seizure is to be tried again, by whoever has the process in a table. -/
  | refused (notLate : mode ≠ .late) (refused : Denied pid transcript) :
      Observed pid mode sheet transcript sheet
  /-- The seizure is to be tried again, by the retries. -/
  | deferred (isLate : mode = .late) (refused : Denied pid transcript) (now : Nat)
      (heard : ⟨.nowMs, now⟩ ∈ transcript) :
      Observed pid mode sheet transcript
        { sheet with deferred := sheet.deferred.or (some (now + LATE_DEFER_MS)) }

theorem Observed.mono {pid : Pid} {mode : Tracking} {sheet sheet' : Sheet}
    {transcript longer : Transcript} (observed : Observed pid mode sheet transcript sheet')
    (within : transcript ⊆ longer) : Observed pid mode sheet longer sheet' := by
  cases observed with
  | settled tracee => exact .settled tracee
  | refused notLate refused => exact .refused notLate (refused.mono within)
  | deferred isLate refused now heard =>
      exact .deferred isLate (refused.mono within) now (within heard)

theorem Observed.ignored {pid : Pid} {mode : Tracking} {sheet sheet' : Sheet}
    {transcript : Transcript} (observed : Observed pid mode sheet transcript sheet') :
    sheet'.ignored = sheet.ignored := by
  cases observed with
  | settled | refused | deferred => rfl

theorem answering_anything : answering anything = ledger := by
  simp only [answering, anything, Machine.restrict, and_true]

section Links

variable (pid : Pid)

theorem says_readExePath : (Procfs.readExePath pid).Says fun exe transcript =>
    ∃ link : ExeLink, transcript = [⟨.exeLink pid, link⟩] ∧ exe = link.exe := by
  intro link
  cases link with
  | path target => exact ⟨.path target, rfl, rfl⟩
  | gone => exact ⟨.gone, rfl, rfl⟩
  | unknown => exact ⟨.unknown, rfl, rfl⟩

theorem says_processGone : (Procfs.processGone pid).Says fun gone transcript =>
    ∃ link : ExeLink, transcript = [⟨.exeLink pid, link⟩] ∧ (gone = true ↔ link = .gone) := by
  intro link
  cases link with
  | path target => exact ⟨.path target, rfl, nofun, nofun⟩
  | gone => exact ⟨.gone, rfl, by decide, by decide⟩
  | unknown => exact ⟨.unknown, rfl, by decide, by decide⟩

theorem says_isAlive : (Procfs.isAlive pid).Says fun alive transcript =>
    ∃ link : ExeLink, transcript = [⟨.exeLink pid, link⟩] ∧ (alive = true ↔ link ≠ .gone) := by
  intro link
  cases link with
  | path target => exact ⟨.path target, rfl, fun _ => nofun, fun _ => rfl⟩
  | gone => exact ⟨.gone, rfl, by decide, by decide⟩
  | unknown => exact ⟨.unknown, rfl, by decide, by decide⟩

end Links

section Recorded

variable {α : Type} {pid : Pid} {settings : Settings} {sheet : Sheet}

theorem Daemon.Recorded.isLocal {own own' : Daemon} (recorded : own.Recorded own') (pid : Pid) :
    Local pid own own' ∧ own'.sheet pid = own.sheet pid := by
  rcases recorded with ⟨modules, dirty, rfl⟩
  exact ⟨⟨rfl, fun _ _ => rfl⟩, rfl⟩

/-- A program about one process that keeps to its tally leaves every sheet alone. -/
theorem Acts.of_tallies_events {program : DaemonM α} {tally : α → List Event → Prop}
    (tallies : Tallies anything pid program tally) :
    Acts pid program settings sheet fun value sheet' transcript =>
      sheet' = sheet ∧ tally value (significant (eventsOf transcript)) := by
  intro own isSettings isSheet
  have holds := tallies own []
  rw [answering_anything] at holds
  apply (Prog.says_of_wp holds).mono
  rintro ⟨value, own'⟩ transcript ⟨_, ⟨recorded, new, events, _, rfl⟩, isTally⟩
  rcases recorded.isLocal pid with ⟨isLocal, same⟩
  rw [List.nil_append] at events
  refine ⟨isLocal, same.trans isSheet, ?_⟩
  rwa [eventsOf, events]

theorem Acts.of_tallies {program : DaemonM α} {tally : α → List Event → Prop}
    (tallies : Tallies anything pid program tally) :
    Acts pid program settings sheet fun value sheet' _ =>
      sheet' = sheet ∧ ∃ new, tally value new := by
  apply (Acts.of_tallies_events tallies).mono
  rintro value _ transcript ⟨same, isTally⟩
  exact ⟨same, _, isTally⟩

theorem acts_recordFailure (target : Pid) (exe reason : String) :
    Acts pid (Daemon.recordFailure target exe reason) settings sheet fun _ sheet' transcript =>
      sheet' = sheet ∧ ⟨.note (.recordFailure target exe reason), ()⟩ ∈ transcript := by
  apply Acts.bind_perform (.note (.recordFailure target exe reason))
  intro _
  apply Acts.bind_perform (.processName target exe)
  intro name
  have unseen : Sets pid (Daemon.updateModules fun module => module.addFailure exe name reason)
      id := by
    constructor
    · exact fun own => ((Daemon.recorded_updateModules _ own).isLocal pid).1
    · exact fun own => ((Daemon.recorded_updateModules _ own).isLocal pid).2
  apply Acts.change unseen
  exact ⟨rfl, List.mem_cons_self⟩

end Recorded

section Seizures

variable {pid : Pid} {settings : Settings} {sheet : Sheet}

/-- A failure that is not to be tried again. -/
def GivesUp (result : Except Seizure StoppedTarget) : Prop :=
  ∀ seizure, result = .error seizure → seizure = .giveUp

theorem gives_up : GivesUp (.error .giveUp) := by
  rintro seizure ⟨⟩
  rfl

/-- An injection that is not begun leaves the sheet; one that is begun makes the process a
tracee. -/
def Begun (sheet : Sheet) (seizure : Seizure) (sheet' : Sheet) : Prop :=
  seizure = .giveUp ∧ sheet' = sheet ∨
    seizure = .seized ∧ ∃ tracee, sheet' = { sheet with tracee := some tracee }

theorem Begun.afterSeizure {sheet sheet' : Sheet} {seizure : Seizure} {transcript : Transcript}
    (begun : Begun sheet seizure sheet') : AfterSeizure pid sheet seizure sheet' transcript := by
  rcases begun with ⟨rfl, same⟩ | ⟨rfl, seized⟩
  · exact same
  · exact seized

/-- A process that is given up and detached. -/
theorem acts_detach_giveUp :
    Acts pid (do
      Ptrace.detach pid none
      return Seizure.giveUp) settings sheet fun seizure sheet' _ => Begun sheet seizure sheet' := by
  apply Acts.bind_any
  intro _ _
  exact Acts.pure (.inl ⟨rfl, rfl⟩)

/-- What is recorded before a process is given up changes no sheet. -/
theorem acts_record_giveUp (exe reason : String) :
    Acts pid (do
      Daemon.recordFailure pid exe reason
      Ptrace.detach pid none
      return Seizure.giveUp) settings sheet fun seizure sheet' _ => Begun sheet seizure sheet' := by
  apply Acts.bind (acts_recordFailure pid exe reason)
  rintro _ _ _ ⟨rfl, _⟩
  exact acts_detach_giveUp

theorem acts_defer (late : settings.mode = .late) {first : Transcript}
    (refused : Denied pid first) :
    Acts pid (Daemon.defer pid) settings sheet fun _ sheet' transcript =>
      Observed pid settings.mode sheet (first ++ transcript) sheet' := by
  apply Acts.bind_perform .nowMs
  intro now
  apply Acts.change (sets_deferred _)
  apply Observed.deferred late (refused.mono (List.subset_append_left _ _))
  exact List.mem_append_right _ List.mem_cons_self

variable [Usize]

/-- After the seizure itself nothing leads to another try. -/
theorem says_seizeWith (arch : Arch) (is64 : Bool) (entry : Nat) (thumb : Bool) :
    (Daemon.seizeWith pid arch is64 entry thumb).Says fun result transcript =>
      ∀ seizure, result = .error seizure → seizure = .giveUp ∨
        seizure = .retry ∧ ⟨.seize pid 0, SeizeResult.permissionDenied⟩ ∈ transcript := by
  intro seized
  cases seized with
  | permissionDenied =>
      rintro seizure ⟨⟩
      exact .inr ⟨rfl, List.mem_cons_self⟩
  | failed => exact fun seizure isSeizure => .inl (gives_up seizure isSeizure)
  | ok =>
      refine Prog.Says.mono (Prog.Returns.transcripts (?_ : Prog.Returns GivesUp _)) ?_
      · intro interrupted
        have leave : Prog.Returns (I := Sys) GivesUp (do
            Ptrace.detach pid none
            return Except.error Seizure.giveUp) := fun _ => gives_up
        dsimp only [Prog.bind]
        split
        · exact leave
        intro now
        apply Prog.Returns.bind_any (waitForStop pid _)
        intro status
        cases status with
        | none => exact leave
        | some status =>
            dsimp only
            split
            · exact leave
            apply Prog.Returns.bind_any
            intro regs
            cases regs with
            | none => exact leave
            | some regs => rintro seizure ⟨⟩
      · intro result transcript only seizure isSeizure
        exact .inl (only seizure isSeizure)

theorem acts_seizeAndStop (exe : String) :
    Acts pid (Daemon.seizeAndStop pid exe) settings sheet fun result sheet' transcript =>
      sheet' = sheet ∧ ∀ seizure, result = .error seizure → seizure = .giveUp ∨
        seizure = .retry ∧ Denied pid transcript := by
  apply Acts.bind_perform (.foreignTracer pid)
  intro tracer
  cases tracer with
  | some tracer =>
      apply Acts.bind_unseen
      · exact fun own => ⟨rfl, fun _ => rfl⟩
      apply Acts.pure
      refine ⟨rfl, ?_⟩
      rintro seizure ⟨⟩
      exact .inr ⟨rfl, .inl ⟨tracer, List.mem_cons_self⟩⟩
  | none =>
      apply Acts.bind_any
      intro plan first
      cases plan with
      | none =>
          apply Acts.pure
          refine ⟨rfl, ?_⟩
          rintro seizure ⟨⟩
          exact .inl rfl
      | some plan =>
          apply Acts.lift
          apply (says_seizeWith _ _ _ _).mono
          intro result transcript only
          refine ⟨rfl, fun seizure isSeizure => ?_⟩
          rcases only seizure isSeizure with gaveUp | ⟨retry, denied⟩
          · exact .inl gaveUp
          · refine .inr ⟨retry, .inr ?_⟩
            exact List.mem_cons_of_mem _ (List.mem_append_right _ denied)

theorem acts_armEntryInjection (exe : String) (stopped : StoppedTarget) :
    Acts pid (Daemon.armEntryInjection pid exe stopped) settings sheet
      fun seizure sheet' _ => Begun sheet seizure sheet' := by
  apply Acts.bind_get
  intro own _ _
  apply Acts.bind_any
  intro now _
  apply Acts.bind_any
  intro armed _
  cases armed with
  | none => exact acts_detach_giveUp
  | some tracee =>
      apply Acts.bind_change (sets_tracee tracee)
      apply Acts.bind_any
      intro _ _
      exact Acts.pure (.inr ⟨rfl, tracee, rfl⟩)

theorem acts_seizeTarget (exe : String) :
    Acts pid (Daemon.seizeTarget pid exe) settings sheet (AfterSeizure pid sheet) := by
  apply Acts.bind (acts_seizeAndStop exe)
  rintro result _ first ⟨rfl, only⟩
  cases result with
  | error seizure =>
      apply Acts.pure
      rcases only seizure rfl with rfl | ⟨rfl, refused⟩
      · rfl
      · exact ⟨rfl, refused.mono (List.subset_append_left _ _)⟩
  | ok stopped =>
      apply Acts.bind_any
      intro passed _
      split
      · apply (acts_record_giveUp _ _).mono
        exact fun _ _ _ => Begun.afterSeizure
      · apply (acts_armEntryInjection exe stopped).mono
        exact fun _ _ _ => Begun.afterSeizure

variable [Config.Build]

theorem acts_beginLateInjection (tracee : Tracee) :
    Acts pid (Daemon.beginLateInjection pid tracee) settings sheet fun begun sheet' _ =>
      if begun then ∃ tracee, sheet' = { sheet with tracee := some tracee } else sheet' = sheet := by
  apply Acts.bind (Acts.of_tallies (Daemon.tallies_step pid { tracee with state := .late }))
  rintro progress _ _ ⟨rfl, _⟩
  cases progress with
  | finished => exact Acts.pure rfl
  | tracing owned =>
      apply Acts.bind_change (sets_tracee owned)
      exact Acts.pure ⟨owned, rfl⟩

theorem acts_injectLate (exe : String) (stopped : StoppedTarget) :
    Acts pid (Daemon.injectLate pid exe stopped) settings sheet
      fun seizure sheet' _ => Begun sheet seizure sheet' := by
  apply Acts.bind_get
  intro own _ _
  apply Acts.bind_any
  intro armed _
  cases armed with
  | none => exact acts_detach_giveUp
  | some tracee =>
      apply Acts.bind (acts_beginLateInjection tracee)
      intro begun sheet' _ after
      cases begun with
      | true => exact Acts.pure (.inr ⟨rfl, after⟩)
      | false => exact Acts.pure (.inl ⟨rfl, after⟩)

theorem acts_seizeLateTarget (exe : String) :
    Acts pid (Daemon.seizeLateTarget pid exe) settings sheet (AfterSeizure pid sheet) := by
  apply Acts.bind (acts_seizeAndStop exe)
  rintro result _ first ⟨rfl, only⟩
  cases result with
  | error seizure =>
      apply Acts.pure
      rcases only seizure rfl with rfl | ⟨rfl, refused⟩
      · rfl
      · exact ⟨rfl, refused.mono (List.subset_append_left _ _)⟩
  | ok stopped =>
      apply Acts.bind_any
      intro passed _
      split
      · apply (acts_armEntryInjection exe stopped).mono
        exact fun _ _ _ => Begun.afterSeizure
      apply Acts.bind_any
      intro singleThreaded _
      apply Acts.bind_any
      intro age _
      dsimp only
      split
      · apply (acts_record_giveUp _ _).mono
        exact fun _ _ _ => Begun.afterSeizure
      · apply (acts_injectLate exe stopped).mono
        exact fun _ _ _ => Begun.afterSeizure

theorem acts_observeLateTarget (late : settings.mode = .late) (exe : String) :
    Acts pid (Daemon.observeLateTarget pid exe) settings sheet fun _ sheet' transcript =>
      Observed pid settings.mode sheet transcript sheet' := by
  apply Acts.bind_perform (.foreignTracer pid)
  intro tracer
  cases tracer with
  | some tracer =>
      have heard : Denied pid [⟨.foreignTracer pid, some tracer⟩] :=
        .inl ⟨tracer, List.mem_cons_self⟩
      exact acts_defer late heard
  | none =>
      apply Acts.bind (acts_seizeLateTarget exe)
      intro seizure sheet' transcript after
      have settles : ∀ tracee, sheet' = { sheet with tracee := tracee } →
          Observed pid settings.mode sheet (⟨.foreignTracer pid, none⟩ :: (transcript ++ []))
            { sheet' with deferred := none, done := true, candidate := none } := by
        rintro tracee rfl
        have settled : Observed pid settings.mode sheet
            (⟨.foreignTracer pid, none⟩ :: (transcript ++ [])) _ := .settled tracee
        rwa [if_pos late] at settled
      cases seizure with
      | seized =>
          apply Acts.change sets_settledLate
          rcases after with ⟨tracee, seized⟩
          exact settles (some tracee) seized
      | giveUp =>
          apply Acts.change sets_settledLate
          exact settles sheet.tracee after
      | retry =>
          rcases after with ⟨rfl, refused⟩
          apply (acts_defer late refused).mono
          intro _ sheet'' more observed
          exact observed.mono (List.subset_cons_self _ _)

/-- The call of `observe_target` comes before whatever is asked. -/
theorem acts_observeTarget (exe : String) :
    Acts pid (Daemon.observeTarget pid exe) settings sheet fun _ sheet' transcript =>
      Observed pid settings.mode sheet transcript sheet' ∧
        ⟨.note (.observeTarget pid exe), ()⟩ ∈ transcript := by
  apply Acts.bind_perform (.note (.observeTarget pid exe))
  intro _
  apply Acts.bind_get
  rintro own isSettings _
  have modes : own.mode = settings.mode := congrArg Settings.mode isSettings
  rw [modes]
  split
  case isTrue late =>
    apply (acts_observeLateTarget late exe).mono
    intro _ sheet' transcript observed
    exact ⟨observed.mono (List.subset_cons_self _ _), List.mem_cons_self⟩
  case isFalse notLate =>
    apply Acts.bind (acts_seizeTarget exe)
    intro seizure sheet' transcript after
    have settles : ∀ tracee, sheet' = { sheet with tracee := tracee } →
        Observed pid settings.mode sheet
          (⟨.note (.observeTarget pid exe), ()⟩ :: (transcript ++ []))
          { sheet' with done := true, candidate := none } := by
      rintro tracee rfl
      have settled : Observed pid settings.mode sheet
          (⟨.note (.observeTarget pid exe), ()⟩ :: (transcript ++ [])) _ := .settled tracee
      rwa [if_neg notLate] at settled
    cases seizure with
    | seized =>
        apply Acts.change sets_settled
        rcases after with ⟨tracee, seized⟩
        exact ⟨settles (some tracee) seized, List.mem_cons_self⟩
    | giveUp =>
        apply Acts.change sets_settled
        exact ⟨settles sheet.tracee after, List.mem_cons_self⟩
    | retry =>
        rcases after with ⟨rfl, refused⟩
        apply Acts.pure
        refine ⟨.refused notLate (refused.mono ?_), List.mem_cons_self⟩
        intro exchange heard
        exact List.mem_cons_of_mem _ (List.mem_append_left _ heard)

end Seizures

end Znn.Injector
