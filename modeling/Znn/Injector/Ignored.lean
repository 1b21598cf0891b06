import Znn.Injector.Chores

/-!
# What kernel mode remembers of a process

An exec event of a process that runs no target puts it among the ignored, and there it stays until
it exits: the exec of a target is passed over if the same process has been seen to run something
else before. Other events leave no trace that a later exec event could depend on.
-/

namespace Znn.Injector

open Interaction

/-- A step of kernel mode in which the process is neither reported to exit nor found gone. -/
def LivesOn (pid : Pid) : Daemon × Chore × Transcript → Prop
  | (own, .kernel event, _) => own.mode = .kernel ∧ (event.pid = pid → event.kind ≠ .exit)
  | (own, .prune, transcript) => own.mode = .kernel ∧ linkOf pid .gone ∉ transcript
  | (own, _, _) => own.mode = .kernel

/-- No event about the process misnames it. -/
def WellNamed (pid : Pid) : Daemon × Chore × Transcript → Prop
  | (own, .kernel event, _) => event.pid = pid → ¬event.Misnamed own.targets
  | _ => True

/-- An event puts the process among the ignored. -/
def Dismissal (pid : Pid) : Daemon × Chore × Transcript → Prop
  | (own, .kernel event, transcript) =>
      event.pid = pid ∧ event.Dismisses own.targets transcript
  | _ => False

/-- An exec that has happened shows that the process runs no target, or that it is gone. -/
def FoundElsewhere (pid : Pid) : Daemon × Chore × Transcript → Prop
  | (own, .kernel event, transcript) =>
      event.pid = pid ∧ event.preExec = false ∧ event.Dismisses own.targets transcript
  | _ => False

theorem dismissal_iff {pid : Pid} {step : Daemon × Chore × Transcript}
    (named : WellNamed pid step) : Dismissal pid step ↔ FoundElsewhere pid step := by
  rcases step with ⟨own, chore, transcript⟩
  cases chore with
  | kernel event =>
      constructor
      · rintro ⟨isPid, dismisses⟩
        refine ⟨isPid, ?_, dismisses⟩
        cases dismisses with
        | path early path reported noTarget =>
            exact absurd ⟨early, path, reported, noTarget⟩ (named isPid)
        | gone late => exact late
        | noTarget late => exact late
      · rintro ⟨isPid, _, dismisses⟩
        exact ⟨isPid, dismisses⟩
  | _ => exact Iff.rfl

/-- An event other than an exit ignores a process iff it dismisses it. -/
theorem Considered.ignored_iff {event : KernelEvent} {settings : Settings} {sheet sheet' : Sheet}
    {transcript : Transcript} (considered : Considered event settings sheet sheet' transcript)
    (lives : event.kind ≠ .exit) :
    sheet'.ignored = true ↔
      sheet.ignored = true ∨ event.Dismisses settings.targets transcript := by
  have stays : ¬event.Dismisses settings.targets transcript →
      (sheet.ignored = true ↔
        sheet.ignored = true ∨ event.Dismisses settings.targets transcript) := by
    intro spares
    simp [spares]
  cases considered with
  | skipped => exact stays nofun
  | exited isExit => exact absurd isExit lives
  | held => exact stays nofun
  | passedOver _ _ early path reported noTarget =>
      simp [KernelEvent.Dismisses.path early path reported noTarget]
  | queued _ _ early named recheck rest =>
      apply stays
      intro dismisses
      cases dismisses with
      | path _ path reported noTarget =>
          rw [named path reported] at noTarget
          cases noTarget
  | unread _ _ late link again unreadable there =>
      apply stays
      intro dismisses
      cases dismisses with
      | gone => exact there rfl
  | gone _ _ late link unreadable => simp [KernelEvent.Dismisses.gone late link unreadable]
  | noTarget _ _ late link readable noTarget =>
      simp [KernelEvent.Dismisses.noTarget late link readable noTarget]
  | observed _ _ late link readable isTarget rest sheet' marked observed =>
      rw [observed.ignored]
      apply stays
      intro dismisses
      cases dismisses with
      | gone _ _ unreadable => exact readable unreadable
      | noTarget _ _ _ noTarget =>
          rw [isTarget] at noTarget
          cases noTarget

section Steps

variable {pid : Pid} {own : Daemon} {sheet : Sheet} {transcript : Transcript}

/-- Only kernel events and what `/proc` is asked for change whether a process is ignored. -/
theorem Moved.ignored {chore : Chore} (moved : Moved pid own chore sheet transcript)
    (noEvent : ∀ event, chore ≠ .kernel event) (noPoll : chore ≠ .poll pid)
    (noSweep : ∀ seen active, chore ≠ .sweep seen active)
    (there : chore = .prune → linkOf pid .gone ∉ transcript) :
    sheet.ignored = (own.sheet pid).ignored := by
  have dropped : ∀ {sheet sheet' : Sheet},
      Rechecked pid own.settings sheet sheet' transcript → sheet'.ignored = sheet.ignored := by
    intro sheet sheet' rechecked
    cases rechecked with
    | dropped | kept => rfl
    | observed _ _ _ _ _ _ _ _ observed => exact observed.ignored
  cases moved with
  | considered event => exact absurd rfl (noEvent event)
  | polled => exact absurd rfl noPoll
  | swept seen active => exact absurd rfl (noSweep seen active)
  | expired _ _ expired => cases expired <;> rfl
  | rechecked _ _ _ rechecked => exact dropped rechecked
  | retried _ _ _ retried =>
      cases retried with
      | held | writtenOff | dropped => rfl
      | observed _ _ _ _ _ _ _ observed => exact observed.ignored
  | pruned _ _ pruned =>
      rcases pruned.ignored with same | ⟨_, gone⟩
      · exact same
      · exact absurd gone (there rfl)
  | unmoved | attached | left | armed | stepped | steered | released => rfl

variable [Usize] [Config.Build]

/-- In kernel mode a living process comes to be ignored by a dismissal, and by nothing else. -/
theorem ignored_step_iff {chore : Chore} {own' : Daemon} (lives : LivesOn pid (own, chore, transcript))
    (next : bookkeeping.Step own (chore, transcript) own') :
    pid ∈ own'.ignored ↔ pid ∈ own.ignored ∨ Dismissal pid (own, chore, transcript) := by
  have flag : ∀ daemon : Daemon, pid ∈ daemon.ignored ↔ (daemon.sheet pid).ignored = true := by
    intro daemon
    simp only [Daemon.sheet, decide_eq_true_eq]
  rw [flag, flag]
  have moves := moves_of_step next
  have kernel : own.mode = .kernel := by
    cases chore with
    | kernel | prune => exact lives.1
    | _ => exact lives
  have stays : (∀ event, chore ≠ .kernel event) →
      (chore = .prune → linkOf pid .gone ∉ transcript) →
      (own'.sheet pid).ignored = (own.sheet pid).ignored := by
    intro noEvent there
    apply (moves.moved pid).ignored noEvent _ _ there
    · rintro rfl
      simpa [Chore.Enabled, kernel] using next.1.2
    · rintro seen active rfl
      simpa [Chore.Enabled, kernel] using next.1
  cases chore with
  | kernel event =>
      rcases next with ⟨_, talks⟩
      rcases talks.of_says (acts_considerKernelEvent event own rfl rfl) with ⟨isLocal, considered⟩
      by_cases isPid : event.pid = pid
      · subst isPid
        rw [considered.ignored_iff (lives.2 rfl)]
        simp only [Dismissal, true_and]
        exact Iff.rfl
      · rw [isLocal.elsewhere pid (Ne.symm isPid)]
        simp [Dismissal, isPid]
  | prune =>
      rw [stays (by rintro _ ⟨⟩) fun _ => lives.2]
      simp [Dismissal]
  | _ =>
      rw [stays (by rintro _ ⟨⟩) (by rintro ⟨⟩)]
      simp [Dismissal]

/-- A post-exec event of an unsettled process whose link names a target is observed iff the
process is not ignored. -/
theorem observation_iff {event : KernelEvent} {link : ExeLink} {own' : Daemon}
    (notInit : 1 < event.pid) (isExec : event.kind = .exec) (late : event.preExec = false)
    (next : bookkeeping.Step own (.kernel event, transcript) own')
    (answers : ∀ other, linkOf event.pid other ∈ transcript → other = link)
    (readable : link.exe ≠ "") (isTarget : event.namesTarget own.targets link.exe = true)
    (untraced : event.pid ∉ own.tracees) (open' : event.pid ∉ own.done) :
    observation event.pid link.exe ∈ transcript ↔ event.pid ∉ own.ignored := by
  rcases next with ⟨_, talks⟩
  rcases talks.of_says (acts_considerKernelEvent event own rfl rfl) with ⟨_, considered⟩
  have known : (own.sheet event.pid).Known ↔ event.pid ∈ own.ignored := by
    rw [← own.known_iff event.pid]
    simp [untraced, open']
  generalize own'.sheet event.pid = sheet at considered
  cases considered with
  | skipped reason =>
      rcases reason with init | isFork | ⟨_, isKnown⟩
      · exact absurd notInit (Int.not_lt.mpr init)
      · rw [isExec] at isFork
        cases isFork
      · simp [known.mp isKnown]
  | exited isExit =>
      rw [isExec] at isExit
      cases isExit
  | held _ _ early | passedOver _ _ early | queued _ _ early =>
      rw [late] at early
      cases early
  | unread _ _ _ other again unreadable =>
      rw [answers other List.mem_cons_self] at unreadable
      exact absurd unreadable readable
  | gone _ _ _ other unreadable =>
      rw [answers other List.mem_cons_self] at unreadable
      exact absurd unreadable readable
  | noTarget _ _ _ other _ noTarget =>
      rw [answers other List.mem_cons_self] at noTarget
      have isTarget' : event.namesTarget own.settings.targets link.exe = true := isTarget
      rw [isTarget'] at noTarget
      cases noTarget
  | observed _ unknown _ other _ _ rest _ marked =>
      rw [answers other List.mem_cons_self] at marked
      rw [known] at unknown
      exact iff_of_true (List.mem_cons_of_mem _ marked) unknown

end Steps

section Runs

variable [Usize] [Config.Build]

/-- An exec of a target is observed in kernel mode iff no earlier exec of the same process has
shown it to be something else. -/
theorem exec_observed_iff {event : KernelEvent} {link : ExeLink} {own before after : Daemon}
    {steps : List (Daemon × Chore × Transcript)} {transcript : Transcript}
    (run : bookkeeping.Run own steps before) (lives : ∀ step ∈ steps, LivesOn event.pid step)
    (named : ∀ step ∈ steps, WellNamed event.pid step) (fresh : event.pid ∉ own.ignored)
    (notInit : 1 < event.pid) (isExec : event.kind = .exec) (late : event.preExec = false)
    (last : bookkeeping.Step before (.kernel event, transcript) after)
    (answers : ∀ other, linkOf event.pid other ∈ transcript → other = link)
    (readable : link.exe ≠ "") (isTarget : event.namesTarget before.targets link.exe = true)
    (untraced : event.pid ∉ before.tracees) (open' : event.pid ∉ before.done) :
    observation event.pid link.exe ∈ transcript ↔
      ∀ step ∈ steps, ¬FoundElsewhere event.pid step := by
  have ignored : event.pid ∈ before.ignored ↔
      event.pid ∈ own.ignored ∨ ∃ step ∈ steps, Dismissal event.pid step := by
    apply run.flag_iff
    rintro ⟨own, chore, transcript⟩ present own' next
    exact ignored_step_iff (lives _ present) next
  rw [observation_iff notInit isExec late last answers readable isTarget untraced open', ignored]
  simp only [fresh, false_or, not_exists, not_and]
  apply forall₂_congr
  intro step present
  rw [dismissal_iff (named step present)]

/-- The exec of a target is observed, whatever the process has run before. -/
def ExecsAlwaysObserved : Prop :=
  ∀ (event : KernelEvent) (link : ExeLink) (own before after : Daemon)
    (steps : List (Daemon × Chore × Transcript)) (transcript : Transcript),
    bookkeeping.Initial own → bookkeeping.Run own steps before →
    (∀ step ∈ steps, LivesOn event.pid step) → event.pid ∉ own.ignored →
    1 < event.pid → event.kind = .exec → event.preExec = false →
    bookkeeping.Step before (.kernel event, transcript) after →
    (∀ other, linkOf event.pid other ∈ transcript → other = link) → link.exe ≠ "" →
    event.namesTarget before.targets link.exe = true →
    event.pid ∉ before.tracees → event.pid ∉ before.done →
    observation event.pid link.exe ∈ transcript

end Runs

/-- The constructor in kernel mode. -/
def startingKernel : Transcript :=
  configured (.text "mode=kernel") :: declaring ++
    [⟨.startKernelTracker, true⟩, configured (.text "mode=kernel")]

/-- An exec event about the process 7. -/
def execOf (preExec : Bool) (filename : Option String) : KernelEvent :=
  { kind := .exec, pid := 7, filename := filename, preExec := preExec }

/-- The exec of a target, while another process traces it. -/
def execHeld : Chore × Transcript :=
  (.kernel (execOf false none), [linkOf 7 (.path "/bin/t"), observation 7 "/bin/t",
    tracerOf 7 (some 3)])

/-- The path of an exec to come names the target. -/
def execAhead : Chore × Transcript :=
  (.kernel (execOf true (some "/bin/t")), [tracerOf 7 none, ⟨.nowMs, (100 : Nat)⟩])

/-- A shell is executed, which is no target. -/
def execShell : Chore × Transcript :=
  (.kernel (execOf false none), [linkOf 7 (.path "/bin/sh")])

/-- The exec of a target by a process that is ignored. -/
def execPassedOver : Chore × Transcript :=
  (.kernel (execOf false none), [])

theorem exec_observed_after_notice : ∃ own before after,
    (@bookkeeping .eight .arm64).Run own [(own, execAhead)] before ∧
      (@bookkeeping .eight .arm64).Step before execHeld after ∧
      (observation 7 "/bin/t" ∈ execHeld.2 ↔
        ∀ step ∈ [(own, execAhead)], ¬FoundElsewhere 7 step) := by
  let _ : Usize := .eight
  let _ : Config.Build := .arm64
  have ran : (((Daemon.new "" none).replay startingKernel).bind fun own =>
      (Chore.attempt own execAhead).bind fun before =>
        (Chore.attempt before execHeld).map fun _ => ((own.mode, own.targets, own.ignored),
          before.targets, before.tracees.keys, before.done)) =
      some ((.kernel, [⟨false, "/bin/t"⟩], []), [⟨false, "/bin/t"⟩], [], []) := by
    decide +kernel
  simp only [Option.bind_eq_some_iff, Option.map_eq_some_iff, Prod.mk.injEq] at ran
  rcases ran with ⟨own, _, before, ahead, after, held, ⟨kernel, targets, ignored⟩, targets',
    tracees, done⟩
  have run : bookkeeping.Run own [(own, execAhead)] before :=
    .snoc .nil (bookkeeping_attempt _ _ _ ahead)
  have last := bookkeeping_attempt _ _ _ held
  refine ⟨own, before, after, run, last, ?_⟩
  apply @exec_observed_iff .eight .arm64 (execOf false none) (.path "/bin/t") own before after _ _ run
  · intro step present
    rw [List.mem_singleton] at present
    rw [present]
    exact ⟨kernel, fun _ => by decide⟩
  · intro step present
    rw [List.mem_singleton] at present
    rw [present]
    rintro _ ⟨_, path, reported, noTarget⟩
    cases reported
    rw [targets] at noTarget
    revert noTarget
    decide +kernel
  · rw [ignored]
    exact List.not_mem_nil
  · decide
  · rfl
  · rfl
  · exact last
  · intro other present
    simpa [execHeld, execOf] using present
  · decide +kernel
  · rw [targets']
    decide +kernel
  · rw [AList.mem_keys, tracees]
    exact List.not_mem_nil
  · rw [done]
    exact List.not_mem_nil

theorem exec_passed_over_after_shell : ¬@ExecsAlwaysObserved .eight .arm64 := by
  intro always
  let _ : Usize := .eight
  let _ : Config.Build := .arm64
  have ran : (((Daemon.new "" none).replay startingKernel).bind fun own =>
      (Chore.attempt own execShell).bind fun before =>
        (Chore.attempt before execPassedOver).map fun _ => ((own.mode, own.ignored),
          before.targets, before.tracees.keys, before.done)) =
      some ((.kernel, []), [⟨false, "/bin/t"⟩], [], []) := by
    decide +kernel
  simp only [Option.bind_eq_some_iff, Option.map_eq_some_iff, Prod.mk.injEq] at ran
  rcases ran with ⟨own, constructed, before, shell, after, passedOver, ⟨kernel, ignored⟩, targets,
    tracees, done⟩
  have run : bookkeeping.Run own [(own, execShell)] before :=
    .snoc .nil (bookkeeping_attempt _ _ _ shell)
  have observed : observation 7 (ExeLink.path "/bin/t").exe ∈ execPassedOver.2 := by
    apply always (execOf false none) (.path "/bin/t") own before after _ _ _ run
    · intro step present
      rw [List.mem_singleton] at present
      rw [present]
      exact ⟨kernel, fun _ => by decide⟩
    · rw [ignored]
      exact List.not_mem_nil
    · decide
    · rfl
    · rfl
    · exact bookkeeping_attempt _ _ _ passedOver
    · rintro other ⟨⟩
    · decide +kernel
    · rw [targets]
      decide +kernel
    · rw [AList.mem_keys, tracees]
      exact List.not_mem_nil
    · rw [done]
      exact List.not_mem_nil
    · exact ⟨"", none, _, Prog.Talks.of_replay constructed⟩
  exact absurd observed List.not_mem_nil

end Znn.Injector
