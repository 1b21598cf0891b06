import Znn.Injector.Chores

/-!
# How long late mode defers a process

In late mode a target that cannot be seized yet is deferred, with a deadline. The deadline is set
once: while the process lingers as it is, nothing but a retry takes the entry away, and a retry at
the deadline settles the process one way or the other.
-/

namespace Znn.Injector

open Interaction

/-- The process goes on as it is: the daemon is in late mode, the link names a target whenever it is
read, no exit and no exec of something else is reported, and the process is no new child. -/
structure Lingers (pid : Pid) (link : ExeLink) (own : Daemon) (chore : Chore)
    (transcript : Transcript) : Prop where
  late : own.mode = .late
  shows : ShowsLink pid link transcript
  readable : link.exe ≠ ""
  isTarget : Targets.matches own.targets link.exe = true
  stays : match chore with
    | .kernel event => event.pid = pid → event.kind ≠ .exit ∧ ¬event.Misnamed own.targets
    | .sweep seen _ => pid ∈ seen
    | .report _ _ => ∀ parent (child : Nat),
        ⟨.eventMessage parent, some child⟩ ∈ transcript → (child : Pid) ≠ pid
    | _ => True

theorem Lingers.there {pid : Pid} {link : ExeLink} {own : Daemon} {chore : Chore}
    {transcript : Transcript} (lingers : Lingers pid link own chore transcript) :
    linkOf pid .gone ∉ transcript := by
  intro gone
  have readable := lingers.readable
  rw [← lingers.shows .gone gone] at readable
  exact readable rfl

/-- A retry that finds the process free of another tracer is not refused again. -/
def Accepted (pid : Pid) (chore : Chore) (transcript : Transcript) : Prop :=
  ∀ now, chore = .retry now pid → ∀ rest, transcript = tracerOf pid none :: rest → ¬Denied pid rest

namespace Sheet

/-- The process waits for a retry. -/
def Deferred (sheet : Sheet) (deadline : Nat) : Prop :=
  ¬sheet.Known ∧ sheet.deferred = some deadline

/-- The process is done with. -/
def Settled (sheet : Sheet) : Prop :=
  sheet.done = true ∧ sheet.deferred = none

theorem Settled.known {sheet : Sheet} (settled : sheet.Settled) : sheet.Known :=
  .inr (.inl settled.1)

end Sheet

section Moves

variable {pid : Pid} {link : ExeLink} {own : Daemon} {sheet sheet' : Sheet}
  {transcript : Transcript} {deadline : Nat}

/-- A look at a process in late mode settles it or defers it, with the first deadline. -/
theorem Observed.fate {mode : Tracking} (observed : Observed pid mode sheet transcript sheet')
    (late : mode = .late) (unknown : ¬sheet.Known) :
    sheet'.Settled ∨ Denied pid transcript ∧ ¬sheet'.Known ∧ ∃ now : Nat,
      ⟨.nowMs, now⟩ ∈ transcript ∧
        sheet'.deferred = sheet.deferred.or (some (now + LATE_DEFER_MS)) := by
  cases observed with
  | settled => exact .inl ⟨rfl, if_pos late⟩
  | refused notLate => exact absurd late notLate
  | deferred _ refused now heard => exact .inr ⟨refused, unknown, now, heard, rfl⟩

/-- A look at a deferred process leaves the deadline. -/
theorem Observed.deferral {mode : Tracking} (observed : Observed pid mode sheet transcript sheet')
    (late : mode = .late) (waiting : sheet.Deferred deadline) :
    sheet'.Deferred deadline ∨ sheet'.Settled := by
  rcases observed.fate late waiting.1 with settled | ⟨_, unknown, now, _, deferred⟩
  · exact .inr settled
  · rw [waiting.2, Option.some_or] at deferred
    exact .inl ⟨unknown, deferred⟩

/-- The first deadline is counted from the look that sets it. -/
theorem Observed.put {mode : Tracking} (observed : Observed pid mode sheet transcript sheet')
    (late : mode = .late) (unknown : ¬sheet.Known) (new : sheet.deferred = none)
    (deferred : sheet'.deferred = some deadline) :
    ¬sheet'.Known ∧ ∃ now : Nat, ⟨.nowMs, now⟩ ∈ transcript ∧ deadline = now + LATE_DEFER_MS := by
  rcases observed.fate late unknown with settled | ⟨_, unknown', now, heard, set⟩
  · rw [settled.2] at deferred
    cases deferred
  · rw [new, Option.none_or, deferred, Option.some.injEq] at set
    exact ⟨unknown', now, heard, set⟩

theorem Polled.deferral (polled : Polled pid own.settings (own.sheet pid) sheet transcript)
    (late : own.mode = .late) (shows : ShowsLink pid link transcript)
    (isTarget : Targets.matches own.targets link.exe = true)
    (waiting : (own.sheet pid).Deferred deadline) :
    sheet.Deferred deadline ∨ sheet.Settled := by
  have never : ∀ {other : ExeLink} {rest : Transcript}, ShowsLink pid link (linkOf pid other :: rest) →
      Targets.matches own.settings.targets other.exe = false →
      sheet.Deferred deadline ∨ sheet.Settled := by
    intro other rest shows noTarget
    have isTarget' : Targets.matches own.settings.targets link.exe = true := isTarget
    rw [shows other List.mem_cons_self, isTarget'] at noTarget
    cases noTarget
  cases polled with
  | known | unread | same => exact .inl waiting
  | passedOver _ other _ noTarget | fork _ other _ noTarget | changed _ other _ noTarget =>
      exact never shows noTarget
  | observed _ _ _ _ candidate _ _ _ observed =>
      exact observed.deferral late ⟨waiting.1, waiting.2⟩
  | abandoned _ _ _ _ _ _ notLate => exact absurd late notLate

theorem Considered.deferral {event : KernelEvent}
    (considered : Considered event own.settings (own.sheet event.pid) sheet transcript)
    (late : own.mode = .late) (shows : ShowsLink event.pid link transcript)
    (readable : link.exe ≠ "") (isTarget : Targets.matches own.targets link.exe = true)
    (lives : event.kind ≠ .exit) (named : ¬event.Misnamed own.targets)
    (waiting : (own.sheet event.pid).Deferred deadline) :
    sheet.Deferred deadline ∨ sheet.Settled := by
  cases considered with
  | skipped | held | unread => exact .inl waiting
  | exited isExit => exact absurd isExit lives
  | passedOver _ _ early path reported noTarget =>
      exact absurd ⟨early, path, reported, noTarget⟩ named
  | queued => exact .inl ⟨waiting.1, waiting.2⟩
  | gone _ _ _ other unreadable =>
      rw [shows other List.mem_cons_self] at unreadable
      exact absurd unreadable readable
  | noTarget _ _ _ other _ noTarget =>
      have isTarget' : Targets.matches own.settings.targets link.exe = true := isTarget
      rw [shows other List.mem_cons_self, KernelEvent.namesTarget, isTarget'] at noTarget
      cases noTarget
  | observed _ _ _ _ _ _ _ _ _ observed => exact observed.deferral late waiting

/-- A retry of a deferred process leaves its entry only before the deadline, while another tracer
holds it; unless it is refused again, it settles the process otherwise. -/
theorem Retried.deferral {now : Nat}
    (retried : Retried now pid own.settings (own.sheet pid) sheet transcript)
    (late : own.mode = .late) (shows : ShowsLink pid link transcript)
    (readable : link.exe ≠ "") (isTarget : Targets.matches own.targets link.exe = true)
    (accepted : ∀ rest, transcript = tracerOf pid none :: rest → ¬Denied pid rest)
    (waiting : (own.sheet pid).Deferred deadline) :
    now < deadline ∧ sheet.Deferred deadline ∨ sheet.Settled ∧
      ∀ tracer rest, transcript = tracerOf pid (some tracer) :: rest →
        ∃ exe reason, ⟨.note (.recordFailure pid exe reason), ()⟩ ∈ rest := by
  have entry : (own.sheet pid).deferred.getD 0 = deadline := by
    rw [waiting.2]
    rfl
  cases retried with
  | held tracer early =>
      rw [entry] at early
      exact .inl ⟨early, waiting⟩
  | writtenOff tracer due exe reason rest recorded =>
      right
      refine ⟨⟨rfl, rfl⟩, ?_⟩
      rintro tracer' rest' same
      cases same
      exact ⟨exe, reason, recorded⟩
  | dropped rest reason =>
      rcases reason with gone | known | ⟨other, last, noTarget⟩
      · have same := shows .gone (List.mem_cons_of_mem _ gone)
        rw [← same] at readable
        exact absurd rfl readable
      · exact absurd known waiting.1
      · have same := shows other (List.mem_cons_of_mem _ (List.mem_of_getLast? last))
        rw [same] at noTarget
        rcases noTarget with unreadable | noTarget
        · exact absurd unreadable readable
        · have isTarget' : Targets.matches own.settings.targets link.exe = true := isTarget
          rw [isTarget'] at noTarget
          cases noTarget
  | observed alive other unknown _ _ rest _ observed =>
      right
      have spared : ¬Denied pid rest := by
        intro denied
        apply accepted _ rfl
        apply denied.mono
        intro exchange heard
        exact List.mem_cons_of_mem _ (List.mem_cons_of_mem _ heard)
      refine ⟨?_, by rintro _ _ ⟨⟩⟩
      rcases observed.fate late unknown with settled | ⟨denied, _⟩
      · exact settled
      · exact absurd denied spared

/-- A chore leaves a deferred process deferred, with the deadline it has, or settles it. -/
theorem Moved.deferral {chore : Chore} (moved : Moved pid own chore sheet transcript)
    (notInit : 1 < pid) (lingers : Lingers pid link own chore transcript)
    (accepted : Accepted pid chore transcript) (waiting : (own.sheet pid).Deferred deadline) :
    sheet.Deferred deadline ∨ sheet.Settled := by
  have untraced : (own.sheet pid).tracee = none := ((own.sheet pid).not_known_iff.mp waiting.1).1
  have retraced : { own.sheet pid with tracee := none }.Deferred deadline := by
    rw [← untraced]
    exact waiting
  cases moved with
  | unmoved => exact .inl waiting
  | attached parent status child isChild _ heard =>
      exact absurd isChild (lingers.stays parent child heard)
  | left | released => exact .inl retraced
  | armed _ _ _ traced => exact absurd untraced traced
  | stepped _ _ tracee _ found =>
      rw [untraced] at found
      cases found
  | expired _ _ expired =>
      cases expired with
      | absent => exact .inl waiting
      | kept tracee found | ended tracee found =>
          rw [untraced] at found
          cases found
  | rechecked _ _ _ rechecked =>
      cases rechecked with
      | dropped => exact .inl ⟨waiting.1, waiting.2⟩
      | kept => exact .inl waiting
      | observed _ _ _ _ _ _ _ _ observed =>
          exact observed.deferral lingers.late ⟨waiting.1, waiting.2⟩
  | considered event isPid _ _ considered =>
      subst isPid
      rcases lingers.stays rfl with ⟨lives, named⟩
      exact considered.deferral lingers.late lingers.shows lingers.readable lingers.isTarget lives
        named waiting
  | polled _ _ polled =>
      exact polled.deferral lingers.late lingers.shows lingers.isTarget waiting
  | swept seen =>
      left
      rw [decide_eq_true lingers.stays]
      refine ⟨?_, waiting.2⟩
      rcases (own.sheet pid).not_known_iff.mp waiting.1 with ⟨_, open', unignored⟩
      rw [Sheet.not_known_iff]
      simp [Sheet.swept, untraced, open', unignored]
  | retried now _ _ retried =>
      have spared := accepted now rfl
      rcases retried.deferral lingers.late lingers.shows lingers.readable lingers.isTarget spared
        waiting with ⟨_, deferred⟩ | ⟨settled, _⟩
      · exact .inl deferred
      · exact .inr settled
  | steered _ _ init => exact absurd init (ne_of_gt notInit)
  | pruned _ _ pruned =>
      rw [pruned.same lingers.there]
      exact .inl waiting

/-- What is settled stays settled. -/
theorem Moved.settled {chore : Chore} (moved : Moved pid own chore sheet transcript)
    (enabled : chore.Enabled own) (notInit : 1 < pid)
    (lingers : Lingers pid link own chore transcript) (settled : (own.sheet pid).Settled) :
    sheet.Settled := by
  have known := settled.known
  cases moved with
  | unmoved | attached | left | released | armed | stepped => exact settled
  | expired _ _ expired =>
      cases expired with
      | absent | kept => exact settled
      | ended => exact ⟨rfl, settled.2⟩
  | rechecked _ _ _ rechecked =>
      cases rechecked with
      | dropped | kept => exact settled
      | observed _ _ unknown => exact absurd known unknown
  | considered event isPid _ _ considered =>
      subst isPid
      cases considered with
      | skipped => exact settled
      | exited isExit => exact absurd isExit (lingers.stays rfl).1
      | held _ unknown | passedOver _ unknown | queued _ unknown | unread _ unknown
        | gone _ unknown | noTarget _ unknown | observed _ unknown => exact absurd known unknown
  | polled _ _ polled =>
      rw [(polled.of_known known).1]
      exact settled
  | swept seen =>
      rw [decide_eq_true lingers.stays]
      refine ⟨?_, settled.2⟩
      simp [Sheet.swept, settled.1]
  | retried now _ _ retried =>
      have absent : own.deferred.lookup pid = none := settled.2
      exact absurd enabled.2 (AList.lookup_eq_none.mp absent)
  | steered _ _ init => exact absurd init (ne_of_gt notInit)
  | pruned _ _ pruned =>
      rw [pruned.same lingers.there]
      exact settled

/-- A process that is put among the deferred is in no other table that counts, and its deadline is
counted from then. -/
theorem Moved.put {chore : Chore} (moved : Moved pid own chore sheet transcript)
    (late : own.mode = .late) (new : (own.sheet pid).deferred = none)
    (deferred : sheet.deferred = some deadline) :
    ¬sheet.Known ∧ ∃ now : Nat, ⟨.nowMs, now⟩ ∈ transcript ∧ deadline = now + LATE_DEFER_MS := by
  have never : ∀ {sheet' : Sheet}, sheet'.deferred = none → sheet'.deferred = some deadline →
      ¬sheet'.Known ∧ ∃ now : Nat,
        ⟨.nowMs, now⟩ ∈ transcript ∧ deadline = now + LATE_DEFER_MS := by
    intro sheet' absent present
    rw [absent] at present
    cases present
  have later : ∀ {first rest : Transcript}, (¬sheet.Known ∧ ∃ now : Nat,
      ⟨.nowMs, now⟩ ∈ rest ∧ deadline = now + LATE_DEFER_MS) →
      ¬sheet.Known ∧ ∃ now : Nat,
        ⟨.nowMs, now⟩ ∈ first ++ rest ∧ deadline = now + LATE_DEFER_MS := by
    rintro first rest ⟨unknown, now, heard, counted⟩
    exact ⟨unknown, now, List.mem_append_right _ heard, counted⟩
  cases moved with
  | unmoved | attached | left | armed | stepped | swept | steered | released =>
      exact never new deferred
  | expired _ _ expired =>
      cases expired with
      | absent | kept | ended => exact never new deferred
  | rechecked _ _ _ rechecked =>
      cases rechecked with
      | dropped | kept => exact never new deferred
      | observed alive other unknown _ _ rest _ _ observed =>
          exact @later [linkOf pid alive, linkOf pid other] rest
            (observed.put late unknown new deferred)
  | considered event isPid _ _ considered =>
      subst isPid
      cases considered with
      | skipped | held | passedOver | queued | unread | gone | noTarget =>
          exact never new deferred
      | exited => exact never rfl deferred
      | observed _ unknown _ other _ _ rest _ _ observed =>
          exact @later [linkOf event.pid other] rest (observed.put late unknown new deferred)
  | polled _ _ polled =>
      cases polled with
      | known | unread | passedOver | fork | same | changed | abandoned =>
          exact never new deferred
      | observed unknown other _ _ _ rest _ _ observed =>
          exact @later [linkOf pid other] rest (observed.put late unknown new deferred)
  | retried now _ _ retried =>
      cases retried with
      | held => exact never new deferred
      | writtenOff | dropped => exact never rfl deferred
      | observed alive other unknown _ _ rest _ observed =>
          exact @later [tracerOf pid none, linkOf pid alive, linkOf pid other] rest
            (observed.put late unknown rfl deferred)
  | pruned _ _ pruned =>
      rcases pruned.deferred with same | ⟨absent, _⟩
      · exact never (same.trans new) deferred
      · exact never absent deferred

end Moves

/-- A retry at the deadline, or later, while the process lingers. -/
structure DueRetry [Usize] [Config.Build] (pid : Pid) (link : ExeLink) (deadline now : Nat)
    (before : Daemon) (transcript : Transcript) (after : Daemon) : Prop where
  step : bookkeeping.Step before (.retry now pid, transcript) after
  lingers : Lingers pid link before (.retry now pid) transcript
  due : deadline ≤ now

section Runs

variable [Usize] [Config.Build]

/-- Late mode defers a process once: unless a retry is refused again, its first deadline stays and
the retry at the deadline settles it, with a record of the failure where another tracer holds it. -/
theorem deferral_settled {pid : Pid} {link : ExeLink} {own own' before : Daemon}
    {first : Chore × Transcript} {steps : List (Daemon × Chore × Transcript)} {deadline : Nat}
    (notInit : 1 < pid) (late : own.mode = .late) (put : bookkeeping.Step own first own')
    (new : pid ∉ own.deferred) (isPut : own'.deferred.lookup pid = some deadline)
    (run : bookkeeping.Run own' steps before)
    (lingers : ∀ step ∈ steps, Lingers pid link step.1 step.2.1 step.2.2)
    (accepted : ∀ step ∈ steps, Accepted pid step.2.1 step.2.2) :
    (∃ start : Nat, ⟨.nowMs, start⟩ ∈ first.2 ∧ deadline = start + LATE_DEFER_MS) ∧
      (∀ other, before.deferred.lookup pid = some other → other = deadline) ∧
        ∀ now transcript after, DueRetry pid link deadline now before transcript after →
          Accepted pid (.retry now pid) transcript →
            pid ∈ after.done ∧ pid ∉ after.deferred ∧ ∀ tracer rest,
              transcript = tracerOf pid (some tracer) :: rest →
                ∃ exe reason, ⟨.note (.recordFailure pid exe reason), ()⟩ ∈ rest := by
  have absent : (own.sheet pid).deferred = none := AList.lookup_eq_none.mpr new
  rcases ((moves_of_step put).moved pid).put late absent isPut with ⟨unknown, start, heard, counted⟩
  have fate : (before.sheet pid).Deferred deadline ∨ (before.sheet pid).Settled := by
    induction run with
    | nil => exact .inl ⟨unknown, isPut⟩
    | @snoc steps own own' event run next ih =>
        have earlier := ih (fun step present => lingers step (List.mem_append_left _ present))
          fun step present => accepted step (List.mem_append_left _ present)
        have last : (own, event) ∈ steps ++ [(own, event)] :=
          List.mem_append_right _ List.mem_cons_self
        have moved := (moves_of_step next).moved pid
        rcases earlier with waiting | settled
        · exact moved.deferral notInit (lingers _ last) (accepted _ last) waiting
        · exact .inr (moved.settled next.1 notInit (lingers _ last) settled)
  refine ⟨⟨start, heard, counted⟩, ?_, ?_⟩
  · intro other present
    have entry : (before.sheet pid).deferred = some other := present
    rcases fate with waiting | settled
    · rw [waiting.2, Option.some.injEq] at entry
      exact entry.symm
    · rw [settled.2] at entry
      cases entry
  · intro now transcript after retry accepted'
    rcases fate with waiting | settled
    swap
    · have none : before.deferred.lookup pid = none := settled.2
      exact absurd retry.step.1.2 (AList.lookup_eq_none.mp none)
    have lingers' := retry.lingers
    rcases retry.step with ⟨_, talks⟩
    rcases talks.of_says (acts_retryOne now pid lingers'.late before rfl rfl) with ⟨_, retried⟩
    rcases retried.deferral lingers'.late lingers'.shows lingers'.readable lingers'.isTarget
      (accepted' now rfl) waiting with ⟨early, _⟩ | ⟨settled, recorded⟩
    · exact absurd early (Nat.not_lt.mpr retry.due)
    · have done : decide (pid ∈ after.done) = true := settled.1
      have gone : after.deferred.lookup pid = none := settled.2
      exact ⟨of_decide_eq_true done, AList.lookup_eq_none.mp gone, recorded⟩

/-- Whatever the retries are answered, the first deadline of a deferral bounds it, and a retry at
the deadline injects the process or records why it does not. -/
def DeferralsBounded : Prop :=
  ∀ (pid : Pid) (link : ExeLink) (own own' before : Daemon) (first : Chore × Transcript)
    (steps : List (Daemon × Chore × Transcript)) (deadline : Nat),
    bookkeeping.Reachable own → 1 < pid → own.mode = .late → bookkeeping.Step own first own' →
    pid ∉ own.deferred → own'.deferred.lookup pid = some deadline →
    bookkeeping.Run own' steps before →
    (∀ step ∈ steps, Lingers pid link step.1 step.2.1 step.2.2) →
    (∀ other, before.deferred.lookup pid = some other → other ≤ deadline) ∧
      ∀ now transcript after, DueRetry pid link deadline now before transcript after →
        pid ∈ after.tracees ∨ pid ∈ after.done ∧
          ∃ exe reason, ⟨.note (.recordFailure pid exe reason), ()⟩ ∈ transcript

end Runs

/-- A retry finds the target free, but its ELF header cannot be read. -/
def retryingUnread : Chore × Transcript :=
  (.retry 20000 7, [tracerOf 7 none, linkOf 7 (.path "/bin/t"), linkOf 7 (.path "/bin/t"),
    tracerOf 7 none, tracerOf 7 none, ⟨.elfHeader 7, none⟩])

theorem deferral_settled_when_held : ∃ held waiting after,
    (@bookkeeping .eight .arm64).Run held [(held, retryingHeld 300 [])] waiting ∧
      @DueRetry .eight .arm64 7 (.path "/bin/t") 10200 20000 waiting
        (retryingHeld 20000 writingOff).2 after ∧
      (7 : Pid) ∈ after.done ∧
      ∃ exe reason, ⟨.note (.recordFailure 7 exe reason), ()⟩ ∈ writingOff := by
  let _ : Usize := .eight
  let _ : Config.Build := .arm64
  have ran : (((Daemon.new "" none).replay startingLate).bind fun own =>
      (Chore.attempt own findingHeld).bind fun held =>
        (Chore.attempt held (retryingHeld 300 [])).bind fun waiting =>
          (Chore.attempt waiting (retryingHeld 20000 writingOff)).map fun _ =>
            ((own.mode, own.deferred.keys), (held.mode, held.targets),
              (held.deferred.lookup 7, waiting.mode, waiting.targets))) =
      some ((.late, []), (.late, [⟨false, "/bin/t"⟩]), (some 10200, .late, [⟨false, "/bin/t"⟩])) := by
    decide +kernel
  simp only [Option.bind_eq_some_iff, Option.map_eq_some_iff, Prod.mk.injEq] at ran
  rcases ran with ⟨own, _, held, found, waiting, early, after, due, ⟨late, empty⟩,
    ⟨late', targets'⟩, deadline, late'', targets''⟩
  have new : (7 : Pid) ∉ own.deferred := by
    rw [AList.mem_keys, empty]
    exact List.not_mem_nil
  have lingers : ∀ (before : Daemon) (now : Nat) (rest : Transcript), before.mode = .late →
      before.targets = [⟨false, "/bin/t"⟩] →
      (∀ other, linkOf 7 other ∈ rest → other = .path "/bin/t") →
      Lingers 7 (.path "/bin/t") before (.retry now 7) (tracerOf 7 (some 3) :: rest) := by
    intro before now rest isLate targets shows
    refine ⟨isLate, ?_, by decide +kernel, ?_, trivial⟩
    · intro other present
      apply shows
      simpa using present
    · rw [targets]
      decide +kernel
  have accepted : ∀ (now : Nat) (rest : Transcript),
      Accepted 7 (.retry now 7) (tracerOf 7 (some 3) :: rest) := by
    rintro now rest _ _ _ ⟨⟩
  have run : bookkeeping.Run held [(held, retryingHeld 300 [])] waiting :=
    .snoc .nil (bookkeeping_attempt _ _ _ early)
  have retry : DueRetry 7 (.path "/bin/t") 10200 20000 waiting (retryingHeld 20000 writingOff).2
      after := by
    refine ⟨bookkeeping_attempt _ _ _ due, lingers _ _ _ late'' targets'' ?_, by decide⟩
    intro other present
    simpa [writingOff] using present
  have lingering : ∀ step ∈ [(held, retryingHeld 300 [])],
      Lingers 7 (.path "/bin/t") step.1 step.2.1 step.2.2 := by
    intro step present
    rw [List.mem_singleton] at present
    rw [present]
    exact lingers _ _ _ late' targets' fun _ heard => absurd heard List.not_mem_nil
  have accepting : ∀ step ∈ [(held, retryingHeld 300 [])], Accepted 7 step.2.1 step.2.2 := by
    intro step present
    rw [List.mem_singleton] at present
    rw [present]
    exact accepted _ _
  have settled := deferral_settled (by decide) late (bookkeeping_attempt _ _ _ found) new deadline
    run lingering accepting
  rcases settled.2.2 _ _ _ retry (accepted _ _) with ⟨done, _, recorded⟩
  exact ⟨held, waiting, after, run, retry, done, recorded 3 writingOff rfl⟩

theorem given_up_without_record : ¬@DeferralsBounded .eight .arm64 := by
  intro always
  let _ : Usize := .eight
  let _ : Config.Build := .arm64
  have ran : (((Daemon.new "" none).replay startingLate).bind fun own =>
      (Chore.attempt own findingHeld).bind fun held =>
        (Chore.attempt held retryingUnread).map fun after =>
          ((own.mode, own.deferred.keys), (held.mode, held.targets),
            (held.deferred.lookup 7, after.tracees.keys))) =
      some ((.late, []), (.late, [⟨false, "/bin/t"⟩]), (some 10200, [])) := by
    decide +kernel
  simp only [Option.bind_eq_some_iff, Option.map_eq_some_iff, Prod.mk.injEq] at ran
  rcases ran with ⟨own, constructed, held, found, after, retried, ⟨late, empty⟩, ⟨late', targets⟩,
    deadline, untraced⟩
  have start : bookkeeping.Reachable own :=
    .initial ⟨"", none, _, Prog.Talks.of_replay constructed⟩
  have new : (7 : Pid) ∉ own.deferred := by
    rw [AList.mem_keys, empty]
    exact List.not_mem_nil
  have lingers : Lingers 7 (.path "/bin/t") held (.retry 20000 7) retryingUnread.2 := by
    refine ⟨late', ?_, by decide +kernel, ?_, trivial⟩
    · intro other present
      simpa [retryingUnread] using present
    · rw [targets]
      decide +kernel
  have due : DueRetry 7 (.path "/bin/t") 10200 20000 held retryingUnread.2 after :=
    ⟨bookkeeping_attempt _ _ _ retried, lingers, by decide⟩
  have bounded := always 7 (.path "/bin/t") own held held findingHeld [] 10200 start (by decide) late
    (bookkeeping_attempt _ _ _ found) new deadline .nil (fun _ present =>
      absurd present List.not_mem_nil)
  rcases bounded.2 _ _ _ due with traced | ⟨_, exe, reason, recorded⟩
  · rw [AList.mem_keys, untraced] at traced
    exact absurd traced List.not_mem_nil
  · simp [retryingUnread] at recorded

end Znn.Injector
