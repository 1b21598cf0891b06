import Znn.Interaction.Reach
import Znn.Injector.Visits

/-!
# The shortcut of the pass over `/proc`

`poll_processes` returns early while the last allocated pid is the one it remembers and there are
no candidates. It remembers that pid before it has looked at the processes: what a pass could not
look at, or has looked at and forgotten, a shortcut misses.
-/

namespace Znn.Injector

open Interaction Mode

/-- What a call of `poll_processes` can see: the last allocated pid, where it can be read, the
processes there are, those that the directory yields, where it can be read, and the links. -/
structure View where
  last : Option Pid
  contents : List Pid
  listed : Option (List Pid)
  within : ∀ pids, listed = some pids → pids ⊆ contents
  link : Pid → ExeLink

namespace View

/-- The exchange says what can be seen. -/
def Tells (view : View) : Exchange Sys → Prop
  | ⟨.lastAllocatedPid, last⟩ => last = view.last
  | ⟨.listProcesses, listed⟩ => listed = view.listed
  | ⟨.exeLink pid, link⟩ => link = view.link pid
  | _ => True

/-- A process appears only after the last allocated pid has changed. -/
def Follows (view earlier : View) : Prop :=
  earlier.last ≠ none → view.last = earlier.last → view.contents ⊆ earlier.contents

end View

/-- The link names a target, or init before its exec. -/
def ExeLink.Draws (link : ExeLink) (targets : List Target) : Prop :=
  link.exe ≠ "" ∧
    (Targets.matches targets link.exe = true ∨ Procfs.isPreExecFork link.exe = true)

namespace Daemon

variable [Usize] [Config.Build]

/-- `poll_processes` without its shortcut. -/
def fullScan : DaemonM Unit := do
  let some listed ← perform .listProcesses
    | return
  let seen := listed.filter fun pid => decide (pid > 1)
  let active ← pollEach seen
  modify (finishPoll seen active)

/-- When `poll_processes` returns early. -/
def TakesShortcut (own : Daemon) (view : View) : Prop :=
  view.last.isSome = true ∧ view.last = own.lastAllocatedPid ∧ own.candidates.keys = []

instance (own : Daemon) (view : View) : Decidable (own.TakesShortcut view) := by
  unfold TakesShortcut
  infer_instance

/-- A full scan of what can be seen observes no target and leaves no candidate. -/
def SeesNothing (own : Daemon) (view : View) : Prop :=
  ∀ own' transcript, StateProg.Talks fullScan own ⟨⟩ own' transcript →
    (∀ exchange ∈ transcript, view.Tells exchange) →
    (∀ pid exe, observation pid exe ∉ transcript) ∧ own'.candidates.keys = []

/-- A pass leaves the process, which is there, in no table: the directory or the process is not
listed, its link is not readable, or it is ignored in the pass that forgets the ignored. -/
def Misses (own : Daemon) (view : View) (pid : Pid) : Prop :=
  pid ∈ view.contents ∧ pid ∉ own.tracees ∧
    match view.listed with
    | none => pid ∉ own.done ∧ pid ∉ own.ignored
    | some pids => pid ∉ pids ∨ pid ∉ own.done ∧
        (pid ∉ own.ignored ∧ (view.link pid).exe = "" ∨
          own.ignoredRescans + 1 ≥ RESCANS ∧
            (pid ∈ own.ignored ∨ Targets.matches own.targets (view.link pid).exe = false))

theorem pollProcesses_eq : pollProcesses = (do
    let lastPid ← perform .lastAllocatedPid
    let daemon ← get
    if lastPid.isSome ∧ lastPid = daemon.lastAllocatedPid ∧ daemon.candidates.keys = [] then
      return ← modify fun daemon => { daemon with procScanActive := false }
    modify fun daemon => { daemon with lastAllocatedPid := lastPid }
    fullScan) :=
  rfl

end Daemon

/-- The process is a candidate that is not a target yet. -/
def Sheet.Waits (sheet : Sheet) (link : ExeLink) (targets : List Target) : Prop :=
  ¬sheet.Known ∧ Targets.matches targets link.exe = false ∧
    ∃ candidate, sheet.candidate = some candidate ∧ link.exe = candidate.exe

section Visit

variable {link : ExeLink} {pid : Pid} {settings : Settings} {sheet sheet' : Sheet}
  {transcript : Transcript}

namespace Polled

theorem of_unread (polled : Polled pid settings sheet sheet' transcript)
    (shows : ShowsLink pid link transcript) (unreadable : link.exe = "") : sheet' = sheet := by
  have never : ∀ {other : ExeLink} {rest : Transcript}, ShowsLink pid link (linkOf pid other :: rest) →
      other.exe ≠ "" → sheet' = sheet := by
    intro other rest shows readable
    rw [shows other List.mem_cons_self] at readable
    exact absurd unreadable readable
  cases polled with
  | known | unread | same => rfl
  | passedOver _ other readable | fork _ other readable | changed _ other readable
    | observed _ other readable | abandoned _ other readable => exact never shows readable

/-- After a visit the process is known or a candidate, unless its link was not readable. -/
theorem settles (polled : Polled pid settings sheet sheet' transcript)
    (shows : ShowsLink pid link transcript) :
    link.exe = "" ∨ sheet'.Known ∨ sheet'.candidate ≠ none := by
  cases polled with
  | known isKnown => exact .inr (.inl isKnown)
  | unread _ other unreadable =>
      rw [shows other List.mem_cons_self] at unreadable
      exact .inl unreadable
  | passedOver | changed => exact .inr (.inl (.inr (.inr rfl)))
  | fork => exact .inr (.inr (by simp))
  | same _ _ _ _ candidate old => exact .inr (.inr (by simp [old]))
  | observed _ _ _ _ candidate _ _ _ observed =>
      cases observed with
      | settled => exact .inr (.inl (.inr (.inl rfl)))
      | refused | deferred => exact .inr (.inr (by simp))
  | abandoned => exact .inr (.inl (.inr (.inl rfl)))

/-- A process that runs no target is neither traced nor done with. -/
theorem of_noTarget (polled : Polled pid settings sheet sheet' transcript)
    (shows : ShowsLink pid link transcript)
    (noTarget : Targets.matches settings.targets link.exe = false) :
    sheet'.tracee = sheet.tracee ∧ sheet'.done = sheet.done := by
  have never : ∀ {other : ExeLink} {rest : Transcript}, ShowsLink pid link (linkOf pid other :: rest) →
      Targets.matches settings.targets other.exe = true →
      sheet'.tracee = sheet.tracee ∧ sheet'.done = sheet.done := by
    intro other rest shows isTarget
    rw [shows other List.mem_cons_self, noTarget] at isTarget
    cases isTarget
  cases polled with
  | known | unread | passedOver | fork | same | changed => exact ⟨rfl, rfl⟩
  | observed _ other _ isTarget | abandoned _ other _ isTarget => exact never shows isTarget

/-- A process that runs a target is not ignored. -/
theorem of_target (polled : Polled pid settings sheet sheet' transcript)
    (shows : ShowsLink pid link transcript)
    (isTarget : Targets.matches settings.targets link.exe = true) :
    sheet'.ignored = sheet.ignored := by
  have never : ∀ {other : ExeLink} {rest : Transcript}, ShowsLink pid link (linkOf pid other :: rest) →
      Targets.matches settings.targets other.exe = false → sheet'.ignored = sheet.ignored := by
    intro other rest shows noTarget
    rw [shows other List.mem_cons_self, isTarget] at noTarget
    cases noTarget
  cases polled with
  | known | unread | same | fork | abandoned => rfl
  | passedOver _ other _ noTarget | changed _ other _ noTarget => exact never shows noTarget
  | observed _ _ _ _ _ _ _ _ observed => exact observed.ignored

/-- Without a candidate, nothing comes of a process that is known or runs something else. -/
theorem quiet (polled : Polled pid settings sheet sheet' transcript)
    (shows : ShowsLink pid link transcript) (new : sheet.candidate = none)
    (calm : sheet.Known ∨ ¬link.Draws settings.targets) :
    (sheet'.candidate = none ∧ (sheet'.Known ∨ ¬link.Draws settings.targets)) ∧
      ∀ other exe, observation other exe ∉ transcript := by
  have never : ∀ {other : ExeLink} {rest : Transcript}, ShowsLink pid link (linkOf pid other :: rest) →
      ¬sheet.Known → other.Draws settings.targets → False := by
    intro other rest shows unknown draws
    rw [shows other List.mem_cons_self] at draws
    rcases calm with isKnown | isCalm
    · exact unknown isKnown
    · exact isCalm draws
  cases polled with
  | known => exact ⟨⟨new, calm⟩, fun _ _ => List.not_mem_nil⟩
  | unread => exact ⟨⟨new, calm⟩, by simp⟩
  | passedOver => exact ⟨⟨new, .inl (.inr (.inr rfl))⟩, by simp⟩
  | fork unknown other readable _ isFork =>
      exact absurd ⟨readable, .inr isFork⟩ (never shows unknown)
  | same _ _ _ _ _ old | changed _ _ _ _ _ old | abandoned _ _ _ _ _ old =>
      rw [new] at old
      cases old
  | observed unknown other readable isTarget =>
      exact absurd ⟨readable, .inl isTarget⟩ (never shows unknown)

/-- A new target is observed, a new fork of init becomes a candidate. -/
theorem drawn (polled : Polled pid settings sheet sheet' transcript)
    (shows : ShowsLink pid link transcript) (unknown : ¬sheet.Known) (new : sheet.candidate = none)
    (draws : link.Draws settings.targets) :
    observation pid link.exe ∈ transcript ∨ sheet'.Waits link settings.targets := by
  cases polled with
  | known isKnown => exact absurd isKnown unknown
  | unread _ other unreadable =>
      rw [shows other List.mem_cons_self] at unreadable
      exact absurd unreadable draws.1
  | passedOver _ other _ noTarget noFork =>
      rw [shows other List.mem_cons_self] at noTarget noFork
      rcases draws.2 with isTarget | isFork
      · rw [isTarget] at noTarget
        cases noTarget
      · rw [isFork] at noFork
        cases noFork
  | fork _ other _ noTarget =>
      rw [shows other List.mem_cons_self] at noTarget ⊢
      exact .inr ⟨unknown, noTarget, _, rfl, rfl⟩
  | same _ _ _ _ _ old | changed _ _ _ _ _ old | abandoned _ _ _ _ _ old =>
      rw [new] at old
      cases old
  | observed _ other _ _ _ rest _ marked =>
      rw [shows other List.mem_cons_self] at marked
      exact .inl (List.mem_cons_of_mem _ marked)

theorem waits (polled : Polled pid settings sheet sheet' transcript)
    (shows : ShowsLink pid link transcript) (waits : sheet.Waits link settings.targets) :
    sheet'.Waits link settings.targets := by
  rcases waits with ⟨unknown, noTarget, candidate, present, unchanged⟩
  cases polled with
  | known isKnown => exact absurd isKnown unknown
  | unread | same => exact ⟨unknown, noTarget, candidate, present, unchanged⟩
  | passedOver _ _ _ _ _ new | fork _ _ _ _ _ new =>
      rw [new] at present
      cases present
  | changed _ other _ _ _ old differs =>
      rw [present] at old
      cases old
      rw [shows other List.mem_cons_self] at differs
      exact absurd unchanged differs
  | observed _ other _ isTarget | abandoned _ other _ isTarget =>
      rw [shows other List.mem_cons_self, noTarget] at isTarget
      cases isTarget

end Polled

end Visit

/-- Visits to one process in a pass, and what they make of its sheet. -/
inductive Looked (link : ExeLink) (pid : Pid) (settings : Settings) :
    Sheet → List Transcript → Sheet → Prop where
  | nil (sheet : Sheet) : Looked link pid settings sheet [] sheet
  | cons {sheet sheet' sheet'' : Sheet} {transcript : Transcript} {rest : List Transcript}
      (polled : Polled pid settings sheet sheet' transcript) (shows : ShowsLink pid link transcript)
      (looked : Looked link pid settings sheet' rest sheet'') :
      Looked link pid settings sheet (transcript :: rest) sheet''

namespace Looked

variable {link : ExeLink} {pid : Pid} {settings : Settings} {sheet sheet' : Sheet}
  {visits : List Transcript}

theorem of_known (looked : Looked link pid settings sheet visits sheet') (known : sheet.Known) :
    sheet' = sheet := by
  induction looked with
  | nil => rfl
  | cons polled _ _ ih =>
      rcases polled.of_known known with ⟨rfl, _⟩
      exact ih known

theorem of_unread (looked : Looked link pid settings sheet visits sheet')
    (unreadable : link.exe = "") : sheet' = sheet := by
  induction looked with
  | nil => rfl
  | cons polled shows _ ih =>
      rw [ih]
      exact polled.of_unread shows unreadable

theorem settles (looked : Looked link pid settings sheet visits sheet') (visited : visits ≠ []) :
    link.exe = "" ∨ sheet'.Known ∨ sheet'.candidate ≠ none := by
  induction looked with
  | nil => exact absurd rfl visited
  | cons polled shows rest ih =>
      cases rest with
      | nil => exact polled.settles shows
      | cons => exact ih nofun

theorem of_noTarget (looked : Looked link pid settings sheet visits sheet')
    (noTarget : Targets.matches settings.targets link.exe = false) :
    sheet'.tracee = sheet.tracee ∧ sheet'.done = sheet.done := by
  induction looked with
  | nil => exact ⟨rfl, rfl⟩
  | cons polled shows _ ih =>
      rcases polled.of_noTarget shows noTarget with ⟨tracee, done⟩
      exact ⟨ih.1.trans tracee, ih.2.trans done⟩

theorem of_target (looked : Looked link pid settings sheet visits sheet')
    (isTarget : Targets.matches settings.targets link.exe = true) :
    sheet'.ignored = sheet.ignored := by
  induction looked with
  | nil => rfl
  | cons polled shows _ ih => exact ih.trans (polled.of_target shows isTarget)

theorem quiet (looked : Looked link pid settings sheet visits sheet')
    (new : sheet.candidate = none) (calm : sheet.Known ∨ ¬link.Draws settings.targets) :
    sheet'.candidate = none ∧ ∀ transcript ∈ visits, ∀ other exe,
      observation other exe ∉ transcript := by
  induction looked with
  | nil => exact ⟨new, fun _ present => absurd present List.not_mem_nil⟩
  | cons polled shows _ ih =>
      rcases polled.quiet shows new calm with ⟨⟨new', calm'⟩, first⟩
      rcases ih new' calm' with ⟨new'', later⟩
      refine ⟨new'', ?_⟩
      intro transcript present
      rcases List.mem_cons.mp present with rfl | present
      · exact first
      · exact later transcript present

theorem waits (looked : Looked link pid settings sheet visits sheet')
    (waits : sheet.Waits link settings.targets) : sheet'.Waits link settings.targets := by
  induction looked with
  | nil => exact waits
  | cons polled shows _ ih => exact ih (polled.waits shows waits)

theorem drawn (looked : Looked link pid settings sheet visits sheet') (visited : visits ≠ [])
    (unknown : ¬sheet.Known) (new : sheet.candidate = none)
    (draws : link.Draws settings.targets) :
    (∃ transcript ∈ visits, observation pid link.exe ∈ transcript) ∨ sheet'.candidate ≠ none := by
  cases looked with
  | nil => exact absurd rfl visited
  | cons polled shows looked =>
      rcases polled.drawn shows unknown new draws with marked | isWaiting
      · exact .inl ⟨_, List.mem_cons_self, marked⟩
      · rcases looked.waits isWaiting with ⟨_, _, candidate, present, _⟩
        exact .inr (by simp [present])

end Looked

section Pass

variable [Usize] [Config.Build] {view : View} {own : Daemon}

/-- The visits to one process among those of a pass. -/
def visitsTo (pid : Pid) (visits : List (Pid × Transcript)) : List Transcript :=
  (visits.filter fun visit => visit.1 = pid).map Prod.snd

/-- A pass is a sequence of visits, one to each process in turn. -/
theorem says_pollEach (pids : List Pid) :
    StateProg.Says (Daemon.pollEach pids) (fun _ own' transcript =>
      (∀ exchange ∈ transcript, view.Tells exchange) →
        own'.settings = own.settings ∧ ∃ visits : List (Pid × Transcript),
          visits.map Prod.fst = pids ∧ transcript = visits.flatMap Prod.snd ∧
            ∀ pid, Looked (view.link pid) pid own.settings (own.sheet pid) (visitsTo pid visits)
              (own'.sheet pid)) own := by
  induction pids generalizing own with
  | nil =>
      intro _
      exact ⟨rfl, [], rfl, rfl, fun pid => .nil _⟩
  | cons head rest ih =>
      unfold Daemon.pollEach
      rw [StateProg.says_bind]
      apply StateProg.says_mono (acts_pollOne head own rfl rfl)
      rintro first middle transcript ⟨isLocal, polled⟩
      rw [StateProg.says_bind]
      apply StateProg.says_mono ih
      intro others own' more looks told
      simp only [List.append_nil] at told
      have shows : ShowsLink head (view.link head) transcript := by
        intro other present
        exact told _ (List.mem_append_left _ present)
      rcases looks fun exchange present => told exchange (List.mem_append_right _ present) with
        ⟨settings, visits, pids, rfl, looked⟩
      refine ⟨settings.trans isLocal.settings, (head, transcript) :: visits, ?_, ?_, ?_⟩
      · rw [List.map_cons, pids]
      · simp
      · intro pid
        rw [isLocal.settings] at looked
        by_cases isHead : head = pid
        · subst isHead
          have visited : visitsTo head ((head, transcript) :: visits) =
              transcript :: visitsTo head visits := by simp [visitsTo]
          rw [visited]
          exact .cons polled shows (looked head)
        · have unvisited : visitsTo pid ((head, transcript) :: visits) = visitsTo pid visits := by
            simp [visitsTo, isHead]
          rw [unvisited, ← isLocal.elsewhere pid (Ne.symm isHead)]
          exact looked pid

/-- What a full scan makes of the tables. -/
inductive Scanned (view : View) (own own' : Daemon) : Transcript → Prop where
  | unread (unlisted : view.listed = none) (same : own' = own) :
      Scanned view own own' [⟨.listProcesses, none⟩]
  | passed (pids : List Pid) (listed : view.listed = some pids)
      (visits : List (Pid × Transcript))
      (each : visits.map Prod.fst = pids.filter fun pid => decide (pid > 1))
      (targets : own'.targets = own.targets)
      (last : own'.lastAllocatedPid = own.lastAllocatedPid)
      (sheets : ∀ pid, ∃ sheet,
        Looked (view.link pid) pid own.settings (own.sheet pid) (visitsTo pid visits) sheet ∧
          own'.sheet pid = sheet.swept (decide (pid ∈ pids.filter fun pid => decide (pid > 1)))
            (decide (own.ignoredRescans + 1 ≥ RESCANS))) :
      Scanned view own own' (⟨.listProcesses, some pids⟩ :: visits.flatMap Prod.snd)

theorem says_fullScan : StateProg.Says Daemon.fullScan (fun _ own' transcript =>
    (∀ exchange ∈ transcript, view.Tells exchange) → Scanned view own own' transcript) own := by
  unfold Daemon.fullScan
  rw [StateProg.says_bind, StateProg.says_lift]
  intro listed
  cases listed with
  | none =>
      intro told
      have unlisted : none = view.listed := told _ List.mem_cons_self
      exact .unread unlisted.symm rfl
  | some pids =>
      dsimp only [Prog.Says]
      rw [StateProg.says_bind]
      apply StateProg.says_mono (@says_pollEach _ _ view own _)
      intro active middle transcript looks told
      simp only [List.append_nil, List.singleton_append] at told ⊢
      have listed : some pids = view.listed := told _ List.mem_cons_self
      rcases looks fun exchange present => told exchange (List.mem_cons_of_mem _ present) with
        ⟨settings, visits, each, rfl, looked⟩
      apply Scanned.passed pids listed.symm visits each
      · exact congrArg Settings.targets settings
      · exact congrArg Settings.lastAllocatedPid settings
      · intro pid
        have rescans : middle.ignoredRescans = own.ignoredRescans :=
          congrArg Settings.ignoredRescans settings
        refine ⟨middle.sheet pid, looked pid, ?_⟩
        rw [Daemon.sheet_finishPoll, rescans]

end Pass

section Classification

variable {view : View} {own own' : Daemon} {transcript : Transcript} {pid : Pid}

theorem visitsTo_ne_nil {visits : List (Pid × Transcript)} (visited : pid ∈ visits.map Prod.fst) :
    visitsTo pid visits ≠ [] := by
  rcases List.mem_map.mp visited with ⟨visit, present, rfl⟩
  apply List.ne_nil_of_mem
  exact List.mem_map_of_mem (List.mem_filter.mpr ⟨present, by simp⟩)

theorem visitsTo_eq_nil {visits : List (Pid × Transcript)} (unvisited : pid ∉ visits.map Prod.fst) :
    visitsTo pid visits = [] := by
  rw [visitsTo, List.map_eq_nil_iff, List.filter_eq_nil_iff]
  intro visit present isPid
  apply unvisited
  rw [← of_decide_eq_true isPid]
  exact List.mem_map_of_mem present

theorem Sheet.swept_listed (sheet : Sheet) (forgets : Bool) :
    ¬(sheet.swept true forgets).Known ↔
      sheet.tracee = none ∧ sheet.done = false ∧ (sheet.ignored = false ∨ forgets = true) := by
  rw [not_known_iff]
  simp [swept, imp_iff_not_or]

theorem Sheet.swept_unlisted (sheet : Sheet) (forgets : Bool) :
    ¬(sheet.swept false forgets).Known ↔ sheet.tracee = none := by
  rw [not_known_iff]
  simp [swept]

/-- `Daemon.Misses`, said of the sheet. -/
theorem Daemon.misses_iff (own : Daemon) (view : View) (pid : Pid) :
    own.Misses view pid ↔ pid ∈ view.contents ∧ (own.sheet pid).tracee = none ∧
      match view.listed with
      | none => (own.sheet pid).done = false ∧ (own.sheet pid).ignored = false
      | some pids => pid ∉ pids ∨ (own.sheet pid).done = false ∧
          ((own.sheet pid).ignored = false ∧ (view.link pid).exe = "" ∨
            own.ignoredRescans + 1 ≥ RESCANS ∧
              ((own.sheet pid).ignored = true ∨
                Targets.matches own.targets (view.link pid).exe = false)) := by
  unfold Misses
  cases view.listed with
  | none => simp [Daemon.sheet, AList.lookup_eq_none]
  | some pids => simp [Daemon.sheet, AList.lookup_eq_none]

/-- What a process listed in a pass must be like to be in no table after it. -/
theorem Looked.missed_iff {link : ExeLink} {settings : Settings} {sheet sheet' : Sheet}
    {visits : List Transcript} {forgets : Bool}
    (looked : Looked link pid settings sheet visits sheet') (visited : visits ≠ [])
    (settled : sheet'.candidate = none) :
    ¬(sheet'.swept true forgets).Known ↔ sheet.tracee = none ∧ sheet.done = false ∧
      (sheet.ignored = false ∧ link.exe = "" ∨
        forgets = true ∧
          (sheet.ignored = true ∨ Targets.matches settings.targets link.exe = false)) := by
  rw [Sheet.swept_listed]
  by_cases known : sheet.Known
  · rw [looked.of_known known]
    apply and_congr_right
    intro untraced
    apply and_congr_right
    intro open'
    have ignored : sheet.ignored = true := by
      rcases known with traced | done | ignored
      · exact absurd untraced traced
      · rw [open'] at done
        cases done
      · exact ignored
    simp [ignored]
  · rcases sheet.not_known_iff.mp known with ⟨untraced, open', unignored⟩
    simp only [untraced, open', unignored, true_and, Bool.false_eq_true, false_or]
    by_cases unreadable : link.exe = ""
    · rw [looked.of_unread unreadable]
      simp [untraced, open', unignored, unreadable]
    · have isKnown : sheet'.Known := by
        rcases looked.settles visited with unread | isKnown | isCandidate
        · exact absurd unread unreadable
        · exact isKnown
        · exact absurd settled isCandidate
      cases isTarget : Targets.matches settings.targets link.exe with
      | false =>
          rcases looked.of_noTarget isTarget with ⟨tracee, done⟩
          have ignored : sheet'.ignored = true := by
            rcases isKnown with traced | isDone | ignored
            · exact absurd (tracee.trans untraced) traced
            · rw [done, open'] at isDone
              cases isDone
            · exact ignored
          simp [tracee, done, untraced, open', ignored, unreadable]
      | true =>
          have ignored : sheet'.ignored = false := (looked.of_target isTarget).trans unignored
          simp only [unreadable, false_or, Bool.true_eq_false, and_false, iff_false]
          rintro ⟨traced, isDone, _⟩
          exact sheet'.not_known_iff.mpr ⟨traced, isDone, ignored⟩ isKnown

/-- After a full scan that leaves no candidate, the processes in no table are those it misses. -/
theorem Scanned.misses_iff (scanned : Scanned view own own' transcript)
    (isPid : 1 < pid) (there : pid ∈ view.contents)
    (settled : (own'.sheet pid).candidate = none) :
    ¬(own'.sheet pid).Known ↔ own.Misses view pid := by
  rw [own.misses_iff view pid, and_iff_right there]
  cases scanned with
  | unread unlisted same =>
      rw [same, unlisted]
      exact Sheet.not_known_iff _
  | passed pids listed visits each _ _ sheets =>
      rcases sheets pid with ⟨sheet, looked, swept⟩
      rw [swept] at settled ⊢
      rw [listed]
      by_cases present : pid ∈ pids
      · have seen : pid ∈ pids.filter fun pid => decide (pid > 1) := by
          simpa [present] using isPid
        have visited : visitsTo pid visits ≠ [] := by
          apply visitsTo_ne_nil
          rwa [each]
        rw [decide_eq_true seen] at settled ⊢
        rw [looked.missed_iff visited settled]
        simp only [present, not_true_eq_false, false_or, decide_eq_true_eq]
        exact Iff.rfl
      · have unseen : pid ∉ pids.filter fun pid => decide (pid > 1) := by
          simp [present]
        have unvisited : visitsTo pid visits = [] := by
          apply visitsTo_eq_nil
          rwa [each]
        rw [unvisited] at looked
        cases looked
        rw [decide_eq_false unseen, Sheet.swept_unlisted]
        simp [present]

end Classification

/-- The daemon between two calls of `poll_processes`, with what the last call could see, and the
last call that took no shortcut: the daemon before it and what it could see. -/
structure Watch where
  own : Daemon
  latest : Option View
  full : Option (Daemon × View)

/-- The runs of `poll_processes` from a daemon that remembers no last pid. -/
def scanning [Usize] [Config.Build] : System Watch (View × Transcript) where
  Initial watch := watch.own.lastAllocatedPid = none ∧ watch.latest = none ∧ watch.full = none
  Step watch call watch' :=
    StateProg.Talks Daemon.pollProcesses watch.own ⟨⟩ watch'.own call.2 ∧
      (∀ exchange ∈ call.2, call.1.Tells exchange) ∧
      (∀ earlier, watch.latest = some earlier → call.1.Follows earlier) ∧
      watch'.latest = some call.1 ∧
      watch'.full =
        if watch.own.TakesShortcut call.1 then watch.full else some (watch.own, call.1)

/-- What the tables hold is what the last full scan has left in them. -/
structure Daemon.SweptBy (own before : Daemon) (scanned latest : View) : Prop where
  last : own.lastAllocatedPid = scanned.last
  targets : own.targets = before.targets
  same : latest.last = scanned.last
  contents : latest.contents ⊆ scanned.contents
  misses : own.candidates.keys = [] → ∀ pid ∈ scanned.contents, 1 < pid →
    (¬(own.sheet pid).Known ↔ before.Misses scanned pid)

/-- No pid is remembered before the first full scan. -/
def Watch.Sound (watch : Watch) : Prop :=
  watch.full = none ∧ watch.own.lastAllocatedPid = none ∨
    ∃ before scanned latest, watch.full = some (before, scanned) ∧ watch.latest = some latest ∧
      watch.own.SweptBy before scanned latest

section Tables

variable {view : View} {own own' : Daemon} {transcript : Transcript}

/-- The sheets of a daemon without candidates. -/
theorem Daemon.no_candidate (settled : own.candidates.keys = []) (pid : Pid) :
    (own.sheet pid).candidate = none := by
  by_contra isCandidate
  have present := AList.mem_keys.mp ((own.mem_candidates_iff pid).mpr isCandidate)
  rw [settled] at present
  exact absurd present List.not_mem_nil

theorem Daemon.keys_eq_nil (settled : ∀ pid, (own.sheet pid).candidate = none) :
    own.candidates.keys = [] := by
  rw [List.eq_nil_iff_forall_not_mem]
  intro pid present
  exact (own.mem_candidates_iff pid).mp (AList.mem_keys.mpr present) (settled pid)

/-- A full scan accounts for the tables after it. -/
theorem Scanned.sweptBy {rest : Transcript}
    (scanned : Scanned view { own with lastAllocatedPid := view.last } own' rest) :
    own'.SweptBy own view view := by
  have fields : own'.lastAllocatedPid = view.last ∧ own'.targets = own.targets := by
    cases scanned with
    | unread _ same =>
        rw [same]
        exact ⟨rfl, rfl⟩
    | passed _ _ _ _ targets last => exact ⟨last, targets⟩
  refine ⟨fields.1, fields.2, rfl, List.Subset.refl _, fun settled pid there isPid => ?_⟩
  exact scanned.misses_iff isPid there (own'.no_candidate settled pid)

theorem Daemon.SweptBy.shortcut {before : Daemon} {scanned latest : View}
    (swept : own.SweptBy before scanned latest) (shortcut : own.TakesShortcut view)
    (follows : view.Follows latest) :
    { own with procScanActive := false }.SweptBy before scanned view := by
  rcases shortcut with ⟨readable, unchanged, _⟩
  have same : view.last = scanned.last := unchanged.trans swept.last
  refine ⟨swept.last, swept.targets, same, ?_, swept.misses⟩
  apply List.Subset.trans _ swept.contents
  apply follows
  · rw [swept.same, ← same]
    exact Option.ne_none_iff_isSome.mpr readable
  · exact same.trans swept.same.symm

/-- The system, as far as a call of `poll_processes` can see it. -/
def View.answer (view : View) : (request : Call) → request.Answer
  | .lastAllocatedPid => view.last
  | .listProcesses => view.listed
  | .exeLink pid => view.link pid
  | request => bare request

theorem View.tells_answer (view : View) {exchange : Exchange Sys}
    (answered : exchange.2 = view.answer exchange.1) : view.Tells exchange := by
  rcases exchange with ⟨request, answer⟩
  cases request with
  | lastAllocatedPid | listProcesses | exeLink => exact answered
  | _ => exact trivial

/-- A full scan of processes that are known, or run something else, comes to nothing. -/
theorem Scanned.quiet (scanned : Scanned view own own' transcript)
    (settled : own.candidates.keys = [])
    (calm : ∀ pids, view.listed = some pids → ∀ pid ∈ pids, 1 < pid →
      ¬(own.sheet pid).Known → ¬(view.link pid).Draws own.targets) :
    (∀ pid exe, observation pid exe ∉ transcript) ∧ own'.candidates.keys = [] := by
  cases scanned with
  | unread _ same =>
      rw [same]
      exact ⟨by simp, settled⟩
  | passed pids listed visits each _ _ sheets =>
      have each : ∀ pid, (own'.sheet pid).candidate = none ∧
          ∀ transcript ∈ visitsTo pid visits, ∀ other exe, observation other exe ∉ transcript := by
        intro pid
        rcases sheets pid with ⟨sheet, looked, swept⟩
        have new := own.no_candidate settled pid
        have quiet : sheet.candidate = none ∧ ∀ transcript ∈ visitsTo pid visits,
            ∀ other exe, observation other exe ∉ transcript := by
          by_cases seen : pid ∈ visits.map Prod.fst
          · apply looked.quiet new
            rw [each, List.mem_filter, decide_eq_true_eq] at seen
            by_cases known : (own.sheet pid).Known
            · exact .inl known
            · exact .inr (calm pids listed pid seen.1 seen.2 known)
          · rw [visitsTo_eq_nil seen] at looked ⊢
            cases looked
            exact ⟨new, fun _ present => absurd present List.not_mem_nil⟩
        refine ⟨?_, quiet.2⟩
        rw [swept]
        simp [Sheet.swept, quiet.1]
      refine ⟨fun pid exe present => ?_, Daemon.keys_eq_nil fun pid => (each pid).1⟩
      rcases List.mem_cons.mp present with first | later
      · cases first
      · rcases List.mem_flatMap.mp later with ⟨visit, isVisit, marked⟩
        have visited : visit.2 ∈ visitsTo visit.1 visits :=
          List.mem_map_of_mem (List.mem_filter.mpr ⟨isVisit, by simp⟩)
        exact (each visit.1).2 visit.2 visited pid exe marked

/-- A listed process in no table that draws the scan is observed, or becomes a candidate. -/
theorem Scanned.drawn (scanned : Scanned view own own' transcript)
    (settled : own.candidates.keys = []) {pids : List Pid} (listed : view.listed = some pids)
    {pid : Pid} (present : pid ∈ pids) (isPid : 1 < pid) (unknown : ¬(own.sheet pid).Known)
    (draws : (view.link pid).Draws own.targets) :
    observation pid (view.link pid).exe ∈ transcript ∨ own'.candidates.keys ≠ [] := by
  cases scanned with
  | unread unlisted =>
      rw [listed] at unlisted
      cases unlisted
  | passed pids' listed' visits each _ _ sheets =>
      rw [listed] at listed'
      cases listed'
      rcases sheets pid with ⟨sheet, looked, swept⟩
      have seen : pid ∈ pids.filter fun pid => decide (pid > 1) := by
        simpa [present] using isPid
      have visited : visitsTo pid visits ≠ [] := by
        apply visitsTo_ne_nil
        rwa [each]
      rcases looked.drawn visited unknown (own.no_candidate settled pid) draws with
        ⟨transcript, inVisits, marked⟩ | isCandidate
      · left
        rcases List.mem_map.mp inVisits with ⟨visit, inVisit, rfl⟩
        apply List.mem_cons_of_mem
        exact List.mem_flatMap.mpr ⟨visit, (List.mem_filter.mp inVisit).1, marked⟩
      · right
        intro empty
        apply isCandidate
        have settled' := own'.no_candidate empty pid
        rw [swept, decide_eq_true seen] at settled'
        exact settled'

end Tables

section Runs

variable [Usize] [Config.Build] {view : View} {own own' : Daemon} {transcript : Transcript}

/-- What a call of `poll_processes` makes of the daemon. -/
theorem says_pollProcesses : StateProg.Says Daemon.pollProcesses (fun _ own' transcript =>
    (∀ exchange ∈ transcript, view.Tells exchange) →
      if own.TakesShortcut view then
        own' = { own with procScanActive := false }
      else
        ∃ rest, Scanned view { own with lastAllocatedPid := view.last } own' rest) own := by
  rw [Daemon.pollProcesses_eq, StateProg.says_bind, StateProg.says_lift]
  intro last
  dsimp only [Prog.Says]
  by_cases isLast : last = view.last
  swap
  · apply Prog.says_iff_talks.mpr
    intro _ _ _ told
    exact absurd (told _ List.mem_cons_self) isLast
  rw [StateProg.says_bind, StateProg.says_get, isLast]
  by_cases shortcut : own.TakesShortcut view
  · have condition : view.last.isSome = true ∧ view.last = own.lastAllocatedPid ∧
        own.candidates.keys = [] := shortcut
    rw [if_pos condition, StateProg.says_modify]
    intro _
    rw [if_pos shortcut]
  · have condition : ¬(view.last.isSome = true ∧ view.last = own.lastAllocatedPid ∧
        own.candidates.keys = []) := shortcut
    rw [if_neg condition, StateProg.says_bind, StateProg.says_modify]
    apply StateProg.says_mono (@says_fullScan _ _ view _)
    intro _ own' rest scanned told
    rw [if_neg shortcut]
    refine ⟨rest, scanned ?_⟩
    intro exchange present
    exact told exchange (List.mem_cons_of_mem _ present)

theorem scanning_sound {watch : Watch} (reached : scanning.Reachable watch) : watch.Sound := by
  induction reached with
  | initial start => exact .inl ⟨start.2.2, start.1⟩
  | @step watch watch' call _ next ih =>
      rcases call with ⟨view, transcript⟩
      rcases next with ⟨talks, told, follows, latest, full⟩
      have after := talks.of_says (@says_pollProcesses _ _ view _) told
      by_cases shortcut : watch.own.TakesShortcut view
      · rw [if_pos shortcut] at after full
        rcases ih with ⟨_, forgotten⟩ | ⟨before, scanned, earlier, isFull, isLatest, swept⟩
        · rcases shortcut with ⟨readable, unchanged, _⟩
          rw [unchanged, forgotten] at readable
          cases readable
        · right
          refine ⟨before, scanned, view, full.trans isFull, latest, ?_⟩
          rw [after]
          exact swept.shortcut shortcut (follows earlier isLatest)
      · rw [if_neg shortcut] at after full
        rcases after with ⟨rest, scanned⟩
        exact .inr ⟨watch.own, view, view, full, latest, scanned.sweptBy⟩

/-- Nothing comes of a full scan iff no listed process that is in no table draws it. -/
theorem Daemon.seesNothing_iff (settled : own.candidates.keys = []) :
    own.SeesNothing view ↔ ∀ pids, view.listed = some pids → ∀ pid ∈ pids, 1 < pid →
      ¬(own.sheet pid).Known → ¬(view.link pid).Draws own.targets := by
  constructor
  · intro sees pids listed pid present isPid unknown draws
    rcases Prog.exists_talks (I := Sys) view.answer (Daemon.fullScan.run own) with
      ⟨⟨_, own'⟩, transcript, talks, answered⟩
    have told : ∀ exchange ∈ transcript, view.Tells exchange :=
      fun exchange isAsked => view.tells_answer (answered exchange isAsked)
    have scanned := StateProg.Talks.of_says talks (@says_fullScan _ _ view own) told
    rcases sees own' transcript talks told with ⟨unobserved, empty⟩
    rcases scanned.drawn settled listed present isPid unknown draws with marked | isCandidate
    · exact unobserved _ _ marked
    · exact isCandidate empty
  · intro calm own' transcript talks told
    exact (talks.of_says (@says_fullScan _ _ view own) told).quiet settled calm

/-- A shortcut agrees with the full scan iff no process draws the scan that the last full scan has
missed. -/
theorem shortcut_agrees_iff {watch : Watch} (reached : scanning.Reachable watch)
    (shortcut : watch.own.TakesShortcut view)
    (follows : ∀ earlier, watch.latest = some earlier → view.Follows earlier) :
    watch.own.SeesNothing view ↔ ∀ pids, view.listed = some pids → ∀ pid ∈ pids, 1 < pid →
      (∃ before scanned, watch.full = some (before, scanned) ∧ before.Misses scanned pid) →
        ¬(view.link pid).Draws watch.own.targets := by
  rcases shortcut with ⟨readable, unchanged, settled⟩
  rcases scanning_sound reached with
    ⟨_, forgotten⟩ | ⟨before, scanned, latest, full, isLatest, swept⟩
  · rw [unchanged, forgotten] at readable
    cases readable
  rw [Daemon.seesNothing_iff settled]
  apply forall₂_congr
  intro pids listed
  apply forall₂_congr
  intro pid present
  apply forall_congr'
  intro isPid
  have there : pid ∈ scanned.contents := by
    have same : view.last = latest.last := (unchanged.trans swept.last).trans swept.same.symm
    apply swept.contents
    apply follows latest isLatest _ same
    · exact view.within pids listed present
    · rw [← same]
      exact Option.ne_none_iff_isSome.mpr readable
  apply imp_congr_left
  rw [swept.misses settled pid there isPid]
  constructor
  · exact fun misses => ⟨before, scanned, full, misses⟩
  · rintro ⟨before', scanned', full', misses⟩
    rw [full] at full'
    cases full'
    exact misses

/-- A shortcut always agrees with the full scan. -/
def ShortcutAlwaysAgrees : Prop :=
  ∀ (watch : Watch) (view : View), scanning.Reachable watch → watch.own.TakesShortcut view →
    (∀ earlier, watch.latest = some earlier → view.Follows earlier) → watch.own.SeesNothing view

end Runs

/-- The process 7 is there, with this link. -/
def showing (link : ExeLink) : View where
  last := some 10
  contents := [7]
  listed := some [7]
  within := by
    rintro _ ⟨⟩
    exact List.Subset.refl _
  link := fun _ => link

/-- A pass that cannot read the link of the only process. -/
def unreadPass : Transcript :=
  [⟨.lastAllocatedPid, some 10⟩, ⟨.listProcesses, some [7]⟩, linkOf 7 .unknown]

/-- The daemon in proc mode, with one target. -/
def pollingDaemon : Daemon :=
  { targets := [⟨false, "/bin/t"⟩], mode := .proc }

theorem unread_pass : ∃ watch, (@scanning .eight .arm64).Reachable watch ∧
    (∀ link, watch.own.TakesShortcut (showing link)) ∧ watch.latest = some (showing .unknown) ∧
    watch.own.targets = [⟨false, "/bin/t"⟩] ∧ ¬(watch.own.sheet 7).Known := by
  let _ : Usize := .eight
  let _ : Config.Build := .arm64
  have ran : ((Daemon.pollProcesses.run pollingDaemon).replay unreadPass).map (fun result =>
      (result.2.lastAllocatedPid, result.2.candidates.keys, result.2.targets,
        decide (result.2.sheet 7).Known)) = some (some 10, [], [⟨false, "/bin/t"⟩], false) := by
    decide +kernel
  simp only [Option.map_eq_some_iff, Prod.mk.injEq, decide_eq_false_iff_not] at ran
  rcases ran with ⟨⟨_, own⟩, replayed, last, candidates, targets, unknown⟩
  let watch : Watch := ⟨own, some (showing .unknown), some (pollingDaemon, showing .unknown)⟩
  have start : scanning.Reachable ⟨pollingDaemon, none, none⟩ := .initial ⟨rfl, rfl, rfl⟩
  have step : scanning.Step ⟨pollingDaemon, none, none⟩ (showing .unknown, unreadPass) watch := by
    refine ⟨Prog.Talks.of_replay replayed, ?_, ?_, rfl, rfl⟩
    · simp [unreadPass, View.Tells, showing]
    · intro _ none
      cases none
  exact ⟨watch, start.step step, fun _ => ⟨rfl, last.symm, candidates⟩, rfl, targets, unknown⟩

theorem shortcut_after_unread_pass : ∃ watch, (@scanning .eight .arm64).Reachable watch ∧
    (@Daemon.SeesNothing .eight .arm64 watch.own (showing (.path "/bin/sh")) ↔
      ∀ pids, (showing (.path "/bin/sh")).listed = some pids → ∀ pid ∈ pids, 1 < pid →
        (∃ before scanned, watch.full = some (before, scanned) ∧ before.Misses scanned pid) →
          ¬((showing (.path "/bin/sh")).link pid).Draws watch.own.targets) := by
  rcases unread_pass with ⟨watch, reached, shortcut, latest, _, _⟩
  refine ⟨watch, reached, @shortcut_agrees_iff .eight .arm64 _ _ reached (shortcut _) ?_⟩
  rintro earlier isLatest _ _
  rw [latest] at isLatest
  cases isLatest
  exact List.Subset.refl _

theorem shortcut_misses_target : ¬@ShortcutAlwaysAgrees .eight .arm64 := by
  intro always
  rcases unread_pass with ⟨watch, reached, shortcut, latest, targets, unknown⟩
  let _ : Usize := .eight
  let _ : Config.Build := .arm64
  have sees : watch.own.SeesNothing (showing (.path "/bin/t")) := by
    apply always watch _ reached (shortcut _)
    rintro earlier isLatest _ _
    rw [latest] at isLatest
    cases isLatest
    exact List.Subset.refl _
  rw [Daemon.seesNothing_iff (shortcut .unknown).2.2] at sees
  apply sees [7] rfl 7 List.mem_cons_self (by decide) unknown
  rw [targets]
  refine ⟨by decide +kernel, .inl (by decide +kernel)⟩

end Znn.Injector
