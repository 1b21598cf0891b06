import Znn.Injector.Chores
import Znn.Injector.Requested

/-!
# Where a target is kept

A target that the daemon has looked at is followed or done with, or it waits for another look:
among the candidates of the passes over `/proc`, among the deferred processes of late mode, among
the rechecks. A queue keeps a process only as long as the main loop comes back to the queue, which
it does in some modes and not in others.
-/

namespace Znn.Injector

open Interaction Trace Mode

inductive Place where
  | tracees
  | done
  | candidates
  | deferred
  | recheck
deriving DecidableEq, Repr

/-- The main loop looks through `/proc` in this mode. -/
def Tracking.Polls (mode : Tracking) (kernel : Bool) : Prop :=
  mode = .proc ∨ mode = .late ∧ kernel = false

/-- The table has the process, and it is one that the main loop serves in the daemon's mode. -/
def Daemon.Keeps (own : Daemon) (pid : Pid) : Place → Prop
  | .tracees => pid ∈ own.tracees
  | .done => pid ∈ own.done
  | .candidates => pid ∈ own.candidates ∧ own.mode.Polls own.kernel
  | .deferred => pid ∈ own.deferred ∧ own.mode = .late
  | .recheck => pid ∈ own.recheck

/-- The process is kept in another place than this one. -/
def Daemon.KeepsApart (own : Daemon) (pid : Pid) (place : Place) : Prop :=
  ∃ other, other ≠ place ∧ own.Keeps pid other

/-- The same, said of a sheet. -/
def Sheet.KeptIn (mode : Tracking) (kernel : Bool) (sheet : Sheet) : Place → Prop
  | .tracees => sheet.tracee ≠ none
  | .done => sheet.done = true
  | .candidates => sheet.candidate ≠ none ∧ mode.Polls kernel
  | .deferred => sheet.deferred ≠ none ∧ mode = .late
  | .recheck => sheet.recheck ≠ none

theorem Table.mem_iff_lookup {α : Type} (table : Table α) (pid : Pid) :
    pid ∈ table ↔ table.lookup pid ≠ none := by
  rw [← AList.lookup_isSome, ← Option.ne_none_iff_isSome]

theorem Daemon.keeps_iff (own : Daemon) (pid : Pid) (place : Place) :
    own.Keeps pid place ↔ (own.sheet pid).KeptIn own.mode own.kernel place := by
  cases place with
  | tracees => exact own.tracees.mem_iff_lookup pid
  | done => exact (decide_eq_true_iff (p := pid ∈ own.done)).symm
  | candidates => exact and_congr_left' (own.candidates.mem_iff_lookup pid)
  | deferred => exact and_congr_left' (own.deferred.mem_iff_lookup pid)
  | recheck => exact own.recheck.mem_iff_lookup pid

theorem Daemon.keepsApart_iff (own : Daemon) (pid : Pid) (place : Place) :
    own.KeepsApart pid place ↔
      ∃ other, other ≠ place ∧ (own.sheet pid).KeptIn own.mode own.kernel other :=
  exists_congr fun other => and_congr_right' (own.keeps_iff pid other)

/-- A process that the daemon owes something to: it is kept somewhere, and if it is being injected
it is done with. -/
structure Sheet.Tended (mode : Tracking) (kernel : Bool) (sheet : Sheet) : Prop where
  kept : ∃ place, sheet.KeptIn mode kernel place
  injected : ∀ tracee, sheet.tracee = some tracee → tracee.state ≠ .traced → sheet.done = true

namespace Sheet.Tended

variable {mode : Tracking} {kernel : Bool} {sheet sheet' : Sheet}

theorem of_done (done : sheet.done = true) : sheet.Tended mode kernel :=
  ⟨⟨.done, done⟩, fun _ _ _ => done⟩

/-- A process that is not followed and waits somewhere. -/
theorem of_waiting (untraced : sheet.tracee = none) (place : Place)
    (kept : sheet.KeptIn mode kernel place) : sheet.Tended mode kernel := by
  refine ⟨⟨place, kept⟩, fun tracee found => ?_⟩
  rw [untraced] at found
  cases found

/-- A place may be lost by a process that has another one. -/
theorem lose (tended : sheet.Tended mode kernel) (lost : Place)
    (others : ∀ place, place ≠ lost → sheet.KeptIn mode kernel place →
      sheet'.KeptIn mode kernel place)
    (apart : ∃ other, other ≠ lost ∧ sheet.KeptIn mode kernel other)
    (tracee : sheet'.tracee = sheet.tracee) (done : sheet'.done = sheet.done) :
    sheet'.Tended mode kernel := by
  rcases apart with ⟨place, ne, kept⟩
  refine ⟨⟨place, others place ne kept⟩, ?_⟩
  rw [tracee, done]
  exact tended.injected

/-- Whether it is ignored does not count. -/
theorem ignore (tended : sheet.Tended mode kernel) :
    { sheet with ignored := true }.Tended mode kernel :=
  ⟨tended.kept, tended.injected⟩

/-- The process may be followed otherwise: an injection that ends or is replaced by another has
been settled. -/
theorem trace (tended : sheet.Tended mode kernel) (tracee : Option Tracee)
    (leaves : tracee = none → ∀ found, sheet.tracee = some found → found.state ≠ .traced)
    (injects : ∀ next, tracee = some next → next.state ≠ .traced →
      ∃ found, sheet.tracee = some found ∧ found.state ≠ .traced) :
    { sheet with tracee := tracee }.Tended mode kernel := by
  constructor
  · rcases tended.kept with ⟨place, kept⟩
    cases place with
    | tracees =>
        cases tracee with
        | some next => exact ⟨.tracees, Option.some_ne_none next⟩
        | none =>
            rcases Option.ne_none_iff_exists'.mp kept with ⟨found, isTracee⟩
            exact ⟨.done, tended.injected found isTracee (leaves rfl found isTracee)⟩
    | done => exact ⟨.done, kept⟩
    | candidates => exact ⟨.candidates, kept⟩
    | deferred => exact ⟨.deferred, kept⟩
    | recheck => exact ⟨.recheck, kept⟩
  · intro next isNext notTraced
    rcases injects next isNext notTraced with ⟨found, isTracee, notTraced'⟩
    exact tended.injected found isTracee notTraced'

end Sheet.Tended

/-- A process that is not known is not followed. -/
theorem Sheet.untraced_of_unknown {sheet : Sheet} (unknown : ¬sheet.Known) :
    sheet.tracee = none :=
  ((not_known_iff sheet).mp unknown).1

/-- After `observe_target` the process is kept, if it was where the seizure is to be tried again
without being deferred. -/
theorem Observed.tended {pid : Pid} {mode : Tracking} {kernel : Bool} {sheet sheet' : Sheet}
    {transcript : Transcript} (observed : Observed pid mode sheet transcript sheet')
    (untraced : sheet.tracee = none)
    (waits : mode ≠ .late → Denied pid transcript → ∃ place, sheet.KeptIn mode kernel place) :
    sheet'.Tended mode kernel := by
  cases observed with
  | settled tracee => exact .of_done rfl
  | refused notLate denied =>
      rcases waits notLate denied with ⟨place, kept⟩
      exact .of_waiting untraced place kept
  | deferred late _ now _ =>
      refine .of_waiting untraced .deferred ⟨?_, late⟩
      cases sheet.deferred with
      | none => exact Option.some_ne_none _
      | some deadline => exact Option.some_ne_none _

section Rechecks

/-- What a recheck makes of the sheet of its process, with the reasons for which it drops it. -/
inductive Weighed (now : Nat) (pid : Pid) (settings : Settings) (sheet : Sheet) :
    Sheet → Transcript → Prop where
  | late (due : sheet.recheck.getD 0 ≤ now) :
      Weighed now pid settings sheet { sheet with recheck := none } []
  | gone : Weighed now pid settings sheet { sheet with recheck := none } [linkOf pid .gone]
  | known (isKnown : sheet.Known) (alive : ExeLink) :
      Weighed now pid settings sheet { sheet with recheck := none } [linkOf pid alive]
  | kept (alive link : ExeLink) :
      Weighed now pid settings sheet sheet [linkOf pid alive, linkOf pid link]
  | observed (unknown : ¬sheet.Known) (early : now < sheet.recheck.getD 0) (transcript : Transcript)
      (sheet' : Sheet)
      (observed : Observed pid settings.mode { sheet with recheck := none } transcript sheet')
      (exe : String) (marked : observation pid exe ∈ transcript) :
      Weighed now pid settings sheet sheet' transcript

variable {settings : Settings} {sheet : Sheet}

open Daemon

variable [Usize] [Config.Build]

theorem acts_recheckOne_weighed (now : Nat) (pid : Pid) :
    Acts pid (recheckOne now pid) settings sheet fun _ => Weighed now pid settings sheet := by
  apply Acts.bind_get
  intro own isSettings isSheet
  have rechecks : own.recheck.lookup pid = sheet.recheck := congrArg Sheet.recheck isSheet
  have knows := known_iff own pid
  rw [isSheet] at knows
  have drops : ∀ {first : Transcript}, Weighed now pid settings sheet
      { sheet with recheck := none } first →
      Acts pid (dropRecheck pid) settings sheet fun _ sheet' rest =>
        Weighed now pid settings sheet sheet' (first ++ rest) := by
    intro first weighed
    apply Acts.change sets_eraseRecheck
    rwa [List.append_nil]
  dsimp only
  rw [rechecks]
  split
  case isTrue due => exact drops (.late due)
  case isFalse early =>
    apply Acts.bind_says (says_isAlive pid)
    rintro alive _ ⟨there, rfl, lives⟩
    split
    case isTrue dead =>
      apply drops
      have gone : there = .gone := by
        by_contra isThere
        rw [lives.mpr isThere] at dead
        exact absurd dead (by decide)
      rw [gone]
      exact .gone
    split
    case isTrue known => exact drops (.known (knows.mp known) there)
    case isFalse unknown =>
      rw [knows] at unknown
      apply Acts.bind_says (says_readExePath pid)
      rintro _ _ ⟨link, rfl, rfl⟩
      split
      · exact Acts.pure (.kept there link)
      · apply Acts.bind_change sets_eraseRecheck
        apply (acts_observeTarget link.exe).mono
        rintro _ sheet' rest ⟨observed, marked⟩
        refine .observed unknown (by omega) _ sheet' (observed.mono ?_) link.exe ?_
        · exact List.subset_append_of_subset_right _ (List.subset_append_right _ _)
        · exact List.mem_append_right _ (List.mem_append_right _ marked)

/-- A kernel event about init is passed over. -/
theorem considerKernelEvent_init {event : KernelEvent} (init : event.pid ≤ 1) :
    Daemon.considerKernelEvent event = pure ⟨⟩ := by
  unfold considerKernelEvent
  dsimp only
  rw [if_pos init]

end Rechecks

section Visits

variable {owed : Prop} {pid : Pid} {settings : Settings} {sheet sheet' : Sheet}
  {transcript : Transcript}

/-- `observe_target` is called for the process, with an executable that names a target. -/
def Sought (targets : List Target) (pid : Pid) (transcript : Transcript) : Prop :=
  ∃ exe, observation pid exe ∈ transcript ∧ Targets.matches targets exe = true

theorem not_sought_nil (targets : List Target) : ¬Sought targets pid [] := by
  rintro ⟨exe, marked, _⟩
  exact absurd marked List.not_mem_nil

/-- The process is owed something already, and is tended, or it is looked at now. -/
abbrev Owing (owed : Prop) (pid : Pid) (settings : Settings) (sheet : Sheet)
    (transcript : Transcript) : Prop :=
  owed ∧ sheet.Tended settings.mode settings.kernel ∨ Sought settings.targets pid transcript

theorem Polled.tended (polled : Polled pid settings sheet sheet' transcript)
    (polls : settings.mode.Polls settings.kernel) (owing : Owing owed pid settings sheet transcript)
    (keeps : owed → ∀ link : ExeLink, transcript = [linkOf pid link] → link.exe ≠ "" →
      Targets.matches settings.targets link.exe = false →
      (∀ candidate, sheet.candidate = some candidate → link.exe = candidate.exe) ∨
        ∃ other, other ≠ .candidates ∧ sheet.KeptIn settings.mode settings.kernel other) :
    sheet'.Tended settings.mode settings.kernel := by
  have unmarked : ∀ link : ExeLink, ¬Sought settings.targets pid [linkOf pid link] := by
    rintro link ⟨exe, marked, _⟩
    simp at marked
  cases polled with
  | known => exact (owing.resolve_right (not_sought_nil _)).2
  | unread | same => exact (owing.resolve_right (unmarked _)).2
  | passedOver => exact (owing.resolve_right (unmarked _)).2.ignore
  | fork unknown =>
      exact .of_waiting (sheet.untraced_of_unknown unknown) .candidates
        ⟨Option.some_ne_none _, polls⟩
  | changed _ link readable noTarget candidate old differs =>
      rcases owing.resolve_right (unmarked _) with ⟨isOwed, tended⟩
      rcases keeps isOwed link rfl readable noTarget with same | apart
      · exact absurd (same candidate old) differs
      · refine tended.lose .candidates ?_ apart rfl rfl
        intro place ne kept
        cases place with
        | candidates => exact absurd rfl ne
        | tracees | done | deferred | recheck => exact kept
  | observed unknown _ _ _ candidate _ _ _ observed =>
      apply observed.tended
      · exact sheet.untraced_of_unknown unknown
      · intro _ _
        exact ⟨.candidates, Option.some_ne_none candidate, polls⟩
  | abandoned => exact .of_done rfl

theorem Considered.tended {event : KernelEvent}
    (considered : Considered event settings sheet sheet' transcript)
    (owing : Owing owed event.pid settings sheet transcript)
    (lives : owed → event.kind ≠ .exit)
    (waits : Sought settings.targets event.pid transcript → settings.mode ≠ .late →
      Denied event.pid transcript → ∃ place, sheet.KeptIn settings.mode settings.kernel place) :
    sheet'.Tended settings.mode settings.kernel := by
  have unmarked : ∀ exchange : Exchange Sys, (∀ exe, exchange ≠ observation event.pid exe) →
      ¬Sought settings.targets event.pid [exchange] := by
    rintro exchange ne ⟨exe, marked, _⟩
    exact ne exe (List.mem_singleton.mp marked).symm
  have unmarkedTwice : ∀ first second : ExeLink,
      ¬Sought settings.targets event.pid [linkOf event.pid first, linkOf event.pid second] := by
    rintro first second ⟨exe, marked, _⟩
    simp at marked
  cases considered with
  | skipped => exact (owing.resolve_right (not_sought_nil _)).2
  | exited isExit =>
      exact absurd isExit (lives (owing.resolve_right (not_sought_nil _)).1)
  | held => exact (owing.resolve_right (unmarked _ (by simp))).2
  | passedOver | noTarget => exact (owing.resolve_right (unmarked _ (by simp))).2.ignore
  | unread => exact (owing.resolve_right (unmarkedTwice _ _)).2
  | gone => exact (owing.resolve_right (unmarkedTwice _ _)).2.ignore
  | queued _ unknown _ _ recheck _ queues =>
      exact .of_waiting (sheet.untraced_of_unknown unknown) .recheck queues
  | observed _ unknown _ link _ _ rest _ _ observed =>
      apply observed.tended (sheet.untraced_of_unknown unknown)
      intro notLate denied
      rcases owing with ⟨_, tended⟩ | sought
      · exact tended.kept
      · exact waits sought notLate (denied.mono (List.subset_cons_self _ _))

theorem Weighed.tended {now : Nat} (weighed : Weighed now pid settings sheet sheet' transcript)
    (owing : Owing owed pid settings sheet transcript)
    (there : owed → linkOf pid .gone ∉ transcript)
    (early : owed →
      (now < sheet.recheck.getD 0 ∧ sheet.ignored = false) ∨
        ∃ other, other ≠ .recheck ∧ sheet.KeptIn settings.mode settings.kernel other)
    (waits : settings.mode ≠ .late → Denied pid transcript →
      (∃ exe, observation pid exe ∈ transcript) →
      sheet.KeptIn settings.mode settings.kernel .candidates) :
    sheet'.Tended settings.mode settings.kernel := by
  have drops : sheet.Tended settings.mode settings.kernel →
      (∃ other, other ≠ .recheck ∧ sheet.KeptIn settings.mode settings.kernel other) →
      { sheet with recheck := none }.Tended settings.mode settings.kernel := by
    intro tended apart
    refine tended.lose .recheck ?_ apart rfl rfl
    intro place ne kept
    cases place with
    | recheck => exact absurd rfl ne
    | tracees | done | candidates | deferred => exact kept
  cases weighed with
  | late due =>
      rcases owing.resolve_right (not_sought_nil _) with ⟨isOwed, tended⟩
      rcases early isOwed with ⟨before, _⟩ | apart
      · exact absurd before (Nat.not_lt.mpr due)
      · exact drops tended apart
  | gone =>
      rcases owing with ⟨isOwed, _⟩ | ⟨exe, marked, _⟩
      · exact absurd List.mem_cons_self (there isOwed)
      · simp at marked
  | known isKnown alive =>
      rcases owing with ⟨isOwed, tended⟩ | ⟨exe, marked, _⟩
      · apply drops tended
        rcases isKnown with traced | done | ignored
        · exact ⟨.tracees, by decide, traced⟩
        · exact ⟨.done, by decide, done⟩
        · rcases early isOwed with ⟨_, unignored⟩ | apart
          · rw [unignored] at ignored
            cases ignored
          · exact apart
      · simp at marked
  | kept alive link =>
      rcases owing with ⟨_, tended⟩ | ⟨exe, marked, _⟩
      · exact tended
      · simp at marked
  | observed unknown early _ _ observed exe marked =>
      apply observed.tended
      · exact sheet.untraced_of_unknown unknown
      · intro notLate denied
        exact ⟨.candidates, waits notLate denied ⟨exe, marked⟩⟩

theorem Retried.tended {now : Nat} (retried : Retried now pid settings sheet sheet' transcript)
    (late : settings.mode = .late) (tended : sheet.Tended settings.mode settings.kernel)
    (there : linkOf pid .gone ∉ transcript)
    (keeps : ∀ rest, transcript = tracerOf pid none :: rest →
      (sheet.ignored = false ∧ ∀ link : ExeLink, rest.getLast? = some (linkOf pid link) →
        link.exe ≠ "" ∧ Targets.matches settings.targets link.exe = true) ∨
        ∃ other, other ≠ .deferred ∧ sheet.KeptIn settings.mode settings.kernel other) :
    sheet'.Tended settings.mode settings.kernel := by
  cases retried with
  | held => exact tended
  | writtenOff => exact .of_done rfl
  | observed _ _ unknown _ _ _ _ observed =>
      apply observed.tended
      · exact sheet.untraced_of_unknown unknown
      · exact fun notLate => absurd late notLate
  | dropped rest reason =>
      have apart : ∃ other, other ≠ .deferred ∧
          sheet.KeptIn settings.mode settings.kernel other := by
        rcases keeps rest rfl with ⟨unignored, isTarget⟩ | apart
        swap
        · exact apart
        rcases reason with gone | (traced | done | ignored) | ⟨link, last, unread | noTarget⟩
        · exact absurd (List.mem_cons_of_mem _ gone) there
        · exact ⟨.tracees, by decide, traced⟩
        · exact ⟨.done, by decide, done⟩
        · rw [unignored] at ignored
          cases ignored
        · exact absurd unread (isTarget link last).1
        · rw [(isTarget link last).2] at noTarget
          cases noTarget
      refine tended.lose .deferred ?_ apart rfl rfl
      intro place ne kept
      cases place with
      | deferred => exact absurd rfl ne
      | tracees | done | candidates | recheck => exact kept

theorem Sheet.Tended.swept {mode : Tracking} {kernel : Bool} (tended : sheet.Tended mode kernel)
    (forgets : Bool) : (sheet.swept true forgets).Tended mode kernel := by
  constructor
  · rcases tended.kept with ⟨place, kept⟩
    refine ⟨place, ?_⟩
    cases place with
    | done => exact (Bool.and_true sheet.done).trans kept
    | tracees | candidates | deferred | recheck => exact kept
  · intro tracee found notTraced
    exact (Bool.and_true sheet.done).trans (tended.injected tracee found notTraced)

theorem Expired.tended {mode : Tracking} {kernel : Bool} (expired : Expired sheet sheet')
    (tended : sheet.Tended mode kernel) : sheet'.Tended mode kernel := by
  cases expired with
  | absent => exact tended
  | kept tracee found deadline =>
      apply tended.trace
      · rintro ⟨⟩
      · rintro _ ⟨⟩ notTraced
        exact ⟨tracee, found, notTraced⟩
  | ended => exact .of_done rfl

end Visits

end Znn.Injector
