import Znn.Injector.Reports
import Znn.Injector.Visits

/-!
# What following a process makes of its sheet

The reports of the kernel, the expiry of an entry breakpoint and the release at shutdown change
the table of tracees and, when a breakpoint expires, the set of the pids that are done with.
-/

namespace Znn.Injector

open Interaction PtraceOps Trace Mode

/-- The tracee is one that `expire_pending` looks after. -/
def Tracee.Expires (tracee : Tracee) : Prop :=
  tracee.state = .entry ∧ tracee.deadlineMs ≠ 0

/-- What the report of a status makes of the daemon's sheets. -/
inductive Handled (pid : Pid) (status : Status) (own own' : Daemon) (transcript : Transcript) :
    Prop where
  | unchanged (same : ∀ other, own'.sheet other = own.sheet other)
  /-- A new child is followed. -/
  | attached (child : Nat) (heard : ⟨.eventMessage pid, some child⟩ ∈ transcript)
      (isLocal : Local child own own')
      (sheet : own'.sheet child =
        { own.sheet child with
          tracee := (own.sheet child).tracee.or (some (Tracee.new .traced .unknown)) })
  /-- The tracee is gone, or done with, or let go at its exec. -/
  | left (isLocal : Local pid own own')
      (reason : status.Gone ∨ status.Execs ∨ status.Exits ∨
        ∃ tracee, own.tracees.lookup pid = some tracee ∧ tracee.state ≠ .traced)
      (sheet : own'.sheet pid = { own.sheet pid with tracee := none })
  | armed (isLocal : Local pid own own') (execs : status.Execs)
      (traced : (own.sheet pid).tracee ≠ none) (tracee : Tracee)
      (noDeadline : tracee.deadlineMs = 0)
      (sheet : own'.sheet pid = { own.sheet pid with tracee := some tracee })
  | stepped (isLocal : Local pid own own') (tracee next : Tracee)
      (found : own.tracees.lookup pid = some tracee)
      (steps : tracee.state = .traced ∧ next = tracee ∨ tracee.state ≠ .traced ∧ next.Calling)
      (sheet : own'.sheet pid = { own.sheet pid with tracee := some next })

/-- The daemon asks for the process to be detached. -/
def LetsGo (pid : Pid) (transcript : Transcript) : Prop :=
  Event.detached pid none ∈ eventsOf transcript

theorem letsGo_iff_significant {pid : Pid} {transcript : Transcript} :
    LetsGo pid transcript ↔ Event.detached pid none ∈ significant (eventsOf transcript) := by
  simp [LetsGo, significant, Event.lets]

theorem letsGo_append {pid : Pid} {first second : Transcript} :
    LetsGo pid (first ++ second) ↔ LetsGo pid first ∨ LetsGo pid second := by
  simp [LetsGo, eventsOf]

section Parts

variable {pid : Pid} {settings : Settings} {sheet : Sheet}

theorem acts_reportFault (signal : Int) :
    Acts pid (Daemon.reportFault pid signal) settings sheet fun _ sheet' _ => sheet' = sheet := by
  apply (Acts.of_tallies (Daemon.tallies_reportFault signal)).mono
  rintro _ _ _ ⟨same, _⟩
  exact same

theorem acts_cont (signal : Option Int) :
    Acts pid (liftM (Ptrace.cont pid signal) : DaemonM Unit) settings sheet
      fun _ sheet' _ => sheet' = sheet := by
  apply Acts.lift
  exact fun _ => rfl

theorem acts_handleStopEvent :
    Acts pid (Daemon.handleStopEvent pid) settings sheet fun _ sheet' _ => sheet' = sheet := by
  apply Acts.bind_any
  intro signo _
  cases signo with
  | none => exact acts_cont none
  | some signo =>
      dsimp only
      split
      · apply Acts.bind_any
        intro parked _
        split
        · exact acts_cont none
        · exact Acts.pure rfl
      · exact acts_cont none

variable [Usize]

theorem returns_setEntryBreakpoint_deadline (tracee : Tracee) (thumb : Bool) :
    (setEntryBreakpoint pid tracee thumb).Returns fun armed =>
      ∀ next, armed = some next → next.deadlineMs = tracee.deadlineMs := by
  unfold setEntryBreakpoint
  dsimp only
  split
  · rintro next ⟨⟩
  apply Prog.Returns.bind_any
  intro original
  cases original with
  | none => rintro next ⟨⟩
  | some original =>
      apply Prog.Returns.bind_any
      intro written
      split
      · rintro next ⟨⟩
      · rintro next ⟨⟩
        rfl

/-- A breakpoint that is armed at an exec never expires. -/
theorem acts_armEntryBreakpoint (tracee : Tracee) :
    Acts pid (Daemon.armEntryBreakpoint pid tracee) settings sheet fun armed sheet' _ =>
      sheet' = sheet ∧ ∀ next, armed = some next → next.deadlineMs = 0 := by
  have unarmed : sheet = sheet ∧ ∀ next : Tracee, none = some next → next.deadlineMs = 0 :=
    ⟨rfl, by rintro next ⟨⟩⟩
  apply Acts.bind_any
  intro exe _
  split
  · exact Acts.pure unarmed
  apply Acts.bind_get
  intro own _ _
  split
  · exact Acts.pure unarmed
  apply Acts.bind_any
  intro header _
  cases header with
  | none => exact Acts.pure unarmed
  | some header =>
      dsimp only
      split
      · exact Acts.pure unarmed
      apply Acts.bind_any
      intro entries _
      split
      · exact Acts.pure unarmed
      · apply Acts.lift
        apply (returns_setEntryBreakpoint_deadline _ _).transcripts.mono
        exact fun armed _ same => ⟨rfl, same⟩

theorem acts_handleExec :
    Acts pid (Daemon.handleExec pid) settings sheet fun _ sheet' _ =>
      sheet' = { sheet with tracee := none } ∨ sheet.tracee ≠ none ∧
        ∃ tracee : Tracee, tracee.deadlineMs = 0 ∧ sheet' = { sheet with tracee := some tracee } := by
  have detaches : ∀ sheet : Sheet, sheet.tracee = none →
      Acts pid (liftM (Ptrace.detach pid none) : DaemonM Unit) settings sheet fun _ sheet' _ =>
        sheet' = { sheet with tracee := none } := by
    intro sheet untraced
    apply Acts.lift
    intro _
    rw [← untraced]
    rfl
  apply Acts.bind_get
  intro own _ isSheet
  have lookup : own.tracees.lookup pid = sheet.tracee := congrArg Sheet.tracee isSheet
  rw [lookup]
  cases found : sheet.tracee with
  | none =>
      apply (detaches sheet found).mono
      exact fun _ _ _ => .inl
  | some tracee =>
      apply Acts.bind_change sets_eraseTracee
      apply Acts.bind (acts_armEntryBreakpoint tracee)
      rintro armed _ _ ⟨rfl, fresh⟩
      cases armed with
      | none =>
          apply (detaches _ rfl).mono
          exact fun _ _ _ => .inl
      | some next =>
          apply Acts.bind_change (sets_tracee next)
          apply (acts_cont none).mono
          exact fun _ _ _ same => .inr ⟨by simp, next, fresh next rfl, same⟩

variable [Config.Build]

theorem acts_handleTrap :
    Acts pid (Daemon.handleTrap pid) settings sheet fun _ sheet' transcript =>
      sheet' = sheet ∧ ¬LetsGo pid transcript ∨ ∃ tracee, sheet.tracee = some tracee ∧
        (tracee.state ≠ .traced ∧ sheet' = { sheet with tracee := none } ∧ LetsGo pid transcript ∨
          ∃ next, (tracee.state = .traced ∧ next = tracee ∨
            tracee.state ≠ .traced ∧ next.Calling) ∧
            sheet' = { sheet with tracee := some next } ∧ ¬LetsGo pid transcript) := by
  apply Acts.bind_get
  intro own _ isSheet
  have lookup : own.tracees.lookup pid = sheet.tracee := congrArg Sheet.tracee isSheet
  rw [lookup]
  cases found : sheet.tracee with
  | none => exact Acts.pure (.inl ⟨rfl, List.not_mem_nil⟩)
  | some tracee =>
      apply Acts.bind_change sets_eraseTracee
      apply Acts.bind (Acts.of_tallies_events (Daemon.tallies_step pid tracee))
      rintro progress _ transcript ⟨rfl, tally⟩
      cases progress with
      | finished =>
          apply Acts.pure
          rcases tally with ⟨records, ended, closing⟩
          have notTraced : tracee.state ≠ .traced := by
            intro isTraced
            simp only [Closing, isTraced] at closing
          have letGo : LetsGo pid transcript := by
            rw [letsGo_iff_significant, ended]
            simp
          rw [List.append_nil]
          exact .inr ⟨tracee, rfl, .inl ⟨notTraced, rfl, letGo⟩⟩
      | tracing next =>
          apply Acts.change (sets_tracee next)
          have held : ¬LetsGo pid transcript := by
            rw [letsGo_iff_significant, tally.1]
            simp
          rw [List.append_nil]
          exact .inr ⟨tracee, rfl, .inr ⟨next, tally.2.2, rfl, held⟩⟩

end Parts

section Reports

variable {pid : Pid} {own : Daemon}

/-- A local change that leaves the sheet of its process leaves every sheet. -/
theorem Local.unchanged {own own' : Daemon} (isLocal : Local pid own own')
    (same : own'.sheet pid = own.sheet pid) (other : Pid) : own'.sheet other = own.sheet other := by
  by_cases isPid : other = pid
  · rw [isPid, same]
  · exact isLocal.elsewhere other isPid

theorem says_fork (status : Status) :
    StateProg.Says (do
      if let some child ← perform (.eventMessage pid) then
        if child ≠ 0 then
          Daemon.attachChild child
      Ptrace.cont pid none : DaemonM Unit) (fun _ own' transcript =>
        own'.settings = own.settings ∧ Handled pid status own own' transcript) own := by
  have resumes : ∀ first : Transcript, StateProg.Says
      (liftM (Ptrace.cont pid none) : DaemonM Unit) (fun _ own' rest =>
        own'.settings = own.settings ∧ Handled pid status own own' (first ++ rest)) own := by
    intro first
    rw [StateProg.says_lift]
    exact fun _ => ⟨rfl, .unchanged fun _ => rfl⟩
  rw [StateProg.says_bind, StateProg.says_lift]
  intro message
  cases message with
  | none => exact resumes [⟨.eventMessage pid, none⟩]
  | some child =>
      rw [Prog.Says]
      dsimp only
      split
      · rw [StateProg.says_bind]
        have acts : Acts child (Daemon.attachChild child) own.settings (own.sheet child)
            fun _ sheet' _ => sheet' = _ := Acts.change sets_attachChild rfl
        apply StateProg.says_mono (acts own rfl rfl)
        rintro _ own' _ ⟨isLocal, sheet⟩
        rw [StateProg.says_lift]
        intro _
        exact ⟨isLocal.settings, .attached child List.mem_cons_self isLocal sheet⟩
      · exact resumes [⟨.eventMessage pid, some child⟩]

variable [Usize] [Config.Build]

/-- The cases of a report. -/
theorem says_handleEvent (status : Status) :
    StateProg.Says (Daemon.handleEvent pid status) (fun _ own' transcript =>
      own'.settings = own.settings ∧ Handled pid status own own' transcript) own := by
  have unchanged : ∀ {program : DaemonM Unit},
      Acts pid program own.settings (own.sheet pid) (fun _ sheet' _ => sheet' = own.sheet pid) →
      StateProg.Says program (fun _ own' transcript =>
        own'.settings = own.settings ∧ Handled pid status own own' transcript) own := by
    intro program acts
    apply StateProg.says_mono (acts own rfl rfl)
    rintro _ own' transcript ⟨isLocal, same⟩
    exact ⟨isLocal.settings, .unchanged (isLocal.unchanged same)⟩
  by_cases gone : status.Gone
  · rw [Daemon.handleEvent_gone gone]
    have acts : Acts pid _ own.settings (own.sheet pid) fun _ sheet' _ => sheet' = _ :=
      Acts.change sets_eraseTracee rfl
    apply StateProg.says_mono (acts own rfl rfl)
    rintro _ own' _ ⟨isLocal, sheet⟩
    exact ⟨isLocal.settings, .left isLocal (.inl gone) sheet⟩
  by_cases execs : status.Execs
  · rw [Daemon.handleEvent_execs execs]
    apply StateProg.says_mono (acts_handleExec own rfl rfl)
    rintro _ own' _ ⟨isLocal, sheet | ⟨traced, tracee, noDeadline, sheet⟩⟩
    · exact ⟨isLocal.settings, .left isLocal (.inr (.inl execs)) sheet⟩
    · exact ⟨isLocal.settings, .armed isLocal execs traced tracee noDeadline sheet⟩
  by_cases exits : status.Exits
  · rw [Daemon.handleEvent_exits exits]
    have acts : Acts pid (do
        modify fun daemon => { daemon with tracees := daemon.tracees.erase pid }
        Ptrace.cont pid none) own.settings (own.sheet pid)
        fun _ sheet' _ => sheet' = { own.sheet pid with tracee := none } := by
      apply Acts.bind_change sets_eraseTracee
      exact acts_cont none
    apply StateProg.says_mono (acts own rfl rfl)
    rintro _ own' _ ⟨isLocal, sheet⟩
    exact ⟨isLocal.settings, .left isLocal (.inr (.inr (.inl exits))) sheet⟩
  by_cases forks : status.Forks
  · rw [Daemon.handleEvent_stopsByTrap forks.1]
    unfold Daemon.handleTrapEvent
    rw [if_pos forks.2]
    exact says_fork status
  by_cases byTrap : status.StopsByTrap
  · rw [Daemon.handleEvent_traps ⟨byTrap, execs, exits, forks⟩]
    rw [StateProg.says_bind, StateProg.says_get]
    split
    · apply StateProg.says_mono (acts_handleTrap own rfl rfl)
      rintro _ own' _ ⟨isLocal, ⟨same, _⟩ | ⟨tracee, found,
        ⟨notTraced, sheet, _⟩ | ⟨next, steps, sheet, _⟩⟩⟩
      · exact ⟨isLocal.settings, .unchanged (isLocal.unchanged same)⟩
      · refine ⟨isLocal.settings, .left isLocal (.inr (.inr (.inr ⟨tracee, found, ?_⟩))) sheet⟩
        exact notTraced
      · exact ⟨isLocal.settings, .stepped isLocal tracee next found steps sheet⟩
    · exact unchanged (acts_cont none)
  unfold Daemon.handleEvent
  have notGone : (status.isExited || status.isSignaled) = false := by
    simpa [Status.Gone] using gone
  rw [notGone, if_neg Bool.false_ne_true]
  split
  · exact unchanged (Acts.pure rfl)
  case isFalse stopped =>
    split
    · exact unchanged acts_handleStopEvent
    case isFalse notGroup =>
      have notTrap : status.stopSignal ≠ Signal.SIGTRAP := by
        intro trap
        exact byTrap ⟨by simpa using stopped, notGroup, trap⟩
      rw [if_neg notTrap]
      split
      · exact unchanged (acts_cont _)
      split
      · exact unchanged (acts_cont _)
      · apply unchanged
        apply Acts.bind (acts_reportFault _)
        rintro _ _ _ rfl
        exact acts_cont _

end Reports

section Endings

variable [Usize] {pid : Pid} {settings : Settings} {sheet : Sheet}

/-- What the expiry of an entry breakpoint makes of a sheet. -/
inductive Expired (sheet : Sheet) : Sheet → Prop where
  | absent (untraced : sheet.tracee = none) : Expired sheet sheet
  | kept (tracee : Tracee) (found : sheet.tracee = some tracee) (deadline : Nat) :
      Expired sheet { sheet with tracee := some { tracee with deadlineMs := deadline } }
  | ended (tracee : Tracee) (found : sheet.tracee = some tracee) :
      Expired sheet { sheet with tracee := none, done := true }

theorem acts_expireOne :
    Acts pid (Daemon.expireOne pid) settings sheet fun _ sheet' _ => Expired sheet sheet' := by
  apply Acts.bind_get
  intro own _ isSheet
  have lookup : own.tracees.lookup pid = sheet.tracee := congrArg Sheet.tracee isSheet
  rw [lookup]
  cases found : sheet.tracee with
  | none => exact Acts.pure (.absent found)
  | some tracee =>
      apply Acts.bind_change sets_eraseTracee
      apply Acts.bind_any
      intro status _
      cases status with
      | none =>
          apply Acts.bind_any
          intro now _
          apply Acts.change (sets_tracee _)
          exact .kept tracee found (now + HOLD_TIMEOUT_MS)
      | some status =>
          dsimp only
          split
          · apply Acts.bind_any
            intro _ _
            apply Acts.bind_any
            intro _ _
            exact Acts.change sets_done (.ended tracee found)
          · exact Acts.change sets_done (.ended tracee found)

theorem acts_releaseOne :
    Acts pid (Daemon.releaseOne pid) settings sheet fun _ sheet' _ =>
      sheet' = sheet ∨ sheet' = { sheet with tracee := none } := by
  apply Acts.bind_get
  intro own _ isSheet
  have lookup : own.tracees.lookup pid = sheet.tracee := congrArg Sheet.tracee isSheet
  rw [lookup]
  cases found : sheet.tracee with
  | none => exact Acts.pure (.inl rfl)
  | some tracee =>
      apply Acts.bind_change sets_eraseTracee
      apply Acts.bind_any
      intro status _
      cases status with
      | none =>
          apply Acts.bind_change (sets_tracee tracee)
          apply Acts.pure
          left
          rw [← found]
      | some status =>
          apply Acts.bind_any
          intro _ _
          apply Acts.bind_any
          intro _ _
          exact Acts.pure (.inr rfl)

end Endings

section Upkeep

/-- What dropping the entries of dead processes makes of a sheet. -/
structure Pruned (pid : Pid) (transcript : Transcript) (sheet sheet' : Sheet) : Prop where
  tracee : sheet'.tracee = sheet.tracee
  done : sheet'.done = sheet.done ∨ sheet'.done = false ∧ linkOf pid .gone ∈ transcript
  ignored : sheet'.ignored = sheet.ignored ∨
    sheet'.ignored = false ∧ linkOf pid .gone ∈ transcript
  candidate : sheet'.candidate = sheet.candidate ∨
    sheet'.candidate = none ∧ linkOf pid .gone ∈ transcript
  deferred : sheet'.deferred = sheet.deferred ∨
    sheet'.deferred = none ∧ linkOf pid .gone ∈ transcript
  recheck : sheet'.recheck = sheet.recheck ∨
    sheet'.recheck = none ∧ linkOf pid .gone ∈ transcript

namespace Pruned

variable {pid : Pid} {first second : Transcript} {sheet sheet' sheet'' : Sheet}

theorem refl (pid : Pid) (transcript : Transcript) (sheet : Sheet) :
    Pruned pid transcript sheet sheet :=
  ⟨rfl, .inl rfl, .inl rfl, .inl rfl, .inl rfl, .inl rfl⟩

/-- An entry that is dropped, earlier or later. -/
theorem entry {α : Type} {gone gone' : Prop} {value value' value'' empty : α}
    (left : value' = value ∨ value' = empty ∧ gone)
    (right : value'' = value' ∨ value'' = empty ∧ gone') :
    value'' = value ∨ value'' = empty ∧ (gone ∨ gone') := by
  rcases right with rfl | ⟨rfl, isGone⟩
  · rcases left with rfl | ⟨rfl, isGone⟩
    · exact .inl rfl
    · exact .inr ⟨rfl, .inl isGone⟩
  · exact .inr ⟨rfl, .inr isGone⟩

theorem trans (earlier : Pruned pid first sheet sheet') (later : Pruned pid second sheet' sheet'') :
    Pruned pid (first ++ second) sheet sheet'' := by
  constructor
  · exact later.tracee.trans earlier.tracee
  all_goals rw [List.mem_append]
  · exact entry earlier.done later.done
  · exact entry earlier.ignored later.ignored
  · exact entry earlier.candidate later.candidate
  · exact entry earlier.deferred later.deferred
  · exact entry earlier.recheck later.recheck

/-- A process that is there keeps its entries. -/
theorem same (pruned : Pruned pid first sheet sheet') (there : linkOf pid .gone ∉ first) :
    sheet' = sheet := by
  have kept : ∀ {α : Type} {value value' empty : α},
      value' = value ∨ value' = empty ∧ linkOf pid .gone ∈ first → value' = value := by
    rintro α value value' empty (isSame | ⟨_, gone⟩)
    · exact isSame
    · exact absurd gone there
  rcases sheet with ⟨tracee, done, ignored, candidate, deferred, recheck⟩
  rcases sheet' with ⟨tracee', done', ignored', candidate', deferred', recheck'⟩
  rw [Sheet.mk.injEq]
  exact ⟨pruned.tracee, kept pruned.done, kept pruned.ignored, kept pruned.candidate,
    kept pruned.deferred, kept pruned.recheck⟩

end Pruned

/-- The living of a list: what is dropped has been found gone. -/
theorem says_retainAlive (pids : List Pid) :
    (Procfs.retainAlive id pids).Says fun kept transcript => ∀ pid,
      (pid ∈ kept → pid ∈ pids) ∧ (pid ∈ pids → pid ∈ kept ∨ linkOf pid .gone ∈ transcript) := by
  induction pids with
  | nil => exact fun pid => ⟨fun present => present, fun present => absurd present List.not_mem_nil⟩
  | cons head rest ih =>
      rw [Procfs.retainAlive, Prog.bind_eq, Prog.says_bind]
      apply (says_isAlive head).mono
      rintro alive _ ⟨link, rfl, lives⟩
      rw [Prog.bind_eq, Prog.says_bind]
      apply ih.mono
      intro kept transcript spec pid
      have isGone : alive = false → link = .gone := by
        intro dead
        by_contra there
        rw [lives.mpr there] at dead
        exact absurd dead (by decide)
      cases alive with
      | true =>
          simp only [if_true, List.mem_cons, List.append_nil, List.mem_append]
          constructor
          · rintro (same | present)
            · exact .inl same
            · exact .inr ((spec pid).1 present)
          · rintro (same | present)
            · exact .inl (.inl same)
            · rcases (spec pid).2 present with isKept | gone
              · exact .inl (.inr isKept)
              · exact .inr (.inr gone)
      | false =>
          rw [isGone rfl]
          simp only [Bool.false_eq_true, if_false, List.mem_cons, List.append_nil, List.mem_append]
          constructor
          · exact fun present => .inr ((spec pid).1 present)
          · rintro (rfl | present)
            · exact .inr (.inl (.inl rfl))
            · rcases (spec pid).2 present with isKept | gone
              · exact .inl isKept
              · exact .inr (.inr gone)

theorem says_aliveEntries {α : Type} (table : Table α) :
    (Daemon.aliveEntries table).Says fun kept transcript => ∀ pid,
      kept.lookup pid = table.lookup pid ∨
        kept.lookup pid = none ∧ linkOf pid .gone ∈ transcript := by
  rw [Daemon.aliveEntries, Prog.bind_eq, Prog.says_bind]
  apply (says_retainAlive table.keys).mono
  intro kept transcript spec pid
  rw [Table.lookup_retain, List.append_nil]
  split
  case isTrue => exact .inl rfl
  case isFalse notKept =>
    by_cases present : pid ∈ table.keys
    · rcases (spec pid).2 present with isKept | gone
      · exact absurd isKept notKept
      · exact .inr ⟨rfl, gone⟩
    · left
      rw [← AList.mem_keys] at present
      exact (AList.lookup_eq_none.mpr present).symm

theorem says_alivePids (pids : List Pid) :
    (Daemon.alivePids pids).Says fun kept transcript => ∀ pid,
      decide (pid ∈ kept) = decide (pid ∈ pids) ∨
        decide (pid ∈ kept) = false ∧ linkOf pid .gone ∈ transcript := by
  apply (says_retainAlive pids).mono
  intro kept transcript spec pid
  by_cases present : pid ∈ pids
  · rcases (spec pid).2 present with isKept | gone
    · left
      rw [decide_eq_true isKept, decide_eq_true present]
    · by_cases isKept : pid ∈ kept
      · left
        rw [decide_eq_true isKept, decide_eq_true present]
      · exact .inr ⟨decide_eq_false isKept, gone⟩
  · left
    have notKept : pid ∉ kept := fun isKept => present ((spec pid).1 isKept)
    rw [decide_eq_false notKept, decide_eq_false present]

/-- The program drops entries of dead processes and does nothing else. -/
def Prunes (program : DaemonM Unit) : Prop :=
  ∀ own, StateProg.Says program (fun _ own' transcript => own'.settings = own.settings ∧
    ∀ pid, Pruned pid transcript (own.sheet pid) (own'.sheet pid)) own

theorem Prunes.then {first second : DaemonM Unit} (prunes : Prunes first)
    (prunes' : Prunes second) : Prunes (do first; second) := by
  intro own
  rw [StateProg.says_bind]
  apply StateProg.says_mono (prunes own)
  rintro _ own' transcript ⟨settings, sheets⟩
  apply StateProg.says_mono (prunes' own')
  rintro _ own'' more ⟨settings', sheets'⟩
  exact ⟨settings'.trans settings, fun pid => (sheets pid).trans (sheets' pid)⟩

/-- One table is pruned. -/
theorem Prunes.table {α : Type} {entries : Daemon → Prog Sys α} {change : α → Daemon → Daemon}
    (settings : ∀ value own, (change value own).settings = own.settings)
    (sheets : ∀ own, (entries own).Says fun value transcript =>
      ∀ pid, Pruned pid transcript (own.sheet pid) ((change value own).sheet pid)) :
    Prunes (do
      let value ← entries (← get)
      modify (change value)) := by
  intro own
  rw [StateProg.says_bind, StateProg.says_get, StateProg.says_bind, StateProg.says_lift]
  apply (sheets own).mono
  intro value transcript pruned
  rw [StateProg.says_modify]
  simp only [List.nil_append, List.append_nil]
  exact ⟨settings value own, pruned⟩

theorem prunes_deferred : Prunes Daemon.pruneDeferred := by
  apply Prunes.table
  · exact fun _ _ => rfl
  · intro own
    apply (says_aliveEntries own.deferred).mono
    intro kept transcript spec pid
    exact ⟨rfl, .inl rfl, .inl rfl, .inl rfl, spec pid, .inl rfl⟩

theorem prunes_recheck : Prunes Daemon.pruneRecheck := by
  apply Prunes.table
  · exact fun _ _ => rfl
  · intro own
    apply (says_aliveEntries own.recheck).mono
    intro kept transcript spec pid
    exact ⟨rfl, .inl rfl, .inl rfl, .inl rfl, .inl rfl, spec pid⟩

theorem prunes_kernelBookkeeping : Prunes Daemon.pruneKernelBookkeeping := by
  have done : Prunes (do
      let done ← Daemon.alivePids (← get).done
      modify fun daemon => { daemon with done := done }) := by
    refine @Prunes.table _ (fun own => Daemon.alivePids own.done) _ ?_ ?_
    · exact fun _ _ => rfl
    · intro own
      apply (says_alivePids own.done).mono
      intro kept transcript spec pid
      exact ⟨rfl, spec pid, .inl rfl, .inl rfl, .inl rfl, .inl rfl⟩
  have ignored : Prunes (do
      let ignored ← Daemon.alivePids (← get).ignored
      modify fun daemon => { daemon with ignored := ignored }) := by
    refine @Prunes.table _ (fun own => Daemon.alivePids own.ignored) _ ?_ ?_
    · exact fun _ _ => rfl
    · intro own
      apply (says_alivePids own.ignored).mono
      intro kept transcript spec pid
      exact ⟨rfl, .inl rfl, spec pid, .inl rfl, .inl rfl, .inl rfl⟩
  have candidates : Prunes (do
      let candidates ← Daemon.aliveEntries (← get).candidates
      modify fun daemon => { daemon with candidates := candidates }) := by
    refine @Prunes.table _ (fun own => Daemon.aliveEntries own.candidates) _ ?_ ?_
    · exact fun _ _ => rfl
    · intro own
      apply (says_aliveEntries own.candidates).mono
      intro kept transcript spec pid
      exact ⟨rfl, .inl rfl, .inl rfl, spec pid, .inl rfl, .inl rfl⟩
  have all := done.then (ignored.then candidates)
  unfold Daemon.pruneKernelBookkeeping
  simpa only [Prunes, bind_assoc] using all

end Upkeep

end Znn.Injector
