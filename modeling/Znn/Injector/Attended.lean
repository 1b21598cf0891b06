import Znn.Injector.Handled

/-!
# Whom a report lets go

A process is detached at its exec, when it cannot be armed or nothing is known of it, and at the
trap that ends its injection; at every other report it stays with the daemon. The cases of a
report say it together with what becomes of the table of tracees.
-/

namespace Znn.Injector

open Interaction PtraceOps Trace

namespace Daemon

/-- Of the table of tracees only the entry of one process may differ, and it is this. -/
def Enters (pid : Pid) (entry : Option Tracee) (own own' : Daemon) : Prop :=
  ∀ other, own'.tracees.lookup other = if other = pid then entry else own.tracees.lookup other

theorem Enters.self {pid : Pid} {entry : Option Tracee} {own own' : Daemon}
    (enters : Enters pid entry own own') : own'.tracees.lookup pid = entry := by
  rw [enters pid, if_pos rfl]

theorem Enters.elsewhere {pid other : Pid} {entry : Option Tracee} {own own' : Daemon}
    (enters : Enters pid entry own own') (ne : other ≠ pid) :
    own'.tracees.lookup other = own.tracees.lookup other := by
  rw [enters other, if_neg ne]

/-- An exec is handled by an attempt to arm the entry breakpoint; the process is detached only
when that fails. -/
inductive Arms [Usize] (pid : Pid) (own own' : Daemon) (transcript : Transcript) : Prop where
  | armed (tracee next : Tracee) (middle : Daemon) (tried : Transcript)
      (found : own.tracees.lookup pid = some tracee)
      (tries : StateProg.Talks (armEntryBreakpoint pid tracee)
        { own with tracees := own.tracees.erase pid } (some next) middle tried)
      (kept : own' = { middle with tracees := middle.tracees.insert pid next })
      (resumed : transcript = tried ++ [⟨.cont pid none, ()⟩])
  | refused (tracee : Tracee) (tried : Transcript) (detached : Bool)
      (found : own.tracees.lookup pid = some tracee)
      (tries : StateProg.Talks (armEntryBreakpoint pid tracee)
        { own with tracees := own.tracees.erase pid } none own' tried)
      (letGo : transcript = tried ++ [⟨.detach pid none, detached⟩])

end Daemon

section Rules

variable {pid : Pid} {own own' : Daemon} {transcript : Transcript}

/-- What a program about one process makes of the table. -/
theorem Local.enters {entry : Option Tracee} (isLocal : Local pid own own')
    (sheet : (own'.sheet pid).tracee = entry) : own.Enters pid entry own' := by
  intro other
  split
  case isTrue same =>
    rw [same]
    exact sheet
  case isFalse ne => exact congrArg Sheet.tracee (isLocal.elsewhere other ne)

/-- The frame of an attempt to arm: nothing but the erased entry has changed, nobody is let go,
and a breakpoint that is armed at an exec never expires. -/
theorem framed_armEntryBreakpoint [Usize] {tracee : Tracee} {armed : Option Tracee}
    {middle : Daemon}
    (tries : StateProg.Talks (Daemon.armEntryBreakpoint pid tracee)
      { own with tracees := own.tracees.erase pid } armed middle transcript) :
    own.Enters pid none middle ∧ ¬LetsGo pid transcript ∧
      ∀ next, armed = some next → next.deadlineMs = 0 := by
  let erased : Daemon := { own with tracees := own.tracees.erase pid }
  have erases : own.Enters pid none erased := by
    apply Local.enters (sets_eraseTracee.isLocal own)
    rw [sets_eraseTracee.sheet own]
  have acts : StateProg.Talks (Daemon.armEntryBreakpoint pid tracee) erased armed middle
      transcript := tries
  rcases acts.of_says (acts_armEntryBreakpoint tracee erased rfl rfl) with
    ⟨isLocal, same, noDeadline⟩
  rcases acts.of_says (Acts.of_tallies_events (Daemon.tallies_armEntryBreakpoint tracee)
    erased rfl rfl) with ⟨_, _, silent, _⟩
  refine ⟨?_, ?_, noDeadline⟩
  · intro other
    by_cases isPid : other = pid
    · rw [if_pos isPid, isPid]
      have self : middle.tracees.lookup pid = erased.tracees.lookup pid :=
        congrArg Sheet.tracee same
      rw [self, erases.self]
    · rw [if_neg isPid, ← erases.elsewhere isPid]
      exact congrArg Sheet.tracee (isLocal.elsewhere other isPid)
  · rw [letsGo_iff_significant, silent]
    exact List.not_mem_nil

/-- What has been armed or refused. -/
theorem Daemon.Arms.outcome [Usize] (arms : Daemon.Arms pid own own' transcript) :
    (∃ next, next.deadlineMs = 0 ∧ own.Enters pid (some next) own' ∧ ¬LetsGo pid transcript) ∨
      own.Enters pid none own' ∧ LetsGo pid transcript := by
  cases arms with
  | armed tracee next middle tried found tries kept resumed =>
      rcases framed_armEntryBreakpoint tries with ⟨enters, held, noDeadline⟩
      left
      refine ⟨next, noDeadline next rfl, ?_, ?_⟩
      · intro other
        rw [kept]
        by_cases isPid : other = pid
        · rw [if_pos isPid, isPid, AList.lookup_insert]
        · rw [if_neg isPid, AList.lookup_insert_ne isPid, enters.elsewhere isPid]
      · have silent : ¬LetsGo pid [⟨.cont pid none, ()⟩] := by
          simp [LetsGo, eventsOf, effects]
        rw [resumed, letsGo_append]
        exact not_or.mpr ⟨held, silent⟩
  | refused tracee tried detached found tries letGo =>
      right
      refine ⟨(framed_armEntryBreakpoint tries).1, ?_⟩
      rw [letGo, letsGo_append]
      simp [LetsGo, eventsOf, effects]

end Rules

section Reports

variable {pid : Pid} {own own' : Daemon} {transcript : Transcript} {status : Status}

/-- The cases of a report: what becomes of the table, and whether its process is let go. -/
inductive Attended [Usize] (pid : Pid) (status : Status) (own own' : Daemon)
    (transcript : Transcript) : Prop where
  | kept (same : ∀ other, own'.tracees.lookup other = own.tracees.lookup other)
      (held : ¬LetsGo pid transcript) (alive : ¬status.Gone)
      (unheard : status.Forks → ∀ child : Nat,
        ⟨.eventMessage pid, some child⟩ ∈ transcript → child = 0)
  /-- A new child is followed. -/
  | attached (forks : status.Forks) (child : Nat)
      (heard : ⟨.eventMessage pid, some child⟩ ∈ transcript)
      (enters : own.Enters child
        ((own.sheet child).tracee.or (some (Tracee.new .traced .unknown))) own')
      (held : ¬LetsGo pid transcript)
  | ended (reason : status.Gone ∨ status.Exits) (enters : own.Enters pid none own')
      (held : ¬LetsGo pid transcript)
  /-- An exec of a process that the daemon does not know. -/
  | unknown (execs : status.Execs) (absent : own.tracees.lookup pid = none) (same : own' = own)
      (letGo : LetsGo pid transcript)
  | armed (execs : status.Execs) (arms : Daemon.Arms pid own own' transcript) (next : Tracee)
      (noDeadline : next.deadlineMs = 0) (enters : own.Enters pid (some next) own')
      (held : ¬LetsGo pid transcript)
  | refused (execs : status.Execs) (arms : Daemon.Arms pid own own' transcript)
      (enters : own.Enters pid none own') (letGo : LetsGo pid transcript)
  | stepped (traps : status.Traps) (tracee next : Tracee)
      (found : own.tracees.lookup pid = some tracee)
      (steps : tracee.state = .traced ∧ next = tracee ∨ tracee.state ≠ .traced ∧ next.Calling)
      (enters : own.Enters pid (some next) own') (held : ¬LetsGo pid transcript)
  | finished (traps : status.Traps) (tracee : Tracee)
      (found : own.tracees.lookup pid = some tracee) (notTraced : tracee.state ≠ .traced)
      (enters : own.Enters pid none own') (letGo : LetsGo pid transcript)

theorem says_handleExec [Usize] : StateProg.Says (Daemon.handleExec pid)
    (fun _ own' transcript => own.tracees.lookup pid = none ∧ own' = own ∧
      LetsGo pid transcript ∨ Daemon.Arms pid own own' transcript) own := by
  unfold Daemon.handleExec
  rw [StateProg.says_bind, StateProg.says_get]
  cases found : own.tracees.lookup pid with
  | none =>
      rw [StateProg.says_lift]
      intro detached
      exact .inl ⟨rfl, rfl, List.mem_singleton_self _⟩
  | some tracee =>
      rw [StateProg.says_bind, StateProg.says_modify, StateProg.says_bind]
      apply Prog.says_iff_talks.mpr
      rintro ⟨armed, middle⟩ tried tries
      cases armed with
      | none =>
          rw [StateProg.says_lift]
          intro detached
          right
          apply Daemon.Arms.refused tracee tried detached found tries
          rfl
      | some next =>
          rw [StateProg.says_bind, StateProg.says_modify, StateProg.says_lift]
          intro _
          right
          apply Daemon.Arms.armed tracee next middle tried found tries
          · rfl
          · rfl

theorem says_attachChild (child : Pid) : StateProg.Says (Daemon.attachChild child)
    (fun _ own' transcript => own.Enters child
      ((own.sheet child).tracee.or (some (Tracee.new .traced .unknown))) own' ∧
        transcript = []) own := by
  refine ⟨Local.enters (sets_attachChild.isLocal own) ?_, rfl⟩
  rw [sets_attachChild.sheet own]

variable [Config.Build]

/-- What a report makes of the table, and whom it lets go. -/
theorem says_handleEvent_attended [Usize] : StateProg.Says (Daemon.handleEvent pid status)
    (fun _ own' transcript => Attended pid status own own' transcript) own := by
  have silent : ∀ signal, ¬LetsGo pid [⟨.cont pid signal, ()⟩] := by
    intro signal
    simp [LetsGo, eventsOf, effects]
  by_cases gone : status.Gone
  · rw [Daemon.handleEvent_gone gone, StateProg.says_modify]
    apply Attended.ended (.inl gone)
    · apply Local.enters (sets_eraseTracee.isLocal own)
      rw [sets_eraseTracee.sheet own]
    · exact List.not_mem_nil
  by_cases execs : status.Execs
  · rw [Daemon.handleEvent_execs execs]
    apply StateProg.says_mono says_handleExec
    rintro _ own' transcript (⟨absent, same, letGo⟩ | arms)
    · exact .unknown execs absent same letGo
    · rcases arms.outcome with ⟨next, noDeadline, enters, held⟩ | ⟨enters, letGo⟩
      · exact .armed execs arms next noDeadline enters held
      · exact .refused execs arms enters letGo
  by_cases exits : status.Exits
  · rw [Daemon.handleEvent_exits exits, StateProg.says_bind, StateProg.says_modify,
      StateProg.says_lift]
    intro _
    apply Attended.ended (.inr exits)
    · apply Local.enters (sets_eraseTracee.isLocal own)
      rw [sets_eraseTracee.sheet own]
    · exact silent none
  by_cases traps : status.Traps
  · rw [Daemon.handleEvent_traps traps, StateProg.says_bind, StateProg.says_get]
    split
    · apply StateProg.says_mono (acts_handleTrap own rfl rfl)
      rintro _ own' transcript ⟨isLocal, ⟨same, held⟩ | ⟨tracee, found,
        ⟨notTraced, sheet, letGo⟩ | ⟨next, steps, sheet, held⟩⟩⟩
      · refine .kept (fun other => congrArg Sheet.tracee (isLocal.unchanged same other)) held gone ?_
        exact fun forks => absurd forks traps.2.2.2
      · refine .finished traps tracee found notTraced (isLocal.enters ?_) letGo
        rw [sheet]
      · refine .stepped traps tracee next found steps (isLocal.enters ?_) held
        rw [sheet]
    · rw [StateProg.says_lift]
      intro _
      exact .kept (fun _ => rfl) (silent none) gone fun forks => absurd forks traps.2.2.2
  by_cases forks : status.Forks
  · rw [Daemon.handleEvent_stopsByTrap forks.1]
    unfold Daemon.handleTrapEvent
    rw [if_pos forks.2, StateProg.says_bind, StateProg.says_lift]
    intro message
    have resumes : (∀ child, message = some child → child = 0) →
        StateProg.Says (liftM (Ptrace.cont pid none) : DaemonM Unit)
          (fun _ own' rest => Attended pid status own own'
            ([⟨.eventMessage pid, message⟩] ++ rest)) own := by
      intro unheard
      rw [StateProg.says_lift]
      intro _
      refine .kept (fun _ => rfl) ?_ gone ?_
      · simp [LetsGo, eventsOf, effects]
      · intro _ child heard
        simp only [List.cons_append, List.nil_append, List.mem_cons, List.not_mem_nil,
          or_false] at heard
        rcases heard with same | other
        · cases same
          exact unheard child rfl
        · cases other
    cases message with
    | none => exact resumes (by simp)
    | some child =>
        rw [Prog.Says]
        dsimp only
        split
        · rw [StateProg.says_bind]
          apply StateProg.says_mono (says_attachChild child)
          rintro _ own' _ ⟨enters, rfl⟩
          rw [StateProg.says_lift]
          intro _
          refine .attached forks child List.mem_cons_self enters ?_
          simp [LetsGo, eventsOf, effects]
        case isFalse isZero =>
          apply resumes
          rintro _ ⟨⟩
          simpa using isZero
  · have passes : ∀ other, Leaves anything other False Event.Passes
        (Daemon.handleEvent pid status) :=
      fun other => Daemon.passes_quiet gone execs exits traps forks
    apply Prog.says_iff_talks.mpr
    rintro ⟨_, own'⟩ transcript talks
    have left : ∀ other, Left other Event.Passes own own' [] (eventsOf transcript) := by
      intro other
      have holds := passes other own [] False.elim
      rw [answering_anything] at holds
      exact talks.of_says (Prog.says_of_wp holds)
    refine .kept (fun other => (left other).lookup) ?_ gone fun isFork => absurd isFork forks
    intro letGo
    rcases (left pid).events with ⟨new, events, passing⟩
    rw [List.nil_append] at events
    rw [LetsGo, events] at letGo
    exact passing _ letGo

end Reports

section Entries

variable [Usize] {pid other : Pid} {own own' : Daemon} {transcript : Transcript} {status : Status}

omit [Usize] in
theorem Status.StopsByTrap.alive (stops : status.StopsByTrap) : ¬status.Gone := by
  have notGone := Status.not_gone_of_isStopped stops.1
  simpa [Status.Gone] using notGone

/-- Where an entry of the table comes from: it was there, it is that of a new child, or it is that
of the process of the report, which was armed or goes on with its injection. -/
theorem Attended.entry (attended : Attended pid status own own' transcript) {tracee : Tracee}
    (found : own'.tracees.lookup other = some tracee) :
    own.tracees.lookup other = some tracee ∧ (other = pid → ¬LetsGo pid transcript ∧ ¬status.Gone) ∨
      (tracee = Tracee.new .traced .unknown ∧ ∃ child : Nat, (child : Pid) = other ∧
        ⟨.eventMessage pid, some child⟩ ∈ transcript) ∨
      other = pid ∧ ¬LetsGo pid transcript ∧ ¬status.Gone ∧
        (status.Execs ∧ tracee.deadlineMs = 0 ∨ tracee.Calling ∧ ∃ before,
          own.tracees.lookup pid = some before ∧ before.state ≠ .traced) := by
  have elsewhere : ∀ {target entry}, own.Enters target entry own' → other ≠ target →
      own.tracees.lookup other = some tracee := by
    intro target entry enters ne
    rw [← enters.elsewhere ne, found]
  cases attended with
  | kept same held alive =>
      rw [same] at found
      exact .inl ⟨found, fun _ => ⟨held, alive⟩⟩
  | attached forks child heard enters held =>
      by_cases isChild : other = child
      · rw [isChild, enters.self] at found
        rw [isChild]
        cases before : (own.sheet child).tracee with
        | none =>
            rw [before, Option.none_or, Option.some.injEq] at found
            exact .inr (.inl ⟨found.symm, child, rfl, heard⟩)
        | some known =>
            rw [before, Option.some_or] at found
            exact .inl ⟨before.trans found, fun _ => ⟨held, forks.1.alive⟩⟩
      · exact .inl ⟨elsewhere enters isChild, fun _ => ⟨held, forks.1.alive⟩⟩
  | ended _ enters | refused _ _ enters | finished _ _ _ _ enters =>
      by_cases isPid : other = pid
      · rw [isPid, enters.self] at found
        cases found
      · exact .inl ⟨elsewhere enters isPid, fun same => absurd same isPid⟩
  | unknown _ absent same =>
      rw [same] at found
      refine .inl ⟨found, fun isPid => ?_⟩
      rw [isPid, absent] at found
      cases found
  | armed execs _ next noDeadline enters held =>
      by_cases isPid : other = pid
      · rw [isPid, enters.self] at found
        cases found
        exact .inr (.inr ⟨isPid, held, execs.1.alive, .inl ⟨execs, noDeadline⟩⟩)
      · exact .inl ⟨elsewhere enters isPid, fun same => absurd same isPid⟩
  | stepped traps before next was steps enters held =>
      by_cases isPid : other = pid
      · rw [isPid, enters.self] at found
        cases found
        rcases steps with ⟨_, rfl⟩ | ⟨notTraced, calling⟩
        · rw [isPid]
          exact .inl ⟨was, fun _ => ⟨held, traps.1.alive⟩⟩
        · exact .inr (.inr ⟨isPid, held, traps.1.alive, .inr ⟨calling, before, was, notTraced⟩⟩)
      · exact .inl ⟨elsewhere enters isPid, fun same => absurd same isPid⟩

/-- An entry is dropped only when its process is let go, or its end is reported. -/
theorem Attended.keeps (attended : Attended pid status own own' transcript)
    (known : own.tracees.lookup other ≠ none)
    (stays : other = pid → ¬LetsGo pid transcript ∧ ¬status.Gone ∧ ¬status.Exits) :
    own'.tracees.lookup other ≠ none := by
  have elsewhere : ∀ {target entry}, own.Enters target entry own' → other ≠ target →
      own'.tracees.lookup other ≠ none := by
    intro target entry enters ne
    rwa [enters.elsewhere ne]
  cases attended with
  | kept same => rwa [same]
  | attached _ child _ enters =>
      by_cases isChild : other = child
      · rw [isChild, enters.self]
        simp
      · exact elsewhere enters isChild
  | ended reason enters =>
      apply elsewhere enters
      intro isPid
      rcases reason with gone | exits
      · exact (stays isPid).2.1 gone
      · exact (stays isPid).2.2 exits
  | unknown _ _ same => rwa [same]
  | refused _ _ enters letGo | finished _ _ _ _ enters letGo =>
      exact elsewhere enters fun isPid => (stays isPid).1 letGo
  | armed _ _ next _ enters | stepped _ _ next _ _ enters =>
      by_cases isPid : other = pid
      · rw [isPid, enters.self]
        simp
      · exact elsewhere enters isPid

/-- A child that the report of a fork names is in the table afterwards. -/
theorem Attended.learns (attended : Attended pid status own own' transcript) {child : Nat}
    (forks : status.Forks) (real : 0 < child)
    (heard : ⟨.eventMessage pid, some child⟩ ∈ transcript)
    (one : ∀ other : Nat, ⟨.eventMessage pid, some other⟩ ∈ transcript → other = child) :
    own'.tracees.lookup (child : Pid) ≠ none := by
  have notExec : ¬status.Execs := by
    intro execs
    have event := execs.2
    rcases forks.2 with isFork | isFork | isFork <;> rw [isFork] at event <;> cases event
  have notExit : ¬status.Exits := by
    intro exits
    have event := exits.2
    rcases forks.2 with isFork | isFork | isFork <;> rw [isFork] at event <;> cases event
  cases attended with
  | kept _ _ _ unheard =>
      have zero := unheard forks child heard
      omega
  | attached _ named isNamed enters =>
      rw [← one named isNamed, enters.self]
      simp
  | ended reason =>
      rcases reason with gone | exits
      · exact absurd gone forks.1.alive
      · exact absurd exits notExit
  | unknown execs | armed execs | refused execs => exact absurd execs notExec
  | stepped traps | finished traps => exact absurd forks traps.2.2.2

/-- The process that is let go leaves the table; it has executed a program, or its injection is
over. -/
theorem Attended.drops (attended : Attended pid status own own' transcript)
    (letGo : LetsGo pid transcript) : own'.tracees.lookup pid = none ∧
      (status.Execs ∨ status.Traps ∧ ∃ tracee, own.tracees.lookup pid = some tracee ∧
        tracee.state ≠ .traced) := by
  cases attended with
  | kept _ held | attached _ _ _ _ held | ended _ _ held | armed _ _ _ _ _ held
  | stepped _ _ _ _ _ _ held => exact absurd letGo held
  | unknown execs absent same =>
      rw [same]
      exact ⟨absent, .inl execs⟩
  | refused execs _ enters => exact ⟨enters.self, .inl execs⟩
  | finished traps tracee found notTraced enters =>
      exact ⟨enters.self, .inr ⟨traps, tracee, found, notTraced⟩⟩

end Entries

end Znn.Injector
