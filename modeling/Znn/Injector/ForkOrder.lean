import Znn.Injector.Following

/-!
# The order of forks and execs

A child is known once the report of its parent has been handled. An exec that is handled later is
armed if it can be; one that is handled earlier finds nothing in the table and is detached, and
the report of the parent then enters a process that has been let go. The same happens to the exec
of a thread whose leader has been detached: it is reported at the leader's pid, which is not in
the table any more.
-/

namespace Znn.Injector

open Interaction Trace

/-- No process that has been detached is in the table. -/
def World.NoneStale (world : World) : Prop :=
  ∀ pid task, world.task pid = some task → ¬task.followed → pid ∉ world.daemon.tracees

/-- An exec that is handled is answered by arming the breakpoint, unless that fails. -/
def World.ArmsExecs [Usize] (world : World) (occurrence : Occurrence) (world' : World) : Prop :=
  ∀ pid status transcript, occurrence = .chore (.report pid status) transcript → status.Execs →
    Daemon.Arms pid world.daemon world'.daemon transcript

/-- Whatever the order of the reports, execs are armed and no entry is stale. -/
def OrderIndependent [Usize] [Config.Build] : Prop :=
  ∀ world, tracingForks.Reachable world → world.NoneStale ∧
    ∀ occurrence world', Occurs world occurrence world' → world.ArmsExecs occurrence world'

/-- An exec is handled only when the report that names the task has been, when no report that
waits names it, and before its exit is reported. No report names the thread that has executed a
program in the place of a leader that was detached. -/
def World.Orderly (world : World) : Occurrence → Prop
  | .chore (.report pid status) _ => status.Execs → ∀ task, world.task pid = some task →
      task.reported ∧ ¬task.ending ∧ ¬world.Names pid
  | _ => True

/-- What the daemon knows of the tasks when the reports come in order. -/
structure World.Informed (world : World) : Prop where
  known : ∀ pid task, world.task pid = some task → task.followed → task.reported →
    ¬task.ending → world.daemon.tracees.lookup pid ≠ none
  forgotten : ∀ pid task, world.task pid = some task → ¬task.followed →
    world.daemon.tracees.lookup pid = none ∧ ¬world.Names pid
  unnamed : ∀ pid tracee, world.daemon.tracees.lookup pid = some tracee →
    tracee.state ≠ .traced → ¬world.Names pid

namespace World

variable {world world' : World} {pid other : Pid} {entry : Option TracedTask}
  {occurrence : Occurrence}

namespace Informed

theorem noneStale (informed : world.Informed) : world.NoneStale := by
  intro pid task found notFollowed present
  rw [← AList.lookup_isSome, (informed.forgotten pid task found notFollowed).1] at present
  cases present

/-- A task changes, not the daemon; what its report names is a followed task that is not being
injected. -/
theorem put (informed : world.Informed)
    (known : ∀ task, entry = some task → task.followed → task.reported → ¬task.ending →
      world.daemon.tracees.lookup pid ≠ none)
    (forgotten : ∀ task, entry = some task → ¬task.followed →
      world.daemon.tracees.lookup pid = none ∧ ¬world.Names pid)
    (names : ∀ task notice other, entry = some task → task.notice = some notice →
      notice.child = some other →
        (∀ named, (world.put pid entry).task other = some named → named.followed) ∧
          ∀ tracee, world.daemon.tracees.lookup other = some tracee → tracee.state = .traced) :
    (world.put pid entry).Informed := by
  constructor
  · intro other task found
    by_cases same : other = pid
    · rw [same] at found ⊢
      rw [put_self] at found
      exact known task found
    · rw [put_elsewhere same] at found
      exact informed.known other task found
  · intro other task found notFollowed
    have before : world.daemon.tracees.lookup other = none ∧ ¬world.Names other := by
      by_cases same : other = pid
      · rw [same] at found ⊢
        rw [put_self] at found
        exact forgotten task found notFollowed
      · rw [put_elsewhere same] at found
        exact informed.forgotten other task found notFollowed
    refine ⟨before.1, fun isNamed => ?_⟩
    rcases names_put isNamed with was | ⟨parent, notice, isParent, waits, child⟩
    · exact before.2 was
    · exact notFollowed ((names parent notice other isParent waits child).1 task found)
  · intro other tracee found notTraced isNamed
    rcases names_put isNamed with was | ⟨parent, notice, isParent, waits, child⟩
    · exact informed.unnamed other tracee found notTraced was
    · exact notTraced ((names parent notice other isParent waits child).2 tracee found)

theorem vanishes (informed : world.Informed) : (world.put pid none).Informed := by
  apply informed.put
  · rintro _ ⟨⟩
  · rintro _ ⟨⟩
  · rintro _ notice other ⟨⟩

/-- The daemon changes, not the table of tracees. -/
theorem works {daemon : Daemon} (informed : world.Informed)
    (same : ∀ pid, daemon.tracees.lookup pid = world.daemon.tracees.lookup pid) :
    ({ world with daemon := daemon } : World).Informed := by
  constructor
  · intro pid task found followed reported notEnding
    rw [same]
    exact informed.known pid task found followed reported notEnding
  · intro pid task found notFollowed
    rw [same]
    exact informed.forgotten pid task found notFollowed
  · intro pid tracee found
    rw [same] at found
    exact informed.unnamed pid tracee found

end Informed

section Runs

variable [Usize] [Config.Build]

theorem informed_initial (initial : tracingForks.Initial world) : world.Informed := by
  rcases initial with ⟨_, _, present, tasks⟩
  have onlyInit : ∀ pid task, world.task pid = some task → pid = 1 ∧ task = .init := by
    intro pid task found
    rw [tasks] at found
    by_cases isInit : pid = 1
    · rw [isInit, Function.update_self] at found
      exact ⟨isInit, (Option.some.inj found).symm⟩
    · rw [Function.update_of_ne isInit] at found
      cases found
  constructor
  · intro pid task found _ _ _
    rw [(onlyInit pid task found).1, Option.ne_none_iff_isSome]
    exact AList.lookup_isSome.mpr present
  · intro pid task found notFollowed
    rw [(onlyInit pid task found).2] at notFollowed
    exact absurd trivial notFollowed
  · rintro pid tracee _ _ ⟨parent, task, notice, found, waits, _⟩
    rw [(onlyInit parent task found).2] at waits
    cases waits

section Reports

variable {pid : Pid} {status : Status} {transcript : Transcript} {task : TracedTask}
  {notice : Notice} {daemon : Daemon}

omit [Config.Build] in
/-- Whom the report names is in the table afterwards. -/
theorem learns (rooted : world.Rooted) (found : world.task pid = some task)
    (waits : task.notice = some notice) (tells : notice.Tells status)
    (attended : Attended pid status world.daemon daemon transcript)
    (truthful : ∀ child : Nat, ⟨.eventMessage pid, some child⟩ ∈ transcript →
      notice.child = some (child : Pid)) (heard : Heard pid transcript other) :
    daemon.tracees.lookup other ≠ none := by
  rcases heard with ⟨child, rfl, heard⟩
  have named := truthful child heard
  rcases (rooted.waits pid task found notice status waits tells).2.2 child named with ⟨forks, real⟩
  apply attended.learns forks real heard
  intro another isHeard
  have same := (truthful another isHeard).symm.trans named
  exact Int.ofNat.inj (Option.some.inj same)

omit [Config.Build] in
/-- A report that comes in order. -/
theorem Informed.report (informed : world.Informed) (rooted : world.Rooted)
    (found : world.task pid = some task) (waits : task.notice = some notice)
    (tells : notice.Tells status)
    (attended : Attended pid status world.daemon daemon transcript)
    (truthful : ∀ child : Nat, ⟨.eventMessage pid, some child⟩ ∈ transcript →
      notice.child = some (child : Pid))
    (unnamed : status.Execs → ¬world.Names pid) :
    (world.collect pid status transcript daemon).Informed := by
  have told := rooted.waits pid task found notice status waits tells
  have isLearnt : ∀ {other}, Heard pid transcript other → daemon.tracees.lookup other ≠ none :=
    learns rooted found waits tells attended truthful
  constructor
  · intro other task' isFound followed reported notEnding
    by_cases isPid : other = pid
    · rw [isPid] at isFound ⊢
      rcases collect_self isFound with ⟨alive, before, was, rfl⟩
      rcases reported with reported | heard
      · apply attended.keeps
        · exact informed.known pid before was followed.1 reported
            fun ending => notEnding (.inl ending)
        · exact fun _ => ⟨followed.2, alive, fun exits => notEnding (.inr exits)⟩
      · exact isLearnt heard
    · rcases collect_elsewhere isPid isFound with ⟨before, was, rfl⟩
      rcases reported with reported | heard
      · apply attended.keeps
        · exact informed.known other before was followed reported notEnding
        · exact fun same => absurd same isPid
      · exact isLearnt heard
  · intro other task' isFound notFollowed
    by_cases isPid : other = pid
    · rw [isPid] at isFound ⊢
      rcases collect_self isFound with ⟨alive, before, was, rfl⟩
      rw [found, Option.some.injEq] at was
      subst was
      have letGo : LetsGo pid transcript := by
        by_contra held
        exact notFollowed ⟨told.1.resolve_right alive, held⟩
      rcases attended.drops letGo with ⟨absent, cause⟩
      refine ⟨absent, fun isNamed => ?_⟩
      rcases cause with execs | ⟨_, tracee, isTracee, notTraced⟩
      · exact unnamed execs (names_collect isNamed)
      · exact informed.unnamed pid tracee isTracee notTraced (names_collect isNamed)
    · rcases collect_elsewhere isPid isFound with ⟨before, was, rfl⟩
      rcases informed.forgotten other before was notFollowed with ⟨absent, notNamed⟩
      refine ⟨?_, fun isNamed => notNamed (names_collect isNamed)⟩
      by_contra present
      rcases Option.ne_none_iff_exists'.mp present with ⟨tracee, isTracee⟩
      rcases attended.entry isTracee with ⟨isKnown, _⟩ | ⟨_, child, rfl, heard⟩ | ⟨same, _⟩
      · rw [absent] at isKnown
        cases isKnown
      · exact notNamed ⟨pid, task, notice, found, waits, truthful child heard⟩
      · exact isPid same
  · intro other tracee isFound notTraced isNamed
    rcases attended.entry isFound with
      ⟨was, _⟩ | ⟨rfl, _⟩ | ⟨rfl, _, _, ⟨execs, _⟩ | ⟨_, before, was, isInjected⟩⟩
    · exact informed.unnamed other tracee was notTraced (names_collect isNamed)
    · exact notTraced rfl
    · exact unnamed execs (names_collect isNamed)
    · exact informed.unnamed other before was isInjected (names_collect isNamed)

end Reports

theorem Informed.step (informed : world.Informed) (rooted : world.Rooted)
    (orderly : world.Orderly occurrence) (occurs : Occurs world occurrence world') :
    world'.Informed := by
  cases occurs with
  | report pid status transcript task notice daemon found waits tells step mode truthful =>
      have attended := StateProg.Talks.of_says step.2 says_handleEvent_attended
      apply informed.report rooted found waits tells attended truthful
      exact fun execs => (orderly execs task found).2.2
  | kept pid transcript daemon step mode held =>
      apply informed.works
      rcases lookup_of_release step with ⟨same, _⟩ | ⟨_, letGo, _⟩
      · exact same
      · exact absurd letGo held
  | released pid transcript daemon selects step mode letGo =>
      rcases lookup_of_release step with ⟨_, held⟩ | ⟨enters, _, present⟩
      · exact absurd letGo held
      have notNamed : ¬world.Names pid := by
        rcases Option.ne_none_iff_exists'.mp present with ⟨tracee, isTracee⟩
        exact informed.unnamed pid tracee isTracee (selects tracee isTracee)
      have names : ∀ {other}, ((({ world with daemon := daemon } : World).put pid
          ((world.task pid).map TracedTask.letGo)).Names other) → world.Names other := by
        intro other isNamed
        rcases names_put isNamed with was | ⟨parent, notice, isParent, waits, _⟩
        · exact was
        · rw [Option.map_eq_some_iff] at isParent
          rcases isParent with ⟨_, _, rfl⟩
          cases waits
      constructor
      · intro other task found followed reported notEnding
        by_cases isPid : other = pid
        · rw [isPid, put_self, Option.map_eq_some_iff] at found
          rcases found with ⟨_, _, rfl⟩
          exact followed.elim
        · rw [put_elsewhere isPid] at found
          have known := informed.known other task found followed reported notEnding
          rwa [← enters.elsewhere isPid] at known
      · intro other task found notFollowed
        by_cases isPid : other = pid
        · rw [isPid]
          exact ⟨enters.self, fun isNamed => notNamed (names isNamed)⟩
        · rw [put_elsewhere isPid] at found
          rcases informed.forgotten other task found notFollowed with ⟨absent, unnamed⟩
          rw [← enters.elsewhere isPid] at absent
          exact ⟨absent, fun isNamed => unnamed (names isNamed)⟩
      · intro other tracee found notTraced isNamed
        have isFound : daemon.tracees.lookup other = some tracee := found
        have isOther : other ≠ pid := by
          rintro rfl
          rw [enters.self] at isFound
          cases isFound
        rw [enters.elsewhere isOther] at isFound
        exact informed.unnamed other tracee isFound notTraced (names isNamed)
  | works chore transcript daemon notReport notRelease step mode =>
      apply informed.works
      exact lookup_of_step step rooted.mode mode rooted.idle notReport notRelease
  | forks parent task child event group found followed running free real isFork joins =>
      have ne : (child : Pid) ≠ parent := by
        rintro rfl
        exact free task found followed
      have attached : (world.put child (some (.attached group))).Informed := by
        apply informed.put
        · rintro _ ⟨⟩ _ reported
          exact reported.elim
        · rintro _ ⟨⟩ notFollowed
          exact absurd trivial notFollowed
        · rintro _ notice other ⟨⟩ ⟨⟩ ⟨⟩
      apply attached.put
      · rintro _ ⟨⟩ _ reported notEnding
        exact informed.known parent task found followed reported notEnding
      · rintro _ ⟨⟩ notFollowed
        exact absurd followed notFollowed
      · rintro _ notice other ⟨⟩ ⟨⟩ ⟨⟩
        refine ⟨fun named isNamed => ?_, fun tracee isTracee => ?_⟩
        · rw [put_elsewhere ne, put_self] at isNamed
          cases isNamed
          exact trivial
        · by_contra notTraced
          rcases rooted.leads child tracee isTracee notTraced with ⟨leader, isLeader, follows, _⟩
          exact free leader isLeader follows
  | stops pid task raw found running ends notFork leader =>
      apply informed.put
      · rintro _ ⟨⟩
        exact informed.known pid task found
      · rintro _ ⟨⟩
        exact informed.forgotten pid task found
      · rintro _ notice other ⟨⟩ ⟨⟩ ⟨⟩
  | withdrawn pid task found =>
      apply informed.put
      · rintro _ ⟨⟩
        exact informed.known pid task found
      · rintro _ ⟨⟩
        exact informed.forgotten pid task found
      · rintro _ notice other ⟨⟩ ⟨⟩
  | vanishes pid task found thread => exact informed.vanishes
  | takesOver pid task found followed running thread free =>
      apply informed.vanishes.put
      · rintro _ ⟨⟩ _ reported
        exact reported.elim
      · rintro _ ⟨⟩ notFollowed
        exact absurd followed notFollowed
      · rintro _ notice other ⟨⟩ ⟨⟩ ⟨⟩

/-- An exec in order finds its process in the table. -/
theorem Informed.armsExecs (informed : world.Informed) (rooted : world.Rooted)
    (orderly : world.Orderly occurrence) (occurs : Occurs world occurrence world') :
    world.ArmsExecs occurrence world' := by
  rintro pid status transcript rfl execs
  cases occurs with
  | report _ _ _ task notice daemon found waits tells step mode truthful =>
      rcases orderly execs task found with ⟨reported, notEnding, _⟩
      have told := rooted.waits pid task found notice status waits tells
      have followed := told.1.resolve_right execs.1.alive
      have known := informed.known pid task found followed reported notEnding
      have handled : StateProg.Talks (Daemon.handleExec pid) world.daemon ⟨⟩ daemon transcript := by
        rw [← Daemon.handleEvent_execs execs]
        exact step.2
      rcases handled.of_says says_handleExec with ⟨absent, _⟩ | arms
      · exact absurd absent known
      · exact arms
  | works _ _ _ notReport => exact absurd rfl (notReport pid status)

/-- In every run whose execs come in order, each of them is armed unless that fails, and no entry
is stale. -/
theorem orderly_execs_armed (reached : (tracingForks.restrict World.Orderly).Reachable world) :
    world.NoneStale ∧ ∀ occurrence world', world.Orderly occurrence →
      Occurs world occurrence world' → world.ArmsExecs occurrence world' := by
  have kept : world.Rooted ∧ world.Informed := by
    apply reached.induct
    · exact fun _ initial => ⟨rooted_initial initial, informed_initial initial⟩
    · rintro _ _ _ ⟨rooted, informed⟩ orderly occurs
      exact ⟨rooted.step occurs, informed.step rooted orderly occurs⟩
  refine ⟨kept.2.noneStale, ?_⟩
  exact fun _ _ orderly occurs => kept.2.armsExecs kept.1 orderly occurs

end Runs

end World

section Orders

/-- The constructor in ptrace mode. -/
def startingPtrace : Transcript :=
  configured (.text "mode=ptrace") :: declaring ++
    [configured (.text "mode=ptrace"), ⟨.seize 1 Ptrace.TRACING_OPTIONS, .ok⟩]

/-- The first stop of a child. -/
def childStopped (pid : Pid) : Chore × Transcript :=
  (.report pid ⟨.ptraceEvent Signal.SIGTRAP Ptrace.EVENT_STOP⟩,
    [⟨.getsiginfo pid, some Signal.SIGTRAP⟩, ⟨.cont pid none, ()⟩])

/-- The report of a fork. -/
def forkHeard (parent : Pid) (event : Int) (child : Nat) : Chore × Transcript :=
  (.report parent ⟨.ptraceEvent Signal.SIGTRAP event⟩,
    [⟨.eventMessage parent, some child⟩, ⟨.cont parent none, ()⟩])

/-- What the target `/bin/t` answers when its entry breakpoint is armed. -/
def arming : Transcript :=
  [linkOf 7 (.path "/bin/t"), ⟨.elfHeader 7, some ⟨true, Elf.ET_DYN, Elf.EM_AARCH64, 16⟩⟩,
    ⟨.maps 7, [⟨4096, 8192, 0, 5, "/bin/t"⟩]⟩, ⟨.peekData 7 4112, some (List.replicate 8 0)⟩,
    ⟨.peekData 7 4112, some (List.replicate 8 0)⟩,
    ⟨.pokeData 7 4112 [0, 0, 32, 212, 0, 0, 0, 0], true⟩]

/-- The report of an exec, with what it leads to. -/
def execed (transcript : Transcript) : Chore × Transcript :=
  (.report 7 ⟨.ptraceEvent Signal.SIGTRAP Ptrace.EVENT_EXEC⟩, transcript)

/-- The world at the start. -/
def seized (daemon : Daemon) : World where
  daemon := daemon
  task := Function.update (fun _ => none) 1 (some .init)

/-- Init has forked the process 7. -/
def forked (daemon : Daemon) : World :=
  ((seized daemon).put (7 : Nat) (some (.attached 7))).put 1
    (some { TracedTask.init with notice := some (.forked Ptrace.EVENT_FORK 7) })

variable [Usize] [Config.Build] {own : Daemon}

theorem occurs_fork : Occurs (seized own) (.forks 1 7 Ptrace.EVENT_FORK 7) (forked own) := by
  apply Occurs.forks 1 .init 7 Ptrace.EVENT_FORK 7
  · rfl
  · exact trivial
  · rfl
  · intro task found
    cases found
  · decide
  · exact .inl rfl
  · exact .inl rfl

theorem mode_of_attempt {own' : Daemon} {pid : Pid} {status : Status} {transcript : Transcript}
    (attempted : Chore.attempt own (.report pid status, transcript) = some own')
    (mode : own.mode = .ptrace) : own'.mode = .ptrace := by
  have step := bookkeeping_attempt _ _ _ attempted
  have settings := StateProg.Talks.of_says step.2 (says_handleEvent status)
  exact (congrArg Settings.mode settings.1).trans mode

/-- A report whose answers can be given. -/
theorem Occurs.of_attempt {world : World} {pid : Pid} {status : Status} {transcript : Transcript}
    {daemon : Daemon} (task : TracedTask) (notice : Notice)
    (attempted : Chore.attempt world.daemon (.report pid status, transcript) = some daemon)
    (mode : world.daemon.mode = .ptrace) (found : world.task pid = some task)
    (waits : task.notice = some notice) (tells : notice.Tells status)
    (truthful : ∀ child : Nat, ⟨.eventMessage pid, some child⟩ ∈ transcript →
      notice.child = some (child : Pid)) :
    Occurs world (.chore (.report pid status) transcript)
      (world.collect pid status transcript daemon) :=
  .report pid status transcript task notice daemon found waits tells
    (bookkeeping_attempt _ _ _ attempted) (mode_of_attempt attempted mode) truthful

/-- The process 7, a leader that is followed, executes a program. -/
theorem occurs_exec {world : World} {task : TracedTask} (found : world.task 7 = some task)
    (running : task.notice = none) (followed : task.followed) (leads : task.group = 7) :
    Occurs world (.stops 7 (.stopped Signal.SIGTRAP Ptrace.EVENT_EXEC))
      (world.put 7 (some { task with
        notice := some (.told (.stopped Signal.SIGTRAP Ptrace.EVENT_EXEC)) })) := by
  apply Occurs.stops 7 task _ found running (.inl followed)
  · rintro ⟨status⟩ tells ⟨_, isFork⟩
    cases tells
    rcases isFork with isFork | isFork | isFork <;> cases isFork
  · exact fun _ _ _ => leads

theorem initial_seized {snapshot : Option (List SnapshotModule)} {transcript : Transcript}
    (constructed : (Daemon.new "" snapshot).replay transcript = some own)
    (mode : own.mode = .ptrace) (keys : own.tracees.keys = [1]) :
    tracingForks.Initial (seized own) := by
  refine ⟨⟨"", snapshot, transcript, Prog.Talks.of_replay constructed⟩, mode, ?_, rfl⟩
  rw [AList.mem_keys, seized, keys]
  exact List.mem_singleton_self 1

omit [Usize] [Config.Build] in
/-- Once the fork of init is heard, no report names a task. -/
theorem unnamed_heard {status : Status} {transcript : Transcript} {daemon : Daemon} {pid : Pid} :
    ¬((forked own).collect 1 status transcript daemon).Names pid := by
  rintro ⟨parent, task, notice, found, waits, child⟩
  by_cases isInit : parent = 1
  · rw [isInit] at found
    rcases (World.collect_self found).2 with ⟨_, _, rfl⟩
    cases waits
  · rcases World.collect_elsewhere isInit found with ⟨before, was, rfl⟩
    rw [forked, World.put_elsewhere isInit] at was
    by_cases isChild : parent = (7 : Nat)
    · rw [isChild, World.put_self] at was
      cases was
      cases waits
      cases child
    · rw [World.put_elsewhere isChild] at was
      simp [seized, isInit] at was

/-- Init has forked the process 7, the reports of the fork and of the child's first stop have been
handled in this order, and the child has executed a program. -/
structure Execed (own : Daemon) (world : World) : Prop where
  daemon : world.daemon = own
  child : ∃ task, world.task 7 = some task ∧
    task.notice = some (.told (.stopped Signal.SIGTRAP Ptrace.EVENT_EXEC)) ∧ task.followed ∧
      task.group = 7 ∧ task.reported ∧ ¬task.ending
  unnamed : ¬world.Names 7
  others : ∀ other task, other ≠ 7 → world.task other = some task → other = 1 ∧ task.group = 1

theorem reachable_execed {allowed : World → Occurrence → Prop} {first second : Daemon}
    (permits : ∀ world occurrence, (∀ pid status transcript,
      occurrence = .chore (.report pid status) transcript → ¬status.Execs ∧ ¬status.Traps) →
        allowed world occurrence)
    (constructed : (Daemon.new "" none).replay startingPtrace = some own)
    (mode : own.mode = .ptrace) (keys : own.tracees.keys = [1])
    (heard : Chore.attempt own (forkHeard 1 Ptrace.EVENT_FORK 7) = some first)
    (stopped : Chore.attempt first (childStopped 7) = some second) :
    ∃ world, (tracingForks.restrict allowed).Reachable world ∧ Execed second world := by
  have start : (tracingForks.restrict allowed).Reachable (seized own) :=
    .initial (initial_seized constructed mode keys)
  have forks : allowed (seized own) (.forks 1 7 Ptrace.EVENT_FORK 7) := by
    apply permits
    rintro _ _ _ ⟨⟩
  have hears : ∀ world, allowed world (.chore (forkHeard 1 Ptrace.EVENT_FORK 7).1
      (forkHeard 1 Ptrace.EVENT_FORK 7).2) := by
    intro world
    apply permits
    rintro _ _ _ ⟨⟩
    refine ⟨fun execs => ?_, fun traps => traps.2.2.2 ⟨⟨rfl, by decide, rfl⟩, .inl rfl⟩⟩
    cases execs.2
  have stops : ∀ world, allowed world (.chore (childStopped 7).1 (childStopped 7).2) := by
    intro world
    apply permits
    rintro _ _ _ ⟨⟩
    exact ⟨fun execs => execs.1.2.1 rfl, fun traps => traps.1.2.1 rfl⟩
  have execs : ∀ world, allowed world (.stops 7 (.stopped Signal.SIGTRAP Ptrace.EVENT_EXEC)) := by
    intro world
    apply permits
    rintro _ _ _ ⟨⟩
  have afterReport := (start.step ⟨forks, occurs_fork⟩).step ⟨hears _,
    Occurs.of_attempt _ _ heard mode rfl rfl rfl (by simp [forkHeard, Notice.child])⟩
  have afterStop := afterReport.step ⟨stops _, Occurs.of_attempt _ _ stopped
    (mode_of_attempt heard mode) rfl rfl rfl (by simp [childStopped])⟩
  refine ⟨_, afterStop.step ⟨execs _, occurs_exec rfl rfl
    ⟨trivial, by simp [childStopped, LetsGo, eventsOf, effects]⟩ rfl⟩, rfl, ?_, ?_, ?_⟩
  · refine ⟨_, rfl, rfl, ⟨trivial, by simp [childStopped, LetsGo, eventsOf, effects]⟩, rfl,
      .inl (.inr ⟨7, rfl, List.mem_cons_self⟩), ?_⟩
    rintro (ending | exits)
    · exact ending
    · cases exits.2
  · intro names
    rcases World.names_put names with names | ⟨_, _, ⟨⟩, ⟨⟩, ⟨⟩⟩
    exact unnamed_heard (World.names_collect names)
  · intro other task ne found
    rw [World.put_elsewhere ne] at found
    rcases World.collect_elsewhere ne found with ⟨before, was, rfl⟩
    by_cases isInit : other = 1
    · rw [isInit] at was
      rcases (World.collect_self was).2 with ⟨init, isFound, rfl⟩
      cases isFound
      exact ⟨isInit, rfl⟩
    · rcases World.collect_elsewhere isInit was with ⟨first, wasFirst, rfl⟩
      have elsewhere : other ≠ (7 : Nat) := ne
      rw [forked, World.put_elsewhere isInit, World.put_elsewhere elsewhere] at wasFirst
      simp [seized, isInit] at wasFirst

end Orders

theorem exec_after_fork_armed : let _ : Usize := .eight
    let _ : Config.Build := .arm64
    ∃ world world', (tracingForks.restrict World.Orderly).Reachable world ∧
      Occurs world (.chore (execed (arming ++ [⟨.cont 7 none, ()⟩])).1
        (arming ++ [⟨.cont 7 none, ()⟩])) world' ∧
      Daemon.Arms 7 world.daemon world'.daemon (arming ++ [⟨.cont 7 none, ()⟩]) ∧
      7 ∈ world'.daemon.tracees := by
  intro _ _
  have ran : (((Daemon.new "" none).replay startingPtrace).bind fun own =>
      (Chore.attempt own (forkHeard 1 Ptrace.EVENT_FORK 7)).bind fun first =>
        (Chore.attempt first (childStopped 7)).bind fun second =>
          (Chore.attempt second (execed (arming ++ [⟨.cont 7 none, ()⟩]))).map fun third =>
            (own.mode, own.tracees.keys, third.tracees.keys)) =
        some (.ptrace, [1], [7, 1]) := by
    decide +kernel
  simp only [Option.bind_eq_some_iff, Option.map_eq_some_iff, Prod.mk.injEq] at ran
  rcases ran with ⟨own, constructed, first, heard, second, stopped, third, armed, mode, keys, keys'⟩
  have permits : ∀ world occurrence, (∀ pid status transcript,
      occurrence = .chore (.report pid status) transcript → ¬status.Execs ∧ ¬status.Traps) →
        World.Orderly world occurrence := by
    intro world occurrence quiet
    cases occurrence with
    | chore chore transcript =>
        cases chore with
        | report pid status => exact fun execs => absurd execs (quiet pid status transcript rfl).1
        | _ => exact trivial
    | forks | stops | withdrawn | vanishes | takesOver => exact trivial
  rcases reachable_execed permits constructed mode keys heard stopped with
    ⟨world, reached, rfl, ⟨task, found, waits, followed, _, reported, notEnding⟩, unnamed, _⟩
  have silent : ∀ child : Nat, ⟨.eventMessage 7, some child⟩ ∉ arming ++ [⟨.cont 7 none, ()⟩] := by
    simp [arming]
  have occurs := Occurs.of_attempt task _ armed
    (mode_of_attempt stopped (mode_of_attempt heard mode)) found waits rfl
    fun child heard => absurd heard (silent child)
  refine ⟨world, _, reached, occurs, ?_, ?_⟩
  · apply (World.orderly_execs_armed reached).2 _ _ _ occurs 7 _ _ rfl ⟨⟨rfl, by decide, rfl⟩, rfl⟩
    intro _ target isTarget
    rw [found, Option.some.injEq] at isTarget
    rw [← isTarget]
    exact ⟨reported, notEnding, unnamed⟩
  · rw [AList.mem_keys]
    simp [World.collect, keys']

/-- The exec of a target that can be armed is handled before the report of its fork: it is
detached, and the report enters it in the table. -/
theorem early_exec_detached : let _ : Usize := .eight
    let _ : Config.Build := .arm64
    ∃ world detached world', tracingForks.Reachable world ∧
      (∃ next middle, StateProg.Talks
        (Daemon.armEntryBreakpoint 7 (Tracee.new .traced .unknown)) world.daemon (some next) middle
        arming) ∧
      Occurs world (.chore (execed [⟨.detach 7 none, true⟩]).1 [⟨.detach 7 none, true⟩]) detached ∧
      Occurs detached (.chore (forkHeard 1 Ptrace.EVENT_FORK 7).1
        (forkHeard 1 Ptrace.EVENT_FORK 7).2) world' ∧ ¬world'.NoneStale := by
  intro _ _
  have ran : (((Daemon.new "" none).replay startingPtrace).bind fun own =>
      (Chore.attempt own (childStopped 7)).bind fun first =>
        (((Daemon.armEntryBreakpoint 7 (Tracee.new .traced .unknown)).run first).replay
          arming).bind fun armed =>
          (Chore.attempt first (execed [⟨.detach 7 none, true⟩])).bind fun second =>
            (Chore.attempt second (forkHeard 1 Ptrace.EVENT_FORK 7)).map fun third =>
              (own.mode, own.tracees.keys, armed.1.isSome, third.tracees.keys)) =
        some (.ptrace, [1], true, [7, 1]) := by
    decide +kernel
  simp only [Option.bind_eq_some_iff, Option.map_eq_some_iff, Prod.mk.injEq] at ran
  rcases ran with ⟨own, constructed, first, stopped, armed, tries, second, detached, third, heard,
    mode, keys, isArmed, keys'⟩
  have mode₁ := mode_of_attempt stopped mode
  have mode₂ := mode_of_attempt detached mode₁
  have start : tracingForks.Reachable (seized own) :=
    .initial (initial_seized constructed mode keys)
  have afterStop := (start.step occurs_fork).step
    (Occurs.of_attempt (.attached 7) _ stopped mode rfl rfl rfl (by simp))
  have afterExec := afterStop.step
    (occurs_exec rfl rfl ⟨trivial, by simp [LetsGo, eventsOf, effects]⟩ rfl)
  refine ⟨_, _, _, afterExec, ?_, Occurs.of_attempt _ _ detached mode₁ rfl rfl rfl (by simp),
    Occurs.of_attempt _ _ heard mode₂ rfl rfl rfl
      (by simp [forkHeard, Notice.child]), ?_⟩
  · rcases Option.isSome_iff_exists.mp isArmed with ⟨next, isNext⟩
    refine ⟨next, armed.2, ?_⟩
    rw [← isNext]
    exact Prog.Talks.of_replay tries
  · intro noneStale
    have absent := noneStale 7 _ rfl fun followed =>
      followed.2 (by simp [LetsGo, eventsOf, effects])
    rw [AList.mem_keys] at absent
    exact absent (by simp [World.collect, keys'])

theorem fork_exec_order_matters : ¬@OrderIndependent .eight .arm64 := by
  intro always
  rcases early_exec_detached with ⟨world, detached, world', reached, _, execs, forks, stale⟩
  exact stale (always world' ((reached.step execs).step forks)).1

end Znn.Injector
