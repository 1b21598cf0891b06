import Znn.Injector.ForkOrder
import Znn.Injector.Staging

/-!
# The threads of a released target

The trap that ends an injection detaches the leader of the target. Threads that the target has
started in the meantime were attached on their own, and nothing detaches them with it: a target
is released as a whole exactly if it has no other thread when its injection ends.
-/

namespace Znn.Injector

open Interaction Trace

/-- Of a target that was released no thread is followed or in the table. -/
def World.GroupsReleased (world : World) : Prop :=
  ∀ pid task, world.task pid = some task → task.released → ∀ other thread, other ≠ pid →
    world.task other = some thread → thread.group = task.group →
      ¬thread.followed ∧ other ∉ world.daemon.tracees

/-- Every target is released with all its threads. -/
def ThreadsReleased [Usize] [Config.Build] : Prop :=
  ∀ world, tracingForks.Reachable world → world.GroupsReleased

/-- A process is detached at a trap only when no other thread of its group is followed or in the
table. -/
def World.Alone (world : World) : Occurrence → Prop
  | .chore (.report pid status) transcript => status.Traps → LetsGo pid transcript →
      ∀ task, world.task pid = some task → ∀ other thread, other ≠ pid →
        world.task other = some thread → thread.group = task.group →
          ¬thread.followed ∧ other ∉ world.daemon.tracees
  | _ => True

/-- What has been let go was the leader of its group; what has been released was so alone. -/
structure World.Single (world : World) : Prop where
  leaders : ∀ pid task, world.task pid = some task → ¬task.followed → task.group = pid
  alone : ∀ pid task, world.task pid = some task → task.released → ¬task.followed ∧
    ∀ other thread, other ≠ pid → world.task other = some thread → thread.group ≠ pid

namespace World

variable {world world' : World} {pid other : Pid} {entry : Option TracedTask}
  {occurrence : Occurrence}

namespace Single

theorem groupsReleased (single : world.Single) : world.GroupsReleased := by
  intro pid task found released other thread ne isThread group
  rcases single.alone pid task found released with ⟨notFollowed, alone⟩
  rw [single.leaders pid task found notFollowed] at group
  exact absurd group (alone other thread ne isThread)

/-- A task changes, not the daemon. -/
theorem put (single : world.Single)
    (leaders : ∀ task, entry = some task → ¬task.followed → task.group = pid)
    (alone : ∀ task, entry = some task → task.released → ¬task.followed ∧
      ∀ other thread, other ≠ pid → world.task other = some thread → thread.group ≠ pid)
    (joins : ∀ task other thread, entry = some task → other ≠ pid →
      world.task other = some thread → thread.released → task.group ≠ other) :
    (world.put pid entry).Single := by
  constructor
  · intro other task found
    by_cases same : other = pid
    · rw [same] at found ⊢
      rw [put_self] at found
      exact leaders task found
    · rw [put_elsewhere same] at found
      exact single.leaders other task found
  · intro other task found released
    by_cases same : other = pid
    · rw [same] at found ⊢
      rw [put_self] at found
      rcases alone task found released with ⟨notFollowed, alone⟩
      refine ⟨notFollowed, fun another thread ne isThread => ?_⟩
      rw [put_elsewhere ne] at isThread
      exact alone another thread ne isThread
    · rw [put_elsewhere same] at found
      rcases single.alone other task found released with ⟨notFollowed, alone⟩
      refine ⟨notFollowed, fun another thread ne isThread => ?_⟩
      by_cases isPid : another = pid
      · rw [isPid, put_self] at isThread
        exact joins thread other task isThread same found released
      · rw [put_elsewhere isPid] at isThread
        exact alone another thread ne isThread

theorem vanishes (single : world.Single) : (world.put pid none).Single := by
  apply single.put
  · rintro _ ⟨⟩
  · rintro _ ⟨⟩
  · rintro _ other thread ⟨⟩

end Single

variable [Usize] [Config.Build]

theorem single_initial (initial : tracingForks.Initial world) : world.Single := by
  rcases initial with ⟨_, _, _, tasks⟩
  have onlyInit : ∀ pid task, world.task pid = some task → task = .init := by
    intro pid task found
    rw [tasks] at found
    by_cases isInit : pid = 1
    · rw [isInit, Function.update_self] at found
      exact (Option.some.inj found).symm
    · rw [Function.update_of_ne isInit] at found
      cases found
  constructor
  · intro pid task found notFollowed
    rw [onlyInit pid task found] at notFollowed
    exact absurd trivial notFollowed
  · intro pid task found released
    rw [onlyInit pid task found] at released
    exact released.elim

omit [Config.Build] in
/-- What is let go at a report, or at a trap, is the leader of its group. -/
theorem Rooted.leader (rooted : world.Rooted) {pid : Pid} {status : Status}
    {transcript : Transcript} {task : TracedTask} {notice : Notice} {daemon : Daemon}
    (found : world.task pid = some task) (waits : task.notice = some notice)
    (tells : notice.Tells status)
    (attended : Attended pid status world.daemon daemon transcript)
    (letGo : LetsGo pid transcript) : task.group = pid := by
  rcases (attended.drops letGo).2 with execs | ⟨_, tracee, isTracee, notTraced⟩
  · exact (rooted.waits pid task found notice status waits tells).2.1 execs
  · rcases rooted.leads pid tracee isTracee notTraced with ⟨leader, isLeader, _, group⟩
    rw [found, Option.some.injEq] at isLeader
    rwa [isLeader]

omit [Config.Build] in
theorem Single.report (single : world.Single) (rooted : world.Rooted) {pid : Pid}
    {status : Status} {transcript : Transcript} {task : TracedTask} {notice : Notice}
    {daemon : Daemon}
    (found : world.task pid = some task) (waits : task.notice = some notice)
    (tells : notice.Tells status)
    (attended : Attended pid status world.daemon daemon transcript)
    (alone : world.Alone (.chore (.report pid status) transcript)) :
    (world.collect pid status transcript daemon).Single := by
  have told := rooted.waits pid task found notice status waits tells
  have groups : ∀ other thread', (world.collect pid status transcript daemon).task other =
      some thread' → ∃ thread, world.task other = some thread ∧ thread'.group = thread.group := by
    intro other thread' isThread
    by_cases isPid : other = pid
    · rw [isPid] at isThread ⊢
      rcases (collect_self isThread).2 with ⟨thread, was, rfl⟩
      exact ⟨thread, was, rfl⟩
    · rcases collect_elsewhere isPid isThread with ⟨thread, was, rfl⟩
      exact ⟨thread, was, rfl⟩
  constructor
  · intro other task' isFound notFollowed
    by_cases isPid : other = pid
    · rw [isPid] at isFound ⊢
      rcases collect_self isFound with ⟨alive, before, was, rfl⟩
      rw [found, Option.some.injEq] at was
      subst was
      apply rooted.leader found waits tells attended
      by_contra held
      exact notFollowed ⟨told.1.resolve_right alive, held⟩
    · rcases collect_elsewhere isPid isFound with ⟨before, was, rfl⟩
      exact single.leaders other before was notFollowed
  · intro other task' isFound released
    by_cases isPid : other = pid
    · rw [isPid] at isFound ⊢
      rcases (collect_self isFound).2 with ⟨before, was, rfl⟩
      rw [found, Option.some.injEq] at was
      subst was
      rcases released with released | ⟨traps, letGo⟩
      · rcases single.alone pid task found released with ⟨notFollowed, threads⟩
        refine ⟨fun followed => notFollowed followed.1, fun another thread' ne isThread => ?_⟩
        rcases groups another thread' isThread with ⟨thread, was, group⟩
        rw [group]
        exact threads another thread ne was
      · refine ⟨fun followed => followed.2 letGo, fun another thread' ne isThread group => ?_⟩
        rcases groups another thread' isThread with ⟨thread, was, same⟩
        have leader := rooted.leader found waits tells attended letGo
        have joined : thread.group = task.group := by
          rw [leader, ← same, group]
        have notFollowed := (alone traps letGo task found another thread ne was joined).1
        have isLeader := single.leaders another thread was notFollowed
        rw [joined, leader] at isLeader
        exact ne isLeader.symm
    · rcases collect_elsewhere isPid isFound with ⟨before, was, rfl⟩
      rcases single.alone other before was released with ⟨notFollowed, threads⟩
      refine ⟨notFollowed, fun another thread' ne isThread => ?_⟩
      rcases groups another thread' isThread with ⟨thread, was, group⟩
      rw [group]
      exact threads another thread ne was

theorem Single.step (single : world.Single) (rooted : world.Rooted)
    (alone : world.Alone occurrence) (occurs : Occurs world occurrence world') :
    world'.Single := by
  cases occurs with
  | report pid status transcript task notice daemon found waits tells step mode truthful =>
      have attended := StateProg.Talks.of_says step.2 says_handleEvent_attended
      exact single.report rooted found waits tells attended alone
  | kept pid transcript daemon step mode held => exact ⟨single.leaders, single.alone⟩
  | released pid transcript daemon selects step mode letGo =>
      rcases lookup_of_release step with ⟨_, held⟩ | ⟨_, _, present⟩
      · exact absurd letGo held
      rcases Option.ne_none_iff_exists'.mp present with ⟨tracee, isTracee⟩
      rcases rooted.leads pid tracee isTracee (selects tracee isTracee) with
        ⟨leader, isLeader, _, group⟩
      have worked : ({ world with daemon := daemon } : World).Single :=
        ⟨single.leaders, single.alone⟩
      rw [isLeader]
      apply worked.put
      · rintro _ ⟨⟩ _
        exact group
      · rintro _ ⟨⟩ released
        exact ⟨id, (single.alone pid leader isLeader released).2⟩
      · rintro _ other thread ⟨⟩ ne isThread released joined
        exact (single.alone other thread isThread released).2 pid leader ne.symm isLeader joined
  | works chore transcript daemon notReport notRelease step mode =>
      exact ⟨single.leaders, single.alone⟩
  | forks parent task child event group found followed running free real isFork joins =>
      have ne : (child : Pid) ≠ parent := by
        rintro rfl
        exact free task found followed
      have attached : (world.put child (some (.attached group))).Single := by
        apply single.put
        · rintro _ ⟨⟩ notFollowed
          exact absurd trivial notFollowed
        · rintro _ ⟨⟩ released
          exact released.elim
        · rintro _ other thread ⟨⟩ notChild isThread released
          rcases joins with isNew | ⟨joined, _⟩
          · rw [isNew]
            exact notChild.symm
          · intro isOther
            rcases single.alone other thread isThread released with ⟨notFollowed, threads⟩
            have isParent : parent = other := by
              by_contra notOther
              exact threads parent task notOther found (joined.symm.trans isOther)
            subst isParent
            rw [found, Option.some.injEq] at isThread
            subst isThread
            exact notFollowed followed
      apply attached.put
      · rintro _ ⟨⟩ notFollowed
        exact absurd followed notFollowed
      · rintro _ ⟨⟩ released
        exact absurd followed (single.alone parent task found released).1
      · rintro _ other thread ⟨⟩ notParent isThread released
        exact (attached.alone other thread isThread released).2 parent task notParent.symm
          (by rwa [put_elsewhere ne.symm])
  | stops pid task raw found running ends notFork leader =>
      apply single.put
      · rintro _ ⟨⟩
        exact single.leaders pid task found
      · rintro _ ⟨⟩
        exact single.alone pid task found
      · rintro _ other thread ⟨⟩ ne isThread released
        exact (single.alone other thread isThread released).2 pid task ne.symm found
  | withdrawn pid task found =>
      apply single.put
      · rintro _ ⟨⟩
        exact single.leaders pid task found
      · rintro _ ⟨⟩
        exact single.alone pid task found
      · rintro _ other thread ⟨⟩ ne isThread released
        exact (single.alone other thread isThread released).2 pid task ne.symm found
  | vanishes pid task found thread => exact single.vanishes
  | takesOver pid task found followed running thread free =>
      apply single.vanishes.put
      · rintro _ ⟨⟩ _
        rfl
      · rintro _ ⟨⟩ released
        exact released.elim
      · rintro _ other thread ⟨⟩ ne _ _
        exact ne.symm

/-- Whom a step releases in a group with other threads, it leaves these threads behind. -/
theorem alone_of_groupsReleased (occurs : Occurs world occurrence world')
    (released : world'.GroupsReleased) : world.Alone occurrence := by
  cases occurs with
  | report pid status transcript task notice daemon found waits tells step mode truthful =>
      intro traps letGo target isTarget other thread ne isThread group
      rw [found, Option.some.injEq] at isTarget
      subst isTarget
      have attended := StateProg.Talks.of_says step.2 says_handleEvent_attended
      have left := released pid _ (collect_alive found traps.1.alive) (.inr ⟨traps, letGo⟩) other
        (thread.learnt (Heard pid transcript other)) ne (by simp [collect, ne, isThread]) group
      refine ⟨left.1, fun present => left.2 ?_⟩
      rw [← AList.lookup_isSome, ← Option.ne_none_iff_isSome] at present ⊢
      exact attended.keeps present fun same => absurd same ne
  | works chore _ _ notReport =>
      cases chore with
      | report pid status => exact absurd rfl (notReport pid status)
      | _ => exact trivial
  | kept | released | forks | stops | withdrawn | vanishes | takesOver => exact trivial

/-- In every run in which the targets that are released have no other thread at that moment, none
of their threads is followed or in the table from then on; and a step keeps it so only then. -/
theorem single_threads_released (reached : (tracingForks.restrict World.Alone).Reachable world) :
    world.GroupsReleased ∧ ∀ occurrence world', Occurs world occurrence world' →
      (world'.GroupsReleased ↔ world.Alone occurrence) := by
  have kept : world.Rooted ∧ world.Single := by
    apply reached.induct
    · exact fun _ initial => ⟨rooted_initial initial, single_initial initial⟩
    · rintro _ _ _ ⟨rooted, single⟩ alone occurs
      exact ⟨rooted.step occurs, single.step rooted alone occurs⟩
  refine ⟨kept.2.groupsReleased, fun occurrence world' occurs => ?_⟩
  constructor
  · exact alone_of_groupsReleased occurs
  · exact fun alone => (kept.2.step kept.1 alone occurs).groupsReleased

end World

section Injection

/-- A breakpoint or the return of an injected call. -/
def trapped : Status :=
  ⟨.stopped Signal.SIGTRAP⟩

variable [Usize] [Config.Build]

/-- What a trap of the process 7 makes of the daemon, and what it asks. -/
def trap (own : Daemon) : Daemon × Transcript :=
  let result := Prog.eval (I := Sys) (fun request (history : Transcript) =>
    (willing request, history ++ [⟨request, willing request⟩]))
    ((Daemon.handleEvent 7 trapped).run own) []
  (result.1.2, result.2)

/-- The process is resumed, and no report is asked whom it names. -/
def Resumed (transcript : Transcript) : Bool :=
  decide (Event.detached 7 none ∉ eventsOf transcript) &&
    decide (Call.eventMessage 7 ∉ transcript.map Sigma.fst)

/-- The daemon after some traps at which the process is resumed. -/
def traps : Nat → Daemon → Option Daemon
  | 0, own => some own
  | count + 1, own => if Resumed (trap own).2 then traps count (trap own).1 else none

/-- A run in which nothing was released has come to a call in the process 7. -/
structure Injected (own : Daemon) (world : World) : Prop where
  reached : (tracingForks.restrict World.Alone).Reachable world
  daemon : world.daemon = own
  mode : own.mode = .ptrace
  leader : ∃ task, world.task 7 = some task ∧ task.notice = none ∧ task.followed ∧ task.group = 7

omit [Usize] [Config.Build] in
/-- The group of a task, and whether it is followed. -/
def World.thread (world : World) (pid : Pid) : Option (Pid × Prop) :=
  (world.task pid).map fun task => (task.group, task.followed)

omit [Usize] [Config.Build] in
theorem World.thread_put {world : World} {pid other : Pid} {entry : Option TracedTask}
    (ne : other ≠ pid) : (world.put pid entry).thread other = world.thread other := by
  rw [thread, put_elsewhere ne, thread]

omit [Usize] [Config.Build] in
theorem World.thread_collect {world : World} {pid other : Pid} {status : Status}
    {transcript : Transcript} {daemon : Daemon} (ne : other ≠ pid) :
    (world.collect pid status transcript daemon).thread other = world.thread other := by
  simp only [thread, collect, ne, if_false, Option.map_map]
  rfl

theorem talks_trap (own : Daemon) :
    StateProg.Talks (Daemon.handleEvent 7 trapped) own ⟨⟩ (trap own).1 (trap own).2 :=
  Prog.talks_eval (I := Sys) willing ((Daemon.handleEvent 7 trapped).run own)

theorem mode_trap {own : Daemon} (mode : own.mode = .ptrace) : (trap own).1.mode = .ptrace := by
  have talks := talks_trap own
  have settings := talks.of_says (says_handleEvent trapped)
  exact (congrArg Settings.mode settings.1).trans mode

/-- The process traps, and the trap is handled. -/
theorem Injected.occurs {own : Daemon} {world : World} (injected : Injected own world)
    (silent : Call.eventMessage 7 ∉ (trap own).2.map Sigma.fst) :
    ∃ stopped task, Occurs world (.stops 7 (.stopped Signal.SIGTRAP 0)) stopped ∧
      Occurs stopped (.chore (.report 7 trapped) (trap own).2)
        (stopped.collect 7 trapped (trap own).2 (trap own).1) ∧
      stopped.task 7 = some task ∧ task.followed ∧ task.group = 7 ∧
      ∀ other, other ≠ 7 → stopped.thread other = world.thread other := by
  rcases injected with ⟨_, rfl, mode, task, found, running, followed, group⟩
  have told : ∀ status, (Notice.told (.stopped Signal.SIGTRAP 0)).Tells status →
      status = trapped := by
    rintro ⟨status⟩ tells
    cases tells
    rfl
  refine ⟨_, { task with notice := some (.told (.stopped Signal.SIGTRAP 0)) },
    .stops 7 task _ found running (.inl followed) ?_ (fun _ _ _ => group), ?_, ?_, followed, group,
    fun other ne => World.thread_put ne⟩
  · intro status tells forks
    rw [told status tells] at forks
    rcases forks.2 with isFork | isFork | isFork <;> cases isFork
  · apply Occurs.report 7 trapped _ { task with notice := some (.told (.stopped Signal.SIGTRAP 0)) }
      _ _ World.put_self rfl rfl ⟨trivial, talks_trap world.daemon⟩ (mode_trap mode)
    intro child heard
    exact absurd (List.mem_map_of_mem heard) silent
  · exact World.put_self

theorem Injected.resumes {own : Daemon} {world : World} (injected : Injected own world)
    (resumed : Resumed (trap own).2) : ∃ world', Injected (trap own).1 world' ∧
      ∀ other, other ≠ 7 → world'.thread other = world.thread other := by
  rw [Resumed, Bool.and_eq_true, decide_eq_true_eq, decide_eq_true_eq] at resumed
  rcases injected.occurs resumed.2 with
    ⟨stopped, task, stops, reports, found, followed, group, same⟩
  have first : World.Alone world (.stops 7 (.stopped Signal.SIGTRAP 0)) := trivial
  have second : stopped.Alone (.chore (.report 7 trapped) (trap own).2) :=
    fun _ letGo => absurd letGo resumed.1
  refine ⟨_, ⟨(injected.reached.step ⟨first, stops⟩).step ⟨second, reports⟩, rfl,
    mode_trap injected.mode, ?_⟩, fun other ne => (World.thread_collect ne).trans (same other ne)⟩
  exact ⟨_, World.collect_alive found (by decide), rfl, ⟨followed, resumed.1⟩, group⟩

theorem Injected.goes {own own' : Daemon} {world : World} (injected : Injected own world)
    (count : Nat) (ran : traps count own = some own') : ∃ world', Injected own' world' ∧
      ∀ other, other ≠ 7 → world'.thread other = world.thread other := by
  induction count generalizing own world with
  | zero =>
      cases ran
      exact ⟨world, injected, fun _ _ => rfl⟩
  | succ count ih =>
      rw [traps] at ran
      split at ran
      case isTrue resumed =>
        rcases injected.resumes resumed with ⟨middle, begun, same⟩
        rcases ih begun ran with ⟨world', done, same'⟩
        exact ⟨world', done, fun other ne => (same' other ne).trans (same other ne)⟩
      case isFalse => cases ran

omit [Usize] [Config.Build] in
/-- Only the process itself is in its group. -/
theorem Execed.thread {own : Daemon} {world : World} (began : Execed own world) {other group : Pid}
    {followed : Prop} (ne : other ≠ 7) (found : world.thread other = some (group, followed)) :
    other = 1 ∧ group = 1 := by
  rw [World.thread, Option.map_eq_some_iff] at found
  rcases found with ⟨task, found, same⟩
  cases same
  exact began.others other task ne found

/-- The exec of the process is handled by arming its breakpoint. -/
theorem Execed.injected {own own' : Daemon} {world : World}
    (reached : (tracingForks.restrict World.Alone).Reachable world) (began : Execed own world)
    (mode : own.mode = .ptrace)
    (armed : Chore.attempt own (execed (arming ++ [⟨.cont 7 none, ()⟩])) = some own') :
    ∃ world', Injected own' world' ∧ ∀ other, other ≠ 7 →
      world'.thread other = world.thread other := by
  rcases began with ⟨rfl, ⟨task, found, waits, followed, group, _⟩, _, _⟩
  have silent : ∀ child : Nat, ⟨.eventMessage 7, some child⟩ ∉ arming ++ [⟨.cont 7 none, ()⟩] := by
    simp [arming]
  have occurs := Occurs.of_attempt task _ armed mode found waits rfl
    fun child heard => absurd heard (silent child)
  have alone : world.Alone (.chore (execed (arming ++ [⟨.cont 7 none, ()⟩])).1
      (arming ++ [⟨.cont 7 none, ()⟩])) :=
    fun traps => absurd ⟨⟨rfl, by decide, rfl⟩, rfl⟩ traps.2.1
  refine ⟨_, ⟨reached.step ⟨alone, occurs⟩, rfl, mode_of_attempt armed mode, ?_⟩,
    fun other ne => World.thread_collect ne⟩
  refine ⟨_, World.collect_alive found (by decide), rfl, ⟨followed, ?_⟩, group⟩
  simp [arming, LetsGo, eventsOf, effects]

omit [Usize] [Config.Build] in
/-- The process 7 has cloned the thread 8. -/
def World.cloned (world : World) (task : TracedTask) : World :=
  (world.put (8 : Nat) (some (.attached 7))).put 7
    (some { task with notice := some (.forked Ptrace.EVENT_CLONE 8) })

/-- The process clones a thread, and the report of that is handled. -/
theorem Injected.clones {own own' : Daemon} {world : World} (injected : Injected own world)
    (free : world.thread 8 = none)
    (heard : Chore.attempt own (forkHeard 7 Ptrace.EVENT_CLONE 8) = some own') :
    ∃ world', Injected own' world' ∧ world'.thread 8 = some (7, True) := by
  rcases injected with ⟨reached, rfl, mode, task, found, running, followed, group⟩
  have isFree : world.Free (8 : Nat) := by
    intro other isOther
    rw [World.thread, Option.map_eq_none_iff] at free
    cases free.symm.trans isOther
  have clones : Occurs world (.forks 7 8 Ptrace.EVENT_CLONE 7) (world.cloned task) :=
    .forks 7 task 8 Ptrace.EVENT_CLONE 7 found followed running isFree (by decide)
      (.inr (.inr rfl)) (.inr ⟨group.symm, rfl⟩)
  have isFound : (world.cloned task).task 7 =
      some { task with notice := some (.forked Ptrace.EVENT_CLONE 8) } :=
    World.put_self
  have isThread : (world.cloned task).task 8 = some (.attached 7) :=
    (World.put_elsewhere (by decide)).trans World.put_self
  have reports : Occurs (world.cloned task) (.chore (forkHeard 7 Ptrace.EVENT_CLONE 8).1
      (forkHeard 7 Ptrace.EVENT_CLONE 8).2) ((world.cloned task).collect 7 _ _ own') :=
    .of_attempt _ _ heard mode isFound rfl rfl (by simp [forkHeard, Notice.child])
  have first : world.Alone (.forks 7 8 Ptrace.EVENT_CLONE 7) := trivial
  have second : (world.cloned task).Alone (.chore (forkHeard 7 Ptrace.EVENT_CLONE 8).1
      (forkHeard 7 Ptrace.EVENT_CLONE 8).2) :=
    fun traps => absurd ⟨⟨rfl, by decide, rfl⟩, .inr (.inr rfl)⟩ traps.2.2.2
  refine ⟨_, ⟨(reached.step ⟨first, clones⟩).step ⟨second, reports⟩, rfl,
    mode_of_attempt heard mode, ?_⟩, ?_⟩
  · refine ⟨_, World.collect_alive isFound (by decide), rfl, ⟨followed, ?_⟩, group⟩
    simp [forkHeard, LetsGo, eventsOf, effects]
  · rw [World.thread_collect (by decide), World.thread, isThread]
    rfl

/-- What the injection of the process begins with: its exec is handled, and nothing else but init
is attached. -/
theorem reachable_injected {own first second third : Daemon}
    (constructed : (Daemon.new "" none).replay startingPtrace = some own)
    (mode : own.mode = .ptrace) (keys : own.tracees.keys = [1])
    (heard : Chore.attempt own (forkHeard 1 Ptrace.EVENT_FORK 7) = some first)
    (stopped : Chore.attempt first (childStopped 7) = some second)
    (armed : Chore.attempt second (execed (arming ++ [⟨.cont 7 none, ()⟩])) = some third) :
    ∃ world, Injected third world ∧ ∀ other group followed, other ≠ 7 →
      world.thread other = some (group, followed) → other = 1 ∧ group = 1 := by
  have permits : ∀ world occurrence, (∀ pid status transcript,
      occurrence = .chore (.report pid status) transcript → ¬status.Execs ∧ ¬status.Traps) →
        World.Alone world occurrence := by
    intro world occurrence quiet
    cases occurrence with
    | chore chore transcript =>
        cases chore with
        | report pid status => exact fun traps => absurd traps (quiet pid status transcript rfl).2
        | _ => exact trivial
    | forks | stops | withdrawn | vanishes | takesOver => exact trivial
  rcases reachable_execed permits constructed mode keys heard stopped with ⟨world, reached, began⟩
  have mode₂ := mode_of_attempt stopped (mode_of_attempt heard mode)
  rcases began.injected reached mode₂ armed with ⟨world', injected, same⟩
  refine ⟨world', injected, fun other group followed ne found => ?_⟩
  rw [same other ne] at found
  exact began.thread ne found

/-- The last trap: the process is detached, and no report is asked whom it names. -/
def Finishes (transcript : Transcript) : Bool :=
  decide (Event.detached 7 none ∈ eventsOf transcript) &&
    decide (Call.eventMessage 7 ∉ transcript.map Sigma.fst)

theorem Injected.finishes {own : Daemon} {world : World} (injected : Injected own world)
    (finishes : Finishes (trap own).2) : ∃ stopped world' leader,
      (tracingForks.restrict World.Alone).Reachable stopped ∧
      Occurs stopped (.chore (.report 7 trapped) (trap own).2) world' ∧
      world'.daemon = (trap own).1 ∧ world'.task 7 = some leader ∧ leader.released ∧
      leader.group = 7 ∧ (∀ task, stopped.task 7 = some task → task.group = 7) ∧
      (∀ other, other ≠ 7 → stopped.thread other = world.thread other) ∧
      ∀ other, other ≠ 7 → world'.thread other = stopped.thread other := by
  rw [Finishes, Bool.and_eq_true, decide_eq_true_eq, decide_eq_true_eq] at finishes
  rcases injected.occurs finishes.2 with
    ⟨stopped, task, stops, reports, found, _, group, same⟩
  have first : World.Alone world (.stops 7 (.stopped Signal.SIGTRAP 0)) := trivial
  have traps : trapped.Traps := by
    refine ⟨⟨rfl, by decide, rfl⟩, ?_, ?_, ?_⟩
    · exact fun execs => absurd execs.2 (by decide)
    · exact fun exits => absurd exits.2 (by decide)
    · rintro ⟨_, isFork | isFork | isFork⟩ <;> cases isFork
  refine ⟨stopped, _, _, injected.reached.step ⟨first, stops⟩, reports, rfl,
    World.collect_alive found (by decide), .inr ⟨traps, finishes.1⟩, group, ?_, same,
    fun other ne => World.thread_collect ne⟩
  intro task' found'
  rw [found, Option.some.injEq] at found'
  rwa [← found']

end Injection

theorem lone_target_released : let _ : Usize := .eight
    let _ : Config.Build := .arm64
    ∃ world leader, (tracingForks.restrict World.Alone).Reachable world ∧
      world.task 7 = some leader ∧ leader.released ∧ world.GroupsReleased := by
  intro _ _
  have ran : (((Daemon.new "" none).replay startingPtrace).bind fun own =>
      (Chore.attempt own (forkHeard 1 Ptrace.EVENT_FORK 7)).bind fun first =>
        (Chore.attempt first (childStopped 7)).bind fun second =>
          (Chore.attempt second (execed (arming ++ [⟨.cont 7 none, ()⟩]))).bind fun third =>
            (traps 5 third).map fun last =>
              (own.mode, own.tracees.keys, Finishes (trap last).2)) =
        some (.ptrace, [1], true) := by
    decide +kernel
  simp only [Option.bind_eq_some_iff, Option.map_eq_some_iff, Prod.mk.injEq] at ran
  rcases ran with ⟨own, constructed, first, heard, second, stopped, third, armed, last, trapping,
    mode, keys, finishes⟩
  rcases reachable_injected constructed mode keys heard stopped armed with
    ⟨begun, injected, others⟩
  rcases injected.goes 5 trapping with ⟨world, going, same⟩
  rcases going.finishes finishes with
    ⟨before, after, leader, reached, reports, _, isLeader, released, _, leads, same', _⟩
  have alone : before.Alone (.chore (.report 7 trapped) (trap last).2) := by
    intro _ _ task found other thread ne isThread group
    have isOther : before.thread other = some (thread.group, thread.followed) := by
      rw [World.thread, isThread, Option.map_some]
    rw [same' other ne, same other ne] at isOther
    have isInit := (others other _ _ ne isOther).2
    rw [leads task found, isInit] at group
    cases group
  exact ⟨after, leader, reached.step ⟨alone, reports⟩, isLeader, released,
    (World.single_threads_released (reached.step ⟨alone, reports⟩)).1⟩

/-- The process clones a thread between two injected calls, and is released without it. -/
theorem thread_left_behind : let _ : Usize := .eight
    let _ : Config.Build := .arm64
    ∃ world leader thread, tracingForks.Reachable world ∧ world.task 7 = some leader ∧
      leader.released ∧ world.task 8 = some thread ∧ thread.followed ∧
      thread.group = leader.group ∧ 8 ∈ world.daemon.tracees := by
  intro _ _
  have ran : (((Daemon.new "" none).replay startingPtrace).bind fun own =>
      (Chore.attempt own (forkHeard 1 Ptrace.EVENT_FORK 7)).bind fun first =>
        (Chore.attempt first (childStopped 7)).bind fun second =>
          (Chore.attempt second (execed (arming ++ [⟨.cont 7 none, ()⟩]))).bind fun third =>
            (traps 2 third).bind fun fourth =>
              (Chore.attempt fourth (forkHeard 7 Ptrace.EVENT_CLONE 8)).bind fun fifth =>
                (traps 3 fifth).map fun last =>
                  (own.mode, own.tracees.keys, Finishes (trap last).2,
                    (trap last).1.tracees.keys)) =
        some (.ptrace, [1], true, [8, 1]) := by
    decide +kernel
  simp only [Option.bind_eq_some_iff, Option.map_eq_some_iff, Prod.mk.injEq] at ran
  rcases ran with ⟨own, constructed, first, heard, second, stopped, third, armed, fourth, trapping,
    fifth, cloned, last, trapping', mode, keys, finishes, keys'⟩
  rcases reachable_injected constructed mode keys heard stopped armed with
    ⟨begun, injected, others⟩
  rcases injected.goes 2 trapping with ⟨world, going, same⟩
  have free : world.thread 8 = none := by
    rw [same 8 (by decide)]
    by_contra present
    rcases Option.ne_none_iff_exists'.mp present with ⟨⟨group, followed⟩, found⟩
    cases (others 8 group followed (by decide) found).1
  rcases going.clones free cloned with ⟨split, going', isThread⟩
  rcases going'.goes 3 trapping' with ⟨last', going'', same'⟩
  rcases going''.finishes finishes with
    ⟨before, after, leader, reached, reports, isDaemon, isLeader, released, group, _, same₁, same₂⟩
  have left : after.thread 8 = some (7, True) := by
    rw [same₂ 8 (by decide), same₁ 8 (by decide), same' 8 (by decide), isThread]
  rw [World.thread, Option.map_eq_some_iff] at left
  rcases left with ⟨thread, isThread, both⟩
  rcases Prod.mk.inj both with ⟨joined, followed⟩
  refine ⟨after, leader, thread, reached.of_restrict.step reports, isLeader, released, isThread,
    followed.mpr trivial, joined.trans group.symm, ?_⟩
  rw [isDaemon, AList.mem_keys, keys']
  exact List.mem_cons_self

theorem threads_left_behind : ¬@ThreadsReleased .eight .arm64 := by
  intro always
  rcases thread_left_behind with
    ⟨world, leader, thread, reached, isLeader, released, isThread, followed, group, _⟩
  exact (always world reached 7 leader isLeader released 8 thread (by decide) isThread group).1
    followed

end Znn.Injector
