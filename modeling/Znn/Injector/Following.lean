import Znn.Interaction.Reach
import Znn.Injector.PtraceMode

/-!
# Following forks

Init is traced, and the kernel attaches every task that a traced one forks or clones. It reports
the fork at the parent, and the child's own stops at the child, in no order between the two. The
daemon takes the reports one by one, does its other chores in between, and learns of a child when
the report of its parent comes: what it makes of the child's exec depends on whether that has
happened by then.
-/

namespace Znn.Injector

open Interaction Trace

/-- A report that waits to be collected; that of a fork names the child. -/
inductive Notice where
  | forked (event : Int) (child : Nat)
  | told (raw : RawStatus)
deriving DecidableEq, Repr

namespace Notice

def raw : Notice → RawStatus
  | .forked event _ => .stopped Signal.SIGTRAP event
  | .told raw => raw

def child : Notice → Option Pid
  | .forked _ child => some child
  | .told _ => none

/-- The status that the report is decoded to. -/
def Tells (notice : Notice) (status : Status) : Prop :=
  WaitStatus.fromRaw notice.raw = some status.status

end Notice

/-- A task that the kernel has attached. Once the daemon has asked for its detaching it is not
followed any more; `reported` says whether a report that names it has been collected, `ending`
whether the report of its exit has, and `released` whether it was detached at a trap. -/
structure TracedTask where
  group : Pid
  followed : Prop
  notice : Option Notice
  reported : Prop
  ending : Prop
  released : Prop

namespace TracedTask

/-- Init, seized by the daemon. -/
def init : TracedTask where
  group := 1
  followed := True
  notice := none
  reported := True
  ending := False
  released := False

/-- A child that has been attached, with its first stop. -/
def attached (group : Pid) : TracedTask where
  group := group
  followed := True
  notice := some (.told (.stopped Signal.SIGTRAP Ptrace.EVENT_STOP))
  reported := False
  ending := False
  released := False

/-- A task whose report has been collected. -/
def collected (task : TracedTask) (pid : Pid) (status : Status) (transcript : Transcript) :
    TracedTask :=
  { task with
    followed := task.followed ∧ ¬LetsGo pid transcript
    notice := none
    ending := task.ending ∨ status.Exits
    released := task.released ∨ status.Traps ∧ LetsGo pid transcript }

/-- A task that the daemon has stopped and detached. -/
def letGo (task : TracedTask) : TracedTask :=
  { task with followed := False, notice := none }

/-- A thread that has executed a program and now bears the pid of its leader. No report has named
it by that pid. -/
def promoted (task : TracedTask) : TracedTask :=
  { task with
    notice := some (.told (.stopped Signal.SIGTRAP Ptrace.EVENT_EXEC))
    reported := False
    released := False }

/-- A task that may have been named by a report. -/
def learnt (task : TracedTask) (heard : Prop) : TracedTask :=
  { task with reported := task.reported ∨ heard }

end TracedTask

/-- The daemon and the tasks of the kernel. A task that has been detached is kept until its pid is
given to another one. -/
structure World where
  daemon : Daemon
  task : Pid → Option TracedTask

inductive Occurrence where
  | chore (chore : Chore) (transcript : Transcript)
  /-- A task forks or clones; a thread joins the group of its parent. -/
  | forks (parent : Pid) (child : Nat) (event : Int) (group : Pid)
  /-- A task stops or ends. -/
  | stops (pid : Pid) (raw : RawStatus)
  /-- A report is lost: the task is killed, or something else has collected it. -/
  | withdrawn (pid : Pid)
  /-- A thread takes the place of its leader when it execs. -/
  | vanishes (pid : Pid)
  /-- It does so where the leader is not followed any more. -/
  | takesOver (pid : Pid)

namespace World

/-- A report that waits names the task. -/
def Names (world : World) (pid : Pid) : Prop :=
  ∃ parent task notice, world.task parent = some task ∧ task.notice = some notice ∧
    notice.child = some pid

/-- The report of the parent named the task, and the daemon heard it. -/
def Heard (parent : Pid) (transcript : Transcript) (pid : Pid) : Prop :=
  ∃ child : Nat, (child : Pid) = pid ∧ ⟨.eventMessage parent, some child⟩ ∈ transcript

def put (world : World) (pid : Pid) (task : Option TracedTask) : World :=
  { world with task := Function.update world.task pid task }

/-- The tasks after a report has been collected. -/
def collect (world : World) (pid : Pid) (status : Status) (transcript : Transcript)
    (daemon : Daemon) : World where
  daemon := daemon
  task other :=
    if other = pid then
      if status.Gone then
        none
      else
        (world.task pid).map fun task =>
          (task.learnt (Heard pid transcript pid)).collected pid status transcript
    else
      (world.task other).map fun task => task.learnt (Heard pid transcript other)

end World

/-- The pid can be given to a new task. -/
def World.Free (world : World) (pid : Pid) : Prop :=
  ∀ task, world.task pid = some task → ¬task.followed

/-- What happens in ptrace mode: the daemon does a chore and stays in that mode, or a task does
something. What has been detached is reported only where it was being killed when it was to be
detached, and then only its end. -/
inductive Occurs [Usize] [Config.Build] (world : World) : Occurrence → World → Prop where
  | report (pid : Pid) (status : Status) (transcript : Transcript) (task : TracedTask)
      (notice : Notice) (daemon : Daemon) (found : world.task pid = some task)
      (waits : task.notice = some notice) (tells : notice.Tells status)
      (step : bookkeeping.Step world.daemon (.report pid status, transcript) daemon)
      (mode : daemon.mode = .ptrace)
      (truthful : ∀ child : Nat, ⟨.eventMessage pid, some child⟩ ∈ transcript →
        notice.child = some (child : Pid)) :
      Occurs world (.chore (.report pid status) transcript)
        (world.collect pid status transcript daemon)
  | kept (pid : Pid) (transcript : Transcript) (daemon : Daemon)
      (step : bookkeeping.Step world.daemon (.release pid, transcript) daemon)
      (mode : daemon.mode = .ptrace) (held : ¬LetsGo pid transcript) :
      Occurs world (.chore (.release pid) transcript) { world with daemon := daemon }
  | released (pid : Pid) (transcript : Transcript) (daemon : Daemon)
      (selects : ∀ tracee, world.daemon.tracees.lookup pid = some tracee → tracee.state ≠ .traced)
      (step : bookkeeping.Step world.daemon (.release pid, transcript) daemon)
      (mode : daemon.mode = .ptrace) (letGo : LetsGo pid transcript) :
      Occurs world (.chore (.release pid) transcript)
        (({ world with daemon := daemon } : World).put pid ((world.task pid).map TracedTask.letGo))
  | works (chore : Chore) (transcript : Transcript) (daemon : Daemon)
      (notReport : ∀ pid status, chore ≠ .report pid status)
      (notRelease : ∀ pid, chore ≠ .release pid)
      (step : bookkeeping.Step world.daemon (chore, transcript) daemon)
      (mode : daemon.mode = .ptrace) :
      Occurs world (.chore chore transcript) { world with daemon := daemon }
  | forks (parent : Pid) (task : TracedTask) (child : Nat) (event : Int) (group : Pid)
      (found : world.task parent = some task) (followed : task.followed)
      (running : task.notice = none) (free : world.Free child) (real : 0 < child)
      (isFork : event = Ptrace.EVENT_FORK ∨ event = Ptrace.EVENT_VFORK ∨
        event = Ptrace.EVENT_CLONE)
      (joins : group = child ∨ group = task.group ∧ event = Ptrace.EVENT_CLONE) :
      Occurs world (.forks parent child event group)
        ((world.put child (some (.attached group))).put parent
          (some { task with notice := some (.forked event child) }))
  | stops (pid : Pid) (task : TracedTask) (raw : RawStatus) (found : world.task pid = some task)
      (running : task.notice = none)
      (followed : task.followed ∨ (∃ code, raw = .exited code) ∨ ∃ signal, raw = .signaled signal)
      (notFork : ∀ status, (Notice.told raw).Tells status → ¬status.Forks)
      (leader : ∀ status, (Notice.told raw).Tells status → status.Execs → task.group = pid) :
      Occurs world (.stops pid raw) (world.put pid (some { task with notice := some (.told raw) }))
  | withdrawn (pid : Pid) (task : TracedTask) (found : world.task pid = some task) :
      Occurs world (.withdrawn pid) (world.put pid (some { task with notice := none }))
  | vanishes (pid : Pid) (task : TracedTask) (found : world.task pid = some task)
      (thread : task.group ≠ pid) : Occurs world (.vanishes pid) (world.put pid none)
  | takesOver (pid : Pid) (task : TracedTask) (found : world.task pid = some task)
      (followed : task.followed) (running : task.notice = none) (thread : task.group ≠ pid)
      (free : world.Free task.group) : Occurs world (.takesOver pid)
        ((world.put pid none).put task.group (some task.promoted))

/-- The runs of the daemon in ptrace mode, from the seizing of init on. -/
def tracingForks [Usize] [Config.Build] : System World Occurrence where
  Initial world := bookkeeping.Initial world.daemon ∧ world.daemon.mode = .ptrace ∧
    1 ∈ world.daemon.tracees ∧ world.task = Function.update (fun _ => none) 1 (some .init)
  Step := Occurs

/-- What a report that waits says of its task. -/
def TracedTask.Waits (pid : Pid) (task : TracedTask) : Prop :=
  ∀ notice status, task.notice = some notice → notice.Tells status →
    (task.followed ∨ status.Gone) ∧ (status.Execs → task.group = pid) ∧
      ∀ child : Nat, notice.child = some (child : Pid) → status.Forks ∧ 0 < child

/-- What holds in every run: a process that is being injected is the leader of its group, and it
is followed. -/
structure World.Rooted (world : World) : Prop where
  mode : world.daemon.mode = .ptrace
  idle : world.daemon.Idle
  leads : ∀ pid tracee, world.daemon.tracees.lookup pid = some tracee → tracee.state ≠ .traced →
    ∃ task, world.task pid = some task ∧ task.followed ∧ task.group = pid
  waits : ∀ pid task, world.task pid = some task → task.Waits pid

namespace World

variable {world world' : World} {pid other : Pid} {entry : Option TracedTask}

theorem put_self : (world.put pid entry).task pid = entry := by
  simp [put]

theorem put_elsewhere (ne : other ≠ pid) : (world.put pid entry).task other = world.task other := by
  simp [put, ne]

theorem names_put (names : (world.put pid entry).Names other) : world.Names other ∨
    ∃ task notice, entry = some task ∧ task.notice = some notice ∧ notice.child = some other := by
  rcases names with ⟨parent, task, notice, found, waits, child⟩
  by_cases same : parent = pid
  · rw [same, put_self] at found
    exact .inr ⟨task, notice, found, waits, child⟩
  · rw [put_elsewhere same] at found
    exact .inl ⟨parent, task, notice, found, waits, child⟩

section Collected

variable {status : Status} {transcript : Transcript} {daemon : Daemon} {task' : TracedTask}

theorem collect_self (found : (world.collect pid status transcript daemon).task pid = some task') :
    ¬status.Gone ∧ ∃ task, world.task pid = some task ∧
      task' = (task.learnt (Heard pid transcript pid)).collected pid status transcript := by
  simp only [collect, if_true] at found
  split at found
  · cases found
  case isFalse alive =>
    rw [Option.map_eq_some_iff] at found
    rcases found with ⟨task, found, rfl⟩
    exact ⟨alive, task, found, rfl⟩

theorem collect_alive {task : TracedTask} (found : world.task pid = some task)
    (alive : ¬status.Gone) : (world.collect pid status transcript daemon).task pid =
      some ((task.learnt (Heard pid transcript pid)).collected pid status transcript) := by
  simp [collect, alive, found]

theorem collect_elsewhere (ne : other ≠ pid)
    (found : (world.collect pid status transcript daemon).task other = some task') :
    ∃ task, world.task other = some task ∧ task' = task.learnt (Heard pid transcript other) := by
  simp only [collect, ne, if_false, Option.map_eq_some_iff] at found
  rcases found with ⟨task, found, rfl⟩
  exact ⟨task, found, rfl⟩

theorem names_collect (names : (world.collect pid status transcript daemon).Names other) :
    world.Names other := by
  rcases names with ⟨parent, task', notice, found, waits, child⟩
  by_cases same : parent = pid
  · rw [same] at found
    rcases (collect_self found).2 with ⟨task, _, rfl⟩
    cases waits
  · rcases collect_elsewhere same found with ⟨task, was, rfl⟩
    exact ⟨parent, task, notice, was, waits, child⟩

end Collected

namespace Rooted

/-- A task changes, not the daemon. -/
theorem put (rooted : world.Rooted)
    (leads : ∀ tracee, world.daemon.tracees.lookup pid = some tracee → tracee.state ≠ .traced →
      ∃ task, entry = some task ∧ task.followed ∧ task.group = pid)
    (waits : ∀ task, entry = some task → task.Waits pid) : (world.put pid entry).Rooted := by
  refine ⟨rooted.mode, rooted.idle, ?_, ?_⟩
  · intro other tracee found notTraced
    by_cases same : other = pid
    · rw [same] at found ⊢
      rw [put_self]
      exact leads tracee found notTraced
    · rw [put_elsewhere same]
      exact rooted.leads other tracee found notTraced
  · intro other task found
    by_cases same : other = pid
    · rw [same] at found ⊢
      rw [put_self] at found
      exact waits task found
    · rw [put_elsewhere same] at found
      exact rooted.waits other task found

/-- A thread goes. -/
theorem vanishes (rooted : world.Rooted) {task : TracedTask} (found : world.task pid = some task)
    (thread : task.group ≠ pid) : (world.put pid none).Rooted := by
  apply rooted.put
  · intro tracee isFound notTraced
    rcases rooted.leads _ tracee isFound notTraced with ⟨owner, isOwner, _, group⟩
    rw [found, Option.some.injEq] at isOwner
    subst isOwner
    exact absurd group thread
  · rintro _ ⟨⟩

/-- The daemon changes, not the table of tracees. -/
theorem works {daemon : Daemon} (rooted : world.Rooted) (mode : daemon.mode = .ptrace)
    (unqueued : ∀ pid, (daemon.sheet pid).recheck = none)
    (same : ∀ pid, daemon.tracees.lookup pid = world.daemon.tracees.lookup pid) :
    ({ world with daemon := daemon } : World).Rooted := by
  refine ⟨mode, ⟨unqueued, ?_⟩, ?_, rooted.waits⟩
  · intro pid tracee found
    rw [same] at found
    exact rooted.idle.lasting pid tracee found
  · intro pid tracee found
    rw [same] at found
    exact rooted.leads pid tracee found

end Rooted

end World

section Reports

variable {status : Status}

theorem Notice.forks_of_tells {event : Int} {child : Nat}
    (isFork : event = Ptrace.EVENT_FORK ∨ event = Ptrace.EVENT_VFORK ∨ event = Ptrace.EVENT_CLONE)
    (tells : (Notice.forked event child).Tells status) : status.Forks := by
  obtain ⟨status⟩ := status
  rcases isFork with rfl | rfl | rfl
  all_goals
    simp only [Tells, raw] at tells
    cases tells
  · exact ⟨⟨rfl, by decide, rfl⟩, .inl rfl⟩
  · exact ⟨⟨rfl, by decide, rfl⟩, .inr (.inl rfl)⟩
  · exact ⟨⟨rfl, by decide, rfl⟩, .inr (.inr rfl)⟩

theorem Notice.gone_of_tells {raw : RawStatus}
    (ends : (∃ code, raw = .exited code) ∨ ∃ signal, raw = .signaled signal)
    (tells : (Notice.told raw).Tells status) : status.Gone := by
  obtain ⟨status⟩ := status
  rcases ends with ⟨code, rfl⟩ | ⟨signal, rfl⟩
  · cases tells
    exact .inl rfl
  · simp only [Tells, Notice.raw, WaitStatus.fromRaw, Option.map_eq_some_iff] at tells
    rcases tells with ⟨number, _, same⟩
    rw [← same]
    exact .inr rfl

theorem TracedTask.waits_promoted {task : TracedTask} (followed : task.followed) :
    task.promoted.Waits task.group := by
  rintro notice status ⟨⟩ tells
  exact ⟨.inl followed, fun _ => rfl, by rintro child ⟨⟩⟩

theorem TracedTask.waits_attached (pid group : Pid) : (TracedTask.attached group).Waits pid := by
  rintro notice ⟨status⟩ ⟨⟩ tells
  cases tells
  refine ⟨.inl trivial, ?_, by rintro child ⟨⟩⟩
  rintro ⟨⟨_, notGroup, _⟩, _⟩
  exact absurd rfl notGroup

end Reports

namespace World

variable [Usize] [Config.Build] {world world' : World} {occurrence : Occurrence}

theorem rooted_initial (initial : tracingForks.Initial world) : world.Rooted := by
  rcases initial with ⟨⟨moduleDir, snapshot, transcript, talks⟩, mode, _, tasks⟩
  rcases talks.of_says (Daemon.says_new_sheets moduleDir snapshot) with ⟨empty, clear, steered⟩
  have traced : ∀ pid tracee, world.daemon.tracees.lookup pid = some tracee →
      tracee.state = .traced := by
    intro pid tracee found
    have isFound : (world.daemon.sheet pid).tracee = some tracee := found
    rcases steered pid with same | ⟨_, init, same, isTraced⟩
    · rw [same, clear] at isFound
      cases isFound
    · rw [same] at isFound
      exact isTraced tracee isFound
  refine ⟨mode, ⟨?_, ?_⟩, ?_, ?_⟩
  · intro pid
    rcases steered pid with same | ⟨_, init, same, _⟩
    · rw [same, clear]
    · rw [same, clear]
  · rintro pid tracee found ⟨isEntry, _⟩
    rw [traced pid tracee found] at isEntry
    cases isEntry
  · exact fun pid tracee found notTraced => absurd (traced pid tracee found) notTraced
  · intro pid task found notice status waits
    rw [tasks] at found
    by_cases isInit : pid = 1
    · rw [isInit, Function.update_self] at found
      cases found
      cases waits
    · rw [Function.update_of_ne isInit] at found
      cases found

/-- The report of a status. -/
theorem Rooted.report (rooted : world.Rooted) {pid : Pid} {status : Status}
    {transcript : Transcript} {task : TracedTask} {notice : Notice} {daemon : Daemon}
    (found : world.task pid = some task) (waits : task.notice = some notice)
    (tells : notice.Tells status)
    (step : bookkeeping.Step world.daemon (.report pid status, transcript) daemon)
    (mode : daemon.mode = .ptrace) : (world.collect pid status transcript daemon).Rooted := by
  have attended := StateProg.Talks.of_says step.2 says_handleEvent_attended
  have told := rooted.waits pid task found notice status waits tells
  refine ⟨mode, ⟨?_, ?_⟩, ?_, ?_⟩
  · exact fun other => unqueued_of_step step rooted.mode (rooted.idle.unqueued other)
  · rintro other tracee isFound ⟨isEntry, expires⟩
    rcases attended.entry isFound with
      ⟨was, _⟩ | ⟨rfl, _⟩ | ⟨_, _, _, ⟨_, noDeadline⟩ | ⟨calling, _⟩⟩
    · exact rooted.idle.lasting other tracee was ⟨isEntry, expires⟩
    · cases isEntry
    · exact expires noDeadline
    · exact calling.notEntry isEntry
  · intro other tracee isFound notTraced
    have self : ¬LetsGo pid transcript → ¬status.Gone → task.followed → task.group = pid →
        ∃ task, (world.collect pid status transcript daemon).task pid = some task ∧
          task.followed ∧ task.group = pid := by
      intro held alive followed group
      exact ⟨_, collect_alive found alive, ⟨followed, held⟩, group⟩
    rcases attended.entry isFound with ⟨was, stays⟩ | ⟨rfl, _⟩ | ⟨rfl, held, alive, cause⟩
    · rcases rooted.leads other tracee was notTraced with ⟨leader, isLeader, followed, group⟩
      by_cases isPid : other = pid
      · rw [isPid] at isLeader group ⊢
        rw [found, Option.some.injEq] at isLeader
        subst isLeader
        exact self (stays isPid).1 (stays isPid).2 followed group
      · refine ⟨leader.learnt (Heard pid transcript other), ?_, followed, group⟩
        simp [collect, isPid, isLeader]
    · exact absurd rfl notTraced
    · rcases cause with ⟨execs, _⟩ | ⟨_, before, was, notTraced⟩
      · exact self held alive (told.1.resolve_right alive) (told.2.1 execs)
      · rcases rooted.leads other before was notTraced with ⟨leader, isLeader, followed, group⟩
        rw [found, Option.some.injEq] at isLeader
        subst isLeader
        exact self held alive followed group
  · intro other task' isFound notice' status' waits' tells'
    by_cases isPid : other = pid
    · rw [isPid] at isFound
      rcases (collect_self isFound).2 with ⟨_, _, rfl⟩
      cases waits'
    · rcases collect_elsewhere isPid isFound with ⟨before, was, rfl⟩
      exact rooted.waits other before was notice' status' waits' tells'

/-- What a release makes of the table. -/
theorem lookup_of_release {own own' : Daemon} {transcript : Transcript}
    (step : bookkeeping.Step own (.release pid, transcript) own') :
    (∀ other, own'.tracees.lookup other = own.tracees.lookup other) ∧ ¬LetsGo pid transcript ∨
      own.Enters pid none own' ∧ LetsGo pid transcript ∧ own.tracees.lookup pid ≠ none := by
  have outcome : StateProg.Says (Chore.program (.release pid)) (fun _ own' transcript =>
      (∀ other, own'.tracees.lookup other = own.tracees.lookup other) ∧ ¬LetsGo pid transcript ∨
        own.Enters pid none own' ∧ LetsGo pid transcript ∧ own.tracees.lookup pid ≠ none) own := by
    change StateProg.Says (Daemon.releaseOne pid >>= fun _ => pure ()) _ own
    rw [StateProg.says_bind]
    apply StateProg.says_mono says_releaseOne_letsGo
    intro _ own' first released
    apply StateProg.says_pure
    rwa [List.append_nil]
  exact StateProg.Talks.of_says step.2 outcome

theorem Rooted.step (rooted : world.Rooted) (occurs : Occurs world occurrence world') :
    world'.Rooted := by
  cases occurs with
  | report pid status transcript task notice daemon found waits tells step mode =>
      exact rooted.report found waits tells step mode
  | kept pid transcript daemon step mode held =>
      apply rooted.works mode
      · exact fun other => unqueued_of_step step rooted.mode (rooted.idle.unqueued other)
      · rcases lookup_of_release step with ⟨same, _⟩ | ⟨_, letGo, _⟩
        · exact same
        · exact absurd letGo held
  | released pid transcript daemon selects step mode letGo =>
      rcases lookup_of_release step with ⟨_, held⟩ | ⟨enters, _, _⟩
      · exact absurd letGo held
      have elsewhere : ∀ {other tracee}, daemon.tracees.lookup other = some tracee →
          other ≠ pid ∧ world.daemon.tracees.lookup other = some tracee := by
        intro other tracee found
        have ne : other ≠ pid := by
          rintro rfl
          rw [enters.self] at found
          cases found
        rw [enters.elsewhere ne] at found
        exact ⟨ne, found⟩
      refine ⟨mode, ⟨?_, ?_⟩, ?_, ?_⟩
      · exact fun other => unqueued_of_step step rooted.mode (rooted.idle.unqueued other)
      · exact fun other tracee found => rooted.idle.lasting other tracee (elsewhere found).2
      · intro other tracee found notTraced
        rcases elsewhere found with ⟨ne, was⟩
        rw [put_elsewhere ne]
        exact rooted.leads other tracee was notTraced
      · intro other task found
        by_cases isPid : other = pid
        · rw [isPid, put_self, Option.map_eq_some_iff] at found
          rcases found with ⟨_, _, rfl⟩
          rintro _ _ ⟨⟩
        · rw [put_elsewhere isPid] at found
          exact rooted.waits other task found
  | works chore transcript daemon notReport notRelease step mode =>
      apply rooted.works mode
      · exact fun other => unqueued_of_step step rooted.mode (rooted.idle.unqueued other)
      · exact lookup_of_step step rooted.mode mode rooted.idle notReport notRelease
  | forks parent task child event group found followed running free real isFork joins =>
      have ne : (child : Pid) ≠ parent := by
        rintro rfl
        exact free task found followed
      have attached : (world.put child (some (.attached group))).Rooted := by
        apply rooted.put
        · intro tracee isFound notTraced
          rcases rooted.leads _ tracee isFound notTraced with ⟨leader, isLeader, isFollowed, _⟩
          exact absurd isFollowed (free leader isLeader)
        · rintro _ ⟨⟩
          exact TracedTask.waits_attached child group
      apply attached.put
      · intro tracee isFound notTraced
        rcases rooted.leads _ tracee isFound notTraced with ⟨leader, isLeader, _, leads⟩
        rw [found, Option.some.injEq] at isLeader
        subst isLeader
        exact ⟨_, rfl, followed, leads⟩
      · rintro _ ⟨⟩ notice status ⟨⟩ tells
        have forked := Notice.forks_of_tells isFork tells
        refine ⟨.inl followed, fun execs => ?_, ?_⟩
        · have same := execs.2
          rcases forked.2 with isFork | isFork | isFork <;> rw [isFork] at same <;> cases same
        · intro other names
          cases names
          exact ⟨forked, real⟩
  | stops pid task raw found running ends notFork leader =>
      apply rooted.put
      · intro tracee isFound notTraced
        rcases rooted.leads _ tracee isFound notTraced with ⟨owner, isOwner, followed, group⟩
        rw [found, Option.some.injEq] at isOwner
        subst isOwner
        exact ⟨_, rfl, followed, group⟩
      · rintro _ ⟨⟩ notice status ⟨⟩ tells
        refine ⟨?_, leader status tells, by rintro child ⟨⟩⟩
        exact ends.imp_right fun ends => Notice.gone_of_tells ends tells
  | withdrawn pid task found =>
      apply rooted.put
      · intro tracee isFound notTraced
        rcases rooted.leads _ tracee isFound notTraced with ⟨owner, isOwner, followed, group⟩
        rw [found, Option.some.injEq] at isOwner
        subst isOwner
        exact ⟨_, rfl, followed, group⟩
      · rintro _ ⟨⟩ notice status ⟨⟩
  | vanishes pid task found thread => exact rooted.vanishes found thread
  | takesOver pid task found followed running thread free =>
      apply (rooted.vanishes found thread).put
      · intro tracee isFound notTraced
        rcases rooted.leads _ tracee isFound notTraced with ⟨leader, isLeader, isFollowed, _⟩
        exact absurd isFollowed (free leader isLeader)
      · rintro _ ⟨⟩
        exact TracedTask.waits_promoted followed

end World

end Znn.Injector
