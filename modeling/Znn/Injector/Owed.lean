import Znn.Injector.Ignored
import Znn.Injector.Places

/-!
# Every target that has been looked at

Once `observe_target` has been called for a process with an executable that names a target, the
daemon owes it an injection or a record of why there is none, as long as the process runs that
executable. The queues keep what is owed in two of the four modes: in the others a seizure that is
to be tried again leaves the process to whatever queue it happens to be in, and a change of the
mode leaves a queue behind.
-/

namespace Znn.Injector

open Interaction Trace Mode

/-- The process that a chore may hand to `observe_target`; nothing else calls it. -/
def Chore.looksAt : Chore → Option Pid
  | .recheck _ pid | .poll pid => some pid
  | .kernel event => some event.pid
  | _ => none

/-- What `release_tracees` selects: a tracee that is being injected. -/
def Chore.Selects (own : Daemon) : Chore → Prop
  | .release pid => ∀ tracee, own.tracees.lookup pid = some tracee → tracee.state ≠ .traced
  | _ => True

/-- The daemon, and the processes for which it has called `observe_target` with an executable that
names a target, each with the executable it still runs. -/
structure Vigil where
  daemon : Daemon
  owed : Pid → String → Prop

/-- Nothing is owed yet. -/
def Vigil.idle (daemon : Daemon) : Vigil where
  daemon := daemon
  owed _ _ := False

/-- What is owed after a chore: what was before, and what the chore has looked at. -/
def Vigil.owes (vigil : Vigil) (chore : Chore) (transcript : Transcript) (pid : Pid)
    (exe : String) : Prop :=
  vigil.owed pid exe ∨ chore.looksAt = some pid ∧ observation pid exe ∈ transcript ∧
    Targets.matches vigil.daemon.targets exe = true

inductive Happening where
  | chore (chore : Chore) (transcript : Transcript)
  /-- The process executes another program, or it exits. -/
  | leaves (pid : Pid)

/-- What the system tells of a process that runs the executable: neither is it gone, nor does it
run another one, and no exec or exit of it is reported. -/
structure Truthful (pid : Pid) (exe : String) (chore : Chore) (transcript : Transcript) : Prop where
  link : ∀ link : ExeLink, linkOf pid link ∈ transcript →
    link ≠ .gone ∧ (link.exe = exe ∨ link.exe = "")
  event : ∀ event, chore = .kernel event → event.pid = pid → event.kind ≠ .exit
  report : ∀ status, chore = .report pid status →
    ¬status.Gone ∧ ¬status.Execs ∧ ¬status.Exits
  listed : ∀ seen active, chore = .sweep seen active → pid ∈ seen

/-- The runs of the daemon among processes that execute programs and exit. -/
def keepingWatch [Usize] [Config.Build] : System Vigil Happening where
  Initial vigil := bookkeeping.Initial vigil.daemon ∧ ∀ pid exe, ¬vigil.owed pid exe
  Step vigil happening vigil' :=
    match happening with
    | .chore chore transcript =>
        bookkeeping.Step vigil.daemon (chore, transcript) vigil'.daemon ∧
          chore.Selects vigil.daemon ∧
          (∀ pid exe, vigil.owed pid exe → Truthful pid exe chore transcript) ∧
          ∀ pid exe, vigil'.owed pid exe ↔ vigil.owes chore transcript pid exe
    | .leaves pid =>
        vigil'.daemon = vigil.daemon ∧
          ∀ other exe, vigil'.owed other exe ↔ other ≠ pid ∧ vigil.owed other exe

/-- What is owed is kept in some place. -/
def Vigil.NoneDropped (vigil : Vigil) : Prop :=
  ∀ pid exe, vigil.owed pid exe → ∃ place, vigil.daemon.Keeps pid place

/-- In no reachable state has a target been dropped. -/
def TargetsKept [Usize] [Config.Build] : Prop :=
  ∀ vigil, keepingWatch.Reachable vigil → vigil.NoneDropped

/-- A request for another mode leaves behind the only queue the process is in: late mode with a
tracker does not poll, kernel mode serves neither queue, and proc mode does not serve the
deferred. -/
def Daemon.Strands (own : Daemon) (pid : Pid) (wanted : String) (tracker : Prop) : Prop :=
  wanted ≠ own.requestedMode ∧ (pid ∉ own.tracees ∧ pid ∉ own.done ∧ pid ∉ own.recheck) ∧
    (wanted = Config.MODE_LATE ∧ tracker ∧ pid ∉ own.deferred ∨
      (wanted = Config.MODE_KERNEL ∨ wanted = Config.MODE_AUTO) ∧ tracker ∨
      wanted = Config.MODE_PROC ∧ own.mode = .late ∧ pid ∉ own.candidates)

/-- The tracker runs, or it starts. -/
def Daemon.Tracks (own : Daemon) (transcript : Transcript) : Prop :=
  own.kernel = true ∨ ⟨.startKernelTracker, true⟩ ∈ transcript

/-- The chore takes no process that is owed something out of its last place. -/
def Vigil.Serves (vigil : Vigil) : Happening → Prop
  | .chore (.poll pid) transcript =>
      (∃ exe, vigil.owed pid exe) → ∀ link : ExeLink, transcript = [linkOf pid link] →
        link.exe ≠ "" → Targets.matches vigil.daemon.targets link.exe = false →
        (∀ candidate, vigil.daemon.candidates.lookup pid = some candidate →
          link.exe = candidate.exe) ∨ vigil.daemon.KeepsApart pid .candidates
  | .chore (.kernel event) transcript =>
      Sought vigil.daemon.targets event.pid transcript → Denied event.pid transcript →
        vigil.daemon.mode = .late ∨ event.pid ∈ vigil.daemon.recheck
  | .chore (.recheck now pid) transcript =>
      ((∃ exe, vigil.owed pid exe) →
        (now < (vigil.daemon.recheck.lookup pid).getD 0 ∧ pid ∉ vigil.daemon.ignored) ∨
          vigil.daemon.KeepsApart pid .recheck) ∧
      ((∃ exe, observation pid exe ∈ transcript) → Denied pid transcript →
        vigil.daemon.mode = .late ∨ vigil.daemon.Keeps pid .candidates)
  | .chore (.retry _ pid) transcript =>
      (∃ exe, vigil.owed pid exe) → ∀ rest, transcript = tracerOf pid none :: rest →
        (pid ∉ vigil.daemon.ignored ∧ ∀ link : ExeLink,
          rest.getLast? = some (linkOf pid link) →
            link.exe ≠ "" ∧ Targets.matches vigil.daemon.targets link.exe = true) ∨
          vigil.daemon.KeepsApart pid .deferred
  | .chore .mode transcript =>
      ∀ pid, (∃ exe, vigil.owed pid exe) → ∀ contents,
        transcript.head? = some (configured contents) →
          ¬vigil.daemon.Strands pid (Config.modeOf contents) (vigil.daemon.Tracks transcript)
  | _ => True

section Switches

/-- What a request for a mode makes of the mode and of the tracker, where a queue is served. -/
inductive Switched (mode : Tracking) (kernel : Bool) (wanted : String) (tracker : Prop) :
    Tracking → Bool → Prop where
  | same (kernel' : Bool) (stops : kernel' = kernel ∨ kernel' = false) :
      Switched mode kernel wanted tracker mode kernel'
  | late (asked : wanted = Config.MODE_LATE) (kernel' : Bool) (tracks : kernel' = true → tracker) :
      Switched mode kernel wanted tracker .late kernel'
  | kernel (asked : wanted = Config.MODE_KERNEL ∨ wanted = Config.MODE_AUTO) (tracks : tracker)
      (kernel' : Bool) : Switched mode kernel wanted tracker .kernel kernel'
  | proc (asked : wanted = Config.MODE_PROC) (fromLate : mode = .late) (kernel' : Bool) :
      Switched mode kernel wanted tracker .proc kernel'

variable {own : Daemon}

theorem says_enterLateMode_switched (notPtrace : own.mode ≠ .ptrace) :
    StateProg.Says Daemon.enterLateMode (fun _ own' transcript =>
      Switched own.mode own.kernel Config.MODE_LATE (own.Tracks transcript) own'.mode
        own'.kernel) own := by
  unfold Daemon.enterLateMode
  rw [StateProg.says_bind, StateProg.says_get]
  dsimp only
  rw [if_neg notPtrace, StateProg.says_bind]
  apply StateProg.says_mono says_startKernelTracker
  rintro started _ first ⟨rfl, _, heard⟩
  apply Switched.late rfl
  intro isStarted
  rw [List.append_nil]
  exact heard isStarted

theorem says_leaveKernelMode_switched (wanted : String)
    (queues : own.mode = .proc ∨ own.mode = .late) :
    StateProg.Says (Daemon.leaveKernelMode wanted) (fun _ own' transcript =>
      Switched own.mode own.kernel wanted (own.Tracks transcript) own'.mode own'.kernel) own := by
  have notKernel : own.mode ≠ .kernel := by
    rcases queues with mode | mode <;> simp [mode]
  have notPtrace : own.mode ≠ .ptrace := by
    rcases queues with mode | mode <;> simp [mode]
  unfold Daemon.leaveKernelMode
  rw [StateProg.says_bind, StateProg.says_get]
  dsimp only
  by_cases leaves : own.mode = .late ∧ wanted = Config.MODE_PROC
  · rw [if_pos leaves]
    exact .proc leaves.2 leaves.1 false
  · rw [if_neg leaves, if_neg notKernel, if_neg fun asked => notPtrace asked.2]
    exact .same own.kernel (.inl rfl)

theorem says_enterKernelMode_switched {wanted : String}
    (asked : wanted = Config.MODE_KERNEL ∨ wanted = Config.MODE_AUTO)
    (queues : own.mode = .proc ∨ own.mode = .late) :
    StateProg.Says (Daemon.enterKernelMode wanted) (fun _ own' transcript =>
      Switched own.mode own.kernel wanted (own.Tracks transcript) own'.mode own'.kernel) own := by
  have notKernel : own.mode ≠ .kernel := by
    rcases queues with mode | mode <;> simp [mode]
  have notPtrace : own.mode ≠ .ptrace := by
    rcases queues with mode | mode <;> simp [mode]
  have notProc : wanted ≠ Config.MODE_PROC := by
    rcases asked with rfl | rfl <;> decide
  unfold Daemon.enterKernelMode
  rw [StateProg.says_bind, StateProg.says_get, if_neg notKernel, StateProg.says_bind]
  apply StateProg.says_mono says_startKernelTracker
  rintro started _ first ⟨rfl, _, heard⟩
  cases started with
  | true =>
      rw [if_pos rfl, StateProg.says_bind, StateProg.says_get]
      dsimp only
      rw [if_neg notPtrace]
      exact .kernel asked ((heard rfl).imp_right (List.mem_append_left _)) true
  | false =>
      rw [if_neg Bool.false_ne_true]
      unfold Daemon.leaveKernelMode
      rw [StateProg.says_bind, StateProg.says_get]
      dsimp only
      rw [if_neg fun left => notProc left.2, if_neg notKernel, if_neg fun left => notProc left.1]
      exact .same false (.inr rfl)

variable [Config.Build]

theorem says_applyRequestedMode_switched (queues : own.mode = .proc ∨ own.mode = .late) :
    StateProg.Says Daemon.applyRequestedMode (fun _ own' transcript => ∃ contents,
      transcript.head? = some (configured contents) ∧
        (own' = own ∨ Config.modeOf contents ≠ own.requestedMode ∧
          Switched own.mode own.kernel (Config.modeOf contents) (own.Tracks transcript) own'.mode
            own'.kernel)) own := by
  apply says_applyRequestedMode
  · intro contents _
    exact ⟨contents, rfl, .inl rfl⟩
  intro contents new
  have asks : ∀ {program : DaemonM Unit} {own : Daemon},
      StateProg.Says program (fun _ own' transcript => Switched own.mode own.kernel
        (Config.modeOf contents) (own.Tracks transcript) own'.mode own'.kernel) own →
      StateProg.Says program (fun _ own' rest => Switched own.mode own.kernel
        (Config.modeOf contents) (own.Tracks (configured contents :: rest)) own'.mode
          own'.kernel) own := by
    intro program own switches
    have heard : ∀ rest, own.Tracks (configured contents :: rest) = own.Tracks rest := by
      simp [Daemon.Tracks, configured]
    apply StateProg.says_mono switches
    intro _ own' rest switched
    rwa [heard]
  have switches : StateProg.Says (if Config.modeOf contents = Config.MODE_LATE then
        Daemon.enterLateMode
      else if Config.modeOf contents = Config.MODE_KERNEL ∨
          Config.modeOf contents = Config.MODE_AUTO then
        Daemon.enterKernelMode (Config.modeOf contents)
      else
        Daemon.leaveKernelMode (Config.modeOf contents))
      (fun _ own' transcript => Switched own.mode own.kernel (Config.modeOf contents)
        (own.Tracks transcript) own'.mode own'.kernel)
      { own with requestedMode := Config.modeOf contents } := by
    split
    case isTrue asked =>
      rw [asked]
      apply says_enterLateMode_switched
      rcases queues with mode | mode <;> simp [mode]
    case isFalse =>
      split
      case isTrue asked => exact says_enterKernelMode_switched asked queues
      case isFalse => exact says_leaveKernelMode_switched _ queues
  apply StateProg.says_mono (asks switches)
  intro _ own' rest switched
  exact ⟨contents, rfl, .inr ⟨new, switched⟩⟩

end Switches

section Queues

variable {own : Daemon} {pid : Pid}

/-- A change of the mode that does not strand the process leaves it in a place that is served. -/
theorem Switched.keeps {mode : Tracking} {kernel : Bool} {wanted : String} {tracker : Prop}
    (switched : Switched own.mode own.kernel wanted tracker mode kernel)
    (new : wanted ≠ own.requestedMode) (stays : ¬own.Strands pid wanted tracker)
    (kept : ∃ place, (own.sheet pid).KeptIn own.mode own.kernel place) :
    ∃ place, (own.sheet pid).KeptIn mode kernel place := by
  by_cases settled : pid ∈ own.tracees ∨ pid ∈ own.done ∨ pid ∈ own.recheck
  · rcases settled with traced | done | queued
    · exact ⟨.tracees, (own.keeps_iff pid .tracees).mp traced⟩
    · exact ⟨.done, (own.keeps_iff pid .done).mp done⟩
    · exact ⟨.recheck, (own.keeps_iff pid .recheck).mp queued⟩
  simp only [not_or] at settled
  simp only [Daemon.Strands, new, settled, not_false_eq_true, ne_eq, true_and, not_or,
    not_and, not_not] at stays
  rcases stays with ⟨toLate, toKernel, toProc⟩
  have deferred : pid ∈ own.deferred ↔ (own.sheet pid).deferred ≠ none :=
    own.deferred.mem_iff_lookup pid
  have candidate : pid ∈ own.candidates ↔ (own.sheet pid).candidate ≠ none :=
    own.candidates.mem_iff_lookup pid
  have waits : pid ∈ own.candidates ∧ own.mode.Polls own.kernel ∨
      pid ∈ own.deferred ∧ own.mode = .late := by
    rcases kept with ⟨place, kept⟩
    rw [← own.keeps_iff] at kept
    cases place with
    | tracees => exact absurd kept settled.1
    | done => exact absurd kept settled.2.1
    | recheck => exact absurd kept settled.2.2
    | candidates => exact .inl kept
    | deferred => exact .inr kept
  cases switched with
  | same _ stops =>
      rcases waits with ⟨isCandidate, polls⟩ | ⟨isDeferred, late⟩
      · refine ⟨.candidates, candidate.mp isCandidate, ?_⟩
        rcases polls with proc | ⟨late, untracked⟩
        · exact .inl proc
        · refine .inr ⟨late, ?_⟩
          rcases stops with same | stopped
          · exact same.trans untracked
          · exact stopped
      · exact ⟨.deferred, deferred.mp isDeferred, late⟩
  | late asked _ tracks =>
      by_cases isDeferred : pid ∈ own.deferred
      · exact ⟨.deferred, deferred.mp isDeferred, rfl⟩
      · rcases waits with ⟨isCandidate, _⟩ | ⟨deferred, _⟩
        · refine ⟨.candidates, candidate.mp isCandidate, .inr ⟨rfl, ?_⟩⟩
          rw [Bool.eq_false_iff]
          exact fun started => isDeferred (toLate asked (tracks started))
        · exact absurd deferred isDeferred
  | kernel asked tracks => exact absurd tracks (toKernel asked)
  | proc asked fromLate =>
      exact ⟨.candidates, candidate.mp (toProc asked fromLate), .inl rfl⟩

/-- In the modes without a queue a process is kept where every mode keeps it. -/
theorem Sheet.kept_without_queue {sheet : Sheet} {mode mode' : Tracking} {kernel kernel' : Bool}
    (noQueue : mode = .kernel ∨ mode = .ptrace)
    (kept : ∃ place, sheet.KeptIn mode kernel place) :
    ∃ place, sheet.KeptIn mode' kernel' place := by
  have notLate : mode ≠ .late := by
    rcases noQueue with rfl | rfl <;> decide
  have notProc : mode ≠ .proc := by
    rcases noQueue with rfl | rfl <;> decide
  rcases kept with ⟨place, kept⟩
  cases place with
  | tracees => exact ⟨.tracees, kept⟩
  | done => exact ⟨.done, kept⟩
  | recheck => exact ⟨.recheck, kept⟩
  | deferred => exact absurd kept.2 notLate
  | candidates =>
      rcases kept.2 with proc | ⟨late, _⟩
      · exact absurd proc notProc
      · exact absurd late notLate

end Queues

section Chores

variable {own own' : Daemon} {pid : Pid} {chore : Chore} {sheet : Sheet} {transcript : Transcript}

/-- The chores that neither look at the process nor change the mode keep it, if they serve it. -/
theorem Moved.tended {exe : String} (moved : Moved pid own chore sheet transcript)
    (looksAway : chore.looksAt ≠ some pid) (steady : chore ≠ .mode ∧ chore ≠ .monitor)
    (enabled : chore.Enabled own) (selects : chore.Selects own)
    (truthful : Truthful pid exe chore transcript)
    (keeps : ∀ now, chore = .retry now pid → ∀ rest, transcript = tracerOf pid none :: rest →
      (pid ∉ own.ignored ∧ ∀ link : ExeLink, rest.getLast? = some (linkOf pid link) →
        link.exe ≠ "" ∧ Targets.matches own.targets link.exe = true) ∨
        own.KeepsApart pid .deferred)
    (tended : (own.sheet pid).Tended own.mode own.kernel) :
    sheet.Tended own.mode own.kernel := by
  have there : linkOf pid .gone ∉ transcript := fun gone => (truthful.link .gone gone).1 rfl
  cases moved with
  | unmoved => exact tended
  | attached =>
      apply tended.trace
      · intro none
        cases (Option.or_eq_none_iff.mp none).2
      · intro next found notTraced
        rcases Option.or_eq_some_iff.mp found with old | ⟨_, new⟩
        · exact ⟨next, old, notTraced⟩
        · cases new
          exact absurd rfl notTraced
  | left status _ reason =>
      rcases truthful.report status rfl with ⟨notGone, notExecs, notExits⟩
      rcases reason with gone | execs | exits | ⟨tracee, isTracee, notTraced⟩
      · exact absurd gone notGone
      · exact absurd execs notExecs
      · exact absurd exits notExits
      · apply tended.trace
        · intro _ found isFound
          rw [isTracee] at isFound
          cases isFound
          exact notTraced
        · rintro _ ⟨⟩
  | armed status _ execs => exact absurd execs (truthful.report status rfl).2.1
  | stepped _ _ tracee next found steps =>
      apply tended.trace
      · rintro ⟨⟩
      · rintro _ ⟨⟩ notTraced
        rcases steps with ⟨traced, rfl⟩ | ⟨injected, _⟩
        · exact absurd traced notTraced
        · exact ⟨tracee, found, injected⟩
  | expired _ _ expired => exact expired.tended tended
  | rechecked | polled => exact absurd rfl looksAway
  | considered event isPid => exact absurd (congrArg some isPid) looksAway
  | swept seen active =>
      rw [decide_eq_true (truthful.listed seen active rfl)]
      exact tended.swept _
  | retried now _ _ retried =>
      apply retried.tended enabled.1 tended there
      intro rest begins
      rcases keeps now rfl rest begins with ⟨unignored, isTarget⟩ | apart
      · exact .inl ⟨decide_eq_false unignored, isTarget⟩
      · exact .inr ((own.keepsApart_iff pid .deferred).mp apart)
  | steered _ changes =>
      rcases changes with isMode | isMonitor
      · exact absurd isMode steady.1
      · exact absurd isMonitor steady.2
  | pruned _ _ pruned =>
      rw [pruned.same there]
      exact tended
  | released =>
      apply tended.trace
      · exact fun _ => selects
      · rintro _ ⟨⟩

/-- A change of the mode leaves every process but init alone. -/
theorem Moved.same_of_switch (moved : Moved pid own chore sheet transcript)
    (switches : chore = .mode ∨ chore = .monitor) (notInit : 1 < pid) : sheet = own.sheet pid := by
  have init : pid ≠ 1 := by
    rintro rfl
    exact absurd notInit (by decide)
  rcases switches with rfl | rfl
  all_goals
    cases moved with
    | unmoved => rfl
    | steered _ _ isInit => exact absurd isInit init

end Chores

section Looks

variable [Usize] [Config.Build] {own own' : Daemon} {pid : Pid} {transcript : Transcript}

theorem looks_poll (step : bookkeeping.Step own (.poll pid, transcript) own') :
    Local pid own own' ∧
      Polled pid own.settings (own.sheet pid) (own'.sheet pid) transcript := by
  have acts : Acts pid (Chore.program (.poll pid)) own.settings (own.sheet pid)
      fun _ => Polled pid own.settings (own.sheet pid) := by
    apply Acts.bind (acts_pollOne pid)
    intro _ sheet transcript polled
    apply Acts.pure
    rwa [List.append_nil]
  rcases step with ⟨_, talks⟩
  exact talks.of_says (acts own rfl rfl)

theorem looks_kernel {event : KernelEvent}
    (step : bookkeeping.Step own (.kernel event, transcript) own') :
    Local event.pid own own' ∧
      Considered event own.settings (own.sheet event.pid) (own'.sheet event.pid) transcript := by
  rcases step with ⟨_, talks⟩
  exact talks.of_says (acts_considerKernelEvent event own rfl rfl)

theorem looks_recheck {now : Nat}
    (step : bookkeeping.Step own (.recheck now pid, transcript) own') :
    Local pid own own' ∧
      Weighed now pid own.settings (own.sheet pid) (own'.sheet pid) transcript := by
  rcases step with ⟨_, talks⟩
  exact talks.of_says (acts_recheckOne_weighed now pid own rfl rfl)

/-- A kernel event about init is passed over. -/
theorem kernel_init {event : KernelEvent} (init : event.pid ≤ 1)
    (step : bookkeeping.Step own (.kernel event, transcript) own') :
    own' = own ∧ transcript = [] := by
  have passes : StateProg.Says (Chore.program (.kernel event)) (fun _ own' transcript =>
      own' = own ∧ transcript = []) own := by
    rw [Chore.program, considerKernelEvent_init init]
    exact ⟨rfl, rfl⟩
  rcases step with ⟨_, talks⟩
  exact talks.of_says passes

end Looks

section Runs

variable [Usize] [Config.Build]

/-- What a run keeps: every process that is owed something is tended, init is none of them, and
init waits for no recheck. -/
structure Vigil.Tends (vigil : Vigil) : Prop where
  tended : ∀ pid exe, vigil.owed pid exe →
    (vigil.daemon.sheet pid).Tended vigil.daemon.mode vigil.daemon.kernel
  notInit : ∀ pid exe, vigil.owed pid exe → 1 < pid
  unqueued : ∀ pid ≤ 1, (vigil.daemon.sheet pid).recheck = none

variable {vigil vigil' : Vigil} {chore : Chore} {transcript : Transcript} {pid : Pid} {exe : String}

/-- A process that is owed something after a chore was before, or it has been looked at. -/
theorem owing_of_step
    (step : keepingWatch.Step vigil (.chore chore transcript) vigil') (tends : vigil.Tends)
    (owed : vigil'.owed pid exe) :
    Owing (∃ exe, vigil.owed pid exe) pid vigil.daemon.settings (vigil.daemon.sheet pid)
      transcript := by
  rcases (step.2.2.2 pid exe).mp owed with old | ⟨_, marked, isTarget⟩
  · exact .inl ⟨⟨exe, old⟩, tends.tended pid exe old⟩
  · exact .inr ⟨exe, marked, isTarget⟩

/-- The process a chore looks at is tended, if the chore serves it. -/
theorem Vigil.Tends.looked (tends : vigil.Tends) (serves : vigil.Serves (.chore chore transcript))
    (step : keepingWatch.Step vigil (.chore chore transcript) vigil')
    (looks : chore.looksAt = some pid) (owed : vigil'.owed pid exe) :
    (vigil'.daemon.sheet pid).Tended vigil.daemon.mode vigil.daemon.kernel := by
  have owing := owing_of_step step tends owed
  rcases step with ⟨works, _, truthful, _⟩
  have there : (∃ exe, vigil.owed pid exe) → linkOf pid .gone ∉ transcript := by
    rintro ⟨exe, old⟩ gone
    exact ((truthful pid exe old).link .gone gone).1 rfl
  cases chore with
  | poll looked =>
      cases looks
      apply (looks_poll works).2.tended works.1.2 owing
      intro isOwed link only readable noTarget
      rcases serves isOwed link only readable noTarget with same | apart
      · exact .inl same
      · exact .inr ((vigil.daemon.keepsApart_iff pid .candidates).mp apart)
  | kernel event =>
      cases looks
      apply (looks_kernel works).2.tended owing
      · rintro ⟨exe, old⟩
        exact (truthful event.pid exe old).event event rfl rfl
      · intro sought notLate denied
        rcases serves sought denied with late | queued
        · exact absurd late notLate
        · exact ⟨.recheck, (vigil.daemon.keeps_iff event.pid .recheck).mp queued⟩
  | recheck now looked =>
      cases looks
      apply (looks_recheck works).2.tended owing there
      · intro isOwed
        rcases serves.1 isOwed with ⟨early, unignored⟩ | apart
        · exact .inl ⟨early, decide_eq_false unignored⟩
        · exact .inr ((vigil.daemon.keepsApart_iff pid .recheck).mp apart)
      · intro notLate denied marked
        rcases serves.2 marked denied with late | waits
        · exact absurd late notLate
        · exact (vigil.daemon.keeps_iff pid .candidates).mp waits
  | _ => cases looks

/-- Init is never looked at. -/
theorem Vigil.Tends.seeks (tends : vigil.Tends)
    (step : bookkeeping.Step vigil.daemon (chore, transcript) vigil'.daemon)
    (looks : chore.looksAt = some pid) (marked : observation pid exe ∈ transcript) : 1 < pid := by
  by_contra init
  rw [Int.not_lt] at init
  cases chore with
  | poll =>
      cases looks
      exact absurd step.1.1 (Int.not_lt.mpr init)
  | kernel =>
      cases looks
      rw [(kernel_init init step).2] at marked
      exact absurd marked List.not_mem_nil
  | recheck now =>
      cases looks
      have unqueued := tends.unqueued pid init
      have weighed := (looks_recheck step).2
      generalize vigil'.daemon.sheet pid = sheet at weighed
      cases weighed with
      | late => exact absurd marked List.not_mem_nil
      | gone | known | kept => simp at marked
      | observed _ early =>
          rw [unqueued] at early
          exact absurd early (Nat.not_lt_zero now)
  | _ => cases looks

/-- A change of the mode that serves what is owed leaves it in a place that is served. -/
theorem Vigil.Tends.switched (tends : vigil.Tends) (serves : vigil.Serves (.chore chore transcript))
    (step : keepingWatch.Step vigil (.chore chore transcript) vigil')
    (switches : chore = .mode ∨ chore = .monitor) (owed : vigil.owed pid exe) :
    (vigil'.daemon.sheet pid).Tended vigil'.daemon.mode vigil'.daemon.kernel := by
  have moved := (moves_of_step step.1).moved pid
  rw [moved.same_of_switch switches (tends.notInit pid exe owed)]
  rcases tends.tended pid exe owed with ⟨kept, injected⟩
  refine ⟨?_, injected⟩
  rcases switches with rfl | rfl
  · by_cases queues : vigil.daemon.mode = .proc ∨ vigil.daemon.mode = .late
    · rcases step.1 with ⟨_, talks⟩
      rcases talks.of_says (says_applyRequestedMode_switched queues) with
        ⟨contents, head, same | ⟨new, switched⟩⟩
      · rwa [same]
      · exact switched.keeps new (serves pid ⟨exe, owed⟩ contents head) kept
    · apply Sheet.kept_without_queue _ kept
      cases mode : vigil.daemon.mode with
      | kernel => exact .inl rfl
      | ptrace => exact .inr rfl
      | proc => exact absurd (.inl mode) queues
      | late => exact absurd (.inr mode) queues
  · exact Sheet.kept_without_queue (.inr step.1.1) kept

theorem Vigil.Tends.step {happening : Happening} (tends : vigil.Tends)
    (serves : vigil.Serves happening) (step : keepingWatch.Step vigil happening vigil') :
    vigil'.Tends := by
  cases happening with
  | leaves gone =>
      rcases step with ⟨same, owed⟩
      constructor
      · intro pid exe isOwed
        rw [same]
        exact tends.tended pid exe ((owed pid exe).mp isOwed).2
      · exact fun pid exe isOwed => tends.notInit pid exe ((owed pid exe).mp isOwed).2
      · rw [same]
        exact tends.unqueued
  | chore chore transcript =>
      have moves := moves_of_step step.1
      constructor
      · intro pid exe owed
        by_cases switches : chore = .mode ∨ chore = .monitor
        · rcases (step.2.2.2 pid exe).mp owed with old | ⟨looks, _⟩
          · exact tends.switched serves step switches old
          · rcases switches with rfl | rfl <;> cases looks
        · rcases moves.mode.resolve_right switches with ⟨mode, kernel⟩
          rw [mode, kernel]
          by_cases looks : chore.looksAt = some pid
          · exact tends.looked serves step looks owed
          · rcases (step.2.2.2 pid exe).mp owed with old | ⟨isLook, _⟩
            · apply (moves.moved pid).tended looks (not_or.mp switches) step.1.1 step.2.1
                (step.2.2.1 pid exe old) _ (tends.tended pid exe old)
              rintro now rfl rest begins
              exact serves ⟨exe, old⟩ rest begins
            · exact absurd isLook looks
      · intro pid exe owed
        rcases (step.2.2.2 pid exe).mp owed with old | ⟨looks, marked, _⟩
        · exact tends.notInit pid exe old
        · exact tends.seeks step.1 looks marked
      · intro pid init
        by_cases considers : ∃ event, chore = .kernel event ∧ event.pid = pid
        · rcases considers with ⟨event, rfl, rfl⟩
          rw [(kernel_init init step.1).1]
          exact tends.unqueued _ init
        · apply (moves.moved pid).unqueued _ (tends.unqueued pid init)
          intro event isKernel isPid
          exact considers ⟨event, isKernel, isPid⟩

theorem tends_initial (initial : keepingWatch.Initial vigil) : vigil.Tends := by
  rcases initial with ⟨⟨moduleDir, snapshot, transcript, talks⟩, nothing⟩
  rcases talks.of_says (Daemon.says_new_sheets moduleDir snapshot) with ⟨empty, clear, steered⟩
  constructor
  · exact fun pid exe owed => absurd owed (nothing pid exe)
  · exact fun pid exe owed => absurd owed (nothing pid exe)
  · intro pid _
    have none : (empty.sheet pid).recheck = none := by
      rw [clear pid]
    rcases steered pid with same | ⟨_, tracee, same, _⟩
    · rwa [same]
    · rwa [same]

/-- In every run whose chores serve the queues that hold what is owed, no target is dropped. -/
theorem targets_kept_while_served
    (reached : (keepingWatch.restrict Vigil.Serves).Reachable vigil) : vigil.NoneDropped := by
  have tends : vigil.Tends := by
    apply reached.induct
    · exact fun _ => tends_initial
    · exact fun _ _ _ tends serves step => tends.step serves step
  intro pid exe owed
  rcases (tends.tended pid exe owed).kept with ⟨place, kept⟩
  exact ⟨place, (vigil.daemon.keeps_iff pid place).mpr kept⟩

end Runs

theorem held_target_deferred : ∃ vigil,
    (@System.restrict _ _ (@keepingWatch .eight .arm64) Vigil.Serves).Reachable vigil ∧
      vigil.owed 7 "/bin/t" ∧ vigil.NoneDropped := by
  let _ : Usize := .eight
  let _ : Config.Build := .arm64
  have ran : (((Daemon.new "" none).replay startingLate).bind fun own =>
      (Chore.attempt own findingHeld).map fun _ => Targets.matches own.targets "/bin/t") =
        some true := by
    decide +kernel
  simp only [Option.bind_eq_some_iff, Option.map_eq_some_iff] at ran
  rcases ran with ⟨own, constructed, daemon, found, isTarget⟩
  have start : (keepingWatch.restrict Vigil.Serves).Reachable (.idle own) :=
    .initial ⟨⟨"", none, _, Prog.Talks.of_replay constructed⟩, fun _ _ nothing => nothing⟩
  have finds : (keepingWatch.restrict Vigil.Serves).Step (.idle own)
      (.chore findingHeld.1 findingHeld.2)
      ⟨daemon, (Vigil.idle own).owes findingHeld.1 findingHeld.2⟩ := by
    refine ⟨?_, bookkeeping_attempt _ _ _ found, trivial, ?_, fun _ _ => Iff.rfl⟩
    · rintro ⟨_, nothing⟩
      exact nothing.elim
    · exact fun _ _ nothing => nothing.elim
  have reached := start.step finds
  refine ⟨_, reached, .inr ⟨rfl, ?_, isTarget⟩, targets_kept_while_served reached⟩
  simp [findingHeld]

theorem held_target_dropped : ¬@TargetsKept .eight .arm64 := by
  intro always
  let _ : Usize := .eight
  let _ : Config.Build := .arm64
  have ran : (((Daemon.new "" none).replay startingKernel).bind fun own =>
      (Chore.attempt own execHeld).map fun daemon =>
        (Targets.matches own.targets "/bin/t", daemon.mode, daemon.tracees.keys, daemon.done,
          daemon.recheck.keys)) = some (true, .kernel, [], [], []) := by
    decide +kernel
  simp only [Option.bind_eq_some_iff, Option.map_eq_some_iff, Prod.mk.injEq] at ran
  rcases ran with ⟨own, constructed, daemon, reported, isTarget, mode, tracees, done, recheck⟩
  have start : keepingWatch.Reachable (.idle own) :=
    .initial ⟨⟨"", none, _, Prog.Talks.of_replay constructed⟩, fun _ _ nothing => nothing⟩
  have reports : keepingWatch.Step (.idle own) (.chore execHeld.1 execHeld.2)
      ⟨daemon, (Vigil.idle own).owes execHeld.1 execHeld.2⟩ := by
    refine ⟨bookkeeping_attempt _ _ _ reported, trivial, ?_, fun _ _ => Iff.rfl⟩
    exact fun _ _ nothing => nothing.elim
  have owed : (Vigil.idle own).owes execHeld.1 execHeld.2 7 "/bin/t" := by
    refine .inr ⟨rfl, ?_, isTarget⟩
    simp [execHeld]
  rcases always _ (start.step reports) 7 "/bin/t" owed with ⟨place, keeps⟩
  cases place with
  | tracees =>
      rw [Daemon.Keeps, AList.mem_keys, tracees] at keeps
      exact absurd keeps List.not_mem_nil
  | done =>
      rw [Daemon.Keeps, done] at keeps
      exact absurd keeps List.not_mem_nil
  | recheck =>
      rw [Daemon.Keeps, AList.mem_keys, recheck] at keeps
      exact absurd keeps List.not_mem_nil
  | candidates =>
      rcases keeps.2 with proc | ⟨late, _⟩
      · rw [mode] at proc
        cases proc
      · rw [mode] at late
        cases late
  | deferred =>
      have late := keeps.2
      rw [mode] at late
      cases late

end Znn.Injector
