import Znn.Injector.Observed
import Znn.Interaction.Reach
import Znn.Interaction.Results
import Znn.Plan.RoundTrip

/-!
# The stages of an injection

Every trap at which a target is let run on takes its injection one stage further: to the image of
the loader, to `android_dlopen_ext`, to `dlsym`, through the module libraries one by one and at
last to `znn_loader_init`. No stage is taken twice, so that the stage counts the traps, and at the
last one every library has its descriptor.
-/

namespace Znn.Injector

open Interaction PtraceOps Trace

namespace Tracee

/-- The number of traps after which an injection is where it is. -/
def stage (tracee : Tracee) : Nat :=
  match tracee.state with
  | .traced | .entry | .late => 0
  | .file =>
      match tracee.filePurpose with
      | .loader => 1
      | .module => 4 + tracee.moduleIndex
  | .dlopen => 2
  | .dlsym | .dlerror => 3
  | .init => 4 + tracee.moduleIndex

/-- What goes into the plan, and the place among its modules, are the same. -/
structure SameModules (before after : Tracee) : Prop where
  modules : after.modules = before.modules
  moduleIndex : after.moduleIndex = before.moduleIndex
  nonce : after.nonce = before.nonce

/-- The boot plan of the tracee. -/
def plan (tracee : Tracee) (config : Config.HookConfig) (token : Vector UInt8 16) : Plan where
  modules := tracee.modules
  inlineEngine := config.inlineHook
  pltEngine := config.pltHook
  debugdata := config.debugdata
  nonce := tracee.nonce
  token := token

/-- A file of this purpose is being made in the target. -/
structure Making (purpose : FilePurpose) (tracee : Tracee) : Prop where
  state : tracee.state = .file
  purpose : tracee.filePurpose = purpose

end Tracee

/-- The spawning of the helpers of a plan. -/
def spawning (plan : Plan) : Transcript :=
  plan.companions.map fun module =>
    ⟨.spawnCompanion module.path plan.nonce module.index plan.token, ()⟩

section Traps

variable [Usize]

/-- The trap after `dlsym` has these libraries for the executable, which it found among the modules
of the daemon, and draws the nonce. -/
structure Selects (pid : Pid) (tracee : Tracee) (own : Daemon) (transcript : Transcript)
    (libraries : List Targets.ModuleLibrary) (nonce : UInt32) : Prop where
  state : tracee.state = .dlsym
  listed : libraries ≠ []
  asked : ∃ regs reading choosing behind,
    (readRegisters pid tracee.arch).Talks (some regs) reading ∧
    (Targets.librariesFor own.modules tracee.exe).Talks libraries choosing ∧
    transcript = reading ++ ⟨.note (.interpret pid), ()⟩ ::
      (choosing ++ ⟨.freshNonce, nonce⟩ :: behind)

variable [Config.Build]

/-- The trap that lets the target run into the loader reads the configuration, draws the token,
writes the bytes of the plan below the stack pointer, spawns the helpers and passes the address of
the plan. -/
structure HandsOver (pid : Pid) (transcript : Transcript) (next : Tracee)
    (config : Config.HookConfig) (token : Vector UInt8 16) (bytes : List UInt8) : Prop where
  encoded : (next.plan config token).encode .little = some bytes
  asked : ∃ before configuring regs reading writing called calling setting,
    Config.effective.Talks config configuring ∧
    (readRegisters pid next.arch).Talks (some regs) reading ∧
    let stack := alignStack (Usize.wrappingSub regs.sp (bytes.length + 0x10))
    (writeMemory pid stack bytes).Talks true writing ∧
    (setupCall pid (regs.setSp stack) next.initFunction next.returnAddress [stack]).Talks
      (some called) calling ∧
    (writeRegisters pid called).Talks true setting ∧
    transcript = before ++ (configuring ++ ⟨.freshToken, token⟩ :: (reading ++ (writing ++
      (spawning (next.plan config token) ++ (calling ++ (setting ++ [⟨.cont pid none, ()⟩]))))))

/-- The loader is entered at this trap. -/
structure Tracee.Entered (pid : Pid) (transcript : Transcript) (next : Tracee) : Prop where
  state : next.state = .init
  handed : ∃ config token bytes, HandsOver pid transcript next config token bytes

/-- The next file is made, or the loader is entered when there is none. -/
def Tracee.Pumped (pid : Pid) (tracee : Tracee) (transcript : Transcript) (next : Tracee) : Prop :=
  tracee.SameModules next ∧
    (next.Making .module ∧ tracee.moduleIndex < tracee.modules.length ∨
      next.Entered pid transcript ∧ tracee.modules.length ≤ tracee.moduleIndex)

theorem HandsOver.of_end {pid : Pid} {first second : Transcript} {next : Tracee}
    {config : Config.HookConfig} {token : Vector UInt8 16} {bytes : List UInt8}
    (hands : HandsOver pid second next config token bytes) :
    HandsOver pid (first ++ second) next config token bytes := by
  rcases hands with ⟨encoded, before, configuring, regs, reading, writing, called, calling, setting,
    configures, reads, writes, calls, sets, rfl⟩
  refine ⟨encoded, first ++ before, configuring, regs, reading, writing, called, calling, setting,
    configures, reads, writes, calls, sets, ?_⟩
  rw [List.append_assoc]

/-- The helpers of the plan are spawned. -/
theorem HandsOver.spawns {pid : Pid} {transcript : Transcript} {next : Tracee}
    {config : Config.HookConfig} {token : Vector UInt8 16} {bytes : List UInt8}
    (hands : HandsOver pid transcript next config token bytes) {exchange : Exchange Sys}
    (spawned : exchange ∈ spawning (next.plan config token)) : exchange ∈ transcript := by
  rcases hands.asked with ⟨before, configuring, regs, reading, writing, called, calling, setting,
    _, _, _, _, _, rfl⟩
  simp only [List.mem_append, List.mem_cons]
  exact .inr (.inr (.inr (.inr (.inr (.inl spawned)))))

theorem Tracee.Pumped.of_end {pid : Pid} {tracee next : Tracee} {first second : Transcript}
    (pumped : tracee.Pumped pid second next) : tracee.Pumped pid (first ++ second) next := by
  rcases pumped with ⟨same, made | ⟨⟨state, config, token, bytes, hands⟩, last⟩⟩
  · exact ⟨same, .inl made⟩
  · exact ⟨same, .inr ⟨⟨state, config, token, bytes, hands.of_end⟩, last⟩⟩

end Traps

/-- The modules of a plan for these libraries, of which the first `count` have a descriptor. -/
structure Filled (libraries : List Targets.ModuleLibrary) (count : Nat)
    (modules : List PlanModule) : Prop where
  length : modules.length = libraries.length
  named : ∀ (i : Nat) (module : PlanModule), modules[i]? = some module →
    ∃ library, libraries[i]? = some library ∧ module.index = UInt32.ofNat i ∧
      module.path = library.path ∧ module.companion = library.companion
  opened : ∀ (i : Nat) (module : PlanModule), modules[i]? = some module → i < count →
    0 ≤ module.fd

/-- What a trap makes of a tracee that is let run on. -/
inductive Advances [Usize] [Config.Build] (pid : Pid) (tracee : Tracee) (own : Daemon)
    (transcript : Transcript) (next : Tracee) : Prop where
  | start (begins : tracee.state = .entry ∨ tracee.state = .late) (making : next.Making .loader)
  | load (making : tracee.Making .loader) (state : next.state = .dlopen)
  | explain (state : tracee.state = .dlopen) (nextState : next.state = .dlerror)
  | find (state : tracee.state = .dlopen) (nextState : next.state = .dlsym)
  | list (libraries : List Targets.ModuleLibrary)
      (selects : Selects pid tracee own transcript libraries next.nonce)
      (fills : Filled libraries 0 next.modules)
      (making : next.Making .module) (start : next.moduleIndex = 0)
  | store (making : tracee.Making .module) (fd : Int32) (opened : 0 ≤ fd)
      (modules : next.modules = Daemon.storeFd tracee.modules tracee.moduleIndex fd)
      (index : next.moduleIndex = Usize.wrappingAdd tracee.moduleIndex 1)
      (nonce : next.nonce = tracee.nonce)
      (goes : next.Making .module ∧ next.moduleIndex < next.modules.length ∨
        next.Entered pid transcript ∧ next.modules.length ≤ next.moduleIndex)

section Files

variable [Usize] {pid : Pid} {tracee : Tracee} {regs : Regs} {purpose : FilePurpose}

/-- What `start_file` makes of a tracee if the call was started. -/
def StartsMaking (tracee : Tracee) (purpose : FilePurpose) (result : Bool × Tracee) : Prop :=
  result.1 = true → result.2.Making purpose ∧ tracee.SameModules result.2

theorem returns_startMemfd_making {other : Tracee} (same : tracee.SameModules other)
    (isPurpose : other.filePurpose = purpose) :
    (startMemfd pid other regs).Returns (StartsMaking tracee purpose) := by
  apply Prog.Returns.bind_any
  intro address
  cases address with
  | none => exact fun started => absurd started Bool.false_ne_true
  | some address =>
      apply Prog.Returns.bind_any
      intro pushed
      cases pushed with
      | none => exact fun started => absurd started Bool.false_ne_true
      | some pushed =>
          apply Prog.Returns.bind_any
          intro called
          cases called with
          | none => exact fun started => absurd started Bool.false_ne_true
          | some called =>
              exact fun written _ =>
                ⟨⟨rfl, isPurpose⟩, ⟨same.modules, same.moduleIndex, same.nonce⟩⟩

theorem returns_startFile_making (tracee : Tracee) (purpose : FilePurpose) (regs : Regs) :
    (startFile pid tracee purpose regs).Returns (StartsMaking tracee purpose) := by
  unfold startFile
  split
  · apply Prog.Returns.bind_any
    intro content
    cases content with
    | none => exact fun started => absurd started Bool.false_ne_true
    | some content => exact returns_startMemfd_making ⟨rfl, rfl, rfl⟩ rfl
  · exact returns_startMemfd_making ⟨rfl, rfl, rfl⟩ rfl

end Files

namespace Daemon

/-- If the target is let run on, its tracee is as said. -/
def GoesOn (good : Tracee → Prop) (progress : Progress) : Prop :=
  ∀ next, progress = .tracing next → good next

variable {pid : Pid} {good : Tracee → Prop}

theorem goesOn_finished (program : DaemonM Unit) :
    StateProg.Returns (GoesOn good) (do program; return Progress.finished) := by
  apply StateProg.Returns.bind_any
  rintro _ _ next ⟨⟩

theorem goesOn_resume {next : Tracee} (holds : good next) :
    StateProg.Returns (GoesOn good)
      (do Ptrace.cont pid none; return Progress.tracing next : DaemonM Progress) := by
  apply StateProg.Returns.bind_any
  rintro _ _ _ ⟨⟩
  exact holds

variable [Usize] {tracee : Tracee} {regs : Regs}

theorem goesOn_abort (reason : String) :
    StateProg.Returns (GoesOn good) (abort pid tracee reason) :=
  goesOn_finished _

theorem goesOn_leave :
    StateProg.Returns (GoesOn good) (do
      restoreEntry pid tracee
      Ptrace.detach pid none
      return Progress.finished : DaemonM Progress) := by
  apply StateProg.Returns.bind_any
  exact fun _ => goesOn_finished _

theorem goesOn_startLoader :
    StateProg.Returns (GoesOn (Tracee.Making .loader)) (startLoader pid tracee regs) := by
  apply StateProg.Returns.bind (.lift (returns_startFile_making tracee .loader regs))
  rintro ⟨started, next⟩ making
  cases started with
  | false => exact goesOn_finished _
  | true => exact goesOn_resume (making rfl).1

theorem goesOn_trapAtLate :
    StateProg.Returns (GoesOn (Tracee.Making .loader)) (trapAtLate pid tracee) := by
  apply StateProg.Returns.bind_any
  intro regs
  cases regs with
  | none => exact goesOn_leave
  | some regs => exact goesOn_startLoader

theorem goesOn_trapAtEntry :
    StateProg.Returns (GoesOn (Tracee.Making .loader)) (trapAtEntry pid tracee) := by
  apply StateProg.Returns.bind_any
  intro regs
  cases regs with
  | none => exact goesOn_leave
  | some regs =>
      dsimp only
      split
      · exact goesOn_leave
      · exact goesOn_startLoader

theorem goesOn_startDlopen (fd : Int32) :
    StateProg.Returns (GoesOn fun next => next.state = .dlopen)
      (startDlopen pid tracee regs fd) := by
  apply StateProg.Returns.bind_any
  intro address
  cases address with
  | none => exact goesOn_abort _
  | some address =>
      apply StateProg.Returns.bind_any
      intro nameWritten
      split
      · exact goesOn_abort _
      apply StateProg.Returns.bind_any
      intro infoWritten
      split
      · exact goesOn_abort _
      apply StateProg.Returns.bind_any
      intro called
      cases called with
      | none => exact goesOn_abort _
      | some called =>
          apply StateProg.Returns.bind_any
          intro written
          split
          · exact goesOn_abort _
          · exact goesOn_resume rfl

theorem goesOn_callDlerror :
    StateProg.Returns (GoesOn fun next => next.state = .dlerror)
      (callDlerror pid tracee regs) := by
  apply StateProg.Returns.bind_any
  intro address
  cases address with
  | none => exact goesOn_abort _
  | some address =>
      apply StateProg.Returns.bind_any
      intro called
      cases called with
      | none => exact goesOn_abort _
      | some called =>
          apply StateProg.Returns.bind_any
          exact fun _ => goesOn_resume rfl

theorem goesOn_callDlsym (handle : Nat) :
    StateProg.Returns (GoesOn fun next => next.state = .dlsym)
      (callDlsym pid tracee regs handle) := by
  apply StateProg.Returns.bind_any
  intro address
  cases address with
  | none => exact goesOn_abort _
  | some address =>
      apply StateProg.Returns.bind_any
      intro nameWritten
      split
      · exact goesOn_finished _
      apply StateProg.Returns.bind_any
      intro called
      cases called with
      | none => exact goesOn_finished _
      | some called =>
          apply StateProg.Returns.bind_any
          intro written
          split
          · exact goesOn_finished _
          · exact goesOn_resume rfl

theorem goesOn_trapAfterDlopen :
    StateProg.Returns (GoesOn fun next => next.state = .dlerror ∨ next.state = .dlsym)
      (trapAfterDlopen pid tracee) := by
  apply StateProg.Returns.bind_any
  intro regs
  cases regs with
  | none => exact goesOn_finished _
  | some regs =>
      apply StateProg.Returns.bind_any
      intro _
      dsimp only
      split
      · exact goesOn_callDlerror.mono fun _ goes next is => .inl (goes next is)
      · exact (goesOn_callDlsym _).mono fun _ goes next is => .inr (goes next is)

theorem goesOn_trapAfterDlerror :
    StateProg.Returns (GoesOn fun _ => False) (trapAfterDlerror pid tracee) := by
  apply StateProg.Returns.bind_any
  intro regs
  cases regs with
  | none => exact goesOn_finished _
  | some regs =>
      apply StateProg.Returns.bind_any
      intro _
      have records : ∀ error : String, StateProg.Returns (GoesOn fun _ => False) (do
          recordFailure pid tracee.exe ("dlopen failed: " ++ error)
          undo pid tracee
          return Progress.finished) :=
        fun error => StateProg.Returns.bind_any _ fun _ => goesOn_finished _
      dsimp only
      split
      · exact records "(null)"
      · exact StateProg.Returns.bind_any _ records

/-- If the target is let run on, its tracee is as said of what was asked. -/
def Leads (good : Transcript → Tracee → Prop) (program : DaemonM Progress) (own : Daemon) : Prop :=
  StateProg.Says program (fun progress _ transcript => GoesOn (good transcript) progress) own

section Leads

variable {program : DaemonM Progress} {own : Daemon} {leads : Transcript → Tracee → Prop}

omit [Usize] in
theorem leads_of_goesOn (goes : StateProg.Returns (GoesOn good) program)
    (implies : ∀ transcript next, good next → leads transcript next) : Leads leads program own :=
  StateProg.says_mono (goes.transcripts own) fun _ _ transcript goes next is =>
    implies transcript next (goes next is)

omit [Usize] in
theorem leads_bind {α : Type} {asking : Prog Sys α} {rest : α → DaemonM Progress}
    (each : ∀ value first, asking.Talks value first →
      Leads (fun second => leads (first ++ second)) (rest value) own) :
    Leads leads (liftM asking >>= rest) own :=
  StateProg.says_lift_bind each

omit [Usize] in
theorem Leads.mono {weaker : Transcript → Tracee → Prop} (holds : Leads leads program own)
    (implies : ∀ transcript next, leads transcript next → weaker transcript next) :
    Leads weaker program own :=
  StateProg.says_mono holds fun _ _ transcript goes next is =>
    implies transcript next (goes next is)

omit [Usize] in
theorem leads_ended (ended : StateProg.Returns (GoesOn fun _ => False) program) :
    Leads leads program own :=
  leads_of_goesOn ended fun _ _ => False.elim

omit [Usize] in
theorem leads_resume {next : Tracee} (holds : ∀ transcript, leads transcript next) :
    Leads leads (do Ptrace.cont pid none; return Progress.tracing next : DaemonM Progress) own := by
  apply leads_bind
  rintro _ first _ _ ⟨⟩
  exact holds _

theorem leads_abort (reason : String) : Leads leads (abort pid tracee reason) own :=
  leads_ended (goesOn_abort reason)

end Leads

omit [Usize] in
theorem says_spawning (plan : Plan) (own : Daemon) :
    StateProg.Says (plan.companions.forM fun module =>
        (liftM (perform (.spawnCompanion module.path plan.nonce module.index plan.token)) :
          DaemonM PUnit))
      (fun _ own' transcript => own' = own ∧ transcript = spawning plan) own := by
  rw [spawning]
  induction plan.companions with
  | nil => exact ⟨rfl, rfl⟩
  | cons module rest ih =>
      rw [List.forM]
      apply StateProg.says_lift_bind
      rintro _ _ spawns
      rw [spawns.exchange]
      apply StateProg.says_mono ih
      rintro _ own' _ ⟨rfl, rfl⟩
      exact ⟨rfl, rfl⟩

variable [Config.Build] {own : Daemon}

theorem leads_finishInjection :
    Leads (fun transcript next => next.Entered pid transcript ∧ tracee.SameModules next)
      (finishInjection pid tracee) own := by
  apply leads_bind
  intro config configuring configures
  apply leads_bind
  intro token _ draws
  rw [draws.exchange]
  dsimp only
  split
  case h_2 => exact leads_abort _
  case h_1 bytes encoded =>
    apply leads_bind
    intro regs reading reads
    cases regs with
    | none => exact leads_abort _
    | some regs =>
        apply leads_bind
        intro written writing writes
        cases written with
        | false => exact leads_abort _
        | true =>
            refine StateProg.says_bind.mpr (StateProg.says_mono (says_spawning _ own) ?_)
            rintro _ own _ ⟨rfl, rfl⟩
            apply leads_bind
            intro called calling calls
            cases called with
            | none => exact leads_abort _
            | some called =>
                apply leads_bind
                intro entered setting sets
                cases entered with
                | false => exact leads_abort _
                | true =>
                    apply leads_bind
                    intro _ _ resumes
                    rw [resumes.exchange]
                    rintro _ ⟨⟩
                    exact ⟨⟨rfl, config, token, bytes, encoded, [], configuring, regs, reading,
                      writing, called, calling, setting, configures, reads, writes, calls, sets,
                      rfl⟩, rfl, rfl, rfl⟩

theorem leads_pumpModules :
    Leads (tracee.Pumped pid) (pumpModules pid tracee) own := by
  unfold pumpModules
  split
  case h_1 none =>
    apply leads_finishInjection.mono
    intro transcript next goes
    exact ⟨goes.2, .inr ⟨goes.1, List.getElem?_eq_none_iff.mp none⟩⟩
  case h_2 module isModule =>
    have inside : tracee.moduleIndex < tracee.modules.length :=
      (List.getElem?_eq_some_iff.mp isModule).1
    apply leads_bind
    intro content _ _
    cases content with
    | none => exact leads_abort _
    | some content =>
        apply leads_bind
        intro regs _ _
        cases regs with
        | none => exact leads_abort _
        | some regs =>
            apply leads_bind
            rintro ⟨started, next⟩ _ starts
            have making := starts.of_says (returns_startFile_making _ .module regs).transcripts
            cases started with
            | false => exact leads_abort _
            | true =>
                rcases making rfl with ⟨isMaking, same⟩
                apply leads_resume
                exact fun _ =>
                  ⟨⟨same.modules, same.moduleIndex, same.nonce⟩, .inl ⟨isMaking, inside⟩⟩

omit [Usize] [Config.Build] in
/-- The libraries, none of which has been opened. -/
theorem filled_planModules (libraries : List Targets.ModuleLibrary) :
    Filled libraries 0 (planModules libraries) := by
  constructor
  · simp [planModules]
  · intro i module isModule
    rw [planModules, List.getElem?_mapIdx, Option.map_eq_some_iff] at isModule
    rcases isModule with ⟨library, isLibrary, rfl⟩
    exact ⟨library, isLibrary, rfl, rfl, rfl⟩
  · exact fun _ _ _ none => absurd none (Nat.not_lt_zero _)

theorem leads_trapAfterDlsym (state : tracee.state = .dlsym) :
    Leads (Advances pid tracee own) (trapAfterDlsym pid tracee) own := by
  apply leads_bind
  intro regs reading reads
  cases regs with
  | none => exact leads_ended (goesOn_finished _)
  | some regs =>
      apply leads_bind
      intro _ _ marks
      rw [marks.exchange]
      dsimp only
      split
      · exact leads_abort _
      refine StateProg.says_bind.mpr (StateProg.says_get.mpr ?_)
      apply leads_bind
      intro libraries choosing chooses
      split
      · exact leads_abort _
      case isFalse notEmpty =>
        apply leads_bind
        intro nonce _ draws
        rw [draws.exchange]
        apply leads_pumpModules.mono
        intro behind next pumped
        have listed : libraries ≠ [] := by
          rintro rfl
          exact notEmpty rfl
        rcases pumped with ⟨same, ⟨making, _⟩ | ⟨_, empty⟩⟩
        · apply Advances.list libraries
          · refine ⟨state, listed, regs, reading, choosing, behind, reads, chooses, ?_⟩
            rw [same.nonce]
            rfl
          · rw [same.modules]
            exact filled_planModules libraries
          · exact making
          · exact same.moduleIndex
        · rw [Nat.le_zero, List.length_eq_zero_iff] at empty
          exact absurd empty notEmpty

theorem leads_fileReady (state : tracee.state = .file) {fd : Int32} (opened : 0 ≤ fd)
    (first : Transcript) :
    Leads (fun second => Advances pid tracee own (first ++ second))
      (fileReady pid { tracee with fileFd := fd } regs) own := by
  unfold fileReady
  dsimp only
  split
  case h_1 purpose =>
    apply leads_bind
    intro filled _ _
    split
    · exact leads_abort _
    · exact leads_of_goesOn (goesOn_startDlopen _) fun _ _ goes => .load ⟨state, purpose⟩ goes
  case h_2 purpose =>
    apply leads_bind
    intro filled second _
    split
    · exact leads_abort _
    apply leads_pumpModules.mono
    intro third next pumped
    rcases pumped.of_end.of_end with ⟨same, goes⟩
    apply Advances.store ⟨state, purpose⟩ fd opened same.modules same.moduleIndex same.nonce
    rwa [same.modules, same.moduleIndex]

theorem leads_trapFile (state : tracee.state = .file) :
    Leads (Advances pid tracee own) (trapFile pid tracee) own := by
  apply leads_bind
  intro regs first _
  cases regs with
  | none => exact leads_abort _
  | some regs =>
      apply leads_bind
      intro _ second _
      dsimp only
      split
      · split
        · exact leads_ended (goesOn_finished _)
        · exact leads_ended (goesOn_finished _)
      case isFalse opened =>
        apply (leads_fileReady state (Int32.not_lt.mp opened) (first ++ second)).mono
        intro third next advances
        rwa [List.append_assoc] at advances

/-- A trap that lets the target run on takes its injection one stage further. -/
theorem leads_step (injected : tracee.state ≠ .traced) :
    Leads (Advances pid tracee own) (step pid tracee) own := by
  unfold step
  split
  case h_1 state =>
    exact leads_of_goesOn goesOn_trapAtEntry fun _ _ goes => .start (.inl state) goes
  case h_2 state =>
    exact leads_of_goesOn goesOn_trapAtLate fun _ _ goes => .start (.inr state) goes
  case h_3 state => exact leads_trapFile state
  case h_4 state =>
    apply leads_of_goesOn goesOn_trapAfterDlopen
    intro _ next goes
    rcases goes with explained | found
    · exact .explain state explained
    · exact .find state found
  case h_5 state => exact leads_trapAfterDlsym state
  case h_6 state => exact leads_ended goesOn_trapAfterDlerror
  case h_7 state => exact leads_ended (StateProg.Returns.bind_any _ fun _ => goesOn_finished _)
  case h_8 state => exact absurd state injected

end Daemon

/-- The traps of a process while its injection goes on. Each is handled by a daemon in any state,
with any answers. -/
def injectionTraps [Usize] [Config.Build] (pid : Pid) : System Tracee (Daemon × Transcript) where
  Initial tracee := tracee.state = .entry ∨ tracee.state = .late
  Step tracee handled next := tracee.state ≠ .traced ∧
    ∃ own', StateProg.Talks (Daemon.step pid tracee) handled.1 (.tracing next) own' handled.2

/-- What holds at a stage, if these libraries may have been selected with this nonce. -/
structure Tracee.Staged (tracee : Tracee)
    (selected : List Targets.ModuleLibrary → UInt32 → Prop) : Prop where
  injected : tracee.state ≠ .traced
  within : tracee.Making .module → tracee.moduleIndex < tracee.modules.length
  complete : tracee.state = .init → tracee.moduleIndex = tracee.modules.length
  filled : tracee.state = .init ∨ tracee.Making .module → ∃ libraries,
    selected libraries tracee.nonce ∧ Filled libraries tracee.moduleIndex tracee.modules

section Stages

variable {tracee next : Tracee} {selected later : List Targets.ModuleLibrary → UInt32 → Prop}

theorem Filled.storeFd {libraries : List Targets.ModuleLibrary} {count : Nat}
    {modules : List PlanModule} {fd : Int32} (filled : Filled libraries count modules)
    (opened : 0 ≤ fd) : Filled libraries (count + 1) (Daemon.storeFd modules count fd) := by
  have entry : ∀ (i : Nat) (module : PlanModule),
      (Daemon.storeFd modules count fd)[i]? = some module → ∃ before, modules[i]? = some before ∧
        module = if count = i then { before with fd := fd } else before := by
    intro i module isModule
    rw [Daemon.storeFd, List.getElem?_modify, Option.map_eq_map, Option.map_eq_some_iff] at isModule
    rcases isModule with ⟨before, was, rfl⟩
    exact ⟨before, was, rfl⟩
  constructor
  · rw [Daemon.storeFd, List.length_modify, filled.length]
  · intro i module isModule
    rcases entry i module isModule with ⟨before, was, rfl⟩
    split
    · exact filled.named i before was
    · exact filled.named i before was
  · intro i module isModule early
    rcases entry i module isModule with ⟨before, was, rfl⟩
    split
    · exact opened
    · exact filled.opened i before was (by omega)

theorem Tracee.Making.stage (making : tracee.Making .module) :
    tracee.stage = 4 + tracee.moduleIndex := by
  rw [Tracee.stage, making.state, making.purpose]

namespace Tracee.Staged

/-- Up to `dlsym` nothing is held. -/
theorem early (injected : tracee.state ≠ .traced) (notMaking : ¬tracee.Making .module)
    (notInit : tracee.state ≠ .init) : tracee.Staged selected where
  injected := injected
  within making := absurd making notMaking
  complete state := absurd state notInit
  filled late := (late.elim notInit notMaking).elim

theorem of_state {state : State} (isState : tracee.state = state)
    (early : state = .dlopen ∨ state = .dlsym ∨ state = .dlerror) : tracee.Staged selected := by
  apply Staged.early
  · rcases early with rfl | rfl | rfl <;> simp [isState]
  · intro making
    have file := making.state
    rcases early with rfl | rfl | rfl <;> simp [isState] at file
  · rcases early with rfl | rfl | rfl <;> simp [isState]

theorem stage_le (staged : tracee.Staged selected) : tracee.stage ≤ 4 + tracee.modules.length := by
  cases state : tracee.state with
  | traced | entry | late | dlopen | dlsym | dlerror =>
      simp only [Tracee.stage, state]
      omega
  | file =>
      cases purpose : tracee.filePurpose with
      | loader =>
          simp only [Tracee.stage, state, purpose]
          omega
      | module =>
          have within := staged.within ⟨state, purpose⟩
          simp only [Tracee.stage, state, purpose]
          omega
  | init =>
      have complete := staged.complete state
      simp only [Tracee.stage, state]
      omega

variable [Usize] [Config.Build] {pid : Pid} {own : Daemon} {transcript : Transcript}

theorem advances (staged : tracee.Staged selected)
    (advances : Advances pid tracee own transcript next)
    (fits : tracee.modules.length < Usize.count)
    (selects : ∀ libraries, Selects pid tracee own transcript libraries next.nonce →
      later libraries next.nonce)
    (keeps : ∀ libraries nonce, selected libraries nonce → later libraries nonce) :
    next.Staged later ∧ next.stage = tracee.stage + 1 := by
  cases advances with
  | start begins making =>
      have before : tracee.stage = 0 := by
        rcases begins with state | state <;> rw [Tracee.stage, state]
      have after : next.stage = 1 := by
        rw [Tracee.stage, making.state, making.purpose]
      refine ⟨early ?_ ?_ ?_, by rw [before, after]⟩
      · simp [making.state]
      · exact fun isModule => FilePurpose.noConfusion (making.purpose.symm.trans isModule.purpose)
      · simp [making.state]
  | load making state =>
      refine ⟨of_state state (.inl rfl), ?_⟩
      rw [Tracee.stage, state, Tracee.stage, making.state, making.purpose]
  | explain state nextState =>
      refine ⟨of_state nextState (.inr (.inr rfl)), ?_⟩
      rw [Tracee.stage, nextState, Tracee.stage, state]
  | find state nextState =>
      refine ⟨of_state nextState (.inr (.inl rfl)), ?_⟩
      rw [Tracee.stage, nextState, Tracee.stage, state]
  | list libraries chosen fills making start =>
      constructor
      · constructor
        · simp [making.state]
        · intro _
          rw [start, fills.length]
          exact List.length_pos_of_ne_nil chosen.listed
        · intro init
          rw [making.state] at init
          cases init
        · intro _
          rw [start]
          exact ⟨libraries, selects libraries chosen, fills⟩
      · rw [making.stage, start, Tracee.stage, chosen.state]
  | store making fd opened modules index nonce goes =>
      rcases staged.filled (.inr making) with ⟨libraries, chosen, filled⟩
      have within := staged.within making
      have next_index : next.moduleIndex = tracee.moduleIndex + 1 := by
        rw [index, Usize.wrappingAdd_of_lt (by omega)]
      have length : next.modules.length = tracee.modules.length := by
        rw [modules, Daemon.storeFd, List.length_modify]
      have fills : Filled libraries next.moduleIndex next.modules := by
        rw [modules, next_index]
        exact filled.storeFd opened
      have still : later libraries next.nonce := by
        rw [nonce]
        exact keeps libraries tracee.nonce chosen
      rcases goes with ⟨making', inside⟩ | ⟨entered, outside⟩
      · constructor
        · constructor
          · simp [making'.state]
          · exact fun _ => inside
          · intro init
            rw [making'.state] at init
            cases init
          · exact fun _ => ⟨libraries, still, fills⟩
        · rw [making'.stage, making.stage, next_index]
          rfl
      · constructor
        · constructor
          · simp [entered.state]
          · intro making'
            have file := making'.state
            rw [entered.state] at file
            cases file
          · exact fun _ => by omega
          · exact fun _ => ⟨libraries, still, fills⟩
        · rw [Tracee.stage, entered.state, making.stage, next_index]
          rfl

end Tracee.Staged

end Stages

section Runs

variable [Usize] [Config.Build] {pid : Pid} {tracee next : Tracee}

theorem advances_of_step {handled : Daemon × Transcript}
    (step : (injectionTraps pid).Step tracee handled next) :
    Advances pid tracee handled.1 handled.2 next := by
  rcases step with ⟨injected, own', talks⟩
  exact talks.of_says (Daemon.leads_step injected) next rfl

theorem staged_of_initial {selected : List Targets.ModuleLibrary → UInt32 → Prop}
    (begins : (injectionTraps pid).Initial tracee) : tracee.Staged selected ∧ tracee.stage = 0 := by
  constructor
  · apply Tracee.Staged.early
    · rcases begins with state | state <;> simp [state]
    · intro making
      have file := making.state
      rcases begins with state | state <;> rw [state] at file <;> cases file
    · rcases begins with state | state <;> simp [state]
  · rcases begins with state | state <;> rw [Tracee.stage, state]

/-- The fourth trap of a run selects the libraries. -/
def Chosen (pid : Pid) (steps : List (Tracee × Daemon × Transcript))
    (libraries : List Targets.ModuleLibrary) (nonce : UInt32) : Prop :=
  ∃ choice, steps[3]? = some choice ∧
    Selects pid choice.1 choice.2.1 choice.2.2 libraries nonce

theorem staged_of_run {start : Tracee} {steps : List (Tracee × Daemon × Transcript)}
    (run : (injectionTraps pid).Run start steps next) (begins : (injectionTraps pid).Initial start)
    (fits : ∀ step ∈ steps, step.1.modules.length < Usize.count) :
    next.Staged (Chosen pid steps) ∧ next.stage = steps.length := by
  induction run with
  | nil => exact staged_of_initial begins
  | snoc run step ih =>
      rename_i steps tracee next handled
      rcases ih fun step present => fits step (List.mem_append_left _ present) with ⟨staged, count⟩
      have small : tracee.modules.length < Usize.count :=
        fits (tracee, handled) (List.mem_append_right _ List.mem_cons_self)
      have advanced : next.Staged (Chosen pid (steps ++ [(tracee, handled)])) ∧
          next.stage = tracee.stage + 1 := by
        apply staged.advances (advances_of_step step) small
        · intro libraries selects
          have three : steps.length = 3 := by
            rw [← count, Tracee.stage, selects.state]
          exact ⟨(tracee, handled), by simp [← three], selects⟩
        · rintro libraries nonce ⟨choice, isChoice, selects⟩
          have early := (List.getElem?_eq_some_iff.mp isChoice).1
          exact ⟨choice, by rwa [List.getElem?_append_left early], selects⟩
      refine ⟨advanced.1, ?_⟩
      rw [advanced.2, count, List.length_append, List.length_singleton]

section Answered

/-- What the target `/bin/t` answers when every injected call in it succeeds. -/
def willing : (request : Call) → request.Answer
  | .exeLink _ => .path "/bin/t"
  | .elfHeader _ => some ⟨true, Elf.ET_DYN, Elf.EM_AARCH64, 16⟩
  | .maps _ => [⟨4096, 8192, 0, 5, "/bin/t"⟩, ⟨8192, 12288, 0, 5, "/libc.so"⟩,
      ⟨12288, 16384, 0, 5, "/libdl.so"⟩]
  | .symbolAddress _ _ _ => (1 : Nat)
  | .canonicalize path => some path
  | .readFile _ => some [0]
  | .getRegset _ _ => some (Bytes.little ARM64.word 4 ++
      List.replicate (ARM64.pc - ARM64.word) 0 ++ Bytes.little ARM64.word 4112 ++
        List.replicate ARM64.word 0)
  | .peekData _ _ => some (List.replicate 8 0)
  | .pokeData _ _ _ | .setRegset _ _ | .writeToTargetFd _ _ _ | .detach _ _ => true
  | request => bare request

variable (own : Daemon)

/-- What a trap of the process 7 makes of a tracee when every call in it succeeds. -/
def answered (tracee : Tracee) : (Progress × Daemon) × Transcript :=
  Prog.eval (I := Sys) (fun request (history : Transcript) =>
    (willing request, history ++ [⟨request, willing request⟩])) ((Daemon.step 7 tracee).run own) []

/-- The tracee after some traps, if the target is let run on at each of them. -/
def afterTraps (start : Tracee) : Nat → Option Tracee
  | 0 => some start
  | count + 1 => (afterTraps start count).bind fun tracee =>
      if tracee.state = .traced ∨ tracee.modules.length > 1 then
        none
      else
        match (answered own tracee).1.1 with
        | .tracing next => some next
        | .finished => none

theorem run_afterTraps {start next : Tracee} (count : Nat)
    (ran : afterTraps own start count = some next) : ∃ steps,
      (injectionTraps 7).Run start steps next ∧
        ∀ step ∈ steps, step.1.modules.length < Usize.count := by
  induction count generalizing next with
  | zero =>
      cases ran
      exact ⟨[], .nil, fun _ present => absurd present List.not_mem_nil⟩
  | succ count ih =>
      rw [afterTraps, Option.bind_eq_some_iff] at ran
      rcases ran with ⟨tracee, before, after⟩
      rcases ih before with ⟨steps, run, fits⟩
      split at after
      · cases after
      case isFalse small =>
        rw [not_or] at small
        have talks : StateProg.Talks (Daemon.step 7 tracee) own (answered own tracee).1.1
            (answered own tracee).1.2 (answered own tracee).2 :=
          Prog.talks_eval (I := Sys) willing ((Daemon.step 7 tracee).run own)
        cases progress : (answered own tracee).1.1 with
        | finished => simp [progress] at after
        | tracing middle =>
            simp only [progress, Option.some.injEq] at after
            subst after
            rw [progress] at talks
            have goes : (injectionTraps 7).Step tracee (own, (answered own tracee).2) middle :=
              ⟨small.1, _, talks⟩
            refine ⟨_, run.snoc goes, fun step present => ?_⟩
            rcases List.mem_append.mp present with earlier | last
            · exact fits step earlier
            · rw [List.mem_singleton.mp last]
              have word := Usize.word_le_count
              exact Nat.lt_of_le_of_lt (Nat.le_of_not_lt small.2) (by omega)

/-- A daemon with one module for `/bin/t`. -/
def oneModule : Daemon where
  modules := [{ id := "m", declarations := [⟨⟨false, "/bin/t"⟩, true, "lib.so"⟩] }]

/-- The target at its entry breakpoint. -/
def atEntry : Tracee :=
  { Tracee.new .entry .arm64 with
    entry := 4112
    breakpointSize := 4
    loader := "/loader"
    exe := "/bin/t" }

end Answered

/-- The stage of an injection counts its traps, whatever is answered: an injection of `n` libraries
has no more than `4 + n` traps before the one at which it ends. -/
theorem stages_counted {start : Tracee} {steps : List (Tracee × Daemon × Transcript)}
    (run : (injectionTraps pid).Run start steps next) (begins : (injectionTraps pid).Initial start)
    (fits : ∀ step ∈ steps, step.1.modules.length < Usize.count) :
    steps.length = next.stage ∧ steps.length ≤ 4 + next.modules.length ∧
      (next.state = .init ∨ next.state = .dlerror → ∀ handled after,
        ¬(injectionTraps pid).Step next handled after) := by
  rcases staged_of_run run begins fits with ⟨staged, count⟩
  refine ⟨count.symm, count ▸ staged.stage_le, ?_⟩
  intro last handled after step
  cases advances_of_step step with
  | start begins => rcases last with last | last <;> rcases begins with state | state <;>
      rw [last] at state <;> cases state
  | load making | store making =>
      have file := making.state
      rcases last with last | last <;> rw [last] at file <;> cases file
  | explain state | find state =>
      rcases last with last | last <;> rw [last] at state <;> cases state
  | list _ selects =>
      have state := selects.state
      rcases last with last | last <;> rw [last] at state <;> cases state

omit [Usize] [Config.Build] in
theorem stages_counted_one : let _ : Usize := .eight
    let _ : Config.Build := .arm64
    ∃ steps next, (injectionTraps 7).Run atEntry steps next ∧ next.state = .init ∧
      steps.length = next.stage ∧ ∀ handled after, ¬(injectionTraps 7).Step next handled after := by
  intro _ _
  have ran : ((afterTraps oneModule atEntry 5).map fun next => next.state) = some .init := by
    decide +kernel
  rw [Option.map_eq_some_iff] at ran
  rcases ran with ⟨next, ran, entered⟩
  rcases run_afterTraps oneModule 5 ran with ⟨steps, run, fits⟩
  have counted := stages_counted run (.inl rfl) fits
  exact ⟨steps, next, run, entered, counted.1, counted.2.2 (.inl entered)⟩

omit [Usize] [Config.Build] in
/-- What the loader receives for the libraries. -/
theorem Filled.received {libraries : List Targets.ModuleLibrary} {plan : Plan}
    (filled : Filled libraries plan.modules.length plan.modules) (accepted : ¬plan.Refused) :
    (∀ module ∈ plan.modules, 0 ≤ module.fd) ∧
      plan.received.modules.length = libraries.length ∧
      ∀ (i : Nat) (module : Loader.PlanModule), plan.received.modules[i]? = some module →
        ∃ library, libraries[i]? = some library ∧ 0 ≤ module.fd ∧ module.index.toNat = i ∧
          module.path = asBytes library.path ∧ module.companion = library.companion := by
  have opened : ∀ module ∈ plan.modules, 0 ≤ module.fd := by
    intro module present
    rcases List.getElem?_of_mem present with ⟨i, isModule⟩
    exact filled.opened i module isModule (List.getElem?_eq_some_iff.mp isModule).1
  refine ⟨opened, ?_, ?_⟩
  · rw [Plan.received, List.length_map]
    exact filled.length
  · intro i module isReceived
    rw [Plan.received, List.getElem?_map, Option.map_eq_some_iff] at isReceived
    rcases isReceived with ⟨sent, isSent, rfl⟩
    have inside : i < plan.modules.length := (List.getElem?_eq_some_iff.mp isSent).1
    rcases filled.named i sent isSent with ⟨library, isLibrary, index, path, companion⟩
    refine ⟨library, isLibrary, opened sent (List.mem_of_getElem? isSent), ?_, ?_, companion⟩
    · have few : plan.modules.length ≤ MAX_MODULES := by
        by_contra many
        exact accepted (.inl (Nat.lt_of_not_le many))
      rw [PlanModule.received, index, UInt32.toNat_ofNat']
      simp only [MAX_MODULES] at few
      omega
    · rw [PlanModule.received, path]

end Runs

end Znn.Injector
