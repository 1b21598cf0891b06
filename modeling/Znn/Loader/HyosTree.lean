import Znn.Loader.HyosDelivery

/-!
# The process tree

A process that is not reset has nothing to deliver, and one that is reset begins anew. What is kept
in one process is therefore kept in every process of the tree, as long as no delivery is cut in two
by a fork.
-/

namespace Znn.Loader.Hyos

open Interaction

section Outside

variable {α : Type}

/-- Outside of the children nothing is delivered and no name is kept. -/
def Outside (world : State × Log) : Prop :=
  world.1.inChild = false →
    world.1.fired = false ∧ world.1.nameState = .empty ∧ world.2.callbacks = []

/-- What a call knows that has found itself in a child. -/
def KnownChild (child : Bool) (world : State × Log) : Prop :=
  child = true → world.1.inChild = true

abbrev KeepsOutside (child : Bool) (program : Prog Sys α) : Prop :=
  program.Keeps machine (Joint (ι := Thread × Nat) Outside KnownChild fun _ _ => True)
    (fun _ _ => True) child

/-- The hooks change neither what is hooked nor what is registered. -/
theorem setup_of_step {before after : State × Log} {request : Call} {answer : request.Answer}
    (step : machine.Step before request answer after) :
    after.1.inChild = before.1.inChild ∧ after.1.modules = before.1.modules ∧
      (after.1.Hooked ↔ before.1.Hooked) := by
  rcases before with ⟨s, log⟩
  cases request with
  | origSetcontext uid isSystemServer seInfo pkgName =>
      rcases step with ⟨_, rfl⟩
      exact ⟨rfl, rfl, Iff.rfl⟩
  | origSetname self thread name =>
      rcases step with ⟨_, rfl⟩
      exact ⟨rfl, rfl, Iff.rfl⟩
  | inChild | moduleCount | moduleAt i | nameState | capturedName =>
      rcases step with ⟨_, rfl⟩
      exact ⟨rfl, rfl, Iff.rfl⟩
  | fire | fired self | claimName self name =>
      cases answer with
      | true =>
          rcases step with ⟨_, rfl⟩
          exact ⟨rfl, rfl, Iff.rfl⟩
      | false =>
          rcases step with ⟨_, rfl⟩
          exact ⟨rfl, rfl, Iff.rfl⟩
  | kernelName | writeName name | nameReady | callback i function args =>
      cases step
      exact ⟨rfl, rfl, Iff.rfl⟩

/-- In a child there is nothing to keep. -/
theorem keepsOutside_child (program : Prog Sys α) : KeepsOutside true program := by
  induction program with
  | pure value => trivial
  | call request next ih =>
      apply Prog.Keeps.call_joint fun _ _ apart => apart
      intro before answer after _ isChild step
      have same := (setup_of_step step).1
      have child : after.1.inChild = true := same.trans (isChild rfl)
      refine ⟨true, ?_, fun _ => child, fun other _ known => ⟨trivial, fun isOther => ?_⟩, ih answer⟩
      · intro outside
        cases outside.symm.trans child
      · exact same.trans (known isOther)

/-- Whether a call goes on is decided by whether it is in a child. -/
theorem keepsOutside_inChild {next : Bool → Prog Sys α} (outside : KeepsOutside false (next false)) :
    KeepsOutside false (.call .inChild next) := by
  apply Prog.Keeps.call_learn fun _ _ apart => apart
  · intro before answer after step
    exact step.2
  rintro world (_ | _) _ _ ⟨isChild, _⟩
  · exact ⟨false, Bool.noConfusion, fun _ _ => trivial, outside⟩
  · exact ⟨true, fun _ => isChild.symm, fun _ _ => trivial, keepsOutside_child _⟩

theorem keepsOutside_program (call : HookCall) (self : Thread) :
    KeepsOutside false (call.program self) := by
  cases call with
  | setcontext uid isSystemServer seInfo pkgName =>
      apply Prog.Keeps.call_joint fun _ _ apart => apart
      rintro ⟨s, log⟩ ret _ common known ⟨_, rfl⟩
      refine ⟨false, ?_, known, fun _ _ known => ⟨trivial, known⟩, ?_⟩
      · dsimp only
        split
        · exact common
        · exact common
      · rw [Prog.pure_bind']
        split
        · have delivery : KeepsOutside false (deliverAppSpecialized pkgName seInfo) := by
            apply keepsOutside_inChild
            trivial
          apply Prog.Keeps.bind delivery
          intro token _ _
          trivial
        · trivial
  | setname thread name =>
      apply Prog.Keeps.call_joint fun _ _ apart => apart
      rintro ⟨s, log⟩ ret _ common known ⟨_, rfl⟩
      refine ⟨false, ?_, known, fun _ _ known => ⟨trivial, known⟩, ?_⟩
      · dsimp only
        split
        · exact common
        · exact common
      · rw [Prog.pure_bind']
        split
        · trivial
        · exact keepsOutside_inChild trivial

end Outside

section Setup

variable {s : State}

/-- A registration adds a module, or changes nothing. -/
theorem registerModule_cases (entry : Option Module) (atfork : Bool) (found : Found) (s : State) :
    Same s (registerModule entry atfork found s).2 ∧
      ((registerModule entry atfork found s).2 = s ∨
        (registerModule entry atfork found s).2.modules ≠ []) := by
  unfold registerModule
  rcases entry with _ | m
  · exact ⟨⟨rfl, rfl, rfl, rfl⟩, .inl rfl⟩
  · dsimp only
    split
    · exact ⟨⟨rfl, rfl, rfl, rfl⟩, .inl rfl⟩
    · split
      · exact ⟨⟨rfl, rfl, rfl, rfl⟩, .inl rfl⟩
      · split
        · exact ⟨⟨rfl, rfl, rfl, rfl⟩, .inl rfl⟩
        · have untouched := untouched_installHooks found
          refine ⟨⟨(untouched _).inChild, (untouched _).fired, (untouched _).capturedName,
            (untouched _).nameState⟩, .inr ?_⟩
          dsimp only
          rw [(untouched _).modules]
          exact List.append_ne_nil_of_right_ne_nil _ (List.cons_ne_nil _ _)

/-- The parent of a fork may install hooks after it has gone through one. -/
theorem forkedParent_cases (hooked handled succeeded : Bool) (found : Found) (s : State) :
    Untouched s (forkedParent hooked handled succeeded found s) ∧
      ((forkedParent hooked handled succeeded found s).Hooked → s.Hooked ∨ hooked = true) := by
  have ready : Untouched s (prepared handled s) ∧ ((prepared handled s).Hooked → s.Hooked) := by
    rcases prepared_cases handled s with same | same
    · rw [same]
      exact ⟨.refl, id⟩
    · rw [same]
      exact ⟨⟨⟨rfl, rfl, rfl, rfl⟩, rfl⟩, id⟩
  unfold forkedParent
  dsimp only
  split
  case isTrue again =>
    have isHooked : hooked = true := by
      rw [Bool.and_eq_true, Bool.and_eq_true] at again
      exact again.1.1
    refine ⟨ready.1.trans ?_, fun _ => .inr isHooked⟩
    split
    · exact ⟨⟨rfl, rfl, rfl, rfl⟩, rfl⟩
    · rcases untouched_installHooks found { prepared handled s with reinstall := false } with
        ⟨⟨inChild, fired, capturedName, nameState⟩, modules⟩
      exact ⟨⟨inChild, fired, capturedName, nameState⟩, modules⟩
  case isFalse => exact ⟨ready.1, fun isHooked => .inl (ready.2 isHooked)⟩

end Setup

/-- What is kept in one process. -/
structure Sound (process : Process) : Prop where
  hooked : process.state.Hooked → process.state.modules ≠ []
  forked : process.state.inChild = true → process.forked = true
  outside : ∃ tokens : Thread × Nat → Bool,
    Joint Outside KnownChild (fun _ _ => True) tokens process.pool.shared ∧
      ∀ call, KeepsOutside (tokens call) (process.pool.threads call)
  delivery : process.inside = false → ∃ tokens : Thread × Nat → Token,
    Joint Common Token.Known Token.Apart tokens process.pool.shared ∧
      ∀ call, Keeps (tokens call) (process.pool.threads call)

section Steps

variable {process after : Process} {thread : Thread} {s' : State}

theorem Token.Known.same {token : Token} {s : State} {log : Log} (known : token.Known (s, log))
    (same : Same s s') : token.Known (s', log) := by
  cases token with
  | idle => trivial
  | set self thread name => exact known
  | allowed context => exact known
  | claimed name | wrote name | fired context | looked context look | calling args next =>
      simpa only [Token.Known, same.fired, same.capturedName, same.nameState] using known

theorem Common.same {s : State} {log : Log} (common : Common (s, log)) (same : Same s s') :
    Common (s', log) where
  empty := same.nameState ▸ common.empty
  ready := by
    change s'.nameState = _ → ∃ name, _ ∧ s'.capturedName = _
    rw [same.nameState, same.capturedName]
    exact common.ready
  unfired := same.fired ▸ common.unfired
  missed := same.fired ▸ common.missed
  own := common.own
  first := common.first
  lawful := common.lawful

/-- The state is written from outside of the hooks. -/
theorem Sound.withState (sound : Sound process) (same : Same process.state s')
    (hooked : s'.Hooked → s'.modules ≠ []) : Sound (process.withState s') where
  hooked := hooked
  forked := by
    intro isChild
    exact sound.forked (same.inChild.symm.trans isChild)
  outside := by
    rcases sound.outside with ⟨tokens, joint, keeps⟩
    refine ⟨tokens, joint.move ?_ ?_, keeps⟩
    · intro isOutside
      change s'.inChild = false at isOutside
      rw [same.inChild] at isOutside
      rcases joint.common isOutside with ⟨unfired, empty, none⟩
      exact ⟨same.fired.trans unfired, same.nameState.trans empty, none⟩
    · intro token known isChild
      exact same.inChild.trans (known isChild)
  delivery := by
    intro whole
    rcases sound.delivery whole with ⟨tokens, joint, keeps⟩
    exact ⟨tokens, joint.move (joint.common.same same) fun _ known => known.same same, keeps⟩

/-- A call is begun in the place of one that is done. -/
theorem Sound.begin (sound : Sound process) (thread : Thread) (depth : Nat) (call : HookCall) :
    Sound (process.begin thread depth call) where
  hooked := sound.hooked
  forked := sound.forked
  outside := by
    rcases sound.outside with ⟨tokens, joint, keeps⟩
    have unknown : KnownChild false process.pool.shared := fun isChild => Bool.noConfusion isChild
    refine ⟨_, joint.forget (thread, depth) false unknown fun _ => ⟨trivial, trivial⟩, ?_⟩
    intro other
    change KeepsOutside _ (Function.update process.pool.threads (thread, depth) _ other)
    by_cases same : other = (thread, depth)
    · subst same
      rw [Function.update_self, Function.update_self]
      exact keepsOutside_program call thread
    · rw [Function.update_of_ne same, Function.update_of_ne same]
      exact keeps other
  delivery := by
    intro whole
    rcases sound.delivery whole with ⟨tokens, joint, keeps⟩
    refine ⟨_, joint.forget (thread, depth) .idle trivial fun other =>
      ⟨apart_of_quiet rfl rfl other, (apart_of_quiet rfl rfl other).symm⟩, ?_⟩
    intro other
    change Keeps _ (Function.update process.pool.threads (thread, depth) _ other)
    by_cases same : other = (thread, depth)
    · subst same
      rw [Function.update_self, Function.update_self]
      exact keeps_program call thread
    · rw [Function.update_of_ne same, Function.update_of_ne same]
      exact keeps other

/-- A call makes its next step. -/
theorem Sound.go (sound : Sound process) {event : (Thread × Nat) × Exchange Sys}
    {pool : Pool Sys (Thread × Nat) Int (State × Log)}
    (next : Pool.Step machine process.pool event pool) : Sound { process with pool := pool } := by
  have setup : pool.shared.1.inChild = process.state.inChild ∧
      pool.shared.1.modules = process.state.modules ∧
        (pool.shared.1.Hooked ↔ process.state.Hooked) := by
    rcases next with ⟨_, step⟩
    exact setup_of_step step
  refine ⟨?_, ?_, ?_, ?_⟩
  · intro isHooked
    change pool.shared.1.modules ≠ []
    rw [setup.2.1]
    exact sound.hooked (setup.2.2.mp isHooked)
  · intro isChild
    exact sound.forked (setup.1.symm.trans isChild)
  · rcases sound.outside with ⟨tokens, joint, keeps⟩
    rcases Pool.keeps_step next joint keeps with ⟨token, joint', keeps'⟩
    exact ⟨_, joint', keeps'⟩
  · intro whole
    rcases sound.delivery whole with ⟨tokens, joint, keeps⟩
    rcases Pool.keeps_step next joint keeps with ⟨token, joint', keeps'⟩
    exact ⟨_, joint', keeps'⟩

/-- Nothing has happened in a process that has just been created. -/
theorem Common.start {s : State} (empty : s.nameState = .empty) : Common (s, {}) where
  empty := ⟨fun _ => rfl, fun _ => empty⟩
  ready := by
    intro ready
    cases empty.symm.trans ready
  unfired := fun _ => rfl
  missed := fun _ => .inl rfl
  own := nofun
  first := nofun
  lawful := ⟨List.Pairwise.nil, nofun⟩

/-- A child begins with the thread that has forked. -/
theorem Sound.child (sound : Sound process) {depth : Nat} {hooked handled : Bool}
    (user : process.InUser thread depth) (installed : hooked = true → process.state.origFork ≠ 0)
    (reset : process.state.inChild = true → 0 < resets hooked handled process.state) :
    Sound (process.child thread depth hooked handled) := by
  rcases forkedChild_cases hooked handled process.state with ⟨modules, isHooked, begins⟩
  have unfired : (forkedChild hooked handled process.state).inChild = false ∨
      0 < resets hooked handled process.state →
      (forkedChild hooked handled process.state).fired = false ∧
        (forkedChild hooked handled process.state).nameState = .empty := by
    intro outside
    rcases begins with ⟨none, untouched⟩ | ⟨_, _, unfired, empty⟩
    · rw [none] at outside
      have parent := outside.resolve_right (Nat.lt_irrefl 0)
      rw [untouched.inChild] at parent
      rcases sound.outside with ⟨tokens, joint, _⟩
      rcases joint.common parent with ⟨unfired, empty, _⟩
      exact ⟨untouched.fired.trans unfired, untouched.nameState.trans empty⟩
    · exact ⟨unfired, empty⟩
  have isChild : process.state.inChild = true →
      (forkedChild hooked handled process.state).inChild = true := by
    intro parent
    rcases begins with ⟨none, _⟩ | ⟨_, child, _⟩
    · exact absurd (none ▸ reset parent) (Nat.lt_irrefl 0)
    · exact child
  have some : (forkedChild hooked handled process.state).inChild = true →
      0 < resets hooked handled process.state := by
    intro child
    rcases begins with ⟨_, untouched⟩ | ⟨some, _⟩
    · exact reset (untouched.inChild.symm.trans child)
    · exact some
  refine ⟨?_, ?_, ?_, ?_⟩
  · intro childHooked
    change (forkedChild hooked handled process.state).modules ≠ []
    rw [modules]
    exact sound.hooked (isHooked.mp childHooked)
  · intro child
    apply decide_eq_true
    exact sound.hooked (hooked_of_resets installed (some child))
  · rcases sound.outside with ⟨tokens, joint, keeps⟩
    refine ⟨fun call => if call.1 = thread then tokens call else false, ⟨?_, ?_, ?_⟩, ?_⟩
    · intro outside
      rcases unfired (.inl outside) with ⟨isUnfired, empty⟩
      exact ⟨isUnfired, empty, rfl⟩
    · intro call
      split
      · exact fun known => isChild (joint.known call known)
      · exact fun known => Bool.noConfusion known
    · exact fun _ _ _ => trivial
    · intro call
      change KeepsOutside (if call.1 = thread then tokens call else false)
        (if call.1 = thread then process.pool.threads call else .pure 0)
      split
      · exact keeps call
      · trivial
  · intro whole
    have bottom : depth = 0 := not_not.mp (of_decide_eq_false whole)
    refine ⟨fun _ => .idle, ⟨?_, fun _ => trivial, fun _ _ _ => ⟨rfl, rfl⟩⟩, ?_⟩
    · cases child : (forkedChild hooked handled process.state).inChild with
      | false =>
          exact Common.start (unfired (.inl child)).2
      | true =>
          exact Common.start (unfired (.inr (some child))).2
    · intro call
      change Keeps _ (if call.1 = thread then process.pool.threads call else .pure 0)
      split
      case isTrue same =>
        rcases user.2 call.2 (bottom ▸ Nat.zero_le _) with ⟨value, isDone⟩
        rw [← same] at isDone
        rw [isDone]
        trivial
      case isFalse => trivial

theorem Sound.step {event : Event} {children : List Process} (sound : Sound process)
    (step : process.Step thread event after children) :
    Sound after ∧ ∀ child ∈ children, Sound child := by
  have none : ∀ child ∈ ([] : List Process), Sound child := List.forall_mem_nil _
  cases event with
  | register depth entry atfork found =>
      rcases step with ⟨_, rfl, rfl⟩
      rcases registerModule_cases entry atfork found process.state with ⟨same, unchanged | some⟩
      · refine ⟨sound.withState same ?_, none⟩
        rw [unchanged]
        exact sound.hooked
      · exact ⟨sound.withState same fun _ => some, none⟩
  | begin depth call =>
      rcases step with ⟨_, rfl, rfl⟩
      exact ⟨sound.begin thread depth call, none⟩
  | go depth exchange =>
      rcases step with ⟨_, rfl, pool, next, rfl⟩
      exact ⟨sound.go next, none⟩
  | fork depth hooked handled succeeded found =>
      rcases step with ⟨user, installed, reset, rfl, rfl⟩
      rcases forkedParent_cases hooked handled succeeded found process.state with
        ⟨untouched, stillHooked⟩
      constructor
      · refine sound.withState untouched.toSame fun isHooked => ?_
        rw [untouched.modules]
        rcases stillHooked isHooked with before | through
        · exact sound.hooked before
        · exact sound.hooked (.inr (installed through))
      · intro child member
        split at member
        · rw [List.mem_singleton.mp member]
          exact sound.child user installed reset
        · cases member

end Steps

/-- What is kept in one process is kept in every process of the tree. -/
theorem sound_of_reachable {world : List Process} (reached : tree.Reachable world) :
    ∀ process ∈ world, Sound process := by
  induction reached with
  | initial isInitial =>
      rcases isInitial with rfl
      intro process member
      rw [List.mem_singleton.mp member]
      refine ⟨?_, Bool.noConfusion, ⟨fun _ => false, ?_, fun _ => trivial⟩,
        fun _ => ⟨fun _ => .idle, ?_, fun _ => trivial⟩⟩
      · rintro (none | none)
        · exact absurd none (Nat.lt_irrefl 0)
        · exact absurd rfl none
      · exact ⟨fun _ => ⟨rfl, rfl, rfl⟩, fun _ => Bool.noConfusion, fun _ _ _ => trivial⟩
      · exact ⟨Common.start rfl, fun _ => trivial, fun _ _ _ => ⟨rfl, rfl⟩⟩
  | step _ next ih =>
      rcases next with ⟨before, after, children, present, step, rfl⟩
      have sound := (ih before (List.mem_of_getElem? present)).step step
      intro process member
      rcases List.mem_append.mp member with kept | child
      · rcases List.mem_or_eq_of_mem_set kept with other | rfl
        · exact ih process other
        · exact sound.1
      · exact sound.2 process child

section Runs

/-- The original functions succeed, and the kernel gives the name. -/
def respond (kernel : CString) (request : Call) (world : State × Log) :
    request.Answer × (State × Log) :=
  let (s, log) := world
  match request with
  | .origSetcontext _ _ seInfo pkgName =>
      if s.origSetcontext = 0 then ((-1 : Int), s, log)
      else ((0 : Int), s, log.addContext ⟨pkgName, seInfo⟩)
  | .origSetname self thread name =>
      if s.origSetname = 0 then ((-1 : Int), s, log) else ((0 : Int), s, log.addSet self thread name)
  | .inChild => (s.inChild, s, log)
  | .moduleCount => (s.modules.length, s, log)
  | .moduleAt i => (s.modules[i]?, s, log)
  | .fire =>
      if s.fired then (false, s, log)
      else (true, { s with fired := true },
        { log with fire := some ⟨log.own, log.pending ≠ [] || s.nameState = .writing⟩ })
  | .fired self =>
      if s.fired then (true, s, { log with pending := log.pending.erase self })
      else (false, s, log)
  | .nameState =>
      (s.nameState, s,
        { log with
          look := some ⟨log.own, if s.nameState = .ready then log.names.head? else none,
            log.contested⟩ })
  | .capturedName => (s.capturedName, s, log)
  | .kernelName => (some kernel, s, { log with kernel := some kernel })
  | .claimName self name =>
      if s.nameState = .empty then
        (true, { s with nameState := .writing },
          { log.addName self name with contested := log.own.length ≠ 1 })
      else (false, s, log.addName self name)
  | .writeName name => ((), { s with capturedName := name }, log)
  | .nameReady => ((), { s with nameState := .ready }, log)
  | .callback i _ args => ((), s, { log with callbacks := log.callbacks ++ [(i, args)] })

theorem sound_respond (kernel : CString) (request : Call) (world : State × Log) :
    machine.Step world request (respond kernel request world).1
      (respond kernel request world).2 := by
  rcases world with ⟨s, log⟩
  cases request with
  | origSetcontext uid isSystemServer seInfo pkgName =>
      unfold respond
      dsimp only
      split
      case isTrue missing => exact ⟨fun _ => rfl, rfl⟩
      case isFalse present => exact ⟨fun missing => absurd missing present, rfl⟩
  | origSetname self thread name =>
      unfold respond
      dsimp only
      split
      case isTrue missing => exact ⟨fun _ => rfl, rfl⟩
      case isFalse present => exact ⟨fun missing => absurd missing present, rfl⟩
  | fire | fired self =>
      unfold respond
      dsimp only
      split
      case isTrue isFired => exact ⟨isFired, rfl⟩
      case isFalse unfired => exact ⟨Bool.not_eq_true _ ▸ unfired, rfl⟩
  | claimName self name =>
      unfold respond
      dsimp only
      split
      case isTrue empty => exact ⟨empty, rfl⟩
      case isFalse claimed => exact ⟨claimed, rfl⟩
  | inChild | moduleCount | moduleAt i | nameState | capturedName => exact ⟨rfl, rfl⟩
  | kernelName | writeName name | nameReady | callback i function args => rfl

/-- A call makes some steps. -/
def Process.advance (kernel : CString) (thread : Thread) (depth : Nat) : Nat → Process → Process
  | 0, process => process
  | steps + 1, process =>
      match process.pool.threads (thread, depth) with
      | .pure _ => process
      | .call request next =>
          let answered := respond kernel request process.pool.shared
          Process.advance kernel thread depth steps
            { process with
              pool :=
                ⟨Function.update process.pool.threads (thread, depth) (next answered.1),
                  answered.2⟩ }

theorem reachable_advance {world : List Process} (reached : tree.Reachable world) {pid : Nat}
    {process : Process} (present : world[pid]? = some process) {thread : Thread} {depth : Nat}
    (inner : process.IsInnermost thread depth) (kernel : CString) (steps : Nat) :
    tree.Reachable (world.set pid (process.advance kernel thread depth steps)) := by
  have same : world.set pid process = world := by
    rcases List.getElem?_eq_some_iff.mp present with ⟨bound, rfl⟩
    exact List.set_getElem_self bound
  induction steps generalizing world process with
  | zero => exact same.symm ▸ reached
  | succ steps ih =>
      unfold Process.advance
      split
      · exact same.symm ▸ reached
      · rename_i request next isNext
        dsimp only
        have moved := Pool.Step.call isNext
          (sound_respond kernel request process.pool.shared)
        have step : tree.Step world (pid, thread, .go depth _) _ :=
          ⟨process, _, [], present, ⟨inner, rfl, _, moved, rfl⟩, rfl⟩
        rw [List.append_nil] at step
        rcases List.getElem?_eq_some_iff.mp present with ⟨bound, _⟩
        have later := ih (reached.step step) (List.getElem?_set_self bound) ?_ ?_
        · rwa [List.set_set] at later
        · intro above isAbove
          have other : (thread, above) ≠ (thread, depth) := by
            intro equal
            exact absurd (congrArg Prod.snd equal) (Nat.ne_of_gt isAbove)
          change Process.IsDone (Function.update process.pool.threads (thread, depth) _ (thread, above))
          rw [Function.update_of_ne other]
          exact inner above isAbove
        · rw [List.set_set]

theorem threads_advance {call : Thread × Nat} {thread : Thread} {depth : Nat}
    (other : call ≠ (thread, depth)) (kernel : CString) (steps : Nat) (process : Process) :
    (process.advance kernel thread depth steps).pool.threads call =
      process.pool.threads call := by
  induction steps generalizing process with
  | zero => rfl
  | succ steps ih =>
      unfold Process.advance
      split
      · rfl
      · rw [ih]
        exact Function.update_of_ne other _ _

/-- A thread begins a call and makes some of its steps. -/
def Process.calls (kernel : CString) (thread : Thread) (depth : Nat) (call : HookCall)
    (steps : Nat) (process : Process) : Process :=
  (process.begin thread depth call).advance kernel thread depth steps

theorem threads_calls {call : Thread × Nat} {thread : Thread} {depth : Nat}
    (other : call ≠ (thread, depth)) (kernel : CString) (made : HookCall) (steps : Nat)
    (process : Process) :
    (process.calls kernel thread depth made steps).pool.threads call =
      process.pool.threads call :=
  (threads_advance other kernel steps _).trans (Function.update_of_ne other _ _)

theorem reachable_calls {world : List Process} (reached : tree.Reachable world) {pid : Nat}
    {process : Process} (present : world[pid]? = some process) {thread : Thread} {depth : Nat}
    (user : process.InUser thread depth) (kernel : CString) (call : HookCall) (steps : Nat) :
    tree.Reachable (world.set pid (process.calls kernel thread depth call steps)) := by
  have begun : tree.Step world (pid, thread, .begin depth call)
      (world.set pid (process.begin thread depth call)) :=
    ⟨process, _, [], present, ⟨user, rfl, rfl⟩, (List.append_nil _).symm⟩
  have inner : (process.begin thread depth call).IsInnermost thread depth := by
    intro above isAbove
    have other : (thread, above) ≠ (thread, depth) := by
      intro equal
      exact absurd (congrArg Prod.snd equal) (Nat.ne_of_gt isAbove)
    change Process.IsDone (Function.update process.pool.threads (thread, depth) _ (thread, above))
    rw [Function.update_of_ne other]
    exact user.2 above (Nat.le_of_lt isAbove)
  rcases List.getElem?_eq_some_iff.mp present with ⟨bound, _⟩
  have later := reachable_advance (reached.step begun) (List.getElem?_set_self bound) inner kernel
    steps
  rwa [List.set_set] at later

theorem bounded_nil : ([] : List Module).length ≤ kMaxModules := by decide

/-- The spawner, with a module: the hooks are inline, and the forks are handled. -/
def spawner : Process :=
  ⟨⟨fun _ => .pure 0,
    ((registerModule (some ⟨1, 7⟩) true { inlineCtx := some 8, inlineName := some 9 }
      { bounded := bounded_nil }).2, {})⟩,
    false, false⟩

/-- A child of the spawner. -/
def app : Process :=
  spawner.child 0 0 false true

theorem done_app (call : Thread × Nat) : Process.IsDone (app.pool.threads call) := by
  change Process.IsDone (if call.1 = 0 then .pure 0 else .pure 0)
  split
  · exact ⟨0, rfl⟩
  · exact ⟨0, rfl⟩

/-- A thread of a process that has made no call. -/
theorem user_of_done {process : Process} {thread : Thread}
    (done : ∀ depth, Process.IsDone (process.pool.threads (thread, depth))) :
    process.InUser thread 0 :=
  ⟨fun below isBelow => absurd isBelow (Nat.not_lt_zero below), fun above _ => done above⟩

theorem reachable_app : tree.Reachable [spawner, app] := by
  have start : tree.Reachable [⟨⟨fun _ => .pure 0, ({}, {})⟩, false, false⟩] :=
    .initial rfl
  have registered : tree.Step [⟨⟨fun _ => .pure 0, ({}, {})⟩, false, false⟩] (0, 0, .register 0
      (some ⟨1, 7⟩) true { inlineCtx := some 8, inlineName := some 9 }) [spawner] :=
    ⟨_, spawner, [], rfl, ⟨user_of_done fun _ => ⟨0, rfl⟩, rfl, rfl⟩, rfl⟩
  have forked : tree.Step [spawner] (0, 0, .fork 0 false true true {}) [spawner, app] :=
    ⟨spawner, spawner, [app], rfl,
      ⟨user_of_done fun _ => ⟨0, rfl⟩, nofun, nofun, rfl, rfl⟩, rfl⟩
  exact (start.step registered).step forked

/-- The call that makes the process an application. -/
def specialize : HookCall :=
  .setcontext 10000 0 (some [100]) (some [97])

theorem reachable_specialized (kernel : CString) (steps : Nat) :
    tree.Reachable [spawner, app.calls kernel 0 0 specialize steps] := by
  have present : [spawner, app][1]? = some app := rfl
  exact reachable_calls reachable_app present (user_of_done fun _ => done_app _) kernel specialize
    steps

/-- The application while another thread is about to keep its name. -/
def naming : Process :=
  (app.calls [] 0 0 (.setname 0 (some [65])) 4).calls [66] 1 0 specialize 20

theorem reachable_naming : tree.Reachable [spawner, naming] := by
  have present : [spawner, app][1]? = some app := rfl
  have user : app.InUser 0 0 := user_of_done fun _ => done_app _
  have claimed : tree.Reachable [spawner, app.calls [] 0 0 (.setname 0 (some [65])) 4] :=
    reachable_calls reachable_app present user [] (.setname 0 (some [65])) 4
  have named : [spawner, app.calls [] 0 0 (.setname 0 (some [65])) 4][1]? =
      some (app.calls [] 0 0 (.setname 0 (some [65])) 4) := rfl
  refine reachable_calls claimed named (user_of_done fun depth => ?_) [66] specialize 20
  have other : ((1 : Thread), depth) ≠ (0, 0) := by
    intro equal
    cases congrArg Prod.fst equal
  rw [threads_calls other]
  exact done_app _

/-- A child that is forked by the callback. -/
def torn : Process :=
  (app.calls [66] 0 0 specialize 8).child 0 1 false true

/-- It ends the delivery and is made an application of its own. -/
def again : Process :=
  (torn.advance [66] 0 0 20).calls [66] 0 0 specialize 20

theorem done_torn {depth : Nat} (other : ((0 : Thread), depth) ≠ (0, 0)) :
    Process.IsDone (torn.pool.threads (0, depth)) := by
  change Process.IsDone ((app.calls [66] 0 0 specialize 8).pool.threads (0, depth))
  rw [threads_calls other]
  exact done_app _

theorem reachable_again : tree.Reachable [spawner, app.calls [66] 0 0 specialize 8, again] := by
  have user : (app.calls [66] 0 0 specialize 8).InUser 0 1 := by
    constructor
    · intro below isBelow
      rw [Nat.lt_one_iff.mp isBelow]
      exact ⟨0, 7, _, _, rfl⟩
    · intro above isAbove
      have other : ((0 : Thread), above) ≠ (0, 0) := by
        intro equal
        exact absurd (congrArg Prod.snd equal) (Nat.ne_of_gt isAbove)
      rw [threads_calls other]
      exact done_app _
  have forked : tree.Step [spawner, app.calls [66] 0 0 specialize 8]
      (1, 0, .fork 1 false true true {}) [spawner, app.calls [66] 0 0 specialize 8, torn] :=
    ⟨_, _, [torn], rfl, ⟨user, nofun, fun _ => by decide, rfl, rfl⟩, rfl⟩
  have inner : torn.IsInnermost 0 0 := by
    intro above isAbove
    apply done_torn
    intro equal
    exact absurd (congrArg Prod.snd equal) (Nat.ne_of_gt isAbove)
  have isTorn : [spawner, app.calls [66] 0 0 specialize 8, torn][2]? = some torn := rfl
  have ended : tree.Reachable
      [spawner, app.calls [66] 0 0 specialize 8, torn.advance [66] 0 0 20] :=
    reachable_advance ((reachable_specialized [66] 8).step forked) isTorn inner [66] 20
  have isEnded : [spawner, app.calls [66] 0 0 specialize 8, torn.advance [66] 0 0 20][2]? =
      some (torn.advance [66] 0 0 20) := rfl
  refine reachable_calls ended isEnded (user_of_done fun depth => ?_) [66] specialize 20
  by_cases bottom : depth = 0
  · rw [bottom]
    exact ⟨0, rfl⟩
  · have other : ((0 : Thread), depth) ≠ (0, 0) := by
      intro equal
      exact bottom (congrArg Prod.snd equal)
    rw [threads_advance other]
    exact done_torn other

end Runs

/-- The callbacks run in the order of registration, each at most once. -/
def AlwaysOnce : Prop :=
  ∀ world, tree.Reachable world → ∀ process ∈ world,
    (process.log.callbacks.map Prod.fst).Pairwise (· < ·)

/-- The first name that was set is passed. -/
def AlwaysFirst : Prop :=
  ∀ world, tree.Reachable world → ∀ process ∈ world, ∀ call ∈ process.log.callbacks,
    ∀ look, process.log.look = some look → ∀ name, look.own.head? = some name →
      call.2.processName = name.take 255

/-- If there is none, the name of the thread is passed. -/
def AlwaysThreadName : Prop :=
  ∀ world, tree.Reachable world → ∀ process ∈ world, ∀ call ∈ process.log.callbacks,
    ∀ look, process.log.look = some look → look.own = [] →
      ∀ name, process.log.kernel = some name → call.2.processName = name

/-- A process that a callback forks may run the callbacks again, a name may not be kept in time, and
a thread may have the empty name. -/
theorem specialized_otherwise : ¬AlwaysOnce ∧ ¬AlwaysFirst ∧ ¬AlwaysThreadName := by
  refine ⟨?_, ?_, ?_⟩
  · intro always
    have order := always _ reachable_again again (by simp)
    have twice : again.log.callbacks.map Prod.fst = [0, 0] := rfl
    rw [twice] at order
    exact absurd order (by decide)
  · intro always
    have callbacks : naming.log.callbacks = [(0, ⟨[66], [97], [100]⟩)] := rfl
    have called : (0, (⟨[66], [97], [100]⟩ : Args)) ∈ naming.log.callbacks :=
      callbacks ▸ List.mem_cons_self
    have passed := always _ reachable_naming naming (by simp) _ called ⟨[[65]], none, false⟩ rfl
      [65] rfl
    exact absurd passed (by decide)
  · intro always
    have callbacks : (app.calls [] 0 0 specialize 20).log.callbacks =
        [(0, ⟨hyosApp, [97], [100]⟩)] := rfl
    have called : (0, (⟨hyosApp, [97], [100]⟩ : Args)) ∈
        (app.calls [] 0 0 specialize 20).log.callbacks :=
      callbacks ▸ List.mem_cons_self
    have passed := always _ (reachable_specialized [] 20) _ (by simp) _ called ⟨[], none, false⟩
      rfl rfl [] rfl
    exact absurd passed (by decide)

/-- Only the children of a process with a module are told. A process that is not forked by a
callback tells each module at most once, in the order of registration, after a setcontext call that
returned 0, and with the name that is kept or the fallback. -/
theorem specialized_of_reachable {world : List Process} (reached : tree.Reachable world)
    {process : Process} (member : process ∈ world) :
    (process.log.callbacks ≠ [] → process.forked = true) ∧
      (process.inside = false → Lawful process.log) := by
  have sound := sound_of_reachable reached process member
  constructor
  · intro told
    apply sound.forked
    rcases sound.outside with ⟨tokens, joint, _⟩
    by_contra outside
    exact told (joint.common (Bool.not_eq_true _ ▸ outside)).2.2
  · intro whole
    rcases sound.delivery whole with ⟨tokens, joint, _⟩
    exact joint.common.lawful

/-- A child of the spawner becomes an application. -/
theorem specialized_app :
    ((app.calls [66] 0 0 specialize 20).log.callbacks ≠ [] →
      (app.calls [66] 0 0 specialize 20).forked = true) ∧
      ((app.calls [66] 0 0 specialize 20).inside = false →
        Lawful (app.calls [66] 0 0 specialize 20).log) := by
  apply specialized_of_reachable (reachable_specialized [66] 20)
  simp

end Znn.Loader.Hyos
