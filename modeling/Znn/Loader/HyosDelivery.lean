import Znn.Loader.Hyos

/-!
# One process of the tree

The calls of a process hold tokens. A call that has won `fired` delivers, one that has won the empty
name writes it, and there is at most one of each. What a call knows when it runs the callbacks is
where each of their arguments comes from.
-/

namespace Znn.Loader.Hyos

open Interaction

/-- Where the process name comes from. -/
def Look.processName (look : Look) (kernel : Option CString) : CString :=
  match look.kept with
  | some name => strlcpy name 256
  | none => fallbackName kernel

/-- The name that is kept is the first that was set, unless a second had been set before it was
claimed. If there is none, none had been set when the delivery fired, or a call that had set one was
still under way. -/
structure Look.Faithful (look : Look) (fire : Fire) : Prop where
  kept : ∀ name, look.kept = some name →
    name ∈ look.own ∧ (look.contested = false → look.own.head? = some name)
  none : look.kept = none → fire.own = [] ∨ fire.underway = true

/-- The arguments of a callback come from a setcontext call that returned 0 and from what the
delivery has seen of the names. -/
structure Passed (log : Log) (args : Args) : Prop where
  context : ∃ context ∈ log.contexts,
    args.packageName = strlcpy (context.pkgName.getD []) 256 ∧
      args.seInfo = strlcpy (context.seInfo.getD []) 64
  name : ∃ fire look, log.fire = some fire ∧ log.look = some look ∧ look.Faithful fire ∧
    args.processName = look.processName log.kernel

/-- The callbacks run in the order of registration, each at most once. -/
structure Lawful (log : Log) : Prop where
  order : (log.callbacks.map Prod.fst).Pairwise (· < ·)
  passed : ∀ call ∈ log.callbacks, Passed log call.2

/-- What a call is up to. -/
inductive Token where
  | idle
  | set (self thread : Thread) (name : Option CString)
  | claimed (name : CString)
  | wrote (name : CString)
  | allowed (context : Context)
  | fired (context : Context)
  | looked (context : Context) (look : Look)
  | calling (args : Args) (next : Nat)

namespace Token

def writes : Token → Bool
  | .claimed _ | .wrote _ => true
  | _ => false

def delivers : Token → Bool
  | .fired _ | .looked _ _ | .calling _ _ => true
  | _ => false

/-- One call writes, and one delivers. -/
def Apart (one other : Token) : Prop :=
  (one.writes && other.writes) = false ∧ (one.delivers && other.delivers) = false

theorem Apart.symm {one other : Token} (apart : Apart one other) : Apart other one :=
  ⟨(Bool.and_comm _ _).trans apart.1, (Bool.and_comm _ _).trans apart.2⟩

/-- What a call knows. -/
def Known (token : Token) (world : State × Log) : Prop :=
  match token with
  | .idle => True
  | .set self thread name => (self, thread, name) ∈ world.2.sets
  | .claimed name => world.1.nameState = .writing ∧ world.2.names.head? = some name
  | .wrote name =>
      world.1.nameState = .writing ∧ world.2.names.head? = some name ∧
        world.1.capturedName = strlcpy name 256
  | .allowed context => context ∈ world.2.contexts
  | .fired context =>
      world.1.fired = true ∧ context ∈ world.2.contexts ∧ world.2.callbacks = [] ∧
        ∃ fire, world.2.fire = some fire ∧
          (world.1.nameState = .ready ∨ fire.own = [] ∨ fire.underway = true)
  | .looked context look =>
      world.1.fired = true ∧ context ∈ world.2.contexts ∧ world.2.callbacks = [] ∧
        (∃ fire, world.2.fire = some fire ∧ world.2.look = some look ∧ look.Faithful fire) ∧
        ∀ name, look.kept = some name →
          world.1.nameState = .ready ∧ world.2.names.head? = some name
  | .calling args next =>
      world.1.fired = true ∧ Passed world.2 args ∧ ∀ call ∈ world.2.callbacks, call.1 < next

end Token

/-- What holds whatever the calls are up to. -/
structure Common (world : State × Log) : Prop where
  empty : world.1.nameState = .empty ↔ world.2.names = []
  ready : world.1.nameState = .ready → ∃ name, world.2.names.head? = some name ∧
    world.1.capturedName = strlcpy name 256
  unfired : world.1.fired = false → world.2.callbacks = []
  missed : world.1.fired = false →
    world.2.own = [] ∨ world.2.names ≠ [] ∨ world.2.pending ≠ []
  own : ∀ name ∈ world.2.names, name ∈ world.2.own
  first : ∀ name, world.2.names.head? = some name → world.2.contested = false →
    world.2.own.head? = some name
  lawful : Lawful world.2

section Survive

variable {s s' : State} {log log' : Log} {token : Token}

theorem Passed.grow {args : Args} (passed : Passed log args)
    (contexts : log.contexts ⊆ log'.contexts) (fire : log'.fire = log.fire)
    (look : log'.look = log.look) (kernel : log'.kernel = log.kernel) : Passed log' args where
  context := by
    rcases passed.context with ⟨context, member, from_⟩
    exact ⟨context, contexts member, from_⟩
  name := by
    rw [fire, look, kernel]
    exact passed.name

/-- More contexts and more names that are set take no knowledge away. -/
theorem Token.Known.grow (known : token.Known (s, log)) (contexts : log.contexts ⊆ log'.contexts)
    (sets : log.sets ⊆ log'.sets) (names : log'.names = log.names) (fire : log'.fire = log.fire)
    (look : log'.look = log.look) (kernel : log'.kernel = log.kernel)
    (callbacks : log'.callbacks = log.callbacks) : token.Known (s, log') := by
  cases token with
  | idle => trivial
  | set self thread name => exact sets known
  | claimed name =>
      change s.nameState = _ ∧ log'.names.head? = _
      rw [names]
      exact known
  | wrote name =>
      change s.nameState = _ ∧ log'.names.head? = _ ∧ _
      rw [names]
      exact known
  | allowed context => exact contexts known
  | fired context =>
      rcases known with ⟨fired, member, none, later⟩
      refine ⟨fired, contexts member, callbacks.trans none, ?_⟩
      change ∃ other, log'.fire = _ ∧ _
      rw [fire]
      exact later
  | looked context seen =>
      rcases known with ⟨fired, member, none, later, kept⟩
      refine ⟨fired, contexts member, callbacks.trans none, ?_, ?_⟩
      · change ∃ other, log'.fire = _ ∧ log'.look = _ ∧ _
        rw [fire, look]
        exact later
      · change ∀ name, _ → _ ∧ log'.names.head? = _
        rw [names]
        exact kept
  | calling args next =>
      rcases known with ⟨fired, passed, below⟩
      refine ⟨fired, passed.grow contexts fire look kernel, ?_⟩
      change ∀ call ∈ log'.callbacks, _
      rw [callbacks]
      exact below

/-- Who does not deliver knows nothing of the delivery. -/
theorem Token.Known.beside (known : token.Known (s, log)) (other : token.delivers = false)
    (nameState : s'.nameState = s.nameState) (captured : s'.capturedName = s.capturedName)
    (contexts : log'.contexts = log.contexts) (sets : log'.sets = log.sets)
    (names : log'.names = log.names) : token.Known (s', log') := by
  cases token with
  | idle => trivial
  | set self thread name =>
      change _ ∈ log'.sets
      rw [sets]
      exact known
  | claimed name =>
      change s'.nameState = _ ∧ log'.names.head? = _
      rw [nameState, names]
      exact known
  | wrote name =>
      change s'.nameState = _ ∧ log'.names.head? = _ ∧ s'.capturedName = _
      rw [nameState, names, captured]
      exact known
  | allowed context =>
      change _ ∈ log'.contexts
      rw [contexts]
      exact known
  | fired context => cases other
  | looked context look => cases other
  | calling args next => cases other

/-- Who does not write knows nothing of the writing, as long as no name is ready. -/
theorem Token.Known.aside (known : token.Known (s, log)) (other : token.writes = false)
    (unready : s.nameState ≠ .ready) (fired : s'.fired = s.fired) : token.Known (s', log) := by
  cases token with
  | idle => trivial
  | set self thread name => exact known
  | claimed name => cases other
  | wrote name => cases other
  | allowed context => exact known
  | fired context =>
      rcases known with ⟨isFired, member, none, fire, isFire, later⟩
      refine ⟨fired.trans isFired, member, none, fire, isFire, .inr ?_⟩
      exact later.resolve_left unready
  | looked context look =>
      rcases known with ⟨isFired, member, none, later, kept⟩
      refine ⟨fired.trans isFired, member, none, later, fun name isKept => ?_⟩
      exact absurd (kept name isKept).1 unready
  | calling args next => exact ⟨fired.trans known.1, known.2⟩

/-- The empty name is claimed. -/
theorem Token.Known.claim (known : token.Known (s, log)) (empty : s.nameState = .empty)
    (self : Thread) (name : CString) (contested : Bool) :
    token.Known ({ s with nameState := .writing },
      { log.addName self name with contested := contested }) := by
  have unready : s.nameState ≠ .ready := by
    rw [empty]
    exact NameState.noConfusion
  cases token with
  | idle => trivial
  | set self thread name => exact known
  | claimed name => cases empty.symm.trans known.1
  | wrote name => cases empty.symm.trans known.1
  | allowed context => exact known
  | fired context =>
      rcases known with ⟨isFired, member, none, fire, isFire, later⟩
      exact ⟨isFired, member, none, fire, isFire, .inr (later.resolve_left unready)⟩
  | looked context look =>
      rcases known with ⟨isFired, member, none, later, kept⟩
      exact ⟨isFired, member, none, later, fun name isKept => absurd (kept name isKept).1 unready⟩
  | calling args next =>
      rcases known with ⟨isFired, passed, below⟩
      exact ⟨isFired, passed.grow (List.Subset.refl _) rfl rfl rfl, below⟩

theorem head?_addName {name first : CString} (self : Thread) (isFirst : log.names.head? = some first) :
    (log.addName self name).names.head? = some first := by
  change (log.names ++ [name]).head? = some first
  rw [List.head?_append, isFirst]
  rfl

/-- A name comes after one that was claimed. -/
theorem Token.Known.late (known : token.Known (s, log)) (self : Thread) (name : CString) :
    token.Known (s, log.addName self name) := by
  cases token with
  | idle => trivial
  | set self thread name => exact known
  | claimed name => exact ⟨known.1, head?_addName self known.2⟩
  | wrote name => exact ⟨known.1, head?_addName self known.2.1, known.2.2⟩
  | allowed context => exact known
  | fired context => exact known
  | looked context look =>
      rcases known with ⟨isFired, member, none, later, kept⟩
      refine ⟨isFired, member, none, later, fun first isKept => ?_⟩
      rcases kept first isKept with ⟨ready, isFirst⟩
      exact ⟨ready, head?_addName self isFirst⟩
  | calling args next =>
      rcases known with ⟨isFired, passed, below⟩
      exact ⟨isFired, passed.grow (List.Subset.refl _) rfl rfl rfl, below⟩

theorem Token.Known.isWriting (known : token.Known (s, log)) (writes : token.writes = true) :
    s.nameState = .writing := by
  cases token with
  | claimed name => exact known.1
  | wrote name => exact known.1
  | _ => cases writes

theorem Token.Known.isFired (known : token.Known (s, log)) (delivers : token.delivers = true) :
    s.fired = true := by
  cases token with
  | fired context => exact known.1
  | looked context look => exact known.1
  | calling args next => exact known.1
  | _ => cases delivers

end Survive

section Common

variable {s : State} {log : Log}

theorem Common.addContext (common : Common (s, log)) (context : Context) :
    Common (s, log.addContext context) where
  empty := common.empty
  ready := common.ready
  unfired := common.unfired
  missed := common.missed
  own := common.own
  first := common.first
  lawful :=
    { order := common.lawful.order
      passed := fun call member =>
        (common.lawful.passed call member).grow (List.subset_append_left _ _) rfl rfl rfl }

theorem own_addSet (log : Log) (self thread : Thread) (name : Option CString) :
    (log.addSet self thread name).own = log.own ++ (ownName self thread name).toList := by
  unfold Log.own Log.addSet
  rw [List.filterMap_append]
  cases isOwn : ownName self thread name with
  | none => simp [isOwn]
  | some own => simp [isOwn]

theorem Common.addSet (common : Common (s, log)) (self thread : Thread) (name : Option CString) :
    Common (s, log.addSet self thread name) where
  empty := common.empty
  ready := common.ready
  unfired := common.unfired
  missed := by
    intro unfired
    change (log.addSet self thread name).own = [] ∨ log.names ≠ [] ∨
      (if _ then log.pending ++ [self] else log.pending) ≠ []
    rw [own_addSet]
    cases ownName self thread name with
    | none =>
        rw [Option.toList_none, List.append_nil]
        exact common.missed unfired
    | some own =>
        right
        right
        exact List.append_ne_nil_of_right_ne_nil _ (List.cons_ne_nil _ _)
  own := by
    intro other member
    change other ∈ (log.addSet self thread name).own
    rw [own_addSet]
    exact List.mem_append_left _ (common.own other member)
  first := by
    intro other isFirst uncontested
    change (log.addSet self thread name).own.head? = some other
    rw [own_addSet, List.head?_append, common.first other isFirst uncontested]
    rfl
  lawful :=
    { order := common.lawful.order
      passed := fun call member =>
        (common.lawful.passed call member).grow (List.Subset.refl _) rfl rfl rfl }

theorem mem_own {self thread : Thread} {given : Option CString} {name : CString}
    (isSet : (self, thread, given) ∈ log.sets) (isOwn : ownName self thread given = some name) :
    name ∈ log.own :=
  List.mem_filterMap.mpr ⟨_, isSet, isOwn⟩

/-- The name is claimed. -/
theorem Common.claim {name : CString} (common : Common (s, log)) (empty : s.nameState = .empty)
    (self : Thread) (isOwn : name ∈ log.own) :
    Common ({ s with nameState := .writing },
      { log.addName self name with contested := log.own.length ≠ 1 }) := by
  have none : log.names = [] := common.empty.mp empty
  have names : log.names ++ [name] = [name] := by rw [none, List.nil_append]
  refine ⟨?_, nofun, common.unfired, ?_, ?_, ?_, ?_⟩
  · change NameState.writing = .empty ↔ log.names ++ [name] = []
    rw [names]
    exact ⟨nofun, nofun⟩
  · intro _
    right
    left
    change log.names ++ [name] ≠ []
    rw [names]
    exact List.cons_ne_nil _ _
  · change ∀ other ∈ log.names ++ [name], other ∈ log.own
    rw [names]
    intro other member
    rwa [List.mem_singleton.mp member]
  · change ∀ first, (log.names ++ [name]).head? = some first →
      decide (log.own.length ≠ 1) = false → log.own.head? = some first
    rw [names]
    rintro first ⟨⟩ uncontested
    have single : log.own.length = 1 := not_not.mp (of_decide_eq_false uncontested)
    rcases List.length_eq_one_iff.mp single with ⟨only, same⟩
    rw [same, List.mem_singleton] at isOwn
    rw [same, isOwn]
    rfl
  · exact
      { order := common.lawful.order
        passed := fun call member =>
          (common.lawful.passed call member).grow (List.Subset.refl _) rfl rfl rfl }

/-- A name comes after one that was claimed. -/
theorem Common.late {name : CString} (common : Common (s, log)) (claimed : s.nameState ≠ .empty)
    (self : Thread) (isOwn : name ∈ log.own) : Common (s, log.addName self name) := by
  have some : log.names ≠ [] := fun none => claimed (common.empty.mpr none)
  rcases List.exists_cons_of_ne_nil some with ⟨first, rest, names⟩
  have isFirst : log.names.head? = Option.some first := by rw [names]; rfl
  refine ⟨?_, ?_, common.unfired, ?_, ?_, ?_, ?_⟩
  · constructor
    · exact fun empty => absurd empty claimed
    · exact fun none => absurd none (List.append_ne_nil_of_left_ne_nil some _)
  · intro ready
    rcases common.ready ready with ⟨kept, isKept, captured⟩
    exact ⟨kept, head?_addName self isKept, captured⟩
  · intro _
    right
    left
    exact List.append_ne_nil_of_left_ne_nil some _
  · intro other member
    rcases List.mem_append.mp member with earlier | last
    · exact common.own other earlier
    · rwa [List.mem_singleton.mp last]
  · intro other isOther uncontested
    apply common.first other _ uncontested
    change (log.names ++ [name]).head? = Option.some other at isOther
    rwa [List.head?_append_of_ne_nil _ some] at isOther
  · exact
      { order := common.lawful.order
        passed := fun call member =>
          (common.lawful.passed call member).grow (List.Subset.refl _) rfl rfl rfl }

/-- Once a delivery has fired, only what it calls matters. -/
theorem Common.delivering {s' : State} {log' : Log} (common : Common (s, log))
    (isFired : s'.fired = true) (nameState : s'.nameState = s.nameState)
    (captured : s'.capturedName = s.capturedName) (sets : log'.sets = log.sets)
    (names : log'.names = log.names) (contested : log'.contested = log.contested)
    (lawful : Lawful log') : Common (s', log') := by
  have own : log'.own = log.own := by rw [Log.own, Log.own, sets]
  have notUnfired : s'.fired ≠ false := by
    rw [isFired]
    exact Bool.noConfusion
  refine ⟨?_, ?_, fun unfired => absurd unfired notUnfired,
    fun unfired => absurd unfired notUnfired, ?_, ?_, lawful⟩
  · change s'.nameState = _ ↔ log'.names = _
    rw [nameState, names]
    exact common.empty
  · change s'.nameState = _ → ∃ name, log'.names.head? = _ ∧ s'.capturedName = _
    rw [nameState, names, captured]
    exact common.ready
  · change ∀ name ∈ log'.names, name ∈ log'.own
    rw [names, own]
    exact common.own
  · change ∀ name, log'.names.head? = _ → log'.contested = _ → log'.own.head? = _
    rw [names, own, contested]
    exact common.first

/-- Nothing has been called yet. -/
theorem Lawful.none (uncalled : log.callbacks = []) : Lawful log := by
  constructor
  · rw [uncalled]
    exact List.Pairwise.nil
  · rw [uncalled]
    exact List.forall_mem_nil _

/-- The next module is called. -/
theorem Lawful.call {i next : Nat} {args : Args} (lawful : Lawful log) (passed : Passed log args)
    (below : ∀ call ∈ log.callbacks, call.1 < next) (later : next ≤ i) :
    Lawful { log with callbacks := log.callbacks ++ [(i, args)] } := by
  constructor
  · change ((log.callbacks ++ [(i, args)]).map Prod.fst).Pairwise (· < ·)
    rw [List.map_append, List.pairwise_append]
    refine ⟨lawful.order, List.pairwise_singleton _ _, ?_⟩
    intro first isFirst last isLast
    rcases List.mem_map.mp isFirst with ⟨call, member, rfl⟩
    rw [List.map_singleton, List.mem_singleton] at isLast
    rw [isLast]
    exact Nat.lt_of_lt_of_le (below call member) later
  · intro call member
    have grown : Passed log call.2 := by
      rcases List.mem_append.mp member with earlier | last
      · exact lawful.passed call earlier
      · rwa [List.mem_singleton.mp last]
    exact grown.grow (List.Subset.refl _) rfl rfl rfl

end Common

section Calls

variable {α : Type} {token : Token}

/-- A call goes on with its token, whatever the others do. -/
abbrev Keeps (token : Token) (program : Prog Sys α) : Prop :=
  program.Keeps machine (Joint (ι := Thread × Nat) Common Token.Known Token.Apart)
    (fun _ _ => True) token

/-- Who neither writes nor delivers is in nobody's way. -/
theorem apart_of_quiet (writes : token.writes = false) (delivers : token.delivers = false)
    (other : Token) : token.Apart other := by
  rw [Token.Apart, writes, delivers]
  exact ⟨rfl, rfl⟩

/-- The name is written and then published. -/
theorem keeps_publish (name : CString) :
    Keeps (.claimed name)
      ((perform (.writeName (strlcpy name 256))).bind fun _ => perform .nameReady) := by
  apply Prog.Keeps.call_joint fun _ _ => Token.Apart.symm
  rintro ⟨s, log⟩ _ _ common ⟨writing, isFirst⟩ rfl
  have unready : s.nameState ≠ .ready := by
    rw [writing]
    exact NameState.noConfusion
  refine ⟨.wrote name, ?_, ⟨writing, isFirst, rfl⟩, ?_, ?_⟩
  · exact ⟨common.empty, fun ready => absurd ready unready, common.unfired, common.missed,
      common.own, common.first, common.lawful⟩
  · intro other apart known
    exact ⟨apart, known.aside apart.1 unready rfl⟩
  · apply Prog.Keeps.call_joint fun _ _ => Token.Apart.symm
    rintro ⟨s, log⟩ _ _ common ⟨writing, isFirst, captured⟩ rfl
    have unready : s.nameState ≠ .ready := by
      rw [writing]
      exact NameState.noConfusion
    refine ⟨.idle, ?_, trivial, ?_, trivial⟩
    · refine ⟨?_, fun _ => ⟨name, isFirst, captured⟩, common.unfired, common.missed, common.own,
        common.first, common.lawful⟩
      constructor
      · nofun
      · intro none
        rw [none] at isFirst
        cases isFirst
    · intro other apart known
      exact ⟨apart_of_quiet rfl rfl other, known.aside apart.1 unready rfl⟩

theorem keeps_captureName {self thread : Thread} {given : Option CString} {name : CString}
    (isOwn : ownName self thread given = some name) :
    Keeps (.set self thread given) (captureName self name) := by
  apply Prog.Keeps.call_joint fun _ _ => Token.Apart.symm
  rintro ⟨s, log⟩ (_ | _) after common isSet ⟨nameState, rfl⟩
  · refine ⟨.idle, common.late nameState self (mem_own isSet isOwn), trivial, ?_, trivial⟩
    intro other _ known
    exact ⟨apart_of_quiet rfl rfl other, known.late self name⟩
  · refine ⟨.claimed name, common.claim nameState self (mem_own isSet isOwn), ?_, ?_,
      keeps_publish name⟩
    · refine ⟨rfl, ?_⟩
      change (log.names ++ [name]).head? = some name
      rw [common.empty.mp nameState]
      rfl
    · intro other _ known
      refine ⟨⟨?_, rfl⟩, known.claim nameState self name _⟩
      cases writes : other.writes with
      | false => rfl
      | true => cases nameState.symm.trans (known.isWriting writes)

theorem keeps_setnameHook (self thread : Thread) (name : Option CString) :
    Keeps .idle (setnameHook self thread name) := by
  apply Prog.Keeps.call_joint fun _ _ => Token.Apart.symm
  rintro ⟨s, log⟩ ret after common _ ⟨_, rfl⟩
  by_cases isSet : ret = 0
  · subst ret
    refine ⟨.set self thread name, common.addSet self thread name, ?_, ?_, ?_⟩
    · exact List.mem_append_right _ List.mem_cons_self
    · intro other _ known
      exact ⟨apart_of_quiet rfl rfl other,
        known.grow (List.Subset.refl _) (List.subset_append_left _ _) rfl rfl rfl rfl rfl⟩
    · apply Prog.Keeps.call_learn fun _ _ => Token.Apart.symm
      · intro before answer after step
        exact step.2
      rintro world (_ | _) common isSet _
      · exact ⟨.idle, trivial, fun other _ => apart_of_quiet rfl rfl other, trivial⟩
      refine ⟨.set self thread name, isSet, fun _ apart => apart, ?_⟩
      apply Prog.Keeps.call_joint fun _ _ => Token.Apart.symm
      rintro ⟨s, log⟩ (_ | _) after common isSet ⟨isFired, rfl⟩
      · refine ⟨.set self thread name, common, isSet, fun _ apart known => ⟨apart, known⟩, ?_⟩
        rw [Prog.pure_bind', if_neg Bool.false_ne_true]
        split
        case h_1 own isOwn =>
          apply Prog.Keeps.bind (keeps_captureName isOwn)
          intro token _ _
          trivial
        case h_2 => trivial
      · refine ⟨.idle, ?_, trivial, ?_, trivial⟩
        · refine common.delivering isFired rfl rfl rfl rfl rfl ?_
          exact ⟨common.lawful.order, fun call member =>
            (common.lawful.passed call member).grow (List.Subset.refl _) rfl rfl rfl⟩
        · intro other _ known
          exact ⟨apart_of_quiet rfl rfl other,
            known.grow (List.Subset.refl _) (List.Subset.refl _) rfl rfl rfl rfl rfl⟩
  · rw [if_neg isSet]
    refine ⟨.idle, common, trivial, fun other _ known => ⟨apart_of_quiet rfl rfl other, known⟩, ?_⟩
    change Keeps _ (if ret ≠ 0 then Prog.pure ret else _)
    rw [if_pos isSet]
    trivial

theorem free_of_delivers {token other : Token} (delivers : token.delivers = true)
    (apart : token.Apart other) : other.delivers = false := by
  have one := apart.2
  rwa [delivers, Bool.true_and] at one

/-- The loop goes on with the modules whose turn has not come. -/
theorem keeps_callModules (args : Args) (turns i next : Nat) (later : next ≤ i) :
    Keeps (.calling args next) (callModules args turns i) := by
  induction turns generalizing i next with
  | zero => trivial
  | succ turns ih =>
      apply Prog.Keeps.call_learn fun _ _ => Token.Apart.symm
      · intro before answer after step
        exact step.2
      intro world count _ isCalling _
      refine ⟨.calling args next, isCalling, fun _ apart => apart, ?_⟩
      rw [Prog.pure_bind']
      split
      case isFalse => trivial
      case isTrue =>
        apply Prog.Keeps.call_learn fun _ _ => Token.Apart.symm
        · intro before answer after step
          exact step.2
        intro world entry _ isCalling _
        refine ⟨.calling args next, isCalling, fun _ apart => apart, ?_⟩
        rcases entry with _ | m
        · exact ih _ _ (Nat.le_succ_of_le later)
        · change Keeps _ (if m.onAppSpecialized ≠ 0 then _ else _)
          split
          case isFalse => exact ih _ _ (Nat.le_succ_of_le later)
          case isTrue =>
            apply Prog.Keeps.call_joint fun _ _ => Token.Apart.symm
            rintro ⟨s, log⟩ _ _ common ⟨isFired, passed, below⟩ rfl
            refine ⟨.calling args (i + 1), ?_, ?_, ?_, ih _ _ (Nat.le_refl _)⟩
            · refine common.delivering isFired rfl rfl rfl rfl rfl ?_
              exact common.lawful.call passed below later
            · refine ⟨isFired, passed.grow (List.Subset.refl _) rfl rfl rfl, ?_⟩
              intro call member
              rcases List.mem_append.mp member with earlier | last
              · exact Nat.lt_succ_of_lt (Nat.lt_of_lt_of_le (below call earlier) later)
              · rw [List.mem_singleton.mp last]
                exact Nat.lt_succ_self i
            · intro other apart known
              exact ⟨apart, known.beside (free_of_delivers rfl apart) rfl rfl rfl rfl rfl⟩

/-- The arguments of a delivery, once the name is known. -/
def Context.args (context : Context) (name : CString) : Args :=
  ⟨name, strlcpy (context.pkgName.getD []) 256, strlcpy (context.seInfo.getD []) 64⟩

theorem strlcpy_strlcpy (source : CString) (size : Nat) :
    strlcpy (strlcpy source size) size = strlcpy source size := by
  unfold strlcpy
  rw [List.take_take, Nat.min_self]

/-- What a delivery sees of the names. -/
theorem faithful_look {s : State} {log : Log} {fire : Fire} (common : Common (s, log))
    (later : s.nameState = .ready ∨ fire.own = [] ∨ fire.underway = true) :
    Look.Faithful ⟨log.own, if s.nameState = .ready then log.names.head? else none, log.contested⟩
      fire := by
  constructor
  · intro name isKept
    change (if s.nameState = .ready then log.names.head? else none) = some name at isKept
    split at isKept
    · exact ⟨common.own name (List.mem_of_head? isKept), common.first name isKept⟩
    · cases isKept
  · intro none
    change (if s.nameState = .ready then log.names.head? else Option.none) = Option.none at none
    split at none
    case isTrue ready =>
      rcases common.ready ready with ⟨name, isFirst, _⟩
      cases isFirst.symm.trans none
    case isFalse unready => exact later.resolve_left unready

theorem keeps_processName (context : Context) :
    processName.Keeps machine (Joint (ι := Thread × Nat) Common Token.Known Token.Apart)
      (fun token name => token = .calling (context.args name) 0) (.fired context) := by
  apply Prog.Keeps.call_joint fun _ _ => Token.Apart.symm
  rintro ⟨s, log⟩ value after common ⟨isFired, member, none, fire, isFire, later⟩ ⟨isValue, rfl⟩
  refine ⟨.looked context ⟨log.own, if s.nameState = .ready then log.names.head? else Option.none,
    log.contested⟩, ?_, ?_, ?_, ?_⟩
  · exact common.delivering isFired rfl rfl rfl rfl rfl (Lawful.none none)
  · refine ⟨isFired, member, none, ⟨fire, isFire, rfl, faithful_look common later⟩, ?_⟩
    intro name isKept
    change (if s.nameState = .ready then log.names.head? else Option.none) = some name at isKept
    split at isKept
    case isTrue ready => exact ⟨ready, isKept⟩
    case isFalse => cases isKept
  · intro other apart known
    exact ⟨apart, known.beside (free_of_delivers rfl apart) rfl rfl rfl rfl rfl⟩
  · rw [Prog.pure_bind']
    by_cases ready : s.nameState = .ready
    · rcases common.ready ready with ⟨name, isFirst, _⟩
      rw [isValue, if_pos ready, if_pos ready, isFirst]
      apply Prog.Keeps.call_learn fun _ _ => Token.Apart.symm
      · intro before answer after step
        exact step.2
      rintro ⟨s, log⟩ answer common ⟨isFired, member, none, ⟨fire, isFire, isLook, faithful⟩, kept⟩
        ⟨isCaptured, _⟩
      rcases kept name rfl with ⟨ready, isFirst⟩
      rcases common.ready ready with ⟨other, isOther, captured⟩
      have same : name = other := Option.some.inj (isFirst.symm.trans isOther)
      refine ⟨.calling (context.args (strlcpy answer 256)) 0, ⟨isFired, ?_, ?_⟩,
        fun _ apart => apart, rfl⟩
      · refine ⟨⟨context, member, rfl, rfl⟩, fire, _, isFire, isLook, faithful, ?_⟩
        change strlcpy answer 256 = strlcpy name 256
        rw [isCaptured, captured, same, strlcpy_strlcpy]
      · intro call isCall
        rw [none] at isCall
        cases isCall
    · rw [isValue, if_neg ready, if_neg ready]
      apply Prog.Keeps.call_joint fun _ _ => Token.Apart.symm
      rintro ⟨s, log⟩ kernel _ common ⟨isFired, member, none, ⟨fire, isFire, isLook, faithful⟩, _⟩ rfl
      refine ⟨.calling (context.args (fallbackName kernel)) 0, ?_, ⟨isFired, ?_, ?_⟩, ?_, rfl⟩
      · exact common.delivering isFired rfl rfl rfl rfl rfl (Lawful.none none)
      · exact ⟨⟨context, member, rfl, rfl⟩, fire, _, isFire, isLook, faithful, rfl⟩
      · intro call isCall
        rw [none] at isCall
        cases isCall
      · intro other apart known
        exact ⟨apart, known.beside (free_of_delivers rfl apart) rfl rfl rfl rfl rfl⟩

theorem keeps_deliverAppSpecialized (context : Context) :
    Keeps (.allowed context) (deliverAppSpecialized context.pkgName context.seInfo) := by
  apply Prog.Keeps.call_learn fun _ _ => Token.Apart.symm
  · intro before answer after step
    exact step.2
  rintro world (_ | _) _ isAllowed _
  · exact ⟨.idle, trivial, fun other _ => apart_of_quiet rfl rfl other, trivial⟩
  refine ⟨.allowed context, isAllowed, fun _ apart => apart, ?_⟩
  apply Prog.Keeps.call_learn fun _ _ => Token.Apart.symm
  · intro before answer after step
    exact step.2
  intro world count _ isAllowed _
  refine ⟨.allowed context, isAllowed, fun _ apart => apart, ?_⟩
  rw [Prog.pure_bind']
  split
  case isTrue => trivial
  case isFalse =>
    apply Prog.Keeps.call_joint fun _ _ => Token.Apart.symm
    rintro ⟨s, log⟩ (_ | _) after common isAllowed ⟨isFired, rfl⟩
    · exact ⟨.idle, common, trivial, fun other _ known => ⟨apart_of_quiet rfl rfl other, known⟩,
        trivial⟩
    · have none : log.callbacks = [] := common.unfired isFired
      refine ⟨.fired context, ?_, ?_, ?_, ?_⟩
      · exact common.delivering rfl rfl rfl rfl rfl rfl (Lawful.none none)
      · refine ⟨rfl, isAllowed, none, _, rfl, ?_⟩
        change s.nameState = .ready ∨ log.own = [] ∨
          (decide (log.pending ≠ []) || decide (s.nameState = .writing)) = true
        rw [Bool.or_eq_true, decide_eq_true_eq, decide_eq_true_eq]
        rcases common.missed isFired with noOwn | some | pending
        · exact .inr (.inl noOwn)
        · have claimed : s.nameState ≠ .empty := fun empty => some (common.empty.mp empty)
          cases isState : s.nameState with
          | empty => exact absurd isState claimed
          | writing => exact .inr (.inr (.inr rfl))
          | ready => exact .inl rfl
        · exact .inr (.inr (.inl pending))
      · intro other _ known
        have free : other.delivers = false := by
          cases delivers : other.delivers with
          | false => rfl
          | true => cases isFired.symm.trans (known.isFired delivers)
        refine ⟨⟨rfl, ?_⟩, known.beside free rfl rfl rfl rfl rfl⟩
        rw [free, Bool.and_false]
      · apply Prog.Keeps.bind (keeps_processName context)
        rintro token name rfl
        exact keeps_callModules (context.args name) kMaxModules 0 0 (Nat.le_refl 0)

theorem keeps_setcontextHook (uid : UInt32) (isSystemServer : Int)
    (seInfo pkgName : Option CString) :
    Keeps .idle (setcontextHook uid isSystemServer seInfo pkgName) := by
  apply Prog.Keeps.call_joint fun _ _ => Token.Apart.symm
  rintro ⟨s, log⟩ ret after common _ ⟨_, rfl⟩
  by_cases isSet : ret = 0
  · subst ret
    refine ⟨.allowed ⟨pkgName, seInfo⟩, common.addContext _, ?_, ?_, ?_⟩
    · exact List.mem_append_right _ List.mem_cons_self
    · intro other _ known
      exact ⟨apart_of_quiet rfl rfl other,
        known.grow (List.subset_append_left _ _) (List.Subset.refl _) rfl rfl rfl rfl rfl⟩
    · apply Prog.Keeps.bind (keeps_deliverAppSpecialized ⟨pkgName, seInfo⟩)
      intro token _ _
      trivial
  · rw [if_neg isSet]
    refine ⟨.idle, common, trivial, fun other _ known => ⟨apart_of_quiet rfl rfl other, known⟩, ?_⟩
    rw [Prog.pure_bind', if_neg isSet]
    trivial

theorem keeps_program (call : HookCall) (self : Thread) : Keeps .idle (call.program self) := by
  cases call with
  | setcontext uid isSystemServer seInfo pkgName =>
      exact keeps_setcontextHook uid isSystemServer seInfo pkgName
  | setname thread name => exact keeps_setnameHook self thread name

end Calls

end Znn.Loader.Hyos
