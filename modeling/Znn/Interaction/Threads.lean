import Mathlib.Logic.Function.Basic
import Znn.Interaction.Reach
import Znn.Interaction.Transcript

/-!
# Programs that run side by side

A pool is a family of programs over one environment; any of them may make the next call. The
exchanges that one program has made are a beginning of one of its transcripts, whatever the
others do between them.

What the programs may do to each other is said by tokens: every program holds one, and an
invariant speaks of all tokens and of the state that is shared. `Prog.Keeps` says that a program
may go on with its token from any state that satisfies the invariant, and a pool of such programs
satisfies the invariant in all its runs.
-/

namespace Interaction

variable {I : Interface} {ι α β γ σ : Type}

namespace Prog

/-- What is left of a program when it has made the exchanges. -/
inductive After (program : Prog I α) : List (Exchange I) → Prog I α → Prop
  | nil : After program [] program
  | snoc {request : I.Call} {next : I.Answer request → Prog I α} {transcript : List (Exchange I)}
      (made : After program transcript (.call request next)) (answer : I.Answer request) :
      After program (transcript ++ [⟨request, answer⟩]) (next answer)

theorem After.talks {program rest : Prog I α} {first second : List (Exchange I)} {value : α}
    (made : program.After first rest) (talks : rest.Talks value second) :
    program.Talks value (first ++ second) := by
  induction made generalizing second with
  | nil => exact talks
  | snoc made answer ih =>
      rw [List.append_assoc]
      exact ih (.call talks)

/-- Every call the program can make satisfies `post` with the exchanges that came before it. -/
def Asks : Prog I α → (List (Exchange I) → I.Call → Prop) → Prop
  | .pure _, _ => True
  | .call request next, post =>
      post [] request ∧
        ∀ answer, (next answer).Asks fun made later => post (⟨request, answer⟩ :: made) later

theorem Asks.mono {post weaker : List (Exchange I) → I.Call → Prop} {program : Prog I α}
    (asks : program.Asks post) (implies : ∀ made request, post made request → weaker made request) :
    program.Asks weaker := by
  induction program generalizing post weaker with
  | pure value => trivial
  | call request next ih =>
      exact ⟨implies [] request asks.1, fun answer => ih answer (asks.2 answer) fun _ _ => implies _ _⟩

theorem All.asks {allowed : I.Call → Prop} {program : Prog I α} (all : program.All allowed) :
    program.Asks fun _ request => allowed request := by
  induction program with
  | pure value => trivial
  | call request next ih => exact ⟨all.1, fun answer => ih answer (all.2 answer)⟩

theorem After.asks {post : List (Exchange I) → I.Call → Prop} {program rest : Prog I α}
    {made : List (Exchange I)} (after : program.After made rest) (asks : program.Asks post) :
    rest.Asks fun more request => post (made ++ more) request := by
  induction after with
  | nil => exact asks
  | snoc after answer ih =>
      apply Asks.mono (ih.2 answer)
      intro more later holds
      rwa [List.append_assoc]

/-- A program that is done has made one of its transcripts. -/
theorem After.of_done {program : Prog I α} {transcript : List (Exchange I)} {value : α}
    (made : program.After transcript (.pure value)) : program.Talks value transcript := by
  have talks := made.talks (.pure value)
  rwa [List.append_nil] at talks

end Prog

/-- A program for each index, and what they share. -/
structure Pool (I : Interface) (ι α σ : Type) where
  threads : ι → Prog I α
  shared : σ

namespace Pool

variable [DecidableEq ι]

/-- One of the programs makes its next call. -/
inductive Step (M : Machine I σ) : Pool I ι α σ → ι × Exchange I → Pool I ι α σ → Prop
  | call {pool : Pool I ι α σ} {i : ι} {request : I.Call} {next : I.Answer request → Prog I α}
      {answer : I.Answer request} {shared : σ} (isNext : pool.threads i = .call request next)
      (step : M.Step pool.shared request answer shared) :
      Step M pool (i, ⟨request, answer⟩) ⟨Function.update pool.threads i (next answer), shared⟩

/-- The runs of a pool. -/
def system (M : Machine I σ) (start : Pool I ι α σ) :
    System (Pool I ι α σ) (ι × Exchange I) where
  Initial pool := pool = start
  Step := Step M

/-- The exchanges that one program has made. -/
def own (i : ι) (steps : List (Pool I ι α σ × (ι × Exchange I))) : List (Exchange I) :=
  (steps.filter fun step => step.2.1 = i).map fun step => step.2.2

variable {M : Machine I σ} {start pool : Pool I ι α σ}
  {steps : List (Pool I ι α σ × (ι × Exchange I))}

theorem own_snoc (i j : ι) (before : Pool I ι α σ) (exchange : Exchange I) :
    own i (steps ++ [(before, (j, exchange))]) =
      if j = i then own i steps ++ [exchange] else own i steps := by
  rw [own, List.filter_append, List.map_append]
  split
  case isTrue same => simp [own, same]
  case isFalse other => simp [own, other]

theorem mem_own {i : ι} {exchange : Exchange I} :
    exchange ∈ own i steps ↔ ∃ step ∈ steps, step.2 = (i, exchange) := by
  rw [own, List.mem_map]
  constructor
  · rintro ⟨step, present, rfl⟩
    rw [List.mem_filter, decide_eq_true_eq] at present
    exact ⟨step, present.1, Prod.ext present.2 rfl⟩
  · rintro ⟨step, present, same⟩
    refine ⟨step, List.mem_filter.mpr ⟨present, ?_⟩, congrArg Prod.snd same⟩
    rw [decide_eq_true_eq, same]

/-- Every program has made a beginning of one of its transcripts. -/
theorem after_own (run : (system M start).Run start steps pool) (i : ι) :
    (start.threads i).After (own i steps) (pool.threads i) := by
  induction run with
  | nil => exact .nil
  | snoc run next ih =>
      rename_i steps before after event
      rcases next with ⟨isNext, step⟩
      rename_i j request next answer shared
      rw [own_snoc]
      split
      case isTrue same =>
        subst same
        dsimp only
        rw [Function.update_self]
        rw [isNext] at ih
        exact ih.snoc answer
      case isFalse other =>
        dsimp only
        rw [Function.update_of_ne (Ne.symm other)]
        exact ih

/-- A program that is done has had one of its runs. -/
theorem talks_of_done (run : (system M start).Run start steps pool) {i : ι} {value : α}
    (done : pool.threads i = .pure value) : (start.threads i).Talks value (own i steps) := by
  have made := after_own run i
  rw [done] at made
  exact made.of_done

/-- A run whose steps are all allowed is a run of the restricted environment. -/
theorem run_restrict {allowed : σ → (request : I.Call) → I.Answer request → Prop}
    (run : (system M start).Run start steps pool)
    (isAllowed : ∀ step ∈ steps, allowed step.1.shared step.2.2.1 step.2.2.2) :
    (system (M.restrict allowed) start).Run start steps pool := by
  induction run with
  | nil => exact .nil
  | snoc run next ih =>
      rcases next with ⟨isNext, step⟩
      have last := isAllowed _ (List.mem_append_right _ List.mem_cons_self)
      exact (ih fun step present => isAllowed step (List.mem_append_left _ present)).snoc
        (.call isNext ⟨step, last⟩)

/-- The run in which the programs take turns as scheduled, in an environment that is a function of
its own state. -/
def exec (respond : (request : I.Call) → σ → I.Answer request × σ) :
    List ι → List (Pool I ι α σ × (ι × Exchange I)) × Pool I ι α σ →
      List (Pool I ι α σ × (ι × Exchange I)) × Pool I ι α σ
  | [], ran => ran
  | i :: rest, (steps, pool) =>
      match pool.threads i with
      | .pure _ => exec respond rest (steps, pool)
      | .call request next =>
          let answered := respond request pool.shared
          exec respond rest (steps ++ [(pool, (i, ⟨request, answered.1⟩))],
            ⟨Function.update pool.threads i (next answered.1), answered.2⟩)

theorem run_exec {respond : (request : I.Call) → σ → I.Answer request × σ}
    (sound : ∀ request state,
      M.Step state request (respond request state).1 (respond request state).2)
    (schedule : List ι) (run : (system M start).Run start steps pool) :
    (system M start).Run start (exec respond schedule (steps, pool)).1
      (exec respond schedule (steps, pool)).2 := by
  induction schedule generalizing steps pool with
  | nil => exact run
  | cons i rest ih =>
      rw [exec]
      cases isNext : pool.threads i with
      | pure value => exact ih run
      | call request next => exact ih (run.snoc (.call isNext (sound request pool.shared)))

/-- The next call of a program, in an environment that may keep it waiting. -/
def turn (respond : (request : I.Call) → σ → Option (I.Answer request × σ)) (pool : Pool I ι α σ)
    (i : ι) : Option (Pool I ι α σ) :=
  match pool.threads i with
  | .pure _ => none
  | .call request next =>
      (respond request pool.shared).map fun answered =>
        ⟨Function.update pool.threads i (next answered.1), answered.2⟩

/-- Turns that are sound from where the state is. -/
theorem reachable_turns_within {respond : (request : I.Call) → σ → Option (I.Answer request × σ)}
    {holds : σ → Prop} (sound : ∀ request state answer after, holds state →
      respond request state = some (answer, after) →
        M.Step state request answer after ∧ holds after) (schedule : List ι)
    {after : Pool I ι α σ} (reached : (system M start).Reachable pool) (begins : holds pool.shared)
    (ran : schedule.foldlM (turn respond) pool = some after) :
    (system M start).Reachable after := by
  induction schedule generalizing pool with
  | nil =>
      cases ran
      exact reached
  | cons i rest ih =>
      rw [List.foldlM_cons, Option.bind_eq_bind, Option.bind_eq_some_iff] at ran
      rcases ran with ⟨middle, first, rest⟩
      unfold turn at first
      split at first
      · cases first
      · rename_i request next isNext
        rcases Option.map_eq_some_iff.mp first with ⟨⟨answer, shared⟩, responded, rfl⟩
        rcases sound request pool.shared answer shared begins responded with ⟨step, stays⟩
        exact ih (reached.step (.call isNext step)) stays rest

theorem reachable_turns {respond : (request : I.Call) → σ → Option (I.Answer request × σ)}
    (sound : ∀ request state answer after, respond request state = some (answer, after) →
      M.Step state request answer after) (schedule : List ι) {after : Pool I ι α σ}
    (reached : (system M start).Reachable pool)
    (ran : schedule.foldlM (turn respond) pool = some after) :
    (system M start).Reachable after := by
  have each : ∀ request state answer after, True → respond request state = some (answer, after) →
      M.Step state request answer after ∧ True :=
    fun request state answer after _ responded => ⟨sound request state answer after responded, trivial⟩
  exact reachable_turns_within each schedule reached trivial ran

end Pool

section Tokens

variable [DecidableEq ι] {M : Machine I σ} {invariant : (ι → γ) → σ → Prop}

/-- A program that holds the token can go on from every state that satisfies the invariant, and
ends with a token that is final for its result. -/
def Prog.Keeps (M : Machine I σ) (invariant : (ι → γ) → σ → Prop) (final : γ → α → Prop) :
    γ → Prog I α → Prop
  | token, .pure value => final token value
  | token, .call request next =>
      ∀ (tokens : ι → γ) (i : ι) (before : σ) (answer : I.Answer request) (after : σ),
        tokens i = token → invariant tokens before → M.Step before request answer after →
          ∃ token', invariant (Function.update tokens i token') after ∧
            (next answer).Keeps M invariant final token'

theorem Prog.Keeps.mono {final weaker : γ → α → Prop} {program : Prog I α} {token : γ}
    (keeps : program.Keeps M invariant final token)
    (implies : ∀ token value, final token value → weaker token value) :
    program.Keeps M invariant weaker token := by
  induction program generalizing token with
  | pure value => exact implies token value keeps
  | call request next ih =>
      intro tokens i before answer after holds isInvariant step
      rcases keeps tokens i before answer after holds isInvariant step with
        ⟨token', isInvariant', later⟩
      exact ⟨token', isInvariant', ih answer later⟩

theorem Prog.Keeps.bind {middle : γ → α → Prop} {final : γ → β → Prop} {program : Prog I α}
    {rest : α → Prog I β} {token : γ} (first : program.Keeps M invariant middle token)
    (second : ∀ token value, middle token value → (rest value).Keeps M invariant final token) :
    (program.bind rest).Keeps M invariant final token := by
  induction program generalizing token with
  | pure value => exact second token value first
  | call request next ih =>
      intro tokens i before answer after holds isInvariant step
      rcases first tokens i before answer after holds isInvariant step with
        ⟨token', isInvariant', later⟩
      exact ⟨token', isInvariant', ih answer later⟩

/-- A program whose calls are made as other programs keeps what each of these keeps. -/
theorem Prog.Keeps.via {J : Interface} {N : Machine J σ} {resting : γ → Prop}
    {embed : (request : I.Call) → Prog J (I.Answer request)}
    (each : ∀ request token, resting token →
      (embed request).Keeps N invariant (fun token _ => resting token) token)
    {token : γ} (rests : resting token) (program : Prog I α) :
    (program.via embed).Keeps N invariant (fun token _ => resting token) token := by
  induction program generalizing token with
  | pure value => exact rests
  | call request next ih =>
      apply Prog.Keeps.bind (each request token rests)
      exact fun token answer rests => ih answer rests

/-- At most one program holds another token than the idle one, and the state is as its token
says. -/
def Exclusive (idle : γ) (fits : γ → σ → Prop) (tokens : ι → γ) (state : σ) : Prop :=
  (∀ i, tokens i = idle) ∧ fits idle state ∨
    ∃ i, tokens i ≠ idle ∧ (∀ j, j ≠ i → tokens j = idle) ∧ fits (tokens i) state

section Exclusive

variable {idle : γ} {fits : γ → σ → Prop} {final : γ → α → Prop} {request : I.Call}
  {next : I.Answer request → Prog I α}

/-- A program with the idle token may leave it when no other has, and must not be in the way of
one that has. -/
theorem Prog.Keeps.call_idle
    (alone : ∀ before answer after, fits idle before → M.Step before request answer after →
      ∃ token, fits token after ∧
        (next answer).Keeps M (Exclusive (ι := ι) idle fits) final token)
    (beside : ∀ token before answer after, token ≠ idle → fits token before →
      M.Step before request answer after → fits token after ∧
        (next answer).Keeps M (Exclusive (ι := ι) idle fits) final idle) :
    (Prog.call request next).Keeps M (Exclusive (ι := ι) idle fits) final idle := by
  rintro tokens i before answer after isIdle (⟨allIdle, fitsIdle⟩ | ⟨j, busy, others, fitsBusy⟩) step
  · rcases alone before answer after fitsIdle step with ⟨token, fitsToken, keeps⟩
    refine ⟨token, ?_, keeps⟩
    by_cases stays : token = idle
    · left
      subst stays
      refine ⟨fun j => ?_, fitsToken⟩
      rw [← isIdle, Function.update_eq_self]
      exact (allIdle j).trans isIdle.symm
    · right
      refine ⟨i, ?_, fun j other => ?_, ?_⟩
      · rwa [Function.update_self]
      · rw [Function.update_of_ne other]
        exact allIdle j
      · rwa [Function.update_self]
  · rcases beside (tokens j) before answer after busy fitsBusy step with ⟨fitsAfter, keeps⟩
    refine ⟨idle, .inr ⟨j, ?_⟩, keeps⟩
    rw [← isIdle, Function.update_eq_self, isIdle]
    exact ⟨busy, others, fitsAfter⟩

/-- A program with another token is the only one. -/
theorem Prog.Keeps.call_busy {token : γ} (busy : token ≠ idle)
    (step : ∀ before answer after, fits token before → M.Step before request answer after →
      ∃ token', fits token' after ∧
        (next answer).Keeps M (Exclusive (ι := ι) idle fits) final token') :
    (Prog.call request next).Keeps M (Exclusive (ι := ι) idle fits) final token := by
  rintro tokens i before answer after isToken (⟨allIdle, _⟩ | ⟨j, _, others, fitsBusy⟩) moved
  · exact absurd (isToken.symm.trans (allIdle i)) busy
  · have same : i = j := by
      by_contra other
      exact busy (isToken.symm.trans (others i other))
    subst same
    rw [isToken] at fitsBusy
    rcases step before answer after fitsBusy moved with ⟨token', fitsAfter, keeps⟩
    refine ⟨token', ?_, keeps⟩
    by_cases isIdle : token' = idle
    · left
      subst isIdle
      refine ⟨fun j => ?_, fitsAfter⟩
      by_cases same : j = i
      · rw [same, Function.update_self]
      · rw [Function.update_of_ne same]
        exact others j same
    · right
      refine ⟨i, ?_, fun j other => ?_, ?_⟩
      · rwa [Function.update_self]
      · rw [Function.update_of_ne other]
        exact others j other
      · rwa [Function.update_self]

end Exclusive

/-- Every program knows what its token says of the state, no two tokens are in each other's way,
and what is common to all of them holds. -/
structure Joint (common : σ → Prop) (known : γ → σ → Prop) (apart : γ → γ → Prop)
    (tokens : ι → γ) (state : σ) : Prop where
  common : common state
  known : ∀ i, known (tokens i) state
  apart : ∀ i j, i ≠ j → apart (tokens i) (tokens j)

section Joint

variable {common : σ → Prop} {known : γ → σ → Prop} {apart : γ → γ → Prop}
  {final : γ → α → Prop} {request : I.Call} {next : I.Answer request → Prog I α} {token : γ}

/-- A program may give up its token for one that says nothing and is in nobody's way. -/
theorem Joint.forget {tokens : ι → γ} {state : σ} (joint : Joint common known apart tokens state)
    (i : ι) (token : γ) (isKnown : known token state)
    (free : ∀ other, apart token other ∧ apart other token) :
    Joint common known apart (Function.update tokens i token) state where
  common := joint.common
  known := by
    intro j
    by_cases same : j = i
    · rw [same, Function.update_self]
      exact isKnown
    · rw [Function.update_of_ne same]
      exact joint.known j
  apart := by
    intro j k other
    by_cases isFirst : j = i
    · rw [isFirst, Function.update_self]
      exact (free _).1
    · by_cases isSecond : k = i
      · rw [isSecond, Function.update_self]
        exact (free _).2
      · rw [Function.update_of_ne isFirst, Function.update_of_ne isSecond]
        exact joint.apart j k other

omit [DecidableEq ι] in
/-- The state changes by other hands. -/
theorem Joint.move {tokens : ι → γ} {state state' : σ} (joint : Joint common known apart tokens state)
    (isCommon : common state') (isKnown : ∀ token, known token state → known token state') :
    Joint common known apart tokens state' :=
  ⟨isCommon, fun i => isKnown _ (joint.known i), joint.apart⟩

/-- A program makes a call with what it knows. What the others know must survive it. -/
theorem Prog.Keeps.call_joint (symm : ∀ one other, apart one other → apart other one)
    (step : ∀ before answer after, common before → known token before →
      M.Step before request answer after → ∃ token', common after ∧ known token' after ∧
        (∀ other, apart token other → known other before →
          apart token' other ∧ known other after) ∧
        (next answer).Keeps M (Joint (ι := ι) common known apart) final token') :
    (Prog.call request next).Keeps M (Joint (ι := ι) common known apart) final token := by
  intro tokens i before answer after isToken joint moved
  rcases step before answer after joint.common (isToken ▸ joint.known i) moved with
    ⟨token', isCommon, isKnown, others, keeps⟩
  have survive : ∀ j, j ≠ i → apart token' (tokens j) ∧ known (tokens j) after := by
    intro j other
    apply others _ _ (joint.known j)
    rw [← isToken]
    exact joint.apart i j (Ne.symm other)
  refine ⟨token', ⟨isCommon, ?_, ?_⟩, keeps⟩
  · intro j
    by_cases same : j = i
    · rw [same, Function.update_self]
      exact isKnown
    · rw [Function.update_of_ne same]
      exact (survive j same).2
  · intro j k other
    by_cases isFirst : j = i
    · rw [isFirst, Function.update_self, Function.update_of_ne fun same => other (isFirst.trans same.symm)]
      exact (survive k fun same => other (isFirst.trans same.symm)).1
    · by_cases isSecond : k = i
      · rw [isSecond, Function.update_self, Function.update_of_ne isFirst]
        exact symm _ _ (survive j isFirst).1
      · rw [Function.update_of_ne isFirst, Function.update_of_ne isSecond]
        exact joint.apart j k other

/-- A call that leaves the state as it is may teach the program something. -/
theorem Prog.Keeps.call_learn (symm : ∀ one other, apart one other → apart other one)
    (still : ∀ before answer after, M.Step before request answer after → after = before)
    (step : ∀ state answer, common state → known token state →
      M.Step state request answer state → ∃ token', known token' state ∧
        (∀ other, apart token other → apart token' other) ∧
        (next answer).Keeps M (Joint (ι := ι) common known apart) final token') :
    (Prog.call request next).Keeps M (Joint (ι := ι) common known apart) final token := by
  apply Prog.Keeps.call_joint symm
  intro before answer after isCommon isKnown moved
  have same := still before answer after moved
  subst after
  rcases step before answer isCommon isKnown moved with ⟨token', isKnown', free, keeps⟩
  exact ⟨token', isCommon, isKnown', fun other isApart known => ⟨free other isApart, known⟩, keeps⟩

end Joint

/-- One step of a pool of programs that keep the invariant. -/
theorem Pool.keeps_step {final : γ → α → Prop} {pool after : Pool I ι α σ} {tokens : ι → γ}
    {event : ι × Exchange I} (next : Step M pool event after)
    (isInvariant : invariant tokens pool.shared)
    (keeps : ∀ i, (pool.threads i).Keeps M invariant final (tokens i)) :
    ∃ token, invariant (Function.update tokens event.1 token) after.shared ∧
      ∀ i, (after.threads i).Keeps M invariant final (Function.update tokens event.1 token i) := by
  rcases next with ⟨isNext, step⟩
  rename_i j request next answer shared
  have keepsNext := keeps j
  rw [isNext] at keepsNext
  rcases keepsNext tokens j pool.shared answer shared rfl isInvariant step with
    ⟨token, isInvariant', keepsToken⟩
  refine ⟨token, isInvariant', fun i => ?_⟩
  dsimp only
  by_cases same : i = j
  · subst same
    rw [Function.update_self, Function.update_self]
    exact keepsToken
  · rw [Function.update_of_ne same, Function.update_of_ne same]
    exact keeps i

/-- The invariant holds in every run of programs that keep it. A program that has not made a
step holds the token that it had. -/
theorem Pool.invariant_of_keeps {final : γ → α → Prop} {start pool : Pool I ι α σ}
    {steps : List (Pool I ι α σ × (ι × Exchange I))} {tokens : ι → γ}
    (run : (system M start).Run start steps pool) (isInvariant : invariant tokens start.shared)
    (keeps : ∀ i, (start.threads i).Keeps M invariant final (tokens i)) :
    ∃ later : ι → γ, invariant later pool.shared ∧
      (∀ i, (pool.threads i).Keeps M invariant final (later i)) ∧
      ∀ i, (∀ step ∈ steps, step.2.1 ≠ i) → later i = tokens i := by
  induction run with
  | nil => exact ⟨tokens, isInvariant, keeps, fun _ _ => rfl⟩
  | snoc run next ih =>
      rename_i steps before after event
      rcases ih with ⟨later, holds, keepsLater, unmoved⟩
      rcases keeps_step next holds keepsLater with ⟨token, holds', keepsAfter⟩
      refine ⟨Function.update later event.1 token, holds', keepsAfter, fun i none => ?_⟩
      have notThis : event.1 ≠ i := none (before, event) (by simp)
      rw [Function.update_of_ne notThis.symm]
      exact unmoved i fun step present => none step (List.mem_append_left _ present)

end Tokens

end Interaction
