import Znn.Interaction.Prog

/-!
# Environments, runs and weakest preconditions

A machine says how an environment may answer a call and how its own state moves when it
does. `Prog.Runs` is the resulting big-step relation, `Prog.wp` the demonic weakest
precondition; `wp_iff_runs` says they are two views of one semantics. The rules of the
second half lift both through `StateT`, where the extra state belongs to the program.
-/

namespace Interaction

variable {I : Interface} {α β δ σ τ : Type}

/-- How an environment with state `σ` may answer the calls of `I`. -/
structure Machine (I : Interface) (σ : Type) where
  /-- `Step before request answer after`: one possible answer and its effect. -/
  Step : σ → (request : I.Call) → I.Answer request → σ → Prop

namespace Machine

/-- The environment that answers anything and keeps a ledger of what matters. -/
def ledger {ε : Type} (effects : (request : I.Call) → I.Answer request → List ε) :
    Machine I (List ε) where
  Step before request answer after := after = before ++ effects request answer

/-- The environment that gives only some of the answers of `M`; which, may depend on its
state. -/
def restrict (M : Machine I σ) (allowed : σ → (request : I.Call) → I.Answer request → Prop) :
    Machine I σ where
  Step before request answer after :=
    M.Step before request answer after ∧ allowed before request answer

end Machine

namespace Prog

/-- One run of a program in a machine: initial state, result, final state. -/
inductive Runs (M : Machine I σ) : Prog I α → σ → α → σ → Prop
  | pure (value : α) (state : σ) : Runs M (.pure value) state value state
  | call {request : I.Call} {next : I.Answer request → Prog I α}
      {before middle after : σ} {answer : I.Answer request} {value : α}
      (step : M.Step before request answer middle)
      (rest : Runs M (next answer) middle value after) :
      Runs M (.call request next) before value after

/-- Every run from `state` ends in `post`. -/
def wp (M : Machine I σ) : Prog I α → (α → σ → Prop) → σ → Prop
  | .pure value, post, state => post value state
  | .call request next, post, state =>
      ∀ answer after, M.Step state request answer after → (next answer).wp M post after

section Rules

variable {M : Machine I σ} {post weaker : α → σ → Prop} {state : σ}

theorem wp_iff_runs (program : Prog I α) :
    program.wp M post state ↔
      ∀ value after, program.Runs M state value after → post value after := by
  induction program generalizing state with
  | pure value =>
      constructor
      · intro holds result after run
        cases run
        exact holds
      · intro holds
        exact holds value state (.pure value state)
  | call request next ih =>
      constructor
      · intro holds value after run
        cases run with
        | call step rest => exact (ih _).mp (holds _ _ step) value after rest
      · intro holds answer middle step
        exact (ih answer).mpr fun value after rest => holds value after (.call step rest)

theorem Runs.of_wp {program : Prog I α} {value : α} {after : σ}
    (run : program.Runs M state value after) (holds : program.wp M post state) :
    post value after :=
  (wp_iff_runs program).mp holds value after run

@[simp]
theorem wp_pure (value : α) : (Prog.pure value : Prog I α).wp M post state ↔ post value state :=
  Iff.rfl

@[simp]
theorem wp_perform (request : I.Call) {post : I.Answer request → σ → Prop} :
    wp (α := no_index (I.Answer request)) M (perform request) post state ↔
      ∀ answer after, M.Step state request answer after → post answer after :=
  Iff.rfl

@[simp]
theorem wp_bind (program : Prog I α) (rest : α → Prog I β) {post : β → σ → Prop} :
    (program.bind rest).wp M post state ↔
      program.wp M (fun value middle => (rest value).wp M post middle) state := by
  induction program generalizing state with
  | pure value => rfl
  | call request next ih =>
      simp only [bind, wp]
      exact forall_congr' fun answer => forall_congr' fun middle =>
        imp_congr_right fun _ => ih answer

@[simp]
theorem wp_map (change : α → β) (program : Prog I α) {post : β → σ → Prop} :
    wp M (change <$> program) post state ↔
      program.wp M (fun value after => post (change value) after) state := by
  rw [map_eq_pure_bind, bind_eq, wp_bind]
  rfl

theorem wp_mono {program : Prog I α} (holds : program.wp M post state)
    (implies : ∀ value after, post value after → weaker value after) :
    program.wp M weaker state :=
  (wp_iff_runs program).mpr fun value after run => implies value after (run.of_wp holds)

theorem wp_and {program : Prog I α} (left : program.wp M post state)
    (right : program.wp M weaker state) :
    program.wp M (fun value after => post value after ∧ weaker value after) state :=
  (wp_iff_runs program).mpr fun _ _ run => ⟨run.of_wp left, run.of_wp right⟩

/-- The frame rule: calls that all move the environment within a preorder make a program
that does. -/
theorem All.wp_frame (frame : σ → σ → Prop) {program : Prog I α}
    (calls : program.All fun request => ∀ before answer after,
      M.Step before request answer after → frame before after)
    (refl : ∀ state, frame state state)
    (trans : ∀ {first second third}, frame first second → frame second third →
      frame first third) :
    program.wp M (fun _ after => frame state after) state := by
  induction program generalizing state with
  | pure value => exact refl state
  | call request next ih =>
      intro answer middle step
      exact wp_mono (ih answer (calls.2 answer)) fun _ after rest =>
        trans (calls.1 state answer middle step) rest

/-- What holds of every answer of a machine holds of the answers it is restricted to. -/
theorem wp_restrict {allowed : σ → (request : I.Call) → I.Answer request → Prop}
    {program : Prog I α} (holds : program.wp M post state) :
    program.wp (M.restrict allowed) post state := by
  induction program generalizing state with
  | pure value => exact holds
  | call request next ih =>
      intro answer after step
      exact ih answer (holds answer after step.1)

/-- Calls the environment does not notice leave it where it was. -/
theorem All.wp_still {program : Prog I α}
    (calls : program.All fun request => ∀ before answer after,
      M.Step before request answer after → after = before) :
    program.wp M (fun _ after => after = state) state :=
  All.wp_frame (fun before after => after = before) calls (fun _ => rfl)
    (fun first second => second.trans first)

/-- What all results of a program satisfy, every run's result does. -/
theorem Returns.wp {good : α → Prop} {program : Prog I α} (returns : program.Returns good) :
    program.wp M (fun value _ => good value) state := by
  induction program generalizing state with
  | pure value => exact returns
  | call request next ih =>
      intro answer after _
      exact ih answer (returns answer)

/-- The rule for a program the environment does not notice: only its value matters. -/
theorem wp_of_still {program : Prog I α}
    (calls : program.All fun request => ∀ before answer after,
      M.Step before request answer after → after = before)
    (holds : ∀ value, post value state) : program.wp M post state := by
  refine wp_mono calls.wp_still fun value after same => ?_
  rw [same]
  exact holds value

/-- A run of the deterministic evaluation is a run of any machine that allows its answers. -/
theorem runs_eval {respond : (request : I.Call) → σ → I.Answer request × σ}
    (sound : ∀ request state,
      M.Step state request (respond request state).1 (respond request state).2)
    (program : Prog I α) (state : σ) :
    program.Runs M state (program.eval respond state).1 (program.eval respond state).2 := by
  induction program generalizing state with
  | pure value => exact .pure value state
  | call request next ih => exact .call (sound request state) (ih _ _)

end Rules

end Prog

/-- A program with a private state of type `δ`. -/
abbrev StateProg (I : Interface) (δ : Type) : Type → Type :=
  StateT δ (Prog I)

/-- The environment in which each call is a whole run of its body, on the state that the bodies
own and the environment behind them: critical sections under one lock. -/
def Machine.sections {J : Interface} (M : Machine I σ)
    (bodies : (request : J.Call) → StateProg I δ (J.Answer request)) : Machine J (δ × σ) where
  Step before request answer after :=
    ((bodies request).run before.1).Runs M before.2 (answer, after.1) after.2

namespace StateProg

/-- Every run of a stateful program from `own` and `state` ends in `post`. -/
def wp (M : Machine I σ) (program : StateProg I δ α) (post : α → δ → σ → Prop) (own : δ)
    (state : σ) : Prop :=
  (program.run own).wp M (fun result after => post result.1 result.2 after) state

/-- One run of a stateful program. -/
def Runs (M : Machine I σ) (program : StateProg I δ α) (own : δ) (state : σ) (value : α)
    (own' : δ) (state' : σ) : Prop :=
  (program.run own).Runs M state (value, own') state'

variable {M : Machine I σ} {post weaker : α → δ → σ → Prop} {own own' : δ} {state state' : σ}

theorem wp_iff_runs (program : StateProg I δ α) :
    wp M program post own state ↔
      ∀ value own' state', Runs M program own state value own' state' →
        post value own' state' := by
  simp only [wp, Prog.wp_iff_runs, Runs, Prod.forall]

theorem Runs.of_wp {program : StateProg I δ α} {value : α}
    (run : Runs M program own state value own' state') (holds : wp M program post own state) :
    post value own' state' :=
  (wp_iff_runs program).mp holds _ _ _ run

/-- A section ends as its body does. -/
theorem of_section {J : Interface} {bodies : (request : J.Call) → StateProg I δ (J.Answer request)}
    {request : J.Call} {answer : J.Answer request} {before after : δ × σ}
    (post : J.Answer request → δ × σ → Prop)
    (step : (M.sections bodies).Step before request answer after)
    (holds : wp M (bodies request) (fun answer own state => post answer (own, state))
      before.1 before.2) : post answer after :=
  Runs.of_wp step holds

/-- The deterministic evaluation of a section is one of its steps. -/
theorem section_eval {J : Interface}
    (bodies : (request : J.Call) → StateProg I δ (J.Answer request))
    {respond : (request : I.Call) → σ → I.Answer request × σ}
    (sound : ∀ request state,
      M.Step state request (respond request state).1 (respond request state).2)
    (request : J.Call) (before : δ × σ) :
    let ran := ((bodies request).run before.1).eval respond before.2
    (M.sections bodies).Step before request ran.1.1 (ran.1.2, ran.2) :=
  Prog.runs_eval sound _ _

@[simp]
theorem wp_pure (value : α) :
    wp M (pure value : StateProg I δ α) post own state ↔ post value own state :=
  Iff.rfl

@[simp]
theorem wp_bind (program : StateProg I δ α) (rest : α → StateProg I δ β)
    {post : β → δ → σ → Prop} :
    wp M (program >>= rest) post own state ↔
      wp M program (fun value own' state' => wp M (rest value) post own' state') own state := by
  simp only [wp, StateT.run_bind, Prog.bind_eq, Prog.wp_bind]

@[simp]
theorem wp_map (change : α → β) (program : StateProg I δ α) {post : β → δ → σ → Prop} :
    wp M (change <$> program) post own state ↔
      wp M program (fun value own' state' => post (change value) own' state') own state := by
  rw [map_eq_pure_bind, wp_bind]
  rfl

@[simp]
theorem wp_lift (program : Prog I α) :
    wp M (liftM program : StateProg I δ α) post own state ↔
      program.wp M (fun value state' => post value own state') state := by
  change (program.bind fun value => .pure (value, own)).wp M _ state ↔ _
  rw [Prog.wp_bind]
  rfl

@[simp]
theorem wp_get {post : δ → δ → σ → Prop} :
    wp M (get : StateProg I δ δ) post own state ↔ post own own state :=
  Iff.rfl

@[simp]
theorem wp_modify (change : δ → δ) {post : PUnit → δ → σ → Prop} :
    wp M (modify change : StateProg I δ PUnit) post own state ↔ post ⟨⟩ (change own) state :=
  Iff.rfl

theorem wp_mono {program : StateProg I δ α} (holds : wp M program post own state)
    (implies : ∀ value own' state', post value own' state' → weaker value own' state') :
    wp M program weaker own state :=
  Prog.wp_mono holds fun result state' => implies result.1 result.2 state'

theorem wp_restrict {allowed : σ → (request : I.Call) → I.Answer request → Prop}
    {program : StateProg I δ α} (holds : wp M program post own state) :
    wp (M.restrict allowed) program post own state :=
  Prog.wp_restrict holds

theorem wp_and {program : StateProg I δ α} (left : wp M program post own state)
    (right : wp M program weaker own state) :
    wp M program (fun value own' state' => post value own' state' ∧ weaker value own' state')
      own state :=
  Prog.wp_and left right

/-- What holds of every end holds after the program. -/
theorem wp_of_forall (program : StateProg I δ α)
    (all : ∀ value own' state', post value own' state') : wp M program post own state :=
  (wp_iff_runs program).mpr fun value own' state' _ => all value own' state'

/-- The loop rule: what every turn of a `forM` preserves, the whole loop preserves. -/
theorem wp_forM {β : Type} (items : List β) (body : β → StateProg I δ PUnit)
    {inv : δ → σ → Prop} (start : inv own state)
    (turn : ∀ item ∈ items, ∀ own state, inv own state →
      wp M (body item) (fun _ own' state' => inv own' state') own state) :
    wp M (items.forM body) (fun _ own' state' => inv own' state') own state := by
  induction items generalizing own state with
  | nil => exact start
  | cons head tail ih =>
      rw [List.forM, wp_bind]
      refine wp_mono (turn head (by simp) own state start) fun _ own' state' held => ?_
      exact ih held fun item mem => turn item (by simp [mem])

end StateProg

end Interaction
