import Mathlib.Data.Option.Basic

/-!
# Systems that take steps

A system is given by the states it may start in and the labelled steps it may take. Restricting
it to some of its steps gives the runs that a condition allows; an invariant of every step is one
of every state a run reaches.
-/

namespace Interaction

universe u v

structure System (σ : Type u) (ε : Type v) where
  Initial : σ → Prop
  Step : σ → ε → σ → Prop

namespace System

variable {σ : Type u} {ε : Type v}

/-- The runs of a system: every state that one of them reaches. -/
inductive Reachable (system : System σ ε) : σ → Prop where
  | initial {s : σ} (start : system.Initial s) : Reachable system s
  | step {s s' : σ} {event : ε} (reached : Reachable system s) (next : system.Step s event s') :
      Reachable system s'

/-- Only the steps that are allowed in the state before them. -/
def restrict (system : System σ ε) (allowed : σ → ε → Prop) : System σ ε where
  Initial := system.Initial
  Step s event s' := allowed s event ∧ system.Step s event s'

/-- A run from a state, with each of its steps and the state it was taken in. -/
inductive Run (system : System σ ε) (start : σ) : List (σ × ε) → σ → Prop where
  | nil : Run system start [] start
  | snoc {steps : List (σ × ε)} {s s' : σ} {event : ε} (run : Run system start steps s)
      (next : system.Step s event s') : Run system start (steps ++ [(s, event)]) s'

variable {system : System σ ε} {allowed : σ → ε → Prop} {invariant : σ → Prop}

/-- What holds at the start and over every allowed step holds in every reachable state. -/
theorem Reachable.induct {s : σ} (reached : (system.restrict allowed).Reachable s)
    (start : ∀ s, system.Initial s → invariant s)
    (keep : ∀ s event s', invariant s → allowed s event → system.Step s event s' →
      invariant s') : invariant s := by
  induction reached with
  | initial isInitial => exact start _ isInitial
  | step _ next ih => exact keep _ _ _ ih next.1 next.2

/-- A restricted run is a run. -/
theorem Reachable.of_restrict {s : σ} (reached : (system.restrict allowed).Reachable s) :
    system.Reachable s := by
  induction reached with
  | initial isInitial => exact .initial isInitial
  | step _ next ih => exact ih.step next.2

/-- What one step makes true, and every other step leaves as it was, holds at the end of a run iff
it did at the start or some step made it true. -/
theorem Run.flag_iff {flag : σ → Prop} {sets : σ × ε → Prop} {start s : σ} {steps : List (σ × ε)}
    (run : system.Run start steps s)
    (each : ∀ step ∈ steps, ∀ s', system.Step step.1 step.2 s' →
      (flag s' ↔ flag step.1 ∨ sets step)) :
    flag s ↔ flag start ∨ ∃ step ∈ steps, sets step := by
  induction run with
  | nil => simp
  | snoc run next ih =>
      rename_i steps s s' event
      have earlier := ih fun step present => each step (List.mem_append_left _ present)
      have last := each (s, event) (List.mem_append_right _ List.mem_cons_self) s' next
      rw [last, earlier, or_assoc]
      simp only [List.mem_append, List.mem_singleton, or_and_right, exists_or, exists_eq_left]

/-- The steps of a run were taken, each from a state that a run reached. -/
theorem Run.split {start s : σ} {steps front behind : List (σ × ε)} {step : σ × ε}
    (run : system.Run start steps s) (split : steps = front ++ step :: behind) :
    system.Run start front step.1 ∧ ∃ s', system.Step step.1 step.2 s' := by
  induction run generalizing behind with
  | nil => simp at split
  | snoc run next ih =>
      rename_i steps before after event
      rcases List.eq_nil_or_concat behind with rfl | ⟨rest, last, rfl⟩
      · rcases List.append_inj' split rfl with ⟨rfl, same⟩
        cases same
        exact ⟨run, _, next⟩
      · rw [List.concat_eq_append, ← List.cons_append, ← List.append_assoc] at split
        exact ih (List.append_inj' split rfl).1

/-- What an event makes true stays true until an event of another kind. -/
theorem Run.still {flag : σ → Prop} {sets clears : ε → Prop} {start s : σ}
    {steps front behind : List (σ × ε)} {step : σ × ε} (run : system.Run start steps s)
    (marks : ∀ s event s', system.Step s event s' → sets event → flag s')
    (keeps : ∀ s event s', system.Step s event s' → ¬clears event → flag s → flag s')
    (split : steps = front ++ step :: behind) (isSet : sets step.2)
    (uncleared : ∀ later ∈ behind, ¬clears later.2) : flag s := by
  induction run generalizing behind with
  | nil => simp at split
  | snoc run next ih =>
      rename_i steps before after event
      rcases List.eq_nil_or_concat behind with rfl | ⟨rest, last, rfl⟩
      · rcases List.append_inj' split rfl with ⟨_, same⟩
        cases same
        exact marks _ _ _ next isSet
      · rw [List.concat_eq_append, ← List.cons_append, ← List.append_assoc] at split
        rcases List.append_inj' split rfl with ⟨earlier, same⟩
        cases same
        have unclearedLast : ¬clears event := uncleared (before, event) (by simp)
        apply keeps _ _ _ next unclearedLast
        exact ih earlier fun later present => uncleared later (by simp [present])

/-- Between two events that need something to be false and make it true there is one that makes it
false. -/
theorem Run.cleared_between {flag : σ → Prop} {sets clears : ε → Prop} {start s : σ}
    {steps front middle behind : List (σ × ε)} {first second : σ × ε}
    (run : system.Run start steps s)
    (marks : ∀ s event s', system.Step s event s' → sets event → ¬flag s ∧ flag s')
    (keeps : ∀ s event s', system.Step s event s' → ¬clears event → flag s → flag s')
    (split : steps = front ++ first :: middle ++ second :: behind) (isFirst : sets first.2)
    (isSecond : sets second.2) : ∃ step ∈ middle, clears step.2 := by
  by_contra none
  rcases run.split split with ⟨earlier, s', next⟩
  have stands := earlier.still (fun s event s' step isSet => (marks s event s' step isSet).2) keeps
    rfl isFirst fun later present clears => none ⟨later, present, clears⟩
  exact (marks _ _ _ next isSecond).1 stands

/-- What is reachable, a run from a start reaches. -/
theorem Reachable.exists_run {s : σ} (reached : system.Reachable s) :
    ∃ start steps, system.Initial start ∧ system.Run start steps s := by
  induction reached with
  | initial start => exact ⟨_, [], start, .nil⟩
  | step _ next ih =>
      rcases ih with ⟨start, steps, isInitial, run⟩
      exact ⟨start, _, isInitial, run.snoc next⟩

/-- A run that is given by its events, where the steps are computed. -/
theorem Reachable.run {compute : σ → ε → Option σ} {s s' : σ} (reached : system.Reachable s)
    (computed : ∀ s event s', compute s event = some s' → system.Step s event s')
    (events : List ε) (ran : events.foldlM compute s = some s') : system.Reachable s' := by
  induction events generalizing s with
  | nil =>
      cases ran
      exact reached
  | cons event events ih =>
      rw [List.foldlM_cons, Option.bind_eq_bind, Option.bind_eq_some_iff] at ran
      rcases ran with ⟨middle, first, rest⟩
      exact ih (reached.step (computed _ _ _ first)) rest

end System

end Interaction
