import Znn.Interaction.Semantics

/-!
# Loops that grow towards a bound

A pass of a loop goes on from a new state or ends it with a result. A loop is run for a number of
passes; when a measure falls with every pass that goes on, more passes than the measure of the
first state end it, whatever the environment answers.
-/

namespace Interaction

namespace Prog

variable {I : Interface} {α σ τ : Type}

/-- The passes of a loop. There is no result while it still goes on. -/
def iterate (pass : σ → Prog I (σ ⊕ α)) : Nat → σ → Prog I (Option α)
  | 0, _ => .pure none
  | passes + 1, start => (pass start).bind fun
      | .inl next => iterate pass passes next
      | .inr result => .pure (some result)

/-- What a pass has to establish: the loop ends well, or goes on from a state of smaller
measure. -/
def Advances (inv : σ → τ → Prop) (post : α → τ → Prop) (measure : σ → Nat) (start : σ) :
    σ ⊕ α → τ → Prop
  | .inl next, after => inv next after ∧ measure next < measure start
  | .inr result, after => post result after

/-- The rule of total correctness. -/
theorem wp_iterate {M : Machine I τ} {pass : σ → Prog I (σ ⊕ α)} {inv : σ → τ → Prop}
    {post : α → τ → Prop} {measure : σ → Nat}
    (turn : ∀ start state, inv start state →
      (pass start).wp M (Advances inv post measure start) state)
    {passes : Nat} {start : σ} {state : τ} (holds : inv start state)
    (enough : measure start < passes) :
    (iterate pass passes start).wp M (fun result after => ∃ value, result = some value ∧
      post value after) state := by
  induction passes generalizing start state with
  | zero => exact absurd enough (Nat.not_lt_zero _)
  | succ passes ih =>
      rw [iterate, wp_bind]
      apply wp_mono (turn start state holds)
      intro result after advances
      cases result with
      | inl next =>
          have smaller : measure next < passes := by
            have fewer := advances.2
            omega
          exact ih advances.1 smaller
      | inr value => exact ⟨value, rfl, advances⟩

end Prog

end Interaction
