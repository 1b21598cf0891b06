import Znn.Interaction.Threads

/-!
# Programs that may be stopped

A process can be killed between any two of its calls. `Prog.mortal` gives every call one more
answer, after which the program does nothing; `Prog.Lives` says that a program keeps an invariant
until it ends or is stopped.
-/

namespace Interaction

variable {I : Interface} {ι α β γ σ : Type}

/-- Where a call may be answered by the end of the program. -/
def Interface.mortal (I : Interface) : Interface where
  Call := I.Call
  Answer request := Option (I.Answer request)

/-- A program that ends where it is stopped. -/
def Prog.mortal : Prog I α → Prog I.mortal (Option α)
  | .pure value => .pure (some value)
  | .call request next => .call (I := I.mortal) request fun
      | none => .pure none
      | some answer => (next answer).mortal

theorem Prog.mortal_bind (program : Prog I α) (rest : α → Prog I β) :
    (program.bind rest).mortal = program.mortal.bind fun
      | none => .pure none
      | some value => (rest value).mortal := by
  induction program with
  | pure value => rfl
  | call request next ih =>
      simp only [bind, mortal]
      congr 1
      funext answer
      cases answer with
      | none => rfl
      | some answer => exact ih answer

/-- The environment of programs that may be stopped: `stops` says how its state moves when one is
stopped at a call. -/
def Machine.mortal (M : Machine I σ) (stops : σ → I.Call → σ → Prop) : Machine I.mortal σ where
  Step before request answer after :=
    match answer with
    | none => stops before request after
    | some answer => M.Step before request answer after

variable [DecidableEq ι] {M : Machine I σ} {stops : σ → I.Call → σ → Prop}

/-- A program with this token keeps the invariant as long as it lives, and its token is good for
the result if it ends by itself. -/
def Prog.Lives (M : Machine I σ) (stops : σ → I.Call → σ → Prop)
    (invariant : (ι → γ) → σ → Prop) (good : γ → α → Prop) (token : γ) (program : Prog I α) :
    Prop :=
  program.mortal.Keeps (M.mortal stops) invariant
    (fun token result => ∀ value, result = some value → good token value) token

section Rules

variable {invariant : (ι → γ) → σ → Prop} {good : γ → α → Prop} {token : γ}

theorem Prog.Lives.pure {value : α} (isGood : good token value) :
    (Prog.pure value : Prog I α).Lives M stops invariant good token := by
  rintro _ ⟨⟩
  exact isGood

theorem Prog.Lives.mono {better : γ → α → Prop} {program : Prog I α}
    (lives : program.Lives M stops invariant good token)
    (implies : ∀ token value, good token value → better token value) :
    program.Lives M stops invariant better token := by
  apply Prog.Keeps.mono lives
  exact fun token _ isGood value same => implies token value (isGood value same)

theorem Prog.Lives.bind {middle : γ → β → Prop} {program : Prog I β} {rest : β → Prog I α}
    (first : program.Lives M stops invariant middle token)
    (second : ∀ token value, middle token value →
      (rest value).Lives M stops invariant good token) :
    (program.bind rest).Lives M stops invariant good token := by
  unfold Prog.Lives
  rw [Prog.mortal_bind]
  apply Prog.Keeps.bind first
  rintro token (_ | value) holds
  · nofun
  · exact second token value (holds value rfl)

variable {common : σ → Prop} {known : γ → σ → Prop} {apart : γ → γ → Prop}
  {request : I.Call} {next : I.Answer request → Prog I α}

/-- A call of a program that may be stopped there. What the others know must survive either. -/
theorem Prog.Lives.call_joint (symm : ∀ one other, apart one other → apart other one)
    (stop : ∀ before after, common before → known token before → stops before request after →
      ∃ token', common after ∧ known token' after ∧
        ∀ other, apart token other → known other before → apart token' other ∧ known other after)
    (step : ∀ before answer after, common before → known token before →
      M.Step before request answer after → ∃ token', common after ∧ known token' after ∧
        (∀ other, apart token other → known other before →
          apart token' other ∧ known other after) ∧
        (next answer).Lives M stops (Joint (ι := ι) common known apart) good token') :
    (Prog.call request next).Lives M stops (Joint (ι := ι) common known apart) good token := by
  unfold Prog.Lives Prog.mortal
  apply Prog.Keeps.call_joint symm
  rintro before (_ | answer) after isCommon isKnown moved
  · rcases stop before after isCommon isKnown moved with ⟨token', isCommon', isKnown', others⟩
    exact ⟨token', isCommon', isKnown', others, nofun⟩
  · exact step before answer after isCommon isKnown moved

end Rules

end Interaction
