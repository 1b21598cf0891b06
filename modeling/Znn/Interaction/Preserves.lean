import Znn.Interaction.Transcript

/-!
# Invariants of stateful programs

A program preserves an invariant of its private state if every run from a state in it ends in a
state in it, as long as the exchanges of the run are what the environment is known to keep to. The
rules follow the way a program is built; a loop preserves what its body preserves.
-/

namespace Interaction

namespace StateProg

variable {I : Interface} {α β δ : Type}

/-- Every run from a state in `inv` whose exchanges are all `good` ends in a state in `inv`. -/
def Preserves (good : Exchange I → Prop) (inv : δ → Prop) (program : StateProg I δ α) : Prop :=
  ∀ own, inv own → Says program (fun _ own' transcript =>
    (∀ exchange ∈ transcript, good exchange) → inv own') own

namespace Preserves

variable {good : Exchange I → Prop} {inv : δ → Prop} {program : StateProg I δ α}
  {rest : α → StateProg I δ β}

theorem of_says (holds : ∀ own, inv own → Says program (fun _ own' _ => inv own') own) :
    Preserves good inv program := by
  intro own start
  apply says_mono (holds own start)
  intro _ _ _ kept _
  exact kept

theorem pure (value : α) : Preserves good inv (pure value : StateProg I δ α) :=
  fun _ start _ => start

theorem bind (first : Preserves good inv program)
    (second : ∀ value, Preserves good inv (rest value)) :
    Preserves good inv (program >>= rest) := by
  intro own start
  rw [says_bind]
  apply says_mono (first own start)
  intro value own' transcript kept
  by_cases isGood : ∀ exchange ∈ transcript, good exchange
  · apply says_mono (second value own' (kept isGood))
    intro _ _ _ kept' allGood
    exact kept' fun exchange present => allGood exchange (List.mem_append_right _ present)
  · apply Prog.says_iff_talks.mpr
    intro _ _ _ allGood
    exact absurd (fun exchange present => allGood exchange (List.mem_append_left _ present)) isGood

/-- The rest is run from the state it is given. -/
theorem bind_get_here {rest : δ → StateProg I δ β}
    (second : ∀ own, inv own → Says (rest own) (fun _ own' transcript =>
      (∀ exchange ∈ transcript, good exchange) → inv own') own) :
    Preserves good inv (get >>= rest) := by
  intro own start
  rw [says_bind, says_get]
  exact second own start

/-- The rest may use that the state it is given is one of the invariant. -/
theorem bind_get {rest : δ → StateProg I δ β}
    (second : ∀ own, inv own → Preserves good inv (rest own)) :
    Preserves good inv (get >>= rest) :=
  bind_get_here fun own start => second own start own start

theorem modify {change : δ → δ} (keeps : ∀ own, inv own → inv (change own)) :
    Preserves good inv (modify change) := by
  intro own start
  rw [says_modify]
  exact fun _ => keeps own start

theorem lift (program : Prog I α) : Preserves good inv (liftM program : StateProg I δ α) := by
  intro own start
  rw [says_lift]
  exact Prog.says_iff_talks.mpr fun _ _ _ _ => start

/-- A first part that only talks to the environment, with what is known of it when its exchanges
are good. -/
theorem bind_lift {program : Prog I α} {spec : α → List (Exchange I) → Prop}
    (told : program.Says spec)
    (second : ∀ value transcript, spec value transcript →
      (∀ exchange ∈ transcript, good exchange) → Preserves good inv (rest value)) :
    Preserves good inv (liftM program >>= rest) := by
  intro own start
  rw [says_bind, says_lift]
  apply told.mono
  intro value transcript isSpec
  by_cases isGood : ∀ exchange ∈ transcript, good exchange
  · apply says_mono (second value transcript isSpec isGood own start)
    intro _ _ _ kept allGood
    exact kept fun exchange present => allGood exchange (List.mem_append_right _ present)
  · apply Prog.says_iff_talks.mpr
    intro _ _ _ allGood
    exact absurd (fun exchange present => allGood exchange (List.mem_append_left _ present)) isGood

theorem bind_any {program : Prog I α} (second : ∀ value, Preserves good inv (rest value)) :
    Preserves good inv (liftM program >>= rest) :=
  bind (lift program) second

/-- The loop rule. -/
theorem forM {items : List β} {body : β → StateProg I δ PUnit}
    (turn : ∀ item ∈ items, Preserves good inv (body item)) :
    Preserves good inv (items.forM body) := by
  induction items with
  | nil => exact pure _
  | cons item rest ih =>
      apply bind (turn item List.mem_cons_self)
      intro _
      exact ih fun other present => turn other (List.mem_cons_of_mem _ present)

end Preserves

end StateProg

end Interaction
