import Znn.Interaction.Transcript

/-!
# The results of programs with a state

`StateProg.Returns` says of every result a program can have, from whatever state it starts and
however it is answered, what can be said of it without knowing either.
-/

namespace Interaction

namespace StateProg

variable {I : Interface} {δ α β : Type} {good : α → Prop} {better : β → Prop}

def Returns (good : α → Prop) (program : StateProg I δ α) : Prop :=
  ∀ own, Prog.Returns (fun result => good result.1) (program.run own)

namespace Returns

theorem pure {value : α} (holds : good value) :
    Returns good (Pure.pure value : StateProg I δ α) :=
  fun _ => holds

theorem bind {program : StateProg I δ α} {rest : α → StateProg I δ β} (first : Returns good program)
    (second : ∀ value, good value → Returns better (rest value)) :
    Returns better (program >>= rest) :=
  fun own => Prog.Returns.bind (first own) fun result holds => second result.1 holds result.2

theorem bind_any (program : StateProg I δ α) {rest : α → StateProg I δ β}
    (second : ∀ value, Returns better (rest value)) : Returns better (program >>= rest) :=
  fun own => Prog.Returns.bind_any (program.run own) fun result => second result.1 result.2

theorem lift {program : Prog I α} (returns : program.Returns good) :
    Returns good (liftM program : StateProg I δ α) :=
  fun _ => Prog.Returns.bind returns fun _ holds => holds

theorem mono {weaker : α → Prop} {program : StateProg I δ α} (returns : Returns good program)
    (implies : ∀ value, good value → weaker value) : Returns weaker program :=
  fun own => Prog.Returns.mono (returns own) fun result => implies result.1

theorem transcripts {program : StateProg I δ α} (returns : Returns good program) (own : δ) :
    Says program (fun value _ _ => good value) own :=
  (returns own).transcripts

end Returns

end StateProg

end Interaction
