import Mathlib.Control.Basic

/-!
# Programs that call an environment

A program is a finite tree of calls: each node names a request, and the answer of the
environment selects the branch the program goes on with. Nothing is said here about what
an answer can be, so one program text can be read against several environments: one that
answers everything, one that keeps a memory, one that only counts.

`Prog.All` says that every call a program can ever make satisfies a predicate. It is the
syntactic side of framing: a program all of whose calls leave something alone leaves it
alone. `Prog.Returns` says the same of the results.
-/

namespace Interaction

/-- The requests a program may issue, and the type each request is answered in. -/
structure Interface where
  /-- The requests. -/
  Call : Type
  /-- The answers to a request. -/
  Answer : Call → Type

/-- A program over `I`: a result, or a call and what is done with its answer. -/
inductive Prog (I : Interface) (α : Type) where
  | pure (value : α)
  | call (request : I.Call) (next : I.Answer request → Prog I α)

namespace Prog

variable {I : Interface} {α β γ : Type}

/-- Sequential composition. -/
def bind : Prog I α → (α → Prog I β) → Prog I β
  | .pure value, rest => rest value
  | .call request next, rest => .call request fun answer => (next answer).bind rest

instance : Monad (Prog I) where
  pure := .pure
  bind := .bind

/-- Issue one request and return its answer. -/
def perform (request : I.Call) : Prog I (I.Answer request) :=
  .call request .pure

@[simp]
theorem pure_eq (value : α) : (Pure.pure value : Prog I α) = .pure value := rfl

@[simp]
theorem bind_eq (program : Prog I α) (rest : α → Prog I β) :
    program >>= rest = program.bind rest := rfl

@[simp]
theorem pure_bind' (value : α) (rest : α → Prog I β) :
    (Prog.pure value).bind rest = rest value := rfl

theorem bind_pure' (program : Prog I α) : program.bind .pure = program := by
  induction program with
  | pure value => rfl
  | call request next ih =>
      simp only [bind]
      congr
      funext answer
      exact ih answer

theorem bind_assoc' (program : Prog I α) (middle : α → Prog I β) (rest : β → Prog I γ) :
    (program.bind middle).bind rest = program.bind fun value => (middle value).bind rest := by
  induction program with
  | pure value => rfl
  | call request next ih =>
      simp only [bind]
      congr
      funext answer
      exact ih answer

instance : LawfulMonad (Prog I) :=
  LawfulMonad.mk' (Prog I) bind_pure' pure_bind' bind_assoc'

/-- A program over one interface, run over another: each of its calls is made there. -/
def via {J : Interface} (embed : (request : I.Call) → Prog J (I.Answer request)) :
    Prog I α → Prog J α
  | .pure value => .pure value
  | .call request next => (embed request).bind fun answer => (next answer).via embed

/-- Every call the program can make, whatever it is answered, satisfies `allowed`. -/
def All (allowed : I.Call → Prop) : Prog I α → Prop
  | .pure _ => True
  | .call request next => allowed request ∧ ∀ answer, (next answer).All allowed

section All

variable {allowed : I.Call → Prop}

@[simp]
theorem all_pure (value : α) : (Prog.pure value : Prog I α).All allowed := trivial

@[simp]
theorem all_perform (request : I.Call) :
    All (α := no_index (I.Answer request)) allowed (perform request) ↔ allowed request := by
  simp [perform, All]

@[simp]
theorem all_perform_bind (request : I.Call) (rest : I.Answer request → Prog I α) :
    (bind (α := no_index (I.Answer request)) (perform request) rest).All allowed ↔
      allowed request ∧ ∀ answer, (rest answer).All allowed :=
  Iff.rfl

theorem All.bind {program : Prog I α} {rest : α → Prog I β} (first : program.All allowed)
    (second : ∀ value, (rest value).All allowed) : (program.bind rest).All allowed := by
  induction program with
  | pure value => exact second value
  | call request next ih => exact ⟨first.1, fun answer => ih answer (first.2 answer)⟩

theorem All.mono {weaker : I.Call → Prop} {program : Prog I α} (holds : program.All allowed)
    (implies : ∀ request, allowed request → weaker request) : program.All weaker := by
  induction program with
  | pure value => trivial
  | call request next ih =>
      exact ⟨implies request holds.1, fun answer => ih answer (holds.2 answer)⟩

end All

/-- Every result the program can have, whatever it is answered, satisfies `good`. -/
def Returns (good : α → Prop) : Prog I α → Prop
  | .pure value => good value
  | .call _ next => ∀ answer, (next answer).Returns good

theorem Returns.bind_any {good : β → Prop} {rest : α → Prog I β} (program : Prog I α)
    (second : ∀ value, (rest value).Returns good) : (program.bind rest).Returns good := by
  induction program with
  | pure value => exact second value
  | call request next ih => exact fun answer => ih answer

theorem Returns.bind {good : α → Prop} {better : β → Prop} {program : Prog I α}
    {rest : α → Prog I β} (first : program.Returns good)
    (second : ∀ value, good value → (rest value).Returns better) :
    (program.bind rest).Returns better := by
  induction program with
  | pure value => exact second value first
  | call request next ih => exact fun answer => ih answer (first answer)

theorem Returns.mono {good better : α → Prop} {program : Prog I α} (returns : program.Returns good)
    (implies : ∀ value, good value → better value) : program.Returns better := by
  induction program with
  | pure value => exact implies value returns
  | call request next ih => exact fun answer => ih answer (returns answer)

theorem Returns.of_forall {good : α → Prop} (program : Prog I α) (all : ∀ value, good value) :
    program.Returns good := by
  induction program with
  | pure value => exact all value
  | call request next ih => exact fun answer => ih answer

/-- Run a program against an environment that is a function of its own state. -/
def eval {σ : Type} (respond : (request : I.Call) → σ → I.Answer request × σ) :
    Prog I α → σ → α × σ
  | .pure value, state => (value, state)
  | .call request next, state =>
      (next (respond request state).1).eval respond (respond request state).2

end Prog

end Interaction
