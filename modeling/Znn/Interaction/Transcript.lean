import Znn.Interaction.Semantics

/-!
# Transcripts

The transcript of a run is the list of its calls with their answers. `Prog.Talks` relates a
program to its results and transcripts, in an environment that may answer anything;
`Prog.Says post` is the statement that every run satisfies `post`, with one rule for each way
a program is built. What a machine keeps of a run can be computed from the transcript: see
`Talks.runs_ledger`.
-/

namespace Interaction

variable {I : Interface} {α β δ ε : Type}

/-- A call and its answer. -/
abbrev Exchange (I : Interface) : Type :=
  (request : I.Call) × I.Answer request

/-- The environment with the history of its exchanges, each with the state it was made in. -/
def Machine.told {σ : Type} (M : Machine I σ) : Machine I (σ × List (σ × Exchange I)) where
  Step before request answer after :=
    M.Step before.1 request answer after.1 ∧
      after.2 = before.2 ++ [(before.1, ⟨request, answer⟩)]

namespace Prog

/-- One run of a program: its result and its transcript. -/
inductive Talks : Prog I α → α → List (Exchange I) → Prop
  | pure (value : α) : Talks (.pure value) value []
  | call {request : I.Call} {next : I.Answer request → Prog I α} {answer : I.Answer request}
      {value : α} {transcript : List (Exchange I)}
      (rest : Talks (next answer) value transcript) :
      Talks (.call request next) value (⟨request, answer⟩ :: transcript)

theorem Talks.exchange {request : I.Call} {answer : I.Answer request}
    {transcript : List (Exchange I)} (talks : (perform request).Talks answer transcript) :
    transcript = [⟨request, answer⟩] := by
  cases talks with
  | call rest =>
      cases rest
      rfl

/-- Every run of the program satisfies `post`. -/
def Says : Prog I α → (α → List (Exchange I) → Prop) → Prop
  | .pure value, post => post value []
  | .call request next, post =>
      ∀ answer, (next answer).Says fun value transcript => post value (⟨request, answer⟩ :: transcript)

section Rules

variable {post weaker : α → List (Exchange I) → Prop} {program : Prog I α}

theorem says_iff_talks :
    program.Says post ↔ ∀ value transcript, program.Talks value transcript →
      post value transcript := by
  induction program generalizing post with
  | pure value =>
      constructor
      · intro holds result transcript talks
        cases talks
        exact holds
      · intro holds
        exact holds value [] (.pure value)
  | call request next ih =>
      constructor
      · intro holds value transcript talks
        cases talks with
        | call rest => exact (ih _).mp (holds _) value _ rest
      · intro holds answer
        exact (ih answer).mpr fun value transcript rest => holds value _ (.call rest)

theorem Talks.of_says {value : α} {transcript : List (Exchange I)}
    (talks : program.Talks value transcript) (holds : program.Says post) :
    post value transcript :=
  says_iff_talks.mp holds value transcript talks

theorem says_talks (program : Prog I α) : program.Says program.Talks :=
  says_iff_talks.mpr fun _ _ talks => talks

theorem Says.mono (holds : program.Says post)
    (implies : ∀ value transcript, post value transcript → weaker value transcript) :
    program.Says weaker :=
  says_iff_talks.mpr fun value transcript talks =>
    implies value transcript (talks.of_says holds)

theorem Says.and (left : program.Says post) (right : program.Says weaker) :
    program.Says fun value transcript => post value transcript ∧ weaker value transcript :=
  says_iff_talks.mpr fun _ _ talks => ⟨talks.of_says left, talks.of_says right⟩

theorem says_bind {rest : α → Prog I β} {post : β → List (Exchange I) → Prop} :
    (program.bind rest).Says post ↔ program.Says fun value first =>
      (rest value).Says fun result second => post result (first ++ second) := by
  induction program generalizing post with
  | pure value => rfl
  | call request next ih =>
      simp only [bind, Says]
      exact forall_congr' fun answer => ih answer

/-- Every exchange of a run is one of the calls that the program can make. -/
theorem All.exchanges {calls : I.Call → Prop} (all : program.All calls) :
    program.Says fun _ transcript => ∀ exchange ∈ transcript, calls exchange.1 := by
  induction program with
  | pure value =>
      intro exchange present
      exact absurd present List.not_mem_nil
  | call request next ih =>
      intro answer
      apply Says.mono (ih answer (all.2 answer))
      intro value transcript rest exchange present
      rcases List.mem_cons.mp present with rfl | later
      · exact all.1
      · exact rest exchange later

/-- What all results of a program satisfy, every run's result does. -/
theorem Returns.transcripts {good : α → Prop} (returns : program.Returns good) :
    program.Says fun value _ => good value := by
  induction program with
  | pure value => exact returns
  | call request next ih => exact fun answer => ih answer (returns answer)

/-- A run seen through a ledger. -/
theorem Talks.runs_ledger {effects : (request : I.Call) → I.Answer request → List ε} {value : α}
    {transcript : List (Exchange I)} (talks : program.Talks value transcript) (log : List ε) :
    program.Runs (Machine.ledger effects) log value
      (log ++ transcript.flatMap fun exchange => effects exchange.1 exchange.2) := by
  induction talks generalizing log with
  | pure value =>
      rw [List.flatMap_nil, List.append_nil]
      exact .pure value log
  | call rest ih =>
      rw [List.flatMap_cons, ← List.append_assoc]
      exact .call rfl (ih _)

/-- What holds of every run in a ledger, said of the transcripts. -/
theorem says_of_wp {effects : (request : I.Call) → I.Answer request → List ε} {log : List ε}
    {post : α → List ε → Prop} (holds : program.wp (Machine.ledger effects) post log) :
    program.Says fun value transcript =>
      post value (log ++ transcript.flatMap fun exchange => effects exchange.1 exchange.2) :=
  says_iff_talks.mpr fun _ _ talks => (talks.runs_ledger log).of_wp holds

/-- Whatever the environment answers, there is a run with these answers. -/
theorem exists_talks (answers : (request : I.Call) → I.Answer request) (program : Prog I α) :
    ∃ value transcript, program.Talks value transcript ∧
      ∀ exchange ∈ transcript, exchange.2 = answers exchange.1 := by
  induction program with
  | pure value => exact ⟨value, [], .pure value, fun _ present => absurd present List.not_mem_nil⟩
  | call request next ih =>
      rcases ih (answers request) with ⟨value, transcript, talks, answered⟩
      refine ⟨value, _, .call talks, ?_⟩
      intro exchange present
      rcases List.mem_cons.mp present with rfl | later
      · rfl
      · exact answered exchange later

/-- The run of the evaluation, with its transcript. -/
theorem talks_eval (answers : (request : I.Call) → I.Answer request) (program : Prog I α) :
    let result := program.eval (fun request history =>
      (answers request, history ++ [⟨request, answers request⟩])) []
    program.Talks result.1 result.2 := by
  suffices each : ∀ history : List (Exchange I), ∃ transcript, program.Talks
      (program.eval (fun request history =>
        (answers request, history ++ [⟨request, answers request⟩])) history).1 transcript ∧
      (program.eval (fun request history =>
        (answers request, history ++ [⟨request, answers request⟩])) history).2 =
          history ++ transcript by
    rcases each [] with ⟨transcript, talks, same⟩
    rw [List.nil_append] at same
    intro result
    rwa [same]
  induction program with
  | pure value => exact fun history => ⟨[], .pure value, (List.append_nil history).symm⟩
  | call request next ih =>
      intro history
      rcases ih (answers request) (history ++ [⟨request, answers request⟩]) with
        ⟨transcript, talks, same⟩
      refine ⟨⟨request, answers request⟩ :: transcript, .call talks, ?_⟩
      rw [eval, same]
      simp

end Rules

section Replay

variable [DecidableEq I.Call]

/-- Run a program against a transcript; there is no result unless it asks what the transcript
answers, from the first exchange to the last. -/
def replay : Prog I α → List (Exchange I) → Option α
  | .pure value, [] => some value
  | .pure _, _ :: _ => none
  | .call _ _, [] => none
  | .call request next, ⟨asked, answer⟩ :: rest =>
      if same : asked = request then (next (same ▸ answer)).replay rest else none

theorem Talks.of_replay {program : Prog I α} {transcript : List (Exchange I)} {value : α}
    (replays : program.replay transcript = some value) : program.Talks value transcript := by
  induction program generalizing transcript with
  | pure result =>
      cases transcript with
      | nil =>
          cases replays
          exact .pure value
      | cons exchange rest => cases replays
  | call request next ih =>
      cases transcript with
      | nil => cases replays
      | cons exchange rest =>
          rcases exchange with ⟨asked, answer⟩
          rw [replay] at replays
          split at replays
          case isTrue same =>
            subst same
            exact .call (ih answer replays)
          case isFalse => cases replays

end Replay

section Histories

variable {σ : Type} {M : Machine I σ} {program : Prog I α} {state : σ}
  {history : List (σ × Exchange I)}

/-- What holds of the states of the environment does so when their history is kept. -/
theorem wp_told {post : α → σ → Prop} (holds : program.wp M post state)
    (history : List (σ × Exchange I)) :
    program.wp M.told (fun value after => post value after.1) (state, history) := by
  induction program generalizing state history with
  | pure value => exact holds
  | call request next ih =>
      rintro answer ⟨middle, told⟩ ⟨step, same⟩
      exact ih answer (holds answer middle step) told

/-- What a program says is appended to the history. -/
theorem says_told {post : α → List (Exchange I) → Prop} (holds : program.Says post)
    (state : σ) (history : List (σ × Exchange I)) :
    program.wp M.told (fun value after => ∃ new, after.2 = history ++ new ∧
      post value (new.map Prod.snd)) (state, history) := by
  induction program generalizing state history post with
  | pure value => exact ⟨[], (List.append_nil history).symm, holds⟩
  | call request next ih =>
      rintro answer ⟨middle, told⟩ ⟨step, same⟩
      apply wp_mono (ih answer (holds answer) middle told)
      rintro value after ⟨new, appended, isPost⟩
      have extended : told = history ++ [(state, ⟨request, answer⟩)] := same
      refine ⟨(state, ⟨request, answer⟩) :: new, ?_, isPost⟩
      rw [appended, extended, List.append_assoc]
      rfl

/-- Both at once. -/
theorem wp_told_says {post : α → σ → Prop} {said : α → List (Exchange I) → Prop}
    (holds : program.wp M post state) (speaks : program.Says said)
    (history : List (σ × Exchange I)) :
    program.wp M.told (fun value after => post value after.1 ∧
      ∃ new, after.2 = history ++ new ∧ said value (new.map Prod.snd)) (state, history) :=
  wp_and (wp_told holds history) (says_told speaks state history)

end Histories

end Prog

namespace StateProg

/-- Every run of a stateful program from `own` satisfies `post`. -/
def Says (program : StateProg I δ α) (post : α → δ → List (Exchange I) → Prop) (own : δ) :
    Prop :=
  (program.run own).Says fun result transcript => post result.1 result.2 transcript

/-- One run of a stateful program, with its transcript. -/
def Talks (program : StateProg I δ α) (own : δ) (value : α) (own' : δ)
    (transcript : List (Exchange I)) : Prop :=
  (program.run own).Talks (value, own') transcript

variable {post weaker : α → δ → List (Exchange I) → Prop} {own own' : δ}
  {program : StateProg I δ α}

theorem Talks.of_says {value : α} {transcript : List (Exchange I)}
    (talks : Talks program own value own' transcript) (holds : Says program post own) :
    post value own' transcript :=
  Prog.says_iff_talks.mp holds _ _ talks

theorem says_pure {value : α} (holds : post value own []) :
    Says (pure value : StateProg I δ α) post own :=
  holds

theorem says_bind {rest : α → StateProg I δ β} {post : β → δ → List (Exchange I) → Prop} :
    Says (program >>= rest) post own ↔ Says program (fun value own' first =>
      Says (rest value) (fun result own'' second => post result own'' (first ++ second)) own')
      own := by
  simp only [Says, StateT.run_bind, Prog.bind_eq, Prog.says_bind]

theorem says_lift {program : Prog I α} :
    Says (liftM program : StateProg I δ α) post own ↔
      program.Says fun value transcript => post value own transcript := by
  change (program.bind fun value => .pure (value, own)).Says _ ↔ _
  rw [Prog.says_bind]
  simp only [Prog.Says, List.append_nil]

/-- What a program that does not see the state has answered and asked. -/
theorem says_lift_bind {program : Prog I α} {rest : α → StateProg I δ β}
    {post : β → δ → List (Exchange I) → Prop}
    (each : ∀ value first, program.Talks value first → Says (rest value)
      (fun result own' second => post result own' (first ++ second)) own) :
    Says (liftM program >>= rest) post own :=
  says_bind.mpr (says_lift.mpr (program.says_talks.mono each))

theorem says_get {post : δ → δ → List (Exchange I) → Prop} :
    Says (get : StateProg I δ δ) post own ↔ post own own [] :=
  Iff.rfl

theorem says_modify (change : δ → δ) {post : PUnit → δ → List (Exchange I) → Prop} :
    Says (modify change : StateProg I δ PUnit) post own ↔ post ⟨⟩ (change own) [] :=
  Iff.rfl

theorem says_mono (holds : Says program post own)
    (implies : ∀ value own' transcript, post value own' transcript →
      weaker value own' transcript) : Says program weaker own :=
  Prog.Says.mono holds fun result transcript => implies result.1 result.2 transcript

theorem says_and (left : Says program post own) (right : Says program weaker own) :
    Says program (fun value own' transcript =>
      post value own' transcript ∧ weaker value own' transcript) own :=
  Prog.Says.and left right

section Histories

variable {σ : Type} {M : Machine I σ} {state : σ}

theorem says_told (holds : Says program post own) (state : σ)
    (history : List (σ × Exchange I)) :
    wp M.told program (fun value own' after => ∃ new, after.2 = history ++ new ∧
      post value own' (new.map Prod.snd)) own (state, history) :=
  Prog.says_told holds state history

theorem wp_told_says {post : α → δ → σ → Prop} {said : α → δ → List (Exchange I) → Prop}
    (holds : wp M program post own state) (speaks : Says program said own)
    (history : List (σ × Exchange I)) :
    wp M.told program (fun value own' after => post value own' after.1 ∧
      ∃ new, after.2 = history ++ new ∧ said value own' (new.map Prod.snd)) own (state, history) :=
  Prog.wp_told_says holds speaks history

end Histories

/-- Every call the stateful program can make, whatever it is answered and from whatever private
state, satisfies `calls`. -/
def All (calls : I.Call → Prop) (program : StateProg I δ α) : Prop :=
  ∀ own, (program.run own).All calls

namespace All

variable {calls : I.Call → Prop}

theorem pure (value : α) : All calls (pure value : StateProg I δ α) :=
  fun _ => trivial

theorem bind {rest : α → StateProg I δ β} (first : All calls program)
    (second : ∀ value, All calls (rest value)) : All calls (program >>= rest) := by
  intro own
  rw [StateT.run_bind]
  exact (first own).bind fun result => second result.1 result.2

theorem lift {program : Prog I α} (all : program.All calls) :
    All calls (liftM program : StateProg I δ α) :=
  fun _ => all.bind fun _ => trivial

theorem get : All calls (get : StateProg I δ δ) :=
  fun _ => trivial

theorem modify (change : δ → δ) : All calls (modify change : StateProg I δ PUnit) :=
  fun _ => trivial

theorem forM {items : List β} {body : β → StateProg I δ PUnit}
    (turn : ∀ item, All calls (body item)) : All calls (items.forM body) := by
  induction items with
  | nil => exact fun _ => trivial
  | cons item rest ih => exact bind (turn item) fun _ => ih

theorem mono {weaker : I.Call → Prop} (all : All calls program)
    (implies : ∀ request, calls request → weaker request) : All weaker program :=
  fun own => (all own).mono implies

theorem exchanges (all : All calls program) (own : δ) :
    Says program (fun _ _ transcript => ∀ exchange ∈ transcript, calls exchange.1) own :=
  Prog.All.exchanges (all own)

end All

end StateProg

end Interaction
