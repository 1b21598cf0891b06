import Mathlib.Data.List.Infix

/-!
# Framing

A stream arrives in pieces that end anywhere. A reader takes out the frames that are complete and
carries what is left over to the next piece; if its cut of a stream is one that further input only
continues, then where the pieces end makes no difference.
-/

/-- A way to cut a stream into complete frames and a rest that further input is appended to. -/
structure Framing (α β : Type*) where
  frames : List α → List β
  rest : List α → List α
  rest_nil : rest [] = []
  frames_append : ∀ seen more, frames (seen ++ more) = frames seen ++ frames (rest seen ++ more)
  rest_append : ∀ seen more, rest (seen ++ more) = rest (rest seen ++ more)

namespace Framing

variable {α β : Type*}

@[simp]
theorem rest_rest (framing : Framing α β) (seen : List α) :
    framing.rest (framing.rest seen) = framing.rest seen := by
  have again := framing.rest_append seen []
  rw [List.append_nil, List.append_nil] at again
  exact again.symm

@[simp]
theorem frames_rest (framing : Framing α β) (seen : List α) :
    framing.frames (framing.rest seen) = [] := by
  have again := framing.frames_append seen []
  rw [List.append_nil, List.append_nil] at again
  exact List.append_right_eq_self.mp again.symm

section Lines

variable [DecidableEq α] {separator : α} {seen more : List α}

/-- What stands behind the last separator. -/
def lastLine (separator : α) (text : List α) : List α :=
  (text.splitOn separator).getLast (List.splitOn_ne_nil separator text)

def completeLines (separator : α) (text : List α) : List (List α) :=
  (text.splitOn separator).dropLast

theorem completeLines_concat_lastLine (separator : α) (text : List α) :
    completeLines separator text ++ [lastLine separator text] = text.splitOn separator :=
  List.dropLast_concat_getLast _

theorem completeLines_of_splitOn {before : List (List α)} {last : List α}
    (cut : seen.splitOn separator = before ++ [last]) :
    completeLines separator seen = before ∧ lastLine separator seen = last := by
  have whole := completeLines_concat_lastLine separator seen
  rw [cut] at whole
  exact List.append_inj' whole rfl |>.imp_right List.singleton_inj.mp

theorem completeLines_of_not_mem (unseparated : separator ∉ seen) :
    completeLines separator seen = [] ∧ lastLine separator seen = seen :=
  @completeLines_of_splitOn _ _ _ _ [] _ (List.splitOn_eq_singleton unseparated)

/-- The first separator ends the first line. -/
theorem completeLines_append_cons (unseparated : separator ∉ seen) :
    completeLines separator (seen ++ separator :: more) = seen :: completeLines separator more ∧
      lastLine separator (seen ++ separator :: more) = lastLine separator more := by
  have cut := List.splitOn_append_cons_self_of_not_mem unseparated more
  rw [← completeLines_concat_lastLine separator more, ← List.cons_append] at cut
  exact completeLines_of_splitOn cut

theorem splitOn_append (separator : α) (seen more : List α) : (seen ++ more).splitOn separator =
    completeLines separator seen ++ (lastLine separator seen ++ more).splitOn separator := by
  induction seen with
  | nil => rfl
  | cons symbol seen ih =>
      have tail := completeLines_concat_lastLine separator seen
      have cut := List.splitOn_cons_eq_if_modifyHead (a := separator) symbol seen
      rw [List.cons_append, List.splitOn_cons_eq_if_modifyHead, ih]
      by_cases ends : symbol = separator
      · rw [if_pos (beq_iff_eq.mpr ends), ← tail, ← List.cons_append] at cut
        rcases completeLines_of_splitOn cut with ⟨same, last⟩
        rw [if_pos (beq_iff_eq.mpr ends), same, last, List.cons_append]
      · rw [if_neg (by simpa using ends), ← tail] at cut
        rw [if_neg (by simpa using ends)]
        cases lines : completeLines separator seen with
        | nil =>
            rw [lines] at cut
            rcases @completeLines_of_splitOn _ _ _ _ [] _ cut with ⟨same, last⟩
            rw [same, last, List.nil_append, List.nil_append, List.cons_append,
              List.splitOn_cons_eq_if_modifyHead, if_neg (by simpa using ends)]
        | cons line lines' =>
            rw [lines, List.cons_append, List.modifyHead_cons, ← List.cons_append] at cut
            rcases completeLines_of_splitOn cut with ⟨same, last⟩
            rw [same, last]
            rfl

/-- The lines of a text, each up to its separator. -/
def lines (separator : α) : Framing α (List α) where
  frames := completeLines separator
  rest := lastLine separator
  rest_nil := rfl
  frames_append seen more := by
    have cut := splitOn_append separator seen more
    rw [← completeLines_concat_lastLine separator (lastLine separator seen ++ more),
      ← List.append_assoc] at cut
    exact (completeLines_of_splitOn cut).1
  rest_append seen more := by
    have cut := splitOn_append separator seen more
    rw [← completeLines_concat_lastLine separator (lastLine separator seen ++ more),
      ← List.append_assoc] at cut
    exact (completeLines_of_splitOn cut).2

theorem not_mem_of_mem_splitOn {text line : List α} (member : line ∈ text.splitOn separator) :
    separator ∉ line := by
  induction text generalizing line with
  | nil =>
      rw [List.splitOn_nil, List.mem_singleton] at member
      rw [member]
      exact List.not_mem_nil
  | cons symbol text ih =>
      rw [List.splitOn_cons_eq_if_modifyHead] at member
      split at member
      · rcases List.mem_cons.mp member with rfl | later
        · exact List.not_mem_nil
        · exact ih later
      case isFalse other =>
        have different : separator ≠ symbol := fun same => other (beq_iff_eq.mpr same.symm)
        cases cut : text.splitOn separator with
        | nil => exact absurd cut (List.splitOn_ne_nil _ _)
        | cons first rest =>
            rw [cut] at member ih
            rw [List.modifyHead_cons] at member
            rcases List.mem_cons.mp member with rfl | later
            · rw [List.mem_cons, not_or]
              exact ⟨different, ih List.mem_cons_self⟩
            · exact ih (List.mem_cons_of_mem _ later)

theorem not_mem_lastLine (separator : α) (text : List α) : separator ∉ lastLine separator text :=
  not_mem_of_mem_splitOn (List.getLast_mem _)

/-- Text without a separator belongs to one line, whatever comes after it. -/
theorem splitOn_of_not_mem (piece more : List α) (unseparated : separator ∉ piece) :
    ∃ line rest, (piece ++ more).splitOn separator = line :: rest ∧ piece <+: line := by
  induction piece with
  | nil =>
      cases cut : more.splitOn separator with
      | nil => exact absurd cut (List.splitOn_ne_nil _ _)
      | cons line rest => exact ⟨line, rest, cut, List.nil_prefix⟩
  | cons symbol piece ih =>
      rw [List.mem_cons, not_or] at unseparated
      rcases ih unseparated.2 with ⟨line, rest, cut, begins⟩
      refine ⟨symbol :: line, rest, ?_, List.cons_prefix_cons.mpr ⟨rfl, begins⟩⟩
      have other : ¬(symbol == separator) = true := by
        rw [beq_iff_eq]
        exact fun same => unseparated.1 same.symm
      rw [List.cons_append, List.splitOn_cons_eq_if_modifyHead, if_neg other, cut,
        List.modifyHead_cons]

/-- What is carried over is never longer than the line that it becomes. -/
theorem length_lastLine_le {bound : Nat}
    (short : ∀ line ∈ (seen ++ more).splitOn separator, line.length ≤ bound) :
    (lastLine separator seen).length ≤ bound := by
  rcases splitOn_of_not_mem _ more (not_mem_lastLine separator seen) with
    ⟨line, rest, cut, begins⟩
  have member : line ∈ (seen ++ more).splitOn separator := by
    rw [splitOn_append, cut]
    exact List.mem_append_right _ List.mem_cons_self
  exact Nat.le_trans begins.length_le (short line member)

end Lines

end Framing

/-- A way to take the first frame off a stream. What has been recognised as a frame stays one,
whatever follows. -/
structure Cutter (α β : Type*) where
  next : List α → Option (β × List α)
  shrinks : ∀ {text frame rest}, next text = some (frame, rest) → rest.length < text.length
  stable : ∀ {text frame rest}, next text = some (frame, rest) → ∀ more,
    next (text ++ more) = some (frame, rest ++ more)

namespace Cutter

variable {α β : Type*} (cutter : Cutter α β) {fuel : Nat} {text more after : List α} {frame : β}

/-- The frames at the front of a text, as many as there are and `fuel` at most, and the rest. -/
def run : Nat → List α → List β × List α
  | 0, text => ([], text)
  | fuel + 1, text =>
      match cutter.next text with
      | none => ([], text)
      | some (frame, rest) => (frame :: (run fuel rest).1, (run fuel rest).2)

def frames (text : List α) : List β := (cutter.run text.length text).1

def rest (text : List α) : List α := (cutter.run text.length text).2

theorem run_of_le (enough : text.length ≤ fuel) :
    cutter.run fuel text = (cutter.frames text, cutter.rest text) := by
  suffices same : ∀ fuel more text, text.length ≤ fuel → text.length ≤ more →
      cutter.run fuel text = cutter.run more text from
    same fuel text.length text enough (Nat.le_refl _)
  intro fuel
  induction fuel with
  | zero =>
      intro more text empty _
      cases text with
      | cons => exact absurd empty (Nat.not_succ_le_zero _)
      | nil =>
          cases more with
          | zero => rfl
          | succ more =>
              rw [run, run]
              cases cut : cutter.next [] with
              | none => rfl
              | some found => exact absurd (cutter.shrinks cut) (Nat.not_lt_zero _)
  | succ fuel ih =>
      intro more text first second
      cases cut : cutter.next text with
      | none =>
          cases more with
          | zero => simp only [run, cut]
          | succ more => simp only [run, cut]
      | some found =>
          have shorter := cutter.shrinks cut
          cases more with
          | zero => omega
          | succ more => simp only [run, cut, ih more found.2 (by omega) (by omega)]

theorem frames_of_none (none : cutter.next text = none) :
    cutter.frames text = [] ∧ cutter.rest text = text := by
  have cut : cutter.run (text.length + 1) text = ([], text) := by rw [run, none]
  rw [cutter.run_of_le (Nat.le_succ _)] at cut
  exact Prod.mk.inj cut

theorem frames_of_some (found : cutter.next text = some (frame, after)) :
    cutter.frames text = frame :: cutter.frames after ∧ cutter.rest text = cutter.rest after := by
  have shorter := cutter.shrinks found
  have cut : cutter.run (text.length + 1) text =
      (frame :: cutter.frames after, cutter.rest after) := by
    simp only [run, found, cutter.run_of_le (Nat.le_of_lt shorter)]
  rw [cutter.run_of_le (Nat.le_succ _)] at cut
  exact Prod.mk.inj cut

/-- Cutting goes on where it has stopped when there is more. -/
theorem frames_append (text more : List α) :
    cutter.frames (text ++ more) = cutter.frames text ++ cutter.frames (cutter.rest text ++ more) ∧
      cutter.rest (text ++ more) = cutter.rest (cutter.rest text ++ more) := by
  induction size : text.length using Nat.strong_induction_on generalizing text with
  | _ size ih =>
      cases cut : cutter.next text with
      | none =>
          rcases cutter.frames_of_none cut with ⟨nothing, same⟩
          rw [nothing, same]
          exact ⟨rfl, rfl⟩
      | some found =>
          rcases found with ⟨frame, after⟩
          rcases cutter.frames_of_some cut with ⟨first, later⟩
          rcases cutter.frames_of_some (cutter.stable cut more) with ⟨firstMore, laterMore⟩
          have shorter := cutter.shrinks cut
          rcases ih after.length (by omega) after rfl with ⟨others, left⟩
          rw [first, later, firstMore, laterMore, others, left]
          exact ⟨rfl, rfl⟩

def framing : Framing α β where
  frames := cutter.frames
  rest := cutter.rest
  rest_nil := by
    cases cut : cutter.next [] with
    | none => exact (cutter.frames_of_none cut).2
    | some found => exact absurd (cutter.shrinks cut) (Nat.not_lt_zero _)
  frames_append seen more := (cutter.frames_append seen more).1
  rest_append seen more := (cutter.frames_append seen more).2

end Cutter
