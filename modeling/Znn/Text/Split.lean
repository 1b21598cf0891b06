import Mathlib.Data.List.TakeWhile

/-!
# Splitting text

Text is cut at the first occurrence of a pattern, or into the words between blanks. A pattern
that avoids a symbol lies on one side of it, so where a pattern first occurs can be decided
piece by piece.
-/

namespace Text

variable {α : Type*}

section Once

variable [DecidableEq α] {pattern before after text : List α} {separator : α}

/-- What is before the first occurrence of the pattern, and what is after it. -/
def splitOnce (pattern : List α) : List α → Option (List α × List α)
  | [] => if pattern = [] then some ([], []) else none
  | first :: rest =>
      if pattern <+: first :: rest then
        some ([], (first :: rest).drop pattern.length)
      else
        (splitOnce pattern rest).map fun (before, after) => (first :: before, after)

/-- The same for the last occurrence of a symbol. -/
def rsplitOnce (symbol : α) (text : List α) : Option (List α × List α) :=
  (splitOnce [symbol] text.reverse).map fun (after, before) => (before.reverse, after.reverse)

theorem splitOnce_eq_none_iff : splitOnce pattern text = none ↔ ¬pattern <:+: text := by
  induction text with
  | nil =>
      rw [List.infix_nil]
      by_cases empty : pattern = [] <;> simp [splitOnce, empty]
  | cons first rest ih =>
      rw [List.infix_cons_iff, splitOnce]
      by_cases here : pattern <+: first :: rest
      · simp [here]
      · simp [here, ih]

theorem eq_of_splitOnce (found : splitOnce pattern text = some (before, after)) :
    text = before ++ (pattern ++ after) := by
  induction text generalizing before with
  | nil =>
      by_cases empty : pattern = []
      · rw [splitOnce, if_pos empty] at found
        cases found
        simp [empty]
      · simp [splitOnce, empty] at found
  | cons first rest ih =>
      rw [splitOnce] at found
      split at found
      · rename_i here
        cases found
        exact List.prefix_iff_eq_append.mp here |>.symm
      · cases later : splitOnce pattern rest with
        | none => simp [later] at found
        | some cut =>
            rw [later] at found
            cases found
            exact congrArg (first :: ·) (ih later)

/-- The pattern is found at a place before which it does not occur, not even in part. -/
theorem splitOnce_append (nonempty : pattern ≠ [])
    (clear : ¬pattern <:+: before ++ pattern.dropLast) :
    splitOnce pattern (before ++ (pattern ++ after)) = some (before, after) := by
  induction before with
  | nil =>
      cases pattern with
      | nil => exact absurd rfl nonempty
      | cons first rest =>
          have here : first :: rest <+: first :: (rest ++ after) := ⟨after, rfl⟩
          simp [splitOnce, here]
  | cons first before ih =>
      have elsewhere : ¬pattern <+: first :: (before ++ (pattern ++ after)) := by
        intro here
        apply clear
        have short : pattern.length ≤ (first :: before ++ pattern.dropLast).length := by
          simp only [List.length_append, List.length_cons, List.length_dropLast]
          omega
        have cut : first :: before ++ pattern.dropLast <+:
            first :: (before ++ (pattern ++ after)) := by
          refine ⟨[pattern.getLast nonempty] ++ after, ?_⟩
          have joined := congrArg (· ++ after) (List.dropLast_concat_getLast nonempty)
          simpa using joined
        exact (List.prefix_of_prefix_length_le here cut short).isInfix
      have later : ¬pattern <:+: before ++ pattern.dropLast := by
        intro found
        exact clear (List.infix_cons_iff.mpr (.inr found))
      rw [List.cons_append, splitOnce, if_neg elsewhere, ih later]
      rfl

theorem splitOnce_symbol (clear : separator ∉ before) :
    splitOnce [separator] (before ++ separator :: after) = some (before, after) := by
  apply splitOnce_append (List.cons_ne_nil _ _)
  intro found
  apply clear
  have occurs : separator ∈ before ++ [separator].dropLast :=
    found.subset (List.mem_singleton_self _)
  simpa using occurs

end Once

/-- A pattern without the separator lies on one side of it. -/
theorem infix_append_cons_iff {pattern before after : List α} {separator : α}
    (unseparated : separator ∉ pattern) :
    pattern <:+: before ++ separator :: after ↔ pattern <:+: before ∨ pattern <:+: after := by
  constructor
  · rintro ⟨left, right, located⟩
    rw [List.append_assoc, List.append_eq_append_iff] at located
    rcases located with ⟨middle, rfl, located⟩ | ⟨middle, rfl, located⟩
    · rw [List.append_eq_append_iff] at located
      rcases located with ⟨gap, rfl, _⟩ | ⟨tail, rfl, located⟩
      · exact .inl ⟨left, gap, by simp⟩
      · cases tail with
        | nil => exact .inl ⟨left, [], by simp⟩
        | cons first tail =>
            have same : separator = first := (List.cons.inj located).1
            exact absurd (by simp [same]) unseparated
    · cases middle with
      | nil =>
          cases pattern with
          | nil => exact .inr ⟨[], after, rfl⟩
          | cons first rest =>
              have same : separator = first := (List.cons.inj located).1
              exact absurd (by simp [same]) unseparated
      | cons first middle =>
          have rest : after = middle ++ (pattern ++ right) := (List.cons.inj located).2
          exact .inr ⟨middle, right, by rw [rest, List.append_assoc]⟩
  · rintro (found | found)
    · exact List.infix_append_of_infix_left found
    · exact List.infix_append_of_infix_right (List.infix_cons_iff.mpr (.inr found))

section Words

variable (blank : α → Bool) {before after front text : List α} {separator : α}

/-- The longest parts without a blank. -/
def words (text : List α) : List (List α) :=
  (text.splitOnP blank).filter fun word => !word.isEmpty

/-- A text without blanks. -/
def Solid (text : List α) : Prop :=
  ∀ symbol ∈ text, blank symbol = false

variable {blank}

theorem solid_of_all (clear : (text.all fun symbol => !blank symbol) = true) :
    Solid blank text := by
  simpa [Solid] using clear

@[simp]
theorem words_nil : words blank ([] : List α) = [] := by
  simp [words]

theorem words_append_cons (isBlank : blank separator = true) :
    words blank (before ++ separator :: after) = words blank before ++ words blank after := by
  rw [words, List.splitOnP_append_cons before after isBlank, List.filter_append]
  rfl

theorem words_cons_blank (isBlank : blank separator = true) :
    words blank (separator :: text) = words blank text := by
  simpa using @words_append_cons α blank [] text separator isBlank

theorem words_of_solid (solid : Solid blank text) (nonempty : text ≠ []) :
    words blank text = [text] := by
  rw [words, List.splitOnP_eq_singleton solid]
  simp [nonempty]

/-- A word is read on to the next blank. -/
theorem words_append (solid : Solid blank front) (nonempty : front ≠ []) :
    words blank (front ++ text) =
      (front ++ text.takeWhile fun symbol => !blank symbol) ::
        words blank (text.dropWhile fun symbol => !blank symbol) := by
  have joined : Solid blank (front ++ text.takeWhile fun symbol => !blank symbol) := by
    intro symbol member
    rcases List.mem_append.mp member with inFront | inText
    · exact solid symbol inFront
    · simpa using List.mem_takeWhile_imp inText
  have whole : front ++ text = (front ++ text.takeWhile fun symbol => !blank symbol) ++
      text.dropWhile fun symbol => !blank symbol := by
    rw [List.append_assoc, List.takeWhile_append_dropWhile]
  have first := words_of_solid joined (by simp [nonempty])
  rw [whole]
  cases rest : text.dropWhile fun symbol => !blank symbol with
  | nil => simpa using first
  | cons symbol rest =>
      have isBlank : blank symbol = true := by
        have stops := List.head_dropWhile_not (fun symbol => !blank symbol)
          (l := text) (by simp [rest])
        simpa [rest] using stops
      rw [words_append_cons isBlank, words_cons_blank isBlank, first]
      rfl

theorem Solid.append (first : Solid blank before) (second : Solid blank after) :
    Solid blank (before ++ after) := by
  intro symbol member
  rcases List.mem_append.mp member with inBefore | inAfter
  · exact first symbol inBefore
  · exact second symbol inAfter

theorem takeWhile_of_solid (solid : Solid blank text) :
    (text.takeWhile fun symbol => !blank symbol) = text := by
  apply List.takeWhile_eq_self_iff.mpr
  intro symbol member
  simp [solid symbol member]

theorem solid_of_takeWhile (whole : (text.takeWhile fun symbol => !blank symbol) = text) :
    Solid blank text := by
  intro symbol member
  have kept := List.takeWhile_eq_self_iff.mp whole symbol member
  simpa using kept

end Words

end Text
