import Znn.Text.BasicRegex

/-!
# The pattern for one library

`anchorRegex` writes a backslash in front of every symbol that an extended expression gives a
meaning to. `xhook` compiles basic expressions, in which the backslash does the opposite for
parentheses and braces. A path without these is matched by its pattern and nothing else is; a path
with one of them is not matched at all.
-/

namespace Znn.Loader

open Text.Bre

/-- The symbols that `anchorRegex` escapes. -/
def isEscaped (byte : UInt8) : Bool :=
  [46, 92, 43, 42, 63, 94, 36, 124, 40, 41, 91, 93, 123, 125].contains byte

/-- `anchorRegex`. -/
def anchorRegex (path : List UInt8) : List UInt8 :=
  let regex := path.foldl
    (fun regex byte => (if isEscaped byte then regex ++ [92] else regex) ++ [byte]) [94]
  regex ++ [36]

/-- What a backslash makes an operator of. -/
def isOperator (byte : UInt8) : Prop :=
  byte = 40 ∨ byte = 41 ∨ byte = 123 ∨ byte = 125

instance (byte : UInt8) : Decidable (isOperator byte) := by
  unfold isOperator
  infer_instance

def quoted (byte : UInt8) : List UInt8 :=
  if isEscaped byte then [92, byte] else [byte]

def symbolOf (byte : UInt8) : Symbol :=
  if isEscaped byte then .escaped byte else .plain byte

theorem anchorRegex_eq (path : List UInt8) :
    anchorRegex path = 94 :: (path.flatMap quoted ++ [36]) := by
  have each : ∀ front, path.foldl
      (fun regex byte => (if isEscaped byte then regex ++ [92] else regex) ++ [byte]) front =
        front ++ path.flatMap quoted := by
    induction path with
    | nil => simp
    | cons byte path ih =>
        intro front
        rw [List.foldl_cons, ih, List.flatMap_cons, quoted]
        split <;> simp
  rw [anchorRegex, each]
  rfl

theorem lex_quoted (path rest : List UInt8) :
    lex (path.flatMap quoted ++ rest) = (lex rest).map (path.map symbolOf ++ ·) := by
  induction path with
  | nil => simp
  | cons byte path ih =>
      have lexed : lex (quoted byte ++ (path.flatMap quoted ++ rest)) =
          (lex (path.flatMap quoted ++ rest)).map (symbolOf byte :: ·) := by
        rw [quoted, symbolOf]
        split
        case isTrue => rfl
        case isFalse plain =>
          have ordinary : byte ≠ 92 := by
            rintro rfl
            exact plain rfl
          rw [List.singleton_append, lex, if_neg ordinary]
          exact fun _ _ same => absurd same ordinary
      rw [List.flatMap_cons, List.append_assoc, lexed, ih, Option.map_map]
      rfl

theorem regcomp_anchorRegex (path : List UInt8) :
    regcomp (anchorRegex path) =
      (((path.map symbolOf).foldlM Compiling.step ⟨[[]], none⟩).bind Compiling.finish).map
        (Compiled.mk true true) := by
  have last : lex [36] = some [.plain 36] := rfl
  rw [anchorRegex_eq, regcomp]
  simp [lex_quoted, last, Option.map_eq_bind, Option.bind_assoc]

/-- A byte that is no operator is compiled to itself. -/
theorem step_symbolOf {byte : UInt8} (ordinary : ¬isOperator byte) (pieces : List Regex) :
    Compiling.step ⟨[pieces], none⟩ (symbolOf byte) = some ⟨[.char byte :: pieces], none⟩ := by
  rw [symbolOf]
  split
  case isTrue escaped =>
    simp only [isEscaped, List.contains_iff_mem, List.mem_cons, List.not_mem_nil, or_false] at escaped
    rcases escaped with rfl | rfl | rfl | rfl | rfl | rfl | rfl | rfl | rfl | rfl | rfl | rfl |
      rfl | rfl <;> first | rfl | exact absurd (by decide) ordinary
  case isFalse plain =>
    have other : byte ≠ 46 ∧ byte ≠ 42 ∧ byte ≠ 91 := by
      refine ⟨?_, ?_, ?_⟩ <;> rintro rfl <;> exact plain rfl
    unfold Compiling.step
    dsimp only
    split
    case h_1 same => exact absurd (Symbol.plain.inj same) other.1
    case h_2 same => exact absurd (Symbol.plain.inj same) other.2.1
    case h_3 same => exact absurd (Symbol.plain.inj same) other.2.2
    case h_4 same =>
      rw [Symbol.plain.inj same]
      rfl
    all_goals rename_i same; cases same

/-- The symbols of a pattern are operators where its path has one. -/
theorem avoids_symbolOf (byte : UInt8) : (symbolOf byte).Avoids isOperator := by
  rw [symbolOf]
  split
  case isTrue =>
    by_cases operator : isOperator byte
    · rcases operator with rfl | rfl | rfl | rfl
      · exact .inl rfl
      · exact .inr (.inl rfl)
      · exact .inr (.inr (.inl rfl))
      · exact .inr (.inr (.inr (.inl rfl)))
    · exact .inr (.inr (.inr (.inr operator)))
  case isFalse plain =>
    constructor
    · rintro rfl
      exact plain rfl
    · rintro (rfl | rfl | rfl | rfl) <;> exact plain rfl

/-- The pattern of the path is valid and matches the path and nothing else. -/
def MatchesExactly (path : List UInt8) : Prop :=
  ∃ compiled, regcomp (anchorRegex path) = some compiled ∧ ∀ text, compiled.Finds text ↔ text = path

theorem matchesExactly_of_ordinary {path : List UInt8} (ordinary : ∀ byte ∈ path, ¬isOperator byte) :
    MatchesExactly path := by
  have read : ∀ pieces, (path.map symbolOf).foldlM Compiling.step ⟨[pieces], none⟩ =
      some ⟨[(path.map Regex.char).reverse ++ pieces], none⟩ := by
    induction path with
    | nil => exact fun pieces => rfl
    | cons byte path ih =>
        intro pieces
        rw [List.map_cons, List.foldlM_cons, step_symbolOf (ordinary byte List.mem_cons_self)]
        have rest := ih (fun other member => ordinary other (List.mem_cons_of_mem _ member))
          (.char byte :: pieces)
        simpa using rest
  refine ⟨⟨true, true, sequence (path.map Regex.char).reverse⟩, ?_, ?_⟩
  · rw [regcomp_anchorRegex, read, List.append_nil]
    rfl
  · intro text
    rw [Compiled.finds_anchored, mem_sequence_chars]

/-- No text with an operator in it is matched by the pattern of any path. -/
theorem not_matchesExactly_of_operator {path : List UInt8} {byte : UInt8} (member : byte ∈ path)
    (operator : isOperator byte) : ¬MatchesExactly path := by
  rintro ⟨compiled, isCompiled, exactly⟩
  rw [regcomp_anchorRegex, Option.map_eq_some_iff] at isCompiled
  rcases isCompiled with ⟨regex, finished, rfl⟩
  rcases Option.bind_eq_some_iff.mp finished with ⟨state, read, finished⟩
  have start : Compiling.Avoids isOperator ⟨[[]], none⟩ := by
    intro pieces isGroup piece isPiece
    rw [List.mem_singleton.mp isGroup] at isPiece
    cases isPiece
  have symbols : ∀ symbol ∈ path.map symbolOf, symbol.Avoids isOperator := by
    intro symbol isSymbol
    rcases List.mem_map.mp isSymbol with ⟨byte, _, rfl⟩
    exact avoids_symbolOf byte
  have avoids := (start.foldlM symbols read).finish finished
  have matched := Compiled.finds_anchored.mp ((exactly path).mpr rfl)
  exact avoids path matched byte member operator

/-- The pattern of a path matches exactly this path where the path has neither parentheses nor
braces. -/
theorem matchesExactly_iff (path : List UInt8) :
    MatchesExactly path ↔ ∀ byte ∈ path, ¬isOperator byte := by
  constructor
  · intro exactly byte member operator
    exact not_matchesExactly_of_operator member operator exactly
  · exact matchesExactly_of_ordinary

/-- A library of which another copy has been downloaded. -/
theorem copy_not_matched :
    ¬MatchesExactly ("/data/local/lib(1).so".toList.map fun symbol => UInt8.ofNat symbol.toNat) :=
  @not_matchesExactly_of_operator _ 40 (by decide) (by decide)

end Znn.Loader
