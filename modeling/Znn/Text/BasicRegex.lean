import Mathlib.Computability.Language

/-!
# Basic regular expressions

`regcomp` without `REG_EXTENDED`, as far as literals, groups, repetitions and the two anchors go. A
backslash takes its meaning from some symbols and gives one to others: `\(`, `\)`, `\{` and `\}` are
operators, while `(`, `)`, `{` and `}` are themselves. In front of any other symbol, `+`, `?` and
`|` included, it takes the meaning away. The compiler is a state machine over the symbols of a
pattern. Bracket expressions and back-references are not covered: a pattern that has one is refused.
-/

namespace Text.Bre

/-- A compiled expression. -/
inductive Regex where
  | empty
  | char (byte : UInt8)
  | any
  | seq (first second : Regex)
  | repetition (body : Regex) (low : Nat) (high : Option Nat)
deriving DecidableEq, Repr

/-- The strings that an expression matches. -/
def Regex.language : Regex → Language UInt8
  | .empty => 1
  | .char byte => {[byte]}
  | .any => {text | ∃ byte, byte ≠ 0 ∧ text = [byte]}
  | .seq first second => first.language * second.language
  | .repetition body low high =>
      {text | ∃ count, low ≤ count ∧ (∀ bound ∈ high, count ≤ bound) ∧ text ∈ body.language ^ count}

/-- A symbol of a pattern, with a backslash in front of it or without. -/
inductive Symbol where
  | plain (byte : UInt8)
  | escaped (byte : UInt8)
deriving DecidableEq, Repr

/-- A backslash at the end has nothing to escape. -/
def lex : List UInt8 → Option (List Symbol)
  | [] => some []
  | 92 :: byte :: rest => (lex rest).map (.escaped byte :: ·)
  | byte :: rest => if byte = 92 then none else (lex rest).map (.plain byte :: ·)

/-- An interval that is being read. -/
structure Interval where
  low : Option Nat
  ranged : Bool
  high : Option Nat
deriving DecidableEq, Repr

/-- The upper bound of an interval with this lower one. -/
def Interval.upper (interval : Interval) (low : Nat) : Option Nat :=
  if interval.ranged then interval.high else some low

/-- The expressions read so far, in reverse and the innermost group first, and the interval under
way. -/
structure Compiling where
  groups : List (List Regex)
  interval : Option Interval
deriving DecidableEq, Repr

def RE_DUP_MAX : Nat := 255

/-- The expressions of a group in their order. -/
def sequence (pieces : List Regex) : Regex :=
  pieces.foldl (fun rest piece => .seq piece rest) .empty

namespace Compiling

/-- Another expression in the innermost group. -/
def push (state : Compiling) (piece : Regex) : Option Compiling :=
  match state.groups with
  | [] => none
  | pieces :: outer => some { state with groups := (piece :: pieces) :: outer }

/-- The last expression of the innermost group is repeated. -/
def repeatLast (state : Compiling) (low : Nat) (high : Option Nat) : Option Compiling :=
  match state.groups with
  | (last :: pieces) :: outer => some ⟨(.repetition last low high :: pieces) :: outer, none⟩
  | _ => none

def digit (value : Option Nat) (byte : UInt8) : Option Nat :=
  some (value.getD 0 * 10 + (byte.toNat - 48))

/-- A symbol within an interval. -/
def count (state : Compiling) (interval : Interval) : Symbol → Option Compiling
  | .plain byte =>
      if 48 ≤ byte ∧ byte ≤ 57 then
        if interval.ranged then
          some { state with interval := some { interval with high := digit interval.high byte } }
        else
          some { state with interval := some { interval with low := digit interval.low byte } }
      else if byte = 44 ∧ interval.ranged = false then
        some { state with interval := some { interval with ranged := true } }
      else
        none
  | .escaped byte => do
      if byte ≠ 125 then
        none
      else
        let low ← interval.low
        let high := interval.upper low
        if low ≤ high.getD RE_DUP_MAX ∧ high.getD low ≤ RE_DUP_MAX then
          state.repeatLast low high
        else
          none

/-- A symbol of a pattern. -/
def step (state : Compiling) (symbol : Symbol) : Option Compiling :=
  match state.interval with
  | some interval => state.count interval symbol
  | none =>
      match symbol with
      | .plain 46 => state.push .any
      | .plain 42 =>
          match state.groups with
          | [] :: _ => state.push (.char 42)
          | _ => state.repeatLast 0 none
      | .plain 91 => none
      | .plain byte => state.push (.char byte)
      | .escaped 40 => some { state with groups := [] :: state.groups }
      | .escaped 41 =>
          match state.groups with
          | pieces :: outer :: groups => some { state with groups := (sequence pieces :: outer) :: groups }
          | _ => none
      | .escaped 123 => some { state with interval := some ⟨none, false, none⟩ }
      | .escaped 125 => none
      | .escaped byte => if 49 ≤ byte ∧ byte ≤ 57 then none else state.push (.char byte)

/-- All groups and intervals are closed at the end. -/
def finish (state : Compiling) : Option Regex :=
  match state.groups, state.interval with
  | [pieces], none => some (sequence pieces)
  | _, _ => none

end Compiling

/-- An expression, and whether it is held to the ends of the text. -/
structure Compiled where
  atStart : Bool
  atEnd : Bool
  regex : Regex
deriving DecidableEq, Repr

/-- `regcomp`: a first `^` and a last `$` are anchors. -/
def regcomp (pattern : List UInt8) : Option Compiled := do
  let (atStart, pattern) := match pattern with
    | 94 :: rest => (true, rest)
    | _ => (false, pattern)
  let symbols ← lex pattern
  let atEnd := symbols.getLast? == some (.plain 36)
  let symbols := if atEnd then symbols.dropLast else symbols
  let state ← symbols.foldlM Compiling.step ⟨[[]], none⟩
  let regex ← state.finish
  some ⟨atStart, atEnd, regex⟩

/-- `regexec` finds the expression somewhere in the text. -/
def Compiled.Finds (compiled : Compiled) (text : List UInt8) : Prop :=
  ∃ before middle after, text = before ++ (middle ++ after) ∧ middle ∈ compiled.regex.language ∧
    (compiled.atStart = true → before = []) ∧ (compiled.atEnd = true → after = [])

/-- Expressions for single bytes in their order match the text of these bytes. -/
theorem mem_sequence_chars (text word : List UInt8) :
    word ∈ (sequence (text.map Regex.char).reverse).language ↔ word = text := by
  rw [sequence, List.foldl_reverse]
  induction text generalizing word with
  | nil => exact Language.mem_one word
  | cons byte text ih =>
      rw [List.map_cons, List.foldr_cons, Regex.language, Language.mem_mul]
      constructor
      · rintro ⟨first, isByte, rest, matched, rfl⟩
        rw [(ih rest).mp matched, Set.mem_singleton_iff.mp isByte]
        rfl
      · rintro rfl
        exact ⟨[byte], rfl, text, (ih text).mpr rfl, rfl⟩

theorem Compiled.finds_anchored {regex : Regex} {text : List UInt8} :
    (Compiled.mk true true regex).Finds text ↔ text ∈ regex.language := by
  constructor
  · rintro ⟨before, middle, after, rfl, matched, atStart, atEnd⟩
    rwa [atStart rfl, atEnd rfl, List.nil_append, List.append_nil]
  · intro matched
    exact ⟨[], text, [], by simp, matched, fun _ => rfl, fun _ => rfl⟩

section Avoiding

variable (bytes : UInt8 → Prop)

/-- None of these bytes occurs in what the expression matches. -/
def Regex.Avoids (regex : Regex) : Prop :=
  ∀ text ∈ regex.language, ∀ byte ∈ text, ¬bytes byte

/-- The same for every expression that has been read. -/
def Compiling.Avoids (state : Compiling) : Prop :=
  ∀ pieces ∈ state.groups, ∀ piece ∈ pieces, piece.Avoids bytes

/-- The symbol is an operator or some other byte than these. -/
def Symbol.Avoids : Symbol → Prop
  | .plain byte => byte ≠ 46 ∧ ¬bytes byte
  | .escaped byte => byte = 40 ∨ byte = 41 ∨ byte = 123 ∨ byte = 125 ∨ ¬bytes byte

variable {bytes}

theorem avoids_char {byte : UInt8} (other : ¬bytes byte) : (Regex.char byte).Avoids bytes := by
  intro text matched found member
  cases Set.mem_singleton_iff.mp matched
  cases List.mem_singleton.mp member
  exact other

theorem avoids_seq {first second : Regex} (front : first.Avoids bytes) (back : second.Avoids bytes) :
    (Regex.seq first second).Avoids bytes := by
  intro text matched byte member
  rcases Language.mem_mul.mp matched with ⟨before, inFirst, after, inSecond, rfl⟩
  rcases List.mem_append.mp member with inBefore | inAfter
  · exact front before inFirst byte inBefore
  · exact back after inSecond byte inAfter

theorem avoids_repetition {body : Regex} (avoids : body.Avoids bytes) (low : Nat)
    (high : Option Nat) : (Regex.repetition body low high).Avoids bytes := by
  rintro text ⟨count, _, _, matched⟩ byte member
  rcases Language.mem_pow.mp matched with ⟨pieces, rfl, _, inBody⟩
  rcases List.mem_flatten.mp member with ⟨piece, inPieces, inPiece⟩
  exact avoids piece (inBody piece inPieces) byte inPiece

theorem avoids_sequence {pieces : List Regex} (avoids : ∀ piece ∈ pieces, piece.Avoids bytes) :
    (sequence pieces).Avoids bytes := by
  suffices each : ∀ rest : Regex, rest.Avoids bytes →
      (pieces.foldl (fun rest piece => .seq piece rest) rest).Avoids bytes by
    apply each
    intro text matched byte member
    cases (Language.mem_one text).mp matched
    cases member
  induction pieces with
  | nil => exact fun rest avoids => avoids
  | cons piece pieces ih =>
      intro rest avoidsRest
      apply ih (fun other member => avoids other (List.mem_cons_of_mem _ member))
      exact avoids_seq (avoids piece List.mem_cons_self) avoidsRest

namespace Compiling

variable {state state' : Compiling}

theorem Avoids.push {piece : Regex} (avoids : state.Avoids bytes) (other : piece.Avoids bytes)
    (stepped : state.push piece = some state') : state'.Avoids bytes := by
  rw [Compiling.push] at stepped
  split at stepped
  case h_1 => cases stepped
  case h_2 pieces outer groups =>
    cases stepped
    intro group member part inGroup
    rcases List.mem_cons.mp member with rfl | inOuter
    · rcases List.mem_cons.mp inGroup with rfl | inPieces
      · exact other
      · exact avoids pieces (by rw [groups]; exact List.mem_cons_self) part inPieces
    · exact avoids group (by rw [groups]; exact List.mem_cons_of_mem _ inOuter) part inGroup

theorem Avoids.repeatLast {low : Nat} {high : Option Nat} (avoids : state.Avoids bytes)
    (stepped : state.repeatLast low high = some state') : state'.Avoids bytes := by
  rw [Compiling.repeatLast] at stepped
  split at stepped
  case h_2 => cases stepped
  case h_1 last pieces outer groups =>
    cases stepped
    have inside : last :: pieces ∈ state.groups := by
      rw [groups]
      exact List.mem_cons_self
    intro group member part inGroup
    rcases List.mem_cons.mp member with rfl | inOuter
    · rcases List.mem_cons.mp inGroup with rfl | inPieces
      · exact avoids_repetition (avoids _ inside last List.mem_cons_self) low high
      · exact avoids _ inside part (List.mem_cons_of_mem _ inPieces)
    · exact avoids group (by rw [groups]; exact List.mem_cons_of_mem _ inOuter) part inGroup

theorem Avoids.count {interval : Interval} {symbol : Symbol} (avoids : state.Avoids bytes)
    (stepped : state.count interval symbol = some state') : state'.Avoids bytes := by
  cases symbol with
  | plain byte =>
      rw [Compiling.count] at stepped
      split at stepped
      case isTrue =>
        split at stepped <;> cases stepped <;> exact avoids
      case isFalse =>
        split at stepped
        case isTrue =>
          cases stepped
          exact avoids
        case isFalse => cases stepped
  | escaped byte =>
      rw [Compiling.count] at stepped
      split at stepped
      case isTrue => cases stepped
      case isFalse =>
        rw [Option.bind_eq_bind, Option.bind_eq_some_iff] at stepped
        rcases stepped with ⟨low, _, stepped⟩
        dsimp only at stepped
        split at stepped
        case isTrue => exact avoids.repeatLast stepped
        case isFalse => cases stepped

/-- A symbol that is no operator stands for its byte. -/
theorem Avoids.step {symbol : Symbol} (avoids : state.Avoids bytes) (other : symbol.Avoids bytes)
    (stepped : state.step symbol = some state') : state'.Avoids bytes := by
  unfold Compiling.step at stepped
  split at stepped
  case h_1 => exact avoids.count stepped
  case h_2 =>
    split at stepped
    case h_1 => exact absurd rfl other.1
    case h_2 =>
      split at stepped
      · exact avoids.push (avoids_char other.2) stepped
      · exact avoids.repeatLast stepped
    case h_3 => cases stepped
    case h_4 => exact avoids.push (avoids_char other.2) stepped
    case h_5 =>
      cases stepped
      intro group member part inGroup
      rcases List.mem_cons.mp member with rfl | inGroups
      · cases inGroup
      · exact avoids group inGroups part inGroup
    case h_6 =>
      split at stepped
      case h_2 => cases stepped
      case h_1 pieces outer groups isGroups =>
        cases stepped
        rw [Compiling.Avoids, isGroups] at avoids
        intro group member part inGroup
        rcases List.mem_cons.mp member with rfl | inGroups
        · rcases List.mem_cons.mp inGroup with rfl | inOuter
          · exact avoids_sequence (avoids pieces List.mem_cons_self)
          · exact avoids outer (by simp) part inOuter
        · exact avoids group (by simp [inGroups]) part inGroup
    case h_7 =>
      cases stepped
      exact avoids
    case h_8 => cases stepped
    case h_9 byte noOpen noClose noBrace noEnd =>
      split at stepped
      case isTrue => cases stepped
      case isFalse =>
        rcases other with rfl | rfl | rfl | rfl | other
        · exact absurd rfl noOpen
        · exact absurd rfl noClose
        · exact absurd rfl noBrace
        · exact absurd rfl noEnd
        · exact avoids.push (avoids_char other) stepped

/-- Every expression of a pattern whose symbols avoid some bytes avoids them. -/
theorem Avoids.foldlM {symbols : List Symbol} (avoids : state.Avoids bytes)
    (others : ∀ symbol ∈ symbols, symbol.Avoids bytes)
    (compiled : symbols.foldlM Compiling.step state = some state') : state'.Avoids bytes := by
  induction symbols generalizing state with
  | nil =>
      cases compiled
      exact avoids
  | cons symbol symbols ih =>
      rw [List.foldlM_cons, Option.bind_eq_bind, Option.bind_eq_some_iff] at compiled
      rcases compiled with ⟨middle, stepped, rest⟩
      exact ih (avoids.step (others symbol List.mem_cons_self) stepped)
        (fun other member => others other (List.mem_cons_of_mem _ member)) rest

theorem Avoids.finish {regex : Regex} (avoids : state.Avoids bytes)
    (finished : state.finish = some regex) : regex.Avoids bytes := by
  rw [Compiling.finish] at finished
  split at finished
  case h_1 pieces groups _ =>
    cases finished
    exact avoids_sequence (avoids pieces (by rw [groups]; exact List.mem_cons_self))
  case h_2 => cases finished

end Compiling

end Avoiding

end Text.Bre
