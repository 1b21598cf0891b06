import Znn.Kpm.Channel

/-!
# Reading the ring through the control call

The module prints its ring in two ways. The channel goes by numbers and prints the number it has
computed; the control call goes by positions and prints the number that is stored. After executions
that are complete the slot of every number that the ring still covers holds that number, so both
print the same lines.
-/

namespace Znn.Kpm

section Commands

def isBlank (byte : UInt8) : Bool :=
  byte == 32 || byte == 9

def isDigit (byte : UInt8) : Bool :=
  48 ≤ byte && byte ≤ 57

/-- The end of the string, or a blank. -/
def endsWord : List UInt8 → Bool
  | [] => true
  | byte :: _ => isBlank byte

/-- The loop over the digits of a count, which is held to the capacity of the ring: the value, the
number of digits and what follows them. -/
def parseCount (value digits : Nat) : List UInt8 → Nat × Nat × List UInt8
  | [] => (value, digits, [])
  | byte :: rest =>
      if isDigit byte then
        let value := (value * 10 + (byte.toNat - 48)) % 2 ^ 32
        parseCount (if value > ZNN_RING_CAPACITY then ZNN_RING_CAPACITY else value) (digits + 1) rest
      else
        (value, digits, byte :: rest)

/-- `znn_parse_read_command`, for the bytes before the terminator of the arguments. -/
def parseReadCommand (args : Option (List UInt8)) : Option Nat := do
  let args ← args
  let args := args.dropWhile isBlank
  if args.take 4 ≠ ascii "read".toList then
    none
  else if !endsWord (args.drop 4) then
    none
  else
    let (value, digits, rest) := parseCount 0 0 ((args.drop 4).dropWhile isBlank)
    if !endsWord rest then none else some (if digits ≠ 0 then value else 0)

end Commands

section Calls

variable (copied : Nat → Nat → Bool) (ring : Ring)

/-- The line of a slot, with the number that is stored there. -/
def Ring.storedAt (position : Nat) : Line :=
  let record := ring.slots (position % 2 ^ 64 % ZNN_RING_CAPACITY)
  ⟨record.seq, record.task⟩

/-- The loop of `znn_control`; a copy that fails ends it like a line for which there is no room. -/
def emitStored (outlen : Nat) : Nat → Nat → Nat → List Line
  | 0, _, _ => []
  | turns + 1, position, total =>
      let line := ring.storedAt position
      if line.bytes.length = 0 then
        []
      else if total + line.bytes.length > outlen then
        []
      else if copied total line.bytes.length then
        line :: emitStored outlen turns (position + 1) (total + line.bytes.length)
      else
        []

/-- `znn_control`, with or without a buffer for its message. -/
def control (hasBuffer : Bool) (args : Option (List UInt8)) (outlen : Int) :
    Option (List Line) := do
  if !hasBuffer ∨ outlen ≤ 0 then
    none
  else
    let requested ← parseReadCommand args
    let available := if ring.written < ZNN_RING_CAPACITY then ring.written else ZNN_RING_CAPACITY
    let count := if requested = 0 ∨ requested > available then available else requested
    some (emitStored copied ring outlen.toNat count (ring.written - count) 0)

end Calls

section Reading

/-- The number that a count is written for. -/
def numberOf (value : Nat) (digits : List UInt8) : Nat :=
  digits.foldl (fun value byte => value * 10 + (byte.toNat - 48)) value

/-- The well-formed commands, with the count they ask for. What stands behind a count and a blank
is not looked at. -/
inductive ReadCommand : List UInt8 → Option Nat → Prop where
  | all (lead gap : List UInt8) (blankLead : lead.all isBlank = true)
      (blankGap : gap.all isBlank = true) :
      ReadCommand (lead ++ (ascii "read".toList ++ gap)) none
  | last (lead gap digits tail : List UInt8) (blankLead : lead.all isBlank = true)
      (blankGap : gap.all isBlank = true) (apart : gap ≠ [])
      (areDigits : digits.all isDigit = true) (counted : digits ≠ [])
      (ends : endsWord tail = true) :
      ReadCommand (lead ++ (ascii "read".toList ++ (gap ++ (digits ++ tail))))
        (some (numberOf 0 digits))

theorem not_isBlank_of_isDigit {byte : UInt8} (digit : isDigit byte = true) :
    isBlank byte = false := by
  simp only [isDigit, isBlank, Bool.and_eq_true, decide_eq_true_eq, Bool.or_eq_false_iff,
    beq_eq_false_iff_ne] at digit ⊢
  constructor
  · rintro rfl
    exact absurd digit (by decide)
  · rintro rfl
    exact absurd digit (by decide)

theorem not_isDigit_of_isBlank {byte : UInt8} (blank : isBlank byte = true) :
    isDigit byte = false := by
  rw [Bool.eq_false_iff]
  intro digit
  rw [not_isBlank_of_isDigit digit] at blank
  cases blank

/-- A count that is held to the capacity at every digit is held to it at the end. -/
theorem parseCount_digits {digits tail : List UInt8} (areDigits : digits.all isDigit = true)
    (ends : endsWord tail = true) (value seen : Nat) :
    parseCount (min value ZNN_RING_CAPACITY) seen (digits ++ tail) =
      (min (numberOf value digits) ZNN_RING_CAPACITY, seen + digits.length, tail) := by
  have capacity : ZNN_RING_CAPACITY = 64 := rfl
  induction digits generalizing value seen with
  | nil =>
      cases tail with
      | nil => rfl
      | cons byte tail =>
          have notDigit : isDigit byte = false := not_isDigit_of_isBlank ends
          rw [List.nil_append, parseCount, notDigit]
          rfl
  | cons byte digits ih =>
      rw [List.all_cons, Bool.and_eq_true] at areDigits
      have bound := byte.toNat_lt
      have held : (if (min value ZNN_RING_CAPACITY * 10 + (byte.toNat - 48)) % 2 ^ 32 >
          ZNN_RING_CAPACITY then ZNN_RING_CAPACITY
          else (min value ZNN_RING_CAPACITY * 10 + (byte.toNat - 48)) % 2 ^ 32) =
            min (value * 10 + (byte.toNat - 48)) ZNN_RING_CAPACITY := by
        have small : min value ZNN_RING_CAPACITY * 10 + (byte.toNat - 48) < 2 ^ 32 := by omega
        rw [Nat.mod_eq_of_lt small, capacity]
        split <;> omega
      rw [List.cons_append, parseCount, if_pos areDigits.1]
      dsimp only
      rw [held, ih areDigits.2]
      simp only [numberOf, List.foldl_cons, List.length_cons, Prod.mk.injEq, and_true, true_and]
      omega

theorem dropWhile_blanks {blanks text : List UInt8} (areBlanks : blanks.all isBlank = true)
    (solid : ∀ byte ∈ text.head?, isBlank byte = false) :
    (blanks ++ text).dropWhile isBlank = text := by
  rw [List.dropWhile_append_of_pos (List.all_eq_true.mp areBlanks)]
  cases text with
  | nil => rfl
  | cons byte text => rw [List.dropWhile_cons_of_neg (by simp [solid byte rfl])]

/-- A well-formed command is read as its count, held to the capacity. -/
theorem parseReadCommand_of_command {text : List UInt8} {count : Option Nat}
    (command : ReadCommand text count) :
    parseReadCommand (some text) = some (min (count.getD 0) ZNN_RING_CAPACITY) := by
  have solid : ∀ rest : List UInt8, ∀ byte ∈ (ascii "read".toList ++ rest).head?,
      isBlank byte = false := by
    intro rest byte head
    cases head
    decide
  have word : ∀ rest : List UInt8, (ascii "read".toList ++ rest).take 4 = ascii "read".toList ∧
      (ascii "read".toList ++ rest).drop 4 = rest := by
    intro rest
    exact ⟨List.take_left' rfl, List.drop_left' rfl⟩
  have ends : ∀ {gap : List UInt8} (rest : List UInt8), gap.all isBlank = true → gap ≠ [] →
      endsWord (gap ++ rest) = true := by
    intro gap rest blank apart
    cases gap with
    | nil => exact absurd rfl apart
    | cons byte gap =>
        rw [List.all_cons, Bool.and_eq_true] at blank
        exact blank.1
  cases command with
  | all lead gap blankLead blankGap =>
      have ended : endsWord gap = true := by
        cases gap with
        | nil => rfl
        | cons byte gap =>
            rw [List.all_cons, Bool.and_eq_true] at blankGap
            exact blankGap.1
      have blanks : gap.dropWhile isBlank = [] := by
        have dropped := @dropWhile_blanks gap [] blankGap (by simp)
        rwa [List.append_nil] at dropped
      simp only [parseReadCommand, Option.bind_eq_bind, Option.bind_some,
        dropWhile_blanks blankLead (solid gap), word gap, ended, blanks]
      rfl
  | last lead gap digits tail blankLead blankGap apart areDigits counted ended =>
      have solidDigits : ∀ byte ∈ (digits ++ tail).head?, isBlank byte = false := by
        cases digits with
        | nil => exact absurd rfl counted
        | cons first digits =>
            intro byte head
            cases head
            rw [List.all_cons, Bool.and_eq_true] at areDigits
            exact not_isBlank_of_isDigit areDigits.1
      have parsed := parseCount_digits areDigits ended 0 0
      rw [Nat.zero_min] at parsed
      simp only [parseReadCommand, Option.bind_eq_bind, Option.bind_some,
        dropWhile_blanks blankLead (solid _), word, ends _ blankGap apart,
        dropWhile_blanks blankGap solidDigits, parsed, ended]
      simp [counted]

end Reading

section Agreement

/-- The slot of every number that the ring still covers holds that number. -/
structure Numbered (ring : Ring) : Prop where
  word : ring.written < 2 ^ 64
  slots : ∀ seq, 0 < seq → seq ≤ ring.written → ring.written < seq + ZNN_RING_CAPACITY →
    (ring.slots (slotOf seq)).seq = seq

theorem numbered_empty : Numbered {} := by
  constructor
  · decide
  · intro seq positive written
    exact absurd positive (Nat.not_lt.mpr written)

/-- The counter may wrap: it starts again with no number covered. -/
theorem Numbered.noteExec {ring : Ring} (numbered : Numbered ring) (task : Task) :
    Numbered (ring.noteExec task) := by
  have capacity : ZNN_RING_CAPACITY = 64 := rfl
  have word : (ring.written + 1) % 2 ^ 64 < 2 ^ 64 := Nat.mod_lt _ (by decide)
  refine ⟨word, ?_⟩
  intro seq positive written within
  have before := numbered.word
  simp only [Ring.noteExec, Ring.fill, Ring.claim] at written within ⊢
  by_cases same : seq = (ring.written + 1) % 2 ^ 64
  · rw [same, Function.update_self]
  · -- The new number's slot is 64 numbers away from the next one that shares it.
    have apart : slotOf seq ≠ slotOf ((ring.written + 1) % 2 ^ 64) := by
      rw [slotOf_eq positive (by omega), slotOf_eq (by omega) word]
      omega
    rw [Function.update_of_ne apart]
    exact numbered.slots seq positive (by omega) (by omega)

/-- The ring after completed executions. -/
def noteAll (tasks : List Task) : Ring :=
  tasks.foldl Ring.noteExec {}

theorem numbered_noteAll (tasks : List Task) : Numbered (noteAll tasks) := by
  suffices each : ∀ ring, Numbered ring → Numbered (tasks.foldl Ring.noteExec ring) from
    each {} numbered_empty
  induction tasks with
  | nil => exact fun _ numbered => numbered
  | cons task tasks ih => exact fun ring numbered => ih _ (numbered.noteExec task)

/-- By its position or by its number, a line that the ring covers is the same. -/
theorem Numbered.storedAt {ring : Ring} (numbered : Numbered ring) {position : Nat}
    (written : position < ring.written) (within : ring.written < position + 1 + ZNN_RING_CAPACITY) :
    ring.storedAt position = ring.lineAt (position + 1) := by
  have word := numbered.word
  have small : position % 2 ^ 64 = position := Nat.mod_eq_of_lt (by omega)
  have slot : position % 2 ^ 64 % ZNN_RING_CAPACITY = slotOf (position + 1) := by
    rw [slotOf_eq (Nat.succ_pos _) (by omega), small]
    rfl
  have stored := numbered.slots (position + 1) (Nat.succ_pos _) written within
  rw [Ring.storedAt, Ring.lineAt, slot, stored]

/-- The two loops emit the same lines, from the same place on. -/
theorem emit_eq_emitStored {ring : Ring} (numbered : Numbered ring) {turns : Nat}
    {reading : Reading} (left : reading.index + turns = reading.count)
    (started : 0 < reading.first) (ends : reading.first + reading.count = ring.written + 1)
    (covered : reading.count ≤ ZNN_RING_CAPACITY) :
    emit (fun _ _ => true) ring turns reading =
      some (emitStored (fun _ _ => true) ring reading.bufferLength turns (reading.seq - 1)
        reading.total) := by
  have capacity : ZNN_RING_CAPACITY = 64 := rfl
  induction turns generalizing reading with
  | zero => rfl
  | succ turns ih =>
      have line : ring.storedAt (reading.seq - 1) = ring.lineAt reading.seq := by
        have position : reading.seq - 1 + 1 = reading.seq := by
          rw [Reading.seq]
          omega
        rw [numbered.storedAt (by rw [Reading.seq]; omega) (by rw [Reading.seq]; omega), position]
      rw [emit, emitStored, Reading.next, if_pos (by omega), line]
      by_cases empty : (ring.lineAt reading.seq).bytes.length = 0
      · simp only [if_pos empty]
      by_cases full : reading.total + (ring.lineAt reading.seq).bytes.length > reading.bufferLength
      · simp only [if_neg empty, if_pos full]
      have rest := @ih { reading with
        index := reading.index + 1
        total := reading.total + (ring.lineAt reading.seq).bytes.length }
        (by dsimp only; omega) started ends covered
      have position : Reading.seq { reading with
          index := reading.index + 1
          total := reading.total + (ring.lineAt reading.seq).bytes.length } - 1 =
            reading.seq - 1 + 1 := by
        simp only [Reading.seq]
        omega
      rw [position] at rest
      simp only [if_neg empty, if_neg full, if_true]
      rw [rest, Option.map_some]

/-- The number of records that a read with this count is about. -/
def covered (ring : Ring) (count : Option Nat) : Nat :=
  let available := min ring.written ZNN_RING_CAPACITY
  if count.getD 0 = 0 then available else min (count.getD 0) available

/-- After complete executions a read command prints what the channel prints of as many numbers. -/
theorem control_eq_writeRecords (tasks : List Task) {text : List UInt8} {count : Option Nat}
    (command : ReadCommand text count) {length : Nat} (positive : 1 ≤ length) :
    ∃ lines, control (fun _ _ => true) (noteAll tasks) true (some text) length = some lines ∧
      writeRecords (fun _ _ => true) (noteAll tasks) length
        ((noteAll tasks).written - covered (noteAll tasks) count) = some lines := by
  have capacity : ZNN_RING_CAPACITY = 64 := rfl
  have numbered := numbered_noteAll tasks
  generalize noteAll tasks = ring at numbered ⊢
  have asked : control (fun _ _ => true) ring true (some text) length =
      some (emitStored (fun _ _ => true) ring length (covered ring count)
        (ring.written - covered ring count) 0) := by
    have counts : (if min (count.getD 0) ZNN_RING_CAPACITY = 0 ∨
        min (count.getD 0) ZNN_RING_CAPACITY > (if ring.written < ZNN_RING_CAPACITY then
          ring.written else ZNN_RING_CAPACITY) then
          (if ring.written < ZNN_RING_CAPACITY then ring.written else ZNN_RING_CAPACITY)
        else min (count.getD 0) ZNN_RING_CAPACITY) = covered ring count := by
      rw [covered]
      split <;> split <;> split <;> omega
    rw [control, if_neg (by simp; omega), parseReadCommand_of_command command]
    simp only [Option.bind_eq_bind, Option.bind_some, Int.toNat_natCast]
    rw [counts]
  have within : covered ring count ≤ min ring.written ZNN_RING_CAPACITY := by
    rw [covered]
    split
    · exact Nat.le_refl _
    · exact Nat.min_le_right _ _
  refine ⟨_, asked, ?_⟩
  rw [writeRecords]
  by_cases nothing : covered ring count = 0
  · rw [Reading.start, if_pos (by omega), nothing]
    rfl
  · have first : firstOf ring (ring.written - covered ring count) =
        ring.written - covered ring count + 1 := by
      rw [firstOf]
      omega
    have count_eq : ring.written + 1 - (ring.written - covered ring count + 1) =
        covered ring count := by
      omega
    rw [start_eq (by omega), first, count_eq]
    exact @emit_eq_emitStored ring numbered (covered ring count)
      ⟨ring.written - covered ring count + 1, covered ring count, 0, 0, length⟩ (Nat.zero_add _)
      (Nat.succ_pos _) (by dsimp only; omega) (by dsimp only; omega)

/-- More executions than the ring holds. -/
def execs : List Task :=
  List.replicate 70 ⟨7, 7, 1⟩

theorem control_eq_writeRecords_wrapped :
    ∃ lines, control (fun _ _ => true) (noteAll execs) true (some (ascii "read 12 ".toList)) 4096 =
        some lines ∧
      writeRecords (fun _ _ => true) (noteAll execs) 4096
        ((noteAll execs).written - covered (noteAll execs) (some 12)) = some lines := by
  have command : ReadCommand (ascii "read 12 ".toList) (some 12) :=
    ReadCommand.last [] [32] [49, 50] [32] rfl rfl (by decide) rfl (by decide) rfl
  exact control_eq_writeRecords execs command (by decide)

end Agreement

end Znn.Kpm
