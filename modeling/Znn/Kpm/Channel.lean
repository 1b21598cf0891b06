import Znn.Kpm.Ring

/-!
# Reading the channel

A whole call of the channel, with no execution under way meanwhile: it emits a run of
consecutive numbers, which starts behind the last one seen or at the oldest that the ring still
holds.
-/

namespace Znn.Kpm

section Calls

variable (copied : Nat → Nat → Bool) (ring : Ring)

/-- The loop of `znn_channel_write_records`; a copy that fails ends it with an error. `copied`
says for an offset and a length whether the copy to the buffer of the caller succeeds. -/
def emit : Nat → Reading → Option (List Line)
  | 0, _ => some []
  | turns + 1, reading =>
      match reading.next ring with
      | none => some []
      | some (line, after) =>
          if copied reading.total line.bytes.length then
            (emit turns after).map (line :: ·)
          else
            none

def writeRecords (bufferLength since : Nat) : Option (List Line) :=
  match Reading.start ring bufferLength since with
  | none => some []
  | some reading => emit copied ring reading.count reading

/-- `znn_channel_before`, for a caller that is root or not. -/
def channelBefore (callerIsRoot : Bool) (bufferLength since : Nat) : Option (List Line) :=
  if bufferLength < 1 ∨ bufferLength > ZNN_CHANNEL_MAX_LENGTH then
    none
  else if !callerIsRoot then
    none
  else
    writeRecords copied ring bufferLength since

end Calls

/-- What a call of the channel puts into the buffer. -/
def bytesOf (lines : List Line) : List UInt8 :=
  lines.flatMap Line.bytes

section Numbers

variable {copied : Nat → Nat → Bool} {ring : Ring} {bufferLength since turns : Nat}
  {reading : Reading} {lines : List Line}

/-- The loop emits consecutive numbers and stays within the buffer. -/
theorem emit_consecutive (emitted : emit copied ring turns reading = some lines)
    (fits : reading.total ≤ reading.bufferLength) :
    ∃ taken, reading.index + taken ≤ max reading.index reading.count ∧
      lines = (List.range' reading.seq taken).map ring.lineAt ∧
      reading.total + (bytesOf lines).length ≤ reading.bufferLength := by
  induction turns generalizing reading lines with
  | zero =>
      cases emitted
      exact ⟨0, by omega, rfl, fits⟩
  | succ turns ih =>
      rw [emit] at emitted
      cases turned : reading.next ring with
      | none =>
          rw [turned] at emitted
          cases emitted
          exact ⟨0, by omega, rfl, fits⟩
      | some result =>
          rcases result with ⟨line, after⟩
          rw [turned] at emitted
          simp only at emitted
          split at emitted
          case isFalse => cases emitted
          case isTrue =>
          rw [Option.map_eq_some_iff] at emitted
          rcases emitted with ⟨rest, emitted, rfl⟩
          rcases Reading.next_eq_some turned with ⟨more, rfl, room, rfl⟩
          rcases ih emitted room with ⟨taken, within, rfl, length⟩
          dsimp only at within length
          refine ⟨taken + 1, by omega, ?_, ?_⟩
          · rw [List.range'_succ]
            rfl
          · simp only [bytesOf, List.flatMap_cons, List.length_append] at length ⊢
            omega

theorem length_bytes_le {line : Line} (word : line.seq < 2 ^ 64) :
    0 < line.bytes.length ∧ line.bytes.length ≤ 75 := by
  have length := length_recordText_le word line.task.pid line.task.tgid line.task.ppid
  rw [Line.bytes, formatExecRecord_eq word, length_ascii]
  simp
  omega

/-- Where there is room for a line and there is one to come, one is emitted. -/
theorem emit_nonempty (emitted : emit copied ring (turns + 1) reading = some lines)
    (more : reading.index < reading.count) (word : reading.seq < 2 ^ 64)
    (room : reading.total + 75 ≤ reading.bufferLength) : lines ≠ [] := by
  have line := @length_bytes_le (ring.lineAt reading.seq) word
  rw [emit, Reading.next, if_pos more] at emitted
  dsimp only at emitted
  rw [if_neg (by omega), if_neg (by omega)] at emitted
  dsimp only at emitted
  split at emitted
  · rw [Option.map_eq_some_iff] at emitted
    rcases emitted with ⟨rest, _, rfl⟩
    exact List.cons_ne_nil _ _
  · cases emitted

/-- No copy fails, so the call does not. -/
theorem emit_isSome (copies : ∀ offset length, offset + length ≤ reading.bufferLength →
    copied offset length = true) : (emit copied ring turns reading).isSome = true := by
  induction turns generalizing reading with
  | zero => rfl
  | succ turns ih =>
      rw [emit]
      cases turned : reading.next ring with
      | none => rfl
      | some result =>
          rcases result with ⟨line, after⟩
          rcases Reading.next_eq_some turned with ⟨_, _, room, rfl⟩
          dsimp only
          rw [if_pos (copies _ _ room), Option.isSome_map]
          exact ih copies

/-- The first number that a call is about. -/
def firstOf (ring : Ring) (since : Nat) : Nat :=
  max (since + 1) (ring.written + 1 - min ring.written ZNN_RING_CAPACITY)

theorem start_eq (unread : since < ring.written) :
    Reading.start ring bufferLength since = some {
      first := firstOf ring since
      count := ring.written + 1 - firstOf ring since
      index := 0
      total := 0
      bufferLength := bufferLength } := by
  have capacity : ZNN_RING_CAPACITY = 64 := rfl
  have first : (if since + 1 > ring.written - (if ring.written < ZNN_RING_CAPACITY then
      ring.written else ZNN_RING_CAPACITY) + 1 then since + 1 else ring.written -
        (if ring.written < ZNN_RING_CAPACITY then ring.written else ZNN_RING_CAPACITY) + 1) =
          firstOf ring since := by
    rw [firstOf]
    split <;> split at * <;> omega
  rw [Reading.start, if_neg (by omega)]
  dsimp only
  rw [first]
  congr 2
  rw [firstOf]
  omega

/-- A call emits the numbers from the first one on, as many as the buffer holds. -/
theorem writeRecords_consecutive
    (emitted : writeRecords copied ring bufferLength since = some lines) :
    ∃ taken, lines = (List.range' (firstOf ring since) taken).map ring.lineAt ∧
      (taken = 0 ∨ firstOf ring since + taken ≤ ring.written + 1) ∧
      (bytesOf lines).length ≤ bufferLength := by
  rw [writeRecords] at emitted
  by_cases unread : since < ring.written
  · rw [start_eq unread] at emitted
    rcases emit_consecutive emitted (Nat.zero_le _) with ⟨taken, within, rfl, length⟩
    dsimp only at within length
    exact ⟨taken, rfl, by omega, by simpa using length⟩
  · have done : Reading.start ring bufferLength since = none := by
      rw [Reading.start, if_pos (by omega)]
    rw [done] at emitted
    cases emitted
    exact ⟨0, rfl, .inl rfl, Nat.zero_le _⟩

theorem writeRecords_nonempty (emitted : writeRecords copied ring bufferLength since = some lines)
    (unread : since < ring.written) (word : ring.written < 2 ^ 64) (room : 75 ≤ bufferLength) :
    lines ≠ [] := by
  have capacity : ZNN_RING_CAPACITY = 64 := rfl
  have first : firstOf ring since ≤ ring.written := by
    rw [firstOf]
    omega
  rw [writeRecords, start_eq unread] at emitted
  have turns : ring.written + 1 - firstOf ring since =
      ring.written - firstOf ring since + 1 := by omega
  dsimp only at emitted
  rw [turns] at emitted
  apply emit_nonempty emitted
  · exact Nat.succ_pos _
  · exact Nat.lt_of_le_of_lt first word
  · simpa using room

end Numbers

section Recent

variable {ring : Ring} {tasks : Nat → Task} {seq : Nat}

theorem slotOf_eq (positive : 0 < seq) (word : seq < 2 ^ 64) :
    slotOf seq = (seq - 1) % 64 := by
  have shifted : seq + (2 ^ 64 - 1) = seq - 1 + 2 ^ 64 := by omega
  have small : (seq - 1) % 2 ^ 64 = seq - 1 := Nat.mod_eq_of_lt (by omega)
  rw [slotOf, shifted, Nat.add_mod_right, small]
  rfl

/-- The ring holds the latest executions, each with its number, and `tasks` knows all of them. -/
structure Recent (ring : Ring) (tasks : Nat → Task) : Prop where
  word : ring.written < 2 ^ 64
  slots : ∀ seq, 0 < seq → seq ≤ ring.written → ring.written < seq + 64 →
    ring.slots (slotOf seq) = ⟨seq, tasks seq⟩

theorem recent_noteExec {task : Task} (recent : Recent ring tasks)
    (word : ring.written + 1 < 2 ^ 64) :
    Recent (ring.noteExec task) (Function.update tasks (ring.written + 1) task) := by
  have next : ring.claim.written = ring.written + 1 := Nat.mod_eq_of_lt word
  constructor
  · rw [Ring.noteExec, Ring.fill, next]
    exact word
  · intro seq positive written within
    simp only [Ring.noteExec, Ring.fill, next] at written within ⊢
    by_cases same : seq = ring.written + 1
    · rw [same, Function.update_self, Function.update_self]
    · -- The new number's slot is 64 numbers away from the next one that shares it.
      have apart : slotOf seq ≠ slotOf (ring.written + 1) := by
        rw [slotOf_eq positive (by omega), slotOf_eq (by omega) word]
        omega
      rw [Function.update_of_ne apart, Function.update_of_ne same]
      exact recent.slots seq positive (by omega) (by omega)

theorem Recent.lineAt (recent : Recent ring tasks) {since : Nat} (ahead : firstOf ring since ≤ seq)
    (written : seq ≤ ring.written) : ring.lineAt seq = ⟨seq, tasks seq⟩ := by
  have capacity : ZNN_RING_CAPACITY = 64 := rfl
  rw [firstOf] at ahead
  rw [Ring.lineAt, recent.slots seq (by omega) written (by omega)]

end Recent

end Znn.Kpm
