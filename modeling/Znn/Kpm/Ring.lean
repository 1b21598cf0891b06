import Mathlib.Logic.Function.Basic
import Znn.Interaction.Reach
import Znn.Kpm.Format

/-!
# The exec ring

Every execution takes the next number and fills the slot of that number in a ring of 64 records.
A read of the channel walks over the numbers that it has not seen yet and prints what their slots
hold. Nothing keeps the two apart: executions on other processors may have taken their number and
not have filled their slot, or go round the ring while it is read.
-/

namespace Znn.Kpm

open Interaction

def ZNN_RING_CAPACITY : Nat := 64

def ZNN_CHANNEL_MAX_LENGTH : Nat := 4096

/-- What an execution records of its task. -/
structure Task where
  pid : Int32 := 0
  tgid : Int32 := 0
  ppid : Int32 := 0
deriving DecidableEq, Repr

structure ExecRecord where
  seq : Nat := 0
  task : Task := {}
deriving DecidableEq, Repr

structure Ring where
  written : Nat := 0
  slots : Nat → ExecRecord := fun _ => {}

/-- `(seq - 1) % ZNN_RING_CAPACITY`, in 64 bits. -/
def slotOf (seq : Nat) : Nat :=
  (seq + (2 ^ 64 - 1)) % 2 ^ 64 % ZNN_RING_CAPACITY

namespace Ring

/-- The first half of `znn_note_exec`: take the next number. -/
def claim (ring : Ring) : Ring :=
  { ring with written := (ring.written + 1) % 2 ^ 64 }

/-- The second half: fill the slot. -/
def fill (ring : Ring) (seq : Nat) (task : Task) : Ring :=
  { ring with slots := Function.update ring.slots (slotOf seq) ⟨seq, task⟩ }

def noteExec (ring : Ring) (task : Task) : Ring :=
  ring.claim.fill ring.claim.written task

end Ring

/-- A line that the channel emits. -/
structure Line where
  seq : Nat
  task : Task
deriving DecidableEq, Repr

def Line.bytes (line : Line) : List UInt8 :=
  formatExecRecord ZNN_LINE_CAPACITY line.seq line.task.pid line.task.tgid line.task.ppid

/-- The line for a number: the number as computed, the rest from its slot. -/
def Ring.lineAt (ring : Ring) (seq : Nat) : Line :=
  ⟨seq, (ring.slots (slotOf seq)).task⟩

/-- A call of `znn_channel_write_records` under way. -/
structure Reading where
  first : Nat
  count : Nat
  index : Nat
  total : Nat
  bufferLength : Nat

namespace Reading

/-- What a call computes before its loop. -/
def start (ring : Ring) (bufferLength since : Nat) : Option Reading :=
  if since ≥ ring.written then
    none
  else
    let available := if ring.written < ZNN_RING_CAPACITY then ring.written else ZNN_RING_CAPACITY
    let oldest := ring.written - available + 1
    let first := if since + 1 > oldest then since + 1 else oldest
    some {
      first := first
      count := ring.written - first + 1
      index := 0
      total := 0
      bufferLength := bufferLength }

/-- The number that the next turn of the loop is about. -/
def seq (reading : Reading) : Nat :=
  reading.first + reading.index

/-- One turn of the loop, up to the copy: the line and where the loop goes on, unless it ends. -/
def next (ring : Ring) (reading : Reading) : Option (Line × Reading) :=
  if reading.index < reading.count then
    let line := ring.lineAt reading.seq
    if line.bytes.length = 0 then
      none
    else if reading.total + line.bytes.length > reading.bufferLength then
      none
    else
      some (line, { reading with
        index := reading.index + 1
        total := reading.total + line.bytes.length })
  else
    none

theorem next_eq_some {ring : Ring} {reading after : Reading} {line : Line}
    (turned : reading.next ring = some (line, after)) :
    reading.index < reading.count ∧ line = ring.lineAt reading.seq ∧
      reading.total + line.bytes.length ≤ reading.bufferLength ∧
      after = { reading with
        index := reading.index + 1
        total := reading.total + line.bytes.length } := by
  rw [next] at turned
  split at turned
  case isFalse => cases turned
  case isTrue more =>
  dsimp only at turned
  split at turned
  · cases turned
  · split at turned
    · cases turned
    · rename_i _ fits
      cases turned
      exact ⟨more, rfl, Nat.le_of_not_lt fits, rfl⟩

theorem start_first {ring : Ring} {bufferLength since : Nat} {reading : Reading}
    (started : start ring bufferLength since = some reading) : 0 < reading.first := by
  rw [start] at started
  split at started
  case isTrue => cases started
  case isFalse =>
  cases started
  dsimp only
  split <;> split <;> exact Nat.succ_pos _

end Reading

section Concurrent

/-- The ring with all that is under way on it. For statements it is remembered which task took
each number. -/
structure Channel where
  ring : Ring := {}
  flight : List (Nat × Task) := []
  calls : Nat → Option Reading := fun _ => none
  emitted : List Line := []
  claims : Nat → Option Task := fun _ => none

inductive Event where
  | claim (task : Task)
  | fill (seq : Nat) (task : Task)
  | start (id bufferLength since : Nat)
  | record (id : Nat) (copied : Bool)

def step (s : Channel) : Event → Option Channel
  | .claim task =>
      some { s with
        ring := s.ring.claim
        flight := (s.ring.claim.written, task) :: s.flight
        claims := Function.update s.claims s.ring.claim.written (some task) }
  | .fill seq task =>
      if (seq, task) ∈ s.flight then
        some { s with
          ring := s.ring.fill seq task
          flight := s.flight.erase (seq, task) }
      else
        none
  | .start id bufferLength since =>
      if (s.calls id).isNone ∧ 1 ≤ bufferLength ∧ bufferLength ≤ ZNN_CHANNEL_MAX_LENGTH then
        some { s with
          calls := Function.update s.calls id (Reading.start s.ring bufferLength since) }
      else
        none
  | .record id copied => do
      let reading ← s.calls id
      match reading.next s.ring with
      | none => return { s with calls := Function.update s.calls id none }
      | some (line, reading) =>
          if copied then
            return { s with
              calls := Function.update s.calls id (some reading)
              emitted := line :: s.emitted }
          else
            return { s with calls := Function.update s.calls id none }

def system : System Channel Event where
  Initial s := s = {}
  Step s event s' := step s event = some s'

/-- Every line carries what was recorded by the execution that took its number. -/
def Untorn (s : Channel) : Prop :=
  ∀ line ∈ s.emitted, s.claims line.seq = some line.task

/-- A slot is read while it holds the number that it is read for; and the counter does not wrap. -/
def Settled (s : Channel) : Event → Prop
  | .claim _ => s.ring.written + 1 < 2 ^ 64
  | .record id _ => ∀ reading ∈ s.calls id, reading.index < reading.count →
      (s.ring.slots (slotOf reading.seq)).seq = reading.seq
  | _ => True

/-- The slots and the executions that will fill them agree with the numbers as they were taken. -/
structure Consistent (s : Channel) : Prop where
  taken : ∀ seq, (s.claims seq).isSome = true → seq ≤ s.ring.written
  flight : ∀ seq task, (seq, task) ∈ s.flight → s.claims seq = some task
  slots : ∀ slot, (s.ring.slots slot).seq ≠ 0 →
    s.claims (s.ring.slots slot).seq = some (s.ring.slots slot).task
  calls : ∀ id reading, s.calls id = some reading → 0 < reading.first
  emitted : Untorn s

variable {s s' : Channel} {event : Event}

theorem consistent_claim {task : Task} (consistent : Consistent s)
    (settled : Settled s (.claim task)) (stepped : step s (.claim task) = some s') :
    Consistent s' := by
  cases stepped
  have word : s.ring.written + 1 < 2 ^ 64 := settled
  have next : s.ring.claim.written = s.ring.written + 1 := Nat.mod_eq_of_lt word
  -- The number is new, so no earlier claim is lost.
  have kept : ∀ {seq found}, s.claims seq = some found →
      Function.update s.claims s.ring.claim.written (some task) seq = some found := by
    intro seq found claimed
    rw [Function.update_of_ne, claimed]
    rintro rfl
    have old := consistent.taken _ (by rw [claimed]; rfl)
    omega
  exact {
    taken := by
      intro seq claimed
      dsimp only at claimed ⊢
      by_cases same : seq = s.ring.claim.written
      · exact Nat.le_of_eq same
      · rw [Function.update_of_ne same] at claimed
        have old := consistent.taken seq claimed
        omega
    flight := by
      intro seq found member
      rcases List.mem_cons.mp member with here | old
      · cases here
        exact Function.update_self ..
      · exact kept (consistent.flight seq found old)
    slots := fun slot filled => kept (consistent.slots slot filled)
    calls := consistent.calls
    emitted := fun line member => kept (consistent.emitted line member) }

theorem consistent_fill {seq : Nat} {task : Task} (consistent : Consistent s)
    (stepped : step s (.fill seq task) = some s') : Consistent s' := by
  rw [step, Option.ite_none_right_eq_some] at stepped
  rcases stepped with ⟨inFlight, ⟨⟩⟩
  exact {
    taken := consistent.taken
    flight := fun other found member =>
      consistent.flight other found (List.mem_of_mem_erase member)
    slots := by
      intro slot filled
      simp only [Ring.fill] at filled ⊢
      by_cases same : slot = slotOf seq
      · rw [same, Function.update_self]
        exact consistent.flight seq task inFlight
      · rw [Function.update_of_ne same] at filled ⊢
        exact consistent.slots slot filled
    calls := consistent.calls
    emitted := consistent.emitted }

theorem consistent_start {id bufferLength since : Nat} (consistent : Consistent s)
    (stepped : step s (.start id bufferLength since) = some s') : Consistent s' := by
  rw [step, Option.ite_none_right_eq_some] at stepped
  rcases stepped with ⟨_, ⟨⟩⟩
  refine { consistent with calls := ?_ }
  intro other reading called
  dsimp only at called
  by_cases same : other = id
  · rw [same, Function.update_self] at called
    exact Reading.start_first called
  · rw [Function.update_of_ne same] at called
    exact consistent.calls other reading called

/-- A call that goes on from where it was, or ends. -/
theorem calls_update {id : Nat} {reading : Reading} {after : Option Reading}
    (consistent : Consistent s) (called : s.calls id = some reading)
    (same : ∀ next ∈ after, next.first = reading.first) {other : Nat} {found : Reading}
    (updated : Function.update s.calls id after other = some found) : 0 < found.first := by
  by_cases acting : other = id
  · rw [acting, Function.update_self] at updated
    rw [same found updated]
    exact consistent.calls id reading called
  · rw [Function.update_of_ne acting] at updated
    exact consistent.calls other found updated

theorem consistent_record {id : Nat} {copied : Bool} (consistent : Consistent s)
    (settled : Settled s (.record id copied)) (stepped : step s (.record id copied) = some s') :
    Consistent s' := by
  rw [step, Option.bind_eq_bind, Option.bind_eq_some_iff] at stepped
  rcases stepped with ⟨reading, called, stepped⟩
  have ended : Consistent { s with calls := Function.update s.calls id none } := {
    consistent with
    calls := fun other found updated => calls_update consistent called (by simp) updated }
  split at stepped
  · cases stepped
    exact ended
  · rename_i line after turned
    rcases Reading.next_eq_some turned with ⟨more, rfl, _, rfl⟩
    split at stepped
    · cases stepped
      exact {
        taken := consistent.taken
        flight := consistent.flight
        slots := consistent.slots
        calls := fun other found updated => calls_update consistent called (by simp) updated
        emitted := by
          intro line member
          rcases List.mem_cons.mp member with rfl | old
          · have stored := settled reading called more
            have positive : 0 < reading.seq :=
              Nat.lt_of_lt_of_le (consistent.calls id reading called) (Nat.le_add_right _ _)
            have recorded := consistent.slots (slotOf reading.seq) (by omega)
            rw [stored] at recorded
            exact recorded
          · exact consistent.emitted line old }
    · cases stepped
      exact ended

theorem consistent_step (consistent : Consistent s) (settled : Settled s event)
    (stepped : step s event = some s') : Consistent s' := by
  cases event with
  | claim task => exact consistent_claim consistent settled stepped
  | fill seq task => exact consistent_fill consistent stepped
  | start id bufferLength since => exact consistent_start consistent stepped
  | record id copied => exact consistent_record consistent settled stepped

/-- No line is torn in a run that reads every slot while it holds the number it is read for. -/
theorem settled_reads_untorn (reached : (system.restrict Settled).Reachable s) : Untorn s := by
  have consistent : Consistent s := by
    apply reached.induct
    · rintro _ rfl
      exact {
        taken := fun _ claimed => by cases claimed
        flight := fun _ _ member => by cases member
        slots := fun _ filled => absurd rfl filled
        calls := fun _ _ called => by cases called
        emitted := fun _ member => by cases member }
    · exact fun _ _ _ consistent settled stepped => consistent_step consistent settled stepped
  exact consistent.emitted

instance (s : Channel) : DecidablePred (Settled s)
  | .claim _ => inferInstanceAs (Decidable (_ < _))
  | .record id _ => inferInstanceAs (Decidable (∀ reading ∈ s.calls id,
      reading.index < reading.count → (s.ring.slots (slotOf reading.seq)).seq = reading.seq))
  | .fill _ _ | .start _ _ _ => .isTrue trivial

def settledStep (s : Channel) (event : Event) : Option Channel :=
  if Settled s event then step s event else none

/-- An execution takes its number and fills its slot, and a read follows. -/
def filledThenRead : List Event :=
  [.claim ⟨7, 7, 1⟩, .fill 1 ⟨7, 7, 1⟩, .start 0 4096 0, .record 0 true]

theorem settled_read_untorn : ∃ s, (system.restrict Settled).Reachable s ∧
    s.emitted = [⟨1, ⟨7, 7, 1⟩⟩] ∧ Untorn s := by
  have emits : (filledThenRead.foldlM settledStep {}).map Channel.emitted =
      some [⟨1, ⟨7, 7, 1⟩⟩] := by
    decide +kernel
  rw [Option.map_eq_some_iff] at emits
  rcases emits with ⟨s, ran, emitted⟩
  have reached : (system.restrict Settled).Reachable s := by
    apply (System.Reachable.initial rfl).run _ filledThenRead ran
    intro s event s' stepped
    rw [settledStep, Option.ite_none_right_eq_some] at stepped
    exact stepped
  exact ⟨s, reached, emitted, settled_reads_untorn reached⟩

/-- No line is ever torn. -/
def LinesUntorn : Prop :=
  ∀ s, system.Reachable s → Untorn s

/-- An execution has taken its number, and its slot is read before it is filled. -/
def readUnfilled : List Event :=
  [.claim ⟨7, 7, 1⟩, .start 0 4096 0, .record 0 true]

theorem unfilled_slot_read : ¬LinesUntorn := by
  intro untorn
  have emits : (readUnfilled.foldlM step {}).map (fun s => (s.emitted, s.claims 1)) =
      some ([⟨1, ⟨0, 0, 0⟩⟩], some ⟨7, 7, 1⟩) := by
    decide +kernel
  rw [Option.map_eq_some_iff] at emits
  rcases emits with ⟨s, ran, emitted⟩
  have reached : system.Reachable s :=
    (System.Reachable.initial rfl).run (fun _ _ _ stepped => stepped) readUnfilled ran
  rw [Prod.mk.injEq] at emitted
  have carried := untorn s reached ⟨1, ⟨0, 0, 0⟩⟩ (by rw [emitted.1]; exact List.mem_cons_self)
  rw [emitted.2] at carried
  exact absurd carried (by decide)

end Concurrent

end Znn.Kpm
